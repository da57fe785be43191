/-
TestExamples/UvppServer.lean

The server of LibuvServer_uvpp/Server.cpp and what it sends.

A message is pushed to `m_sendBuf` by a calling thread and moved to the
`m_output_buff` of its connection by `on_async`; there it waits until
`write_next_buff` comes to it, in `send_msg` when it is alone and in
`on_write_finished` otherwise.  `send`, `Broadcast` and `on_async` hold
`m_send_lock` throughout, so each is a step; so is each callback of the loop
thread.  `on_async` may come at any time: when `m_async` calls it is not asked.
`Broadcast` walks over `m_connections` while the loop thread may change it: the
walk is taken to see one state of it.

A message for a peer is counted from the moment `write_next_buff` comes to it
(`taken`).  In every run these are the messages sent, in order and once each
(`owed_append_sentTo`); but what is written is the text of `write_next_buff`.

A connection is the `TcpConnection` with what libuv keeps of its handle.  A step
has no result where an `assert` fails; none does (`Tidy.asserts`).  Reading, and
a listener that reports an error, are left out.
-/
import Mathlib.Data.List.Sort
import Mathlib.Logic.Function.Basic
import TestExamples.Lib.Machine
import TestExamples.TcpConnection

namespace TestExamples

/-- The text `tcp://ip:port`. -/
abbrev Peer := List Byte

structure msg_buf where
  peer : Peer
  msg : List Byte
  deriving DecidableEq, Repr

structure Connection where
  conn : TcpConnection
  writes : Nat   -- requests of `uv_write` whose callback is to come
  closing : Bool -- `m_tcp.close` has been called

/-- `do_write` on what a function of `TcpConnection` passes on: a buffer or none. -/
def Connection.do_write (c : Connection) (fails : Bool) (r : List (List Byte) × TcpConnection) :
    Connection :=
  match r.1, fails with
  | [], _ => { c with conn := r.2 }
  | _ :: _, false => { c with conn := r.2, writes := c.writes + 1 }
  | _ :: _, true => { c with conn := r.2, closing := true }

/-- The fields of `Server`; `m_connections` holds the keys of the map in order,
`connection` what they are mapped to. -/
structure Server where
  m_sendBuf : List msg_buf
  m_connections : List Peer
  connection : Peer → Connection

namespace Server

inductive Act
  | send (peer : Peer) (msg : List Byte)
  | broadcast (msg : List Byte)
  | on_async (fails : List Peer) -- the peers for which `uv_write` fails
  | on_tcp_connect (peer : Peer)
  | written (peer : Peer) (fails : Bool) -- `write_cb`, and whether the next `uv_write` fails
  | writeFailed (peer : Peer) -- `write_cb` with an error
  | readFailed (peer : Peer) -- `read_cb` with an error
  | closed (peer : Peer) -- `close_cb`
  deriving DecidableEq, Repr

inductive Event
  | pushed (buf : msg_buf)
  | do_write (peer : Peer) (buffer : List Byte) -- passed to `m_do_write`
  deriving DecidableEq, Repr

abbrev Outcome := Option (Server × List Event)

def init : Server where
  m_sendBuf := []
  m_connections := []
  connection := fun _ => ⟨.new, 0, false⟩

/-! ### The calling threads -/

def send (s : Server) (peer : Peer) (msg : List Byte) : Server × List Event :=
  ({ s with m_sendBuf := s.m_sendBuf ++ [⟨peer, msg⟩] }, [.pushed ⟨peer, msg⟩])

def Broadcast (s : Server) (msg : List Byte) : Server × List Event :=
  let bufs := s.m_connections.map fun peer => ⟨peer, msg⟩
  ({ s with m_sendBuf := s.m_sendBuf ++ bufs }, bufs.map .pushed)

/-! ### The loop thread -/

def close (s : Server) (peer : Peer) : Server :=
  { s with
    connection := Function.update s.connection peer { s.connection peer with closing := true } }

def do_write (s : Server) (peer : Peer) (fails : Bool)
    (r : List (List Byte) × TcpConnection) : Server × List Event :=
  ({ s with
    connection := Function.update s.connection peer ((s.connection peer).do_write fails r) },
    r.1.map (.do_write peer))

/-- The loop of `on_async`. -/
def drain (fails : List Peer) : List msg_buf → Server → Outcome
  | [], s => some (s, [])
  | buf :: rest, s =>
      if buf.peer ∈ s.m_connections then
        match (s.connection buf.peer).conn.send_msg buf.msg with
        | some r =>
            let (s', es) := s.do_write buf.peer (buf.peer ∈ fails) r
            (drain fails rest s').map fun q => (q.1, es ++ q.2)
        | none => none
      else drain fails rest s

def on_async (s : Server) (fails : List Peer) : Outcome :=
  (drain fails s.m_sendBuf s).map fun q => ({ q.1 with m_sendBuf := [] }, q.2)

/-- The insertion into the map; it asserts that the key is new. -/
def on_tcp_connect (s : Server) (peer : Peer) : Outcome :=
  if peer ∈ s.m_connections then none
  else some ({ s with
    m_connections := s.m_connections.orderedInsert (· ≤ ·) peer
    connection := Function.update s.connection peer ⟨.new, 0, false⟩ }, [])

/-- A request of `uv_write` ends. -/
def finish (s : Server) (peer : Peer) : Server :=
  { s with
    connection := Function.update s.connection peer
      { s.connection peer with writes := (s.connection peer).writes - 1 } }

def step (s : Server) : Act → Outcome
  | .send peer msg => some (s.send peer msg)
  | .broadcast msg => some (s.Broadcast msg)
  | .on_async fails => s.on_async fails
  | .on_tcp_connect peer => s.on_tcp_connect peer
  | .written peer fails =>
      if peer ∈ s.m_connections ∧ 0 < (s.connection peer).writes then
        (s.connection peer).conn.on_write_finished.map ((s.finish peer).do_write peer fails)
      else none
  | .writeFailed peer =>
      if peer ∈ s.m_connections ∧ 0 < (s.connection peer).writes then
        some ((s.finish peer).close peer, [])
      else none
  | .readFailed peer => if peer ∈ s.m_connections then some (s.close peer, []) else none
  | .closed peer =>
      if peer ∈ s.m_connections ∧ (s.connection peer).closing = true then
        some ({ s with m_connections := s.m_connections.erase peer }, [])
      else none

/-- The server with its loop as a machine. -/
def machine : Machine Server Act Event := ⟨init, step⟩

end Server

/-! ### The output queue -/

namespace TcpConnection

variable {c : TcpConnection}

/-- The messages behind the one being written. -/
def waiting (c : TcpConnection) : List (List Byte) :=
  if c.m_write_in_progress then c.m_output_buff.tail else c.m_output_buff

/-- What `write_next_buff` passes on. -/
def abcd : List Byte := ['a', 'b', 'c', 'd'].map Char.toUInt8

/-- Something is being written unless the queue is empty. -/
def Steady (c : TcpConnection) : Prop := c.m_write_in_progress = true ↔ c.m_output_buff ≠ []

/-- A function that is given `msgs` and lets `write_next_buff` come to `ms`. -/
structure Takes (c : TcpConnection) (msgs : List (List Byte))
    (r : List (List Byte) × TcpConnection) (ms : List (List Byte)) : Prop where
  queue : c.waiting ++ msgs = ms ++ r.2.waiting
  writes : r.1 = ms.map fun _ => abcd
  steady : r.2.Steady

theorem waiting_of_nil (h : c.Steady) (hnil : c.m_output_buff = []) : c.waiting = [] := by
  have hfalse : ¬ c.m_write_in_progress = true := fun ht => h.mp ht hnil
  rw [waiting, if_neg hfalse, hnil]

theorem waiting_of_ne (h : c.Steady) (hne : c.m_output_buff ≠ []) :
    c.waiting = c.m_output_buff.tail :=
  if_pos (h.mpr hne)

/-- The message given is taken at once if it is alone. -/
theorem send_msg_takes (h : c.Steady) (msg : List Byte) :
    ∃ r, c.send_msg msg = some r ∧
      c.Takes [msg] r (if c.m_output_buff = [] then [msg] else []) ∧
      r.2.m_output_buff = c.m_output_buff ++ [msg] := by
  rcases hout : c.m_output_buff with - | ⟨m, ms⟩
  · have hfalse : c.m_write_in_progress = false :=
      Bool.eq_false_iff.mpr fun ht => h.mp ht hout
    refine ⟨_, by simp only [send_msg, hout, if_true, write_next_buff, hfalse]; rfl, ?_, rfl⟩
    refine ⟨?_, rfl, iff_of_true rfl (by simp)⟩
    rw [waiting_of_nil h hout]
    rfl
  · have hne : c.m_output_buff ≠ [] := hout ▸ List.cons_ne_nil m ms
    have htrue : c.m_write_in_progress = true := h.mpr hne
    refine ⟨_, by simp only [send_msg, hout, reduceCtorEq, if_false]; rfl, ?_, rfl⟩
    refine ⟨?_, rfl, iff_of_true htrue (by simp)⟩
    rw [waiting_of_ne h hne, hout, waiting, if_pos htrue]
    rfl

/-- The next message is taken, if there is one. -/
theorem on_write_finished_takes (h : c.Steady) (hne : c.m_output_buff ≠ []) :
    ∃ r, c.on_write_finished = some r ∧ c.Takes [] r ((c.m_output_buff.drop 1).take 1) ∧
      r.2.m_output_buff = c.m_output_buff.tail := by
  have hwait := waiting_of_ne h hne
  rcases hout : c.m_output_buff with - | ⟨m, - | ⟨m', ms⟩⟩
  · exact absurd hout hne
  · refine ⟨_, by simp only [on_write_finished, hout, if_true]; rfl, ?_, rfl⟩
    refine ⟨?_, rfl, iff_of_false nofun (by simp)⟩
    rw [hwait, hout]
    rfl
  · refine ⟨_, by simp only [on_write_finished, hout, reduceCtorEq, if_false]; rfl, ?_, rfl⟩
    refine ⟨?_, rfl, iff_of_true rfl (by simp)⟩
    rw [hwait, hout, List.append_nil]
    rfl

end TcpConnection

/-! ### One step -/

/-- What libuv keeps of a connection agrees with its queue. -/
structure Connection.Tidy (c : Connection) : Prop where
  steady : c.conn.Steady
  one : c.writes ≤ 1
  writing : 0 < c.writes → c.conn.m_write_in_progress = true

open TcpConnection (abcd Takes)

/-- `do_write` where no request is pending if something is passed on. -/
theorem Connection.Tidy.do_write {c : Connection} (fails : Bool) {msgs ms : List (List Byte)}
    {r : List (List Byte) × TcpConnection} (h : c.Tidy) (hr : c.conn.Takes msgs r ms)
    (hzero : ms ≠ [] → c.writes = 0) (hne : ms ≠ [] ∨ 0 < c.writes → r.2.m_output_buff ≠ []) :
    (c.do_write fails r).conn = r.2 ∧ (c.do_write fails r).Tidy := by
  unfold Connection.do_write
  rcases hbufs : r.1 with - | ⟨b, bs⟩
  · refine ⟨rfl, hr.steady, h.one, fun hpos => hr.steady.mpr (hne (.inr hpos))⟩
  · have hms : ms ≠ [] := by
      rintro rfl
      exact absurd (hbufs.symm.trans hr.writes) (List.cons_ne_nil b bs)
    have hw := hzero hms
    have hprog : r.2.m_write_in_progress = true := hr.steady.mpr (hne (.inl hms))
    cases fails with
    | false => exact ⟨rfl, hr.steady, by simp [hw], fun _ => hprog⟩
    | true => exact ⟨rfl, hr.steady, h.one, fun _ => hprog⟩

namespace Server

/-- The messages of `bufs` for a peer. -/
def queuedFor (peer : Peer) (bufs : List msg_buf) : List (List Byte) :=
  bufs.filterMap fun buf => if buf.peer = peer then some buf.msg else none

/-- The messages sent to a peer. -/
def sentTo (peer : Peer) (tr : List Event) : List (List Byte) :=
  tr.filterMap fun
    | .pushed buf => if buf.peer = peer then some buf.msg else none
    | .do_write _ _ => none

/-- The buffers passed to the `m_do_write` of a peer. -/
def handedTo (peer : Peer) (tr : List Event) : List (List Byte) :=
  tr.filterMap fun
    | .do_write q buffer => if q = peer then some buffer else none
    | .pushed _ => none

/-- The messages for a peer that are still queued. -/
def owed (peer : Peer) (s : Server) : List (List Byte) :=
  (s.connection peer).conn.waiting ++ queuedFor peer s.m_sendBuf

/-- The message for a peer that `write_next_buff` comes to in a step. -/
def taken (peer : Peer) (s : Server) : Act → List (List Byte)
  | .on_async _ =>
      if (s.connection peer).conn.m_output_buff = [] then (queuedFor peer s.m_sendBuf).take 1
      else []
  | .written q _ =>
      if q = peer then ((s.connection peer).conn.m_output_buff.drop 1).take 1 else []
  | _ => []

/-- All connections do. -/
def Tidy (s : Server) : Prop := ∀ peer, (s.connection peer).Tidy

variable {s s' : Server} {p q : Peer} {act : Act} {tr es : List Event}

theorem sentTo_append (tr es : List Event) : sentTo p (tr ++ es) = sentTo p tr ++ sentTo p es :=
  List.filterMap_append

theorem handedTo_append (tr es : List Event) :
    handedTo p (tr ++ es) = handedTo p tr ++ handedTo p es :=
  List.filterMap_append

theorem queuedFor_append (bufs bufs' : List msg_buf) :
    queuedFor p (bufs ++ bufs') = queuedFor p bufs ++ queuedFor p bufs' :=
  List.filterMap_append

theorem sentTo_pushed (bufs : List msg_buf) : sentTo p (bufs.map .pushed) = queuedFor p bufs :=
  List.filterMap_map ..

theorem handedTo_pushed (bufs : List msg_buf) : handedTo p (bufs.map .pushed) = [] := by
  rw [handedTo, List.filterMap_map]
  exact List.filterMap_eq_nil_iff.mpr fun _ _ => rfl

theorem sentTo_do_write (buffers : List (List Byte)) :
    sentTo p (buffers.map (.do_write q)) = [] := by
  rw [sentTo, List.filterMap_map]
  exact List.filterMap_eq_nil_iff.mpr fun _ _ => rfl

theorem handedTo_do_write (buffers : List (List Byte)) :
    handedTo p (buffers.map (.do_write q)) = if q = p then buffers else [] := by
  rw [handedTo, List.filterMap_map]
  split
  · next hq =>
    subst hq
    simp
  · next hq => exact List.filterMap_eq_nil_iff.mpr fun _ _ => if_neg hq

/-- **The loop of `on_async`.**  It moves the messages of each connection to its
queue, and the first is taken where the queue was empty. -/
theorem drain_spec (fails : List Peer) (bufs : List msg_buf) (h : s.Tidy) :
    ∃ s' es, drain fails bufs s = some (s', es) ∧ s'.Tidy ∧
      s'.m_connections = s.m_connections ∧ ∀ p, sentTo p es = [] ∧ (p ∈ s.m_connections →
        ∃ ms, ms = (if (s.connection p).conn.m_output_buff = [] then (queuedFor p bufs).take 1
            else []) ∧
          (s.connection p).conn.waiting ++ queuedFor p bufs =
            ms ++ (s'.connection p).conn.waiting ∧
          handedTo p es = ms.map fun _ => abcd) := by
  induction bufs generalizing s with
  | nil =>
      refine ⟨s, [], rfl, h, rfl, fun p => ⟨rfl, fun _ => ⟨[], ?_, ?_, rfl⟩⟩⟩
      · split <;> rfl
      · exact List.append_nil _
  | cons buf rest ih =>
      by_cases hmem : buf.peer ∈ s.m_connections
      · have hc := h buf.peer
        obtain ⟨r, hsend, htakes, hout⟩ := TcpConnection.send_msg_takes hc.steady buf.msg
        obtain ⟨hconn₁, htidy₁⟩ := hc.do_write (buf.peer ∈ fails) htakes (fun hms => by
          -- nothing is being written where the queue is empty
          by_contra hpos
          have hprog := hc.writing (Nat.pos_of_ne_zero hpos)
          exact hms (if_neg (hc.steady.mp hprog))) fun _ => by simp [hout]
        have hT₁ : (s.do_write buf.peer (buf.peer ∈ fails) r).1.Tidy :=
          forall_update (P := fun _ c => Connection.Tidy c) htidy₁ fun q _ => h q
        obtain ⟨s', es, hdrain, hT, hconn, hp⟩ := ih hT₁
        refine ⟨s', r.1.map (.do_write buf.peer) ++ es, ?_, hT, hconn, fun p => ⟨?_, fun hpm => ?_⟩⟩
        · simp only [drain, if_pos hmem, hsend]
          exact congrArg (Option.map _) hdrain
        · rw [sentTo_append, sentTo_do_write, (hp p).1]
          rfl
        obtain ⟨ms, hms, hqueue, hhanded⟩ := (hp p).2 hpm
        rw [handedTo_append, handedTo_do_write, hhanded]
        by_cases he : buf.peer = p
        · subst he
          have hsame : ((s.do_write buf.peer (buf.peer ∈ fails) r).1.connection buf.peer).conn =
              r.2 := (congrArg Connection.conn (Function.update_self ..)).trans hconn₁
          have hq : queuedFor buf.peer (buf :: rest) = buf.msg :: queuedFor buf.peer rest :=
            List.filterMap_cons_some (if_pos rfl)
          -- the queue is not empty any more
          rw [hsame, hout, if_neg (by simp)] at hms
          subst hms
          rw [hsame] at hqueue
          refine ⟨_, rfl, ?_, ?_⟩
          · rw [hq, List.append_cons, htakes.queue, List.append_assoc, hqueue]
            rfl
          · rw [hq, if_pos rfl, htakes.writes, List.map_nil, List.append_nil]
            rfl
        · have hsame : (s.do_write buf.peer (buf.peer ∈ fails) r).1.connection p =
              s.connection p := Function.update_of_ne (Ne.symm he) ..
          have hq : queuedFor p (buf :: rest) = queuedFor p rest :=
            List.filterMap_cons_none (if_neg he)
          rw [hsame] at hms hqueue
          rw [hq, if_neg he]
          exact ⟨ms, hms, hqueue, rfl⟩
      · obtain ⟨s', es, hdrain, hT, hconn, hp⟩ := ih h
        refine ⟨s', es, by rw [drain, if_neg hmem]; exact hdrain, hT, hconn, fun p => ?_⟩
        refine ⟨(hp p).1, fun hpm => ?_⟩
        have hne : buf.peer ≠ p := fun he => hmem (he ▸ hpm)
        have hq : queuedFor p (buf :: rest) = queuedFor p rest :=
          List.filterMap_cons_none (if_neg hne)
        rw [hq]
        exact (hp p).2 hpm

theorem finish_tidy (h : s.Tidy) (q : Peer) : (s.finish q).Tidy :=
  forall_update (P := fun _ c => Connection.Tidy c)
    ⟨(h q).steady, (Nat.sub_le ..).trans (h q).one, fun hpos => (h q).writing (by
      dsimp only at hpos
      omega)⟩ fun p _ => h p

theorem close_tidy (h : s.Tidy) (q : Peer) : (s.close q).Tidy :=
  forall_update (P := fun _ c => Connection.Tidy c) ⟨(h q).steady, (h q).one, (h q).writing⟩
    fun p _ => h p

/-- **The end of a write.** -/
theorem written_spec (h : s.Tidy) (hpos : 0 < (s.connection q).writes) (fails : Bool) :
    ∃ r ms, (s.connection q).conn.on_write_finished = some r ∧
      ms = ((s.connection q).conn.m_output_buff.drop 1).take 1 ∧
      (s.connection q).conn.Takes [] r ms ∧
      (((s.finish q).do_write q fails r).1.connection q).conn = r.2 ∧
      ((s.finish q).do_write q fails r).1.Tidy := by
  have hc := h q
  have hne := hc.steady.mp (hc.writing hpos)
  obtain ⟨r, hr, htakes, hout⟩ := TcpConnection.on_write_finished_takes hc.steady hne
  refine ⟨r, _, hr, rfl, htakes, ?_⟩
  have hfin : (s.finish q).connection q =
      { s.connection q with writes := (s.connection q).writes - 1 } := Function.update_self ..
  have hzero : ((s.finish q).connection q).writes = 0 := by
    have hone := hc.one
    rw [hfin]
    dsimp only
    omega
  have htakes' : ((s.finish q).connection q).conn.Takes [] r
      (((s.connection q).conn.m_output_buff.drop 1).take 1) := by rwa [hfin]
  obtain ⟨hconn, htidy⟩ := (finish_tidy h q q).do_write fails htakes' (fun _ => hzero) (by
    rw [hzero, hout, ← List.drop_one]
    rintro (hms | hpos)
    · intro hnil
      exact hms (by rw [hnil]; rfl)
    · exact absurd hpos (Nat.lt_irrefl 0))
  refine ⟨(congrArg Connection.conn (Function.update_self ..)).trans hconn, ?_⟩
  exact forall_update (P := fun _ c => Connection.Tidy c) htidy fun p _ => finish_tidy h q p

/-- No `assert` on the way of a message fails. -/
theorem Tidy.asserts (h : s.Tidy) :
    (∀ fails, s.step (.on_async fails) ≠ none) ∧
      ∀ q ∈ s.m_connections, 0 < (s.connection q).writes →
        ∀ fails, s.step (.written q fails) ≠ none := by
  constructor
  · intro fails
    obtain ⟨s', es, hdrain, -⟩ := drain_spec fails s.m_sendBuf h
    show (drain fails s.m_sendBuf s).map _ ≠ none
    rw [hdrain]
    nofun
  · intro q hq hpos fails
    obtain ⟨r, -, hr, -⟩ := written_spec h hpos fails
    simp [step, hq, hpos, hr]

theorem Tidy.step (h : s.Tidy) (hs : s.step act = some (s', es)) : s'.Tidy := by
  cases act with
  | send peer msg =>
      obtain ⟨rfl, -⟩ := Prod.mk.inj (Option.some.inj hs)
      exact h
  | broadcast msg =>
      obtain ⟨rfl, -⟩ := Prod.mk.inj (Option.some.inj hs)
      exact h
  | on_async fails =>
      obtain ⟨s₁, es₁, hdrain, hT, -⟩ := drain_spec fails s.m_sendBuf h
      simp only [Server.step, on_async, hdrain, Option.map_some] at hs
      obtain ⟨rfl, -⟩ := Prod.mk.inj (Option.some.inj hs)
      exact hT
  | on_tcp_connect peer =>
      simp only [Server.step, on_tcp_connect] at hs
      split at hs
      · cases hs
      · obtain ⟨rfl, -⟩ := Prod.mk.inj (Option.some.inj hs)
        refine forall_update (P := fun _ c => Connection.Tidy c) ?_ fun q _ => h q
        exact ⟨iff_of_false nofun fun hne => hne rfl, Nat.zero_le 1, nofun⟩
  | written peer fails =>
      obtain ⟨⟨-, hpos⟩, hs⟩ := Option.ite_none_right_eq_some.mp hs
      obtain ⟨r, ms, hr, -, -, -, hT⟩ := written_spec h hpos fails
      rw [hr] at hs
      obtain ⟨rfl, -⟩ := Prod.mk.inj (Option.some.inj hs)
      exact hT
  | writeFailed peer =>
      obtain ⟨-, hs⟩ := Option.ite_none_right_eq_some.mp hs
      obtain ⟨rfl, -⟩ := Prod.mk.inj (Option.some.inj hs)
      exact close_tidy (finish_tidy h peer) peer
  | readFailed peer =>
      obtain ⟨-, hs⟩ := Option.ite_none_right_eq_some.mp hs
      obtain ⟨rfl, -⟩ := Prod.mk.inj (Option.some.inj hs)
      exact close_tidy h peer
  | closed peer =>
      obtain ⟨-, hs⟩ := Option.ite_none_right_eq_some.mp hs
      obtain ⟨rfl, -⟩ := Prod.mk.inj (Option.some.inj hs)
      exact h

theorem tidy_of_run (h : machine.Run AnyStep tr s) : s.Tidy :=
  h.invariant (fun _ s => s.Tidy)
    (fun _ => ⟨iff_of_false nofun fun hne => hne rfl, Nat.zero_le 1, nofun⟩)
    fun ih _ hs => ih.step hs

/-! ### A peer that stays connected -/

theorem finish_conn (s : Server) (q p : Peer) :
    ((s.finish q).connection p).conn = (s.connection p).conn := by
  dsimp only [finish]
  by_cases he : p = q
  · subst he
    rw [Function.update_self]
  · exact congrArg Connection.conn (Function.update_of_ne he ..)

theorem close_conn (s : Server) (q p : Peer) :
    ((s.close q).connection p).conn = (s.connection p).conn := by
  dsimp only [close]
  by_cases he : p = q
  · subst he
    rw [Function.update_self]
  · exact congrArg Connection.conn (Function.update_of_ne he ..)

/-- **One step.**  What is sent to a peer is taken in order, and for each
message that is taken the text of `write_next_buff` is handed over. -/
theorem owed_of_step (h : s.Tidy) (hp : p ∈ s.m_connections) (hact : act ≠ .closed p)
    (hs : s.step act = some (s', es)) :
    p ∈ s'.m_connections ∧ owed p s ++ sentTo p es = taken p s act ++ owed p s' ∧
      handedTo p es = (taken p s act).map fun _ => abcd := by
  unfold owed
  cases act with
  | send peer msg =>
      obtain ⟨rfl, rfl⟩ := Prod.mk.inj (Option.some.inj hs)
      refine ⟨hp, ?_, rfl⟩
      show _ = [] ++ (_ ++ queuedFor p (s.m_sendBuf ++ [⟨peer, msg⟩]))
      rw [queuedFor_append, List.nil_append, List.append_assoc]
      exact congrArg _ (congrArg _ (sentTo_pushed [⟨peer, msg⟩]))
  | broadcast msg =>
      obtain ⟨rfl, rfl⟩ := Prod.mk.inj (Option.some.inj hs)
      refine ⟨hp, ?_, handedTo_pushed _⟩
      show _ = [] ++ (_ ++ queuedFor p (s.m_sendBuf ++ _))
      rw [queuedFor_append, List.nil_append, List.append_assoc, sentTo_pushed]
  | on_async fails =>
      obtain ⟨s₁, es₁, hdrain, -, hconn, hspec⟩ := drain_spec fails s.m_sendBuf h
      simp only [Server.step, on_async, hdrain, Option.map_some] at hs
      obtain ⟨rfl, rfl⟩ := Prod.mk.inj (Option.some.inj hs)
      obtain ⟨hsent, hrest⟩ := hspec p
      obtain ⟨ms, hms, hqueue, hhanded⟩ := hrest hp
      refine ⟨hconn ▸ hp, ?_, ?_⟩
      · rw [hsent, List.append_nil, hqueue, hms]
        exact congrArg _ (List.append_nil _).symm
      · rw [hhanded, hms]
        rfl
  | on_tcp_connect peer =>
      simp only [Server.step, on_tcp_connect] at hs
      split at hs
      · cases hs
      · next hnew =>
        obtain ⟨rfl, rfl⟩ := Prod.mk.inj (Option.some.inj hs)
        have hne : p ≠ peer := fun he => hnew (he ▸ hp)
        refine ⟨(List.mem_orderedInsert ..).mpr (.inr hp), ?_, rfl⟩
        dsimp only
        rw [Function.update_of_ne hne]
        exact List.append_nil _
  | written peer fails =>
      obtain ⟨⟨-, hpos⟩, hs⟩ := Option.ite_none_right_eq_some.mp hs
      obtain ⟨r, ms, hr, hms, htakes, hconn, -⟩ := written_spec h hpos fails
      rw [hr] at hs
      have hs' := Option.some.inj hs
      obtain rfl : ((s.finish peer).do_write peer fails r).1 = s' := congrArg Prod.fst hs'
      obtain rfl : r.1.map (.do_write peer) = es := congrArg Prod.snd hs'
      refine ⟨hp, ?_, ?_⟩
      · show _ ++ sentTo p (r.1.map _) = (if peer = p then _ else []) ++ _
        rw [sentTo_do_write, List.append_nil]
        by_cases he : peer = p
        · subst he
          have hqueue := htakes.queue
          rw [List.append_nil] at hqueue
          rw [if_pos rfl, hconn, hqueue, hms, List.append_assoc]
          rfl
        · have hsame : ((s.finish peer).do_write peer fails r).1.connection p =
              (s.finish peer).connection p := Function.update_of_ne (Ne.symm he) ..
          rw [if_neg he, List.nil_append, hsame, finish_conn]
          rfl
      · show handedTo p (r.1.map _) = List.map _ (if peer = p then _ else [])
        rw [handedTo_do_write]
        by_cases he : peer = p
        · subst he
          rw [if_pos rfl, if_pos rfl, htakes.writes, hms]
        · rw [if_neg he, if_neg he]
          rfl
  | writeFailed peer =>
      obtain ⟨-, hs⟩ := Option.ite_none_right_eq_some.mp hs
      obtain ⟨rfl, rfl⟩ := Prod.mk.inj (Option.some.inj hs)
      refine ⟨hp, ?_, rfl⟩
      rw [close_conn, finish_conn]
      exact List.append_nil _
  | readFailed peer =>
      obtain ⟨-, hs⟩ := Option.ite_none_right_eq_some.mp hs
      obtain ⟨rfl, rfl⟩ := Prod.mk.inj (Option.some.inj hs)
      refine ⟨hp, ?_, rfl⟩
      rw [close_conn]
      exact List.append_nil _
  | closed peer =>
      obtain ⟨-, hs⟩ := Option.ite_none_right_eq_some.mp hs
      obtain ⟨rfl, rfl⟩ := Prod.mk.inj (Option.some.inj hs)
      have hne : p ≠ peer := fun he => hact (he ▸ rfl)
      exact ⟨(List.mem_erase_of_ne hne).mpr hp, List.append_nil _, rfl⟩

/-- The peer is not closed in the step. -/
def Stays (peer : Peer) (_ : Server) (act : Act) : Prop := act ≠ .closed peer

/-- A message for the peer that `write_next_buff` comes to is the text it writes. -/
def TakesAbcd (peer : Peer) (s : Server) (act : Act) : Prop := ∀ m ∈ taken peer s act, m = abcd

instance (peer : Peer) (s : Server) (act : Act) : Decidable (Stays peer s act) :=
  inferInstanceAs (Decidable (act ≠ _))

instance (peer : Peer) (s : Server) (act : Act) : Decidable (TakesAbcd peer s act) :=
  inferInstanceAs (Decidable (∀ m ∈ taken peer s act, m = abcd))

variable {s₀ : Server} {tr₀ : List Event}

/-- **Order and completeness.**  While a peer stays connected the messages sent
to it are taken one after the other, and something is handed over for each. -/
theorem owed_append_sentTo (h₀ : machine.Run AnyStep tr₀ s₀) (hp : p ∈ s₀.m_connections)
    (h : (machine.startAt s₀).Run (Stays p) tr s) :
    s.Tidy ∧ p ∈ s.m_connections ∧ ∃ ms,
      owed p s₀ ++ sentTo p tr = ms ++ owed p s ∧ handedTo p tr = ms.map fun _ => abcd := by
  refine h.invariant (fun tr s => s.Tidy ∧ p ∈ s.m_connections ∧ ∃ ms,
      owed p s₀ ++ sentTo p tr = ms ++ owed p s ∧ handedTo p tr = ms.map fun _ => abcd)
    ⟨tidy_of_run h₀, hp, [], List.append_nil _, rfl⟩ fun {tr s a s' es} ih hok hs => ?_
  obtain ⟨hT, hmem, ms, hqueue, hhanded⟩ := ih
  obtain ⟨hmem', hqueue', hhanded'⟩ := owed_of_step hT hmem hok hs
  refine ⟨hT.step hs, hmem', ms ++ taken p s a, ?_, ?_⟩
  · rw [sentTo_append, ← List.append_assoc, hqueue, List.append_assoc, hqueue',
      List.append_assoc]
  · rw [handedTo_append, hhanded, hhanded', List.map_append]

/-- **The server sends what it was given**, while the peer stays connected and
each message that is taken is the text written. -/
theorem sends_of_takesAbcd (h₀ : machine.Run AnyStep tr₀ s₀) (hp : p ∈ s₀.m_connections)
    (h : (machine.startAt s₀).Run (fun s a => Stays p s a ∧ TakesAbcd p s a) tr s) :
    owed p s₀ ++ sentTo p tr = handedTo p tr ++ owed p s := by
  have hinv : s.Tidy ∧ p ∈ s.m_connections ∧
      owed p s₀ ++ sentTo p tr = handedTo p tr ++ owed p s := by
    refine h.invariant (fun tr s => s.Tidy ∧ p ∈ s.m_connections ∧
      owed p s₀ ++ sentTo p tr = handedTo p tr ++ owed p s)
      ⟨tidy_of_run h₀, hp, List.append_nil _⟩ fun {tr s a s' es} ih hok hs => ?_
    obtain ⟨hT, hmem, hqueue⟩ := ih
    obtain ⟨hmem', hqueue', hhanded'⟩ := owed_of_step hT hmem hok.1 hs
    have hsame : (taken p s a).map (fun _ => abcd) = taken p s a :=
      (List.map_congr_left fun m hm => (hok.2 m hm).symm).trans (List.map_id _)
    refine ⟨hT.step hs, hmem', ?_⟩
    rw [sentTo_append, ← List.append_assoc, hqueue, List.append_assoc, hqueue',
      handedTo_append, hhanded', hsame, List.append_assoc]
  exact hinv.2.2

/-- The condition is exact: another message that is taken is not what is handed
over. -/
theorem not_sends_of_not_takesAbcd (h₀ : machine.Run AnyStep tr₀ s₀) (hp : p ∈ s₀.m_connections)
    (h : (machine.startAt s₀).Run (Stays p) tr s) (hact : Stays p s act)
    (hbad : ¬ TakesAbcd p s act) (hs : s.step act = some (s', es)) :
    owed p s₀ ++ sentTo p (tr ++ es) ≠ handedTo p (tr ++ es) ++ owed p s' := by
  intro hsent
  obtain ⟨hT, hmem, ms, hqueue, hhanded⟩ := owed_append_sentTo h₀ hp h
  obtain ⟨-, hqueue', hhanded'⟩ := owed_of_step hT hmem hact hs
  apply hbad
  intro m hm
  rw [sentTo_append, ← List.append_assoc, hqueue, List.append_assoc, hqueue', ← List.append_assoc,
    handedTo_append, hhanded, hhanded', ← List.map_append] at hsent
  have hall := List.append_cancel_right hsent
  have hmem : m ∈ (ms ++ taken p s act).map fun _ => abcd := hall ▸ List.mem_append_right _ hm
  obtain ⟨-, -, rfl⟩ := List.mem_map.mp hmem
  rfl

/-- The server after its first `on_tcp_connect`. -/
def oneConnection : Server := { init with m_connections := [[1]] }

theorem run_oneConnection : machine.Run AnyStep [] oneConnection := by
  have hconn : Function.update init.connection [1] ⟨.new, 0, false⟩ = init.connection :=
    Function.update_eq_self (f := init.connection) [1]
  refine Machine.Run.start.step (a := .on_tcp_connect [1]) trivial ?_
  show init.on_tcp_connect [1] = _
  rw [on_tcp_connect, if_neg (by decide), hconn]
  rfl

/-- The text of `write_next_buff` is sent twice, and a message that is not taken
yet. -/
theorem sends_of_takesAbcd_two :
    ∃ tr s,
      (machine.startAt oneConnection).Run (fun s a => Stays [1] s a ∧ TakesAbcd [1] s a) tr s ∧
      handedTo [1] tr = [abcd, abcd] ∧ owed [1] s = [[0x61]] ∧
      owed [1] oneConnection ++ sentTo [1] tr = handedTo [1] tr ++ owed [1] s := by
  obtain ⟨tr, s, hrun, hp⟩ := (machine.startAt oneConnection).run_of_exec
    (fun s a => Stays [1] s a ∧ TakesAbcd [1] s a)
    [.send [1] abcd, .broadcast abcd, .on_async [], .send [1] [0x61], .written [1] false,
      .on_async []]
    (fun q => decide (handedTo [1] q.2 = [abcd, abcd] ∧ owed [1] q.1 = [[0x61]]))
    (by decide +kernel)
  obtain ⟨hhanded, howed⟩ := of_decide_eq_true hp
  exact ⟨tr, s, hrun, hhanded, howed,
    sends_of_takesAbcd run_oneConnection (List.mem_singleton_self _) hrun⟩

/-- A message of one byte is sent: the text of `write_next_buff` is written. -/
theorem not_sends :
    ¬ ∀ (p : Peer) tr₀ s₀ tr s, machine.Run AnyStep tr₀ s₀ → p ∈ s₀.m_connections →
      (machine.startAt s₀).Run (Stays p) tr s →
      owed p s₀ ++ sentTo p tr = handedTo p tr ++ owed p s := by
  intro h
  obtain ⟨tr, s, hrun, hp⟩ := (machine.startAt oneConnection).run_of_exec (Stays [1])
    [.send [1] [0x61], .on_async []]
    (fun q => decide (sentTo [1] q.2 = [[0x61]] ∧ handedTo [1] q.2 = [abcd])) (by decide +kernel)
  obtain ⟨hsent, hhanded⟩ := of_decide_eq_true hp
  have heq := h [1] [] oneConnection tr s run_oneConnection (List.mem_singleton_self _) hrun
  rw [hsent, hhanded] at heq
  have hhead : ([0x61] : List Byte) = abcd := (List.cons.inj heq).1
  exact absurd hhead (by decide)

end Server

end TestExamples
