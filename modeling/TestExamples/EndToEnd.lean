/-
TestExamples/EndToEnd.lean

From `RJTcpClient::Send` to `IRJTcpServerCallBack::OnMsg`.

`EndToEnd` joins a client and a server by one connection, which the server
knows as its client number `k`.  `wire` holds the bytes the client has written
and the server has not read.  A read on connection `k` takes the next bytes
off the wire, any number of them up to what the read buffer holds; whether
there ever is another read is open, so an end of the connection that cuts the
stream off is covered.  All other steps of the server and its other clients
are free.

One equation spans the whole way (`Streamed.stream`): the packages of the
messages delivered, the bytes held by the reader and the bytes on the wire
are, in this order, the packages of the messages written; and the messages
written and those in `m_send_buf` are the messages pushed.
-/
import TestExamples.LibUvHelperFrames
import TestExamples.RJTcpClient
import TestExamples.RJTcpServerSteps

namespace TestExamples

structure EndToEnd where
  cli : RJTcpClient
  wire : List Byte
  srv : RJTcpServer

namespace EndToEnd

inductive Act
  | client (a : RJTcpClient.Act)
  | server (a : RJTcpServer.Act)

inductive Event
  | client (e : RJTcpClient.Event)
  | server (e : RJTcpServer.Event)
  deriving DecidableEq, Repr

/-- The bytes of the writes among the events of a step. -/
def bytesWritten (es : List RJTcpClient.Event) : List Byte :=
  es.flatMap fun
    | .uv_write buf => buf
    | .pushed _ => []

/-- Connection `k` is at `a`. -/
def isConn (s : EndToEnd) (k : Nat) (a : Addr) : Bool :=
  (s.srv.heap a).any fun c => c.conn = k

/-- The wire after a step of the server; `none` where the step reads other
bytes from connection `k` than the next ones. -/
def readWire (s : EndToEnd) (k : Nat) : RJTcpServer.Act → Option (List Byte)
  | .read a chunk =>
      if s.isConn k a then
        if chunk.length ≤ READ_SIZE ∧ chunk <+: s.wire then some (s.wire.drop chunk.length)
        else none
      else some s.wire
  | _ => some s.wire

/-- One step. -/
def step (D : DataModel) (k : Nat) (s : EndToEnd) : Act → Option (EndToEnd × List Event)
  | .client a =>
      (s.cli.step a).map fun p =>
        ({ s with cli := p.1, wire := s.wire ++ bytesWritten p.2 }, p.2.map .client)
  | .server a =>
      (s.readWire k a).bind fun wire =>
        (s.srv.step D a).map fun p => ({ s with srv := p.1, wire := wire }, p.2.map .server)

def machine (D : DataModel) (k : Nat) : Machine EndToEnd Act Event :=
  ⟨⟨.init, [], .init⟩, step D k⟩

/-! ### What the history says -/

/-- The messages pushed, in order. -/
def pushed (tr : List Event) : List (List Byte) :=
  tr.filterMap fun
    | .client (.pushed msg) => some msg
    | _ => none

/-- The messages of connection `k` handed to the callback, in order. -/
def delivered (k : Nat) (tr : List Event) : List (List Byte) :=
  tr.filterMap fun
    | .server (.OnMsg _ k' msg) => if k' = k then some msg else none
    | _ => none

theorem pushed_append (tr es : List Event) : pushed (tr ++ es) = pushed tr ++ pushed es :=
  List.filterMap_append

theorem delivered_append (k : Nat) (tr es : List Event) :
    delivered k (tr ++ es) = delivered k tr ++ delivered k es :=
  List.filterMap_append

theorem pushed_server (es : List RJTcpServer.Event) : pushed (es.map .server) = [] := by
  induction es with
  | nil => rfl
  | cons e es ih => exact ih

theorem delivered_client (k : Nat) (es : List RJTcpClient.Event) :
    delivered k (es.map .client) = [] := by
  induction es with
  | nil => rfl
  | cons e es ih => exact ih

theorem delivered_of_no_OnMsg {k : Nat} {es : List RJTcpServer.Event}
    (h : ∀ a k msg, .OnMsg a k msg ∉ es) : delivered k (es.map .server) = [] := by
  refine List.filterMap_eq_nil_iff.mpr fun e he => ?_
  obtain ⟨e', he', rfl⟩ := List.mem_map.mp he
  cases e' with
  | OnMsg a k msg => exact absurd he' (h a k msg)
  | _ => rfl

end EndToEnd

/-! ### Steps of the server that read nothing -/

namespace RJTcpServer

/-- A step that reads nothing from a client that is open after it. -/
structure Away (s s' : RJTcpServer) : Prop where
  serial : s.serial ≤ s'.serial
  heap : ∀ {a c'}, s'.heap a = some c' → c'.closing = none →
    ∃ c, s.heap a = some c ∧ c.conn = c'.conn ∧ c.closing = none ∧ c.reader = c'.reader
  reading : ∀ {a}, s'.loop = .reading a → s.loop = .reading a ∧ s'.heap = s.heap
  loop : ∀ {a}, s.loop = .reading a → s'.loop = .reading a

namespace Away

variable {s s' : RJTcpServer} {a : Addr} {c : uv_tcp_client}

/-- The clients stay as they are. -/
theorem of_heap (hs : s'.serial = s.serial) (hh : s'.heap = s.heap)
    (hl : ∀ {a}, s'.loop = .reading a ↔ s.loop = .reading a) : Away s s' where
  serial := hs.ge
  heap := fun hc ho => ⟨_, hh ▸ hc, rfl, ho, rfl⟩
  reading := fun h => ⟨hl.mp h, hh⟩
  loop := hl.mpr

/-- One client changes, but not what it has read; outside of a read. -/
theorem of_setClient (hc : s.heap a = some c) (c' : uv_tcp_client) (hconn : c'.conn = c.conn)
    (hr : c'.reader = c.reader) (hopen : c'.closing = none → c.closing = none)
    (hs : s'.serial = s.serial) (hh : s'.heap = Function.update s.heap a (some c'))
    (hl : s'.loop = s.loop) (hread : ∀ b, s.loop ≠ .reading b) : Away s s' where
  serial := hs.ge
  heap := fun {b d} hd ho => by
    rw [hh] at hd
    rcases heap_eq (s := s) hd with ⟨rfl, rfl⟩ | ⟨-, hold⟩
    · exact ⟨c, hc, hconn.symm, hopen ho, hr.symm⟩
    · exact ⟨d, hold, rfl, ho, rfl⟩
  reading := fun h => absurd (hl ▸ h) (hread _)
  loop := fun h => absurd h (hread _)

theorem of_drops {es : List Event} (hd : Drops s a es s') (hread : ∀ b, s.loop ≠ .reading b) :
    Away s s' := by
  cases hd with
  | unknown => exact of_heap rfl rfl Iff.rfl
  | @known c _ hc =>
      exact of_setClient hc { c with closing := some .ClientClose } rfl rfl nofun rfl rfl rfl hread

theorem trans {s'' : RJTcpServer} (h : Away s s') (h' : Away s' s'') : Away s s'' where
  serial := h.serial.trans h'.serial
  heap := fun hc ho => by
    obtain ⟨d, hd, hk, ho, hr⟩ := h'.heap hc ho
    obtain ⟨e, he, hk', ho', hr'⟩ := h.heap hd ho
    exact ⟨e, he, hk'.trans hk, ho', hr'.trans hr⟩
  reading := fun hl => by
    obtain ⟨hl, hh⟩ := h'.reading hl
    obtain ⟨hl, hh'⟩ := h.reading hl
    exact ⟨hl, hh.trans hh'⟩
  loop := fun hl => h'.loop (h.loop hl)

end Away

/-- A step that neither reads nor accepts. -/
def Act.other : Act → Bool
  | .read _ _ | .pass | .accept _ _ _ _ _ => false
  | _ => true

theorem away_of_moves {D : DataModel} {s s' : RJTcpServer} {act : Act} {es : List Event}
    (hm : Moves D s act es s') (hact : act.other = true) :
    Away s s' ∧ ∀ a k msg, .OnMsg a k msg ∉ es := by
  have hdrop : ∀ {s s' : RJTcpServer} {a es}, Drops s a es s' → ∀ a k msg, .OnMsg a k msg ∉ es := by
    intro s s' a es hd
    cases hd <;> simp
  cases hm with
  | readEnd hloop _ _ hd => exact ⟨.of_drops hd (by simp [hloop]), hdrop hd⟩
  | @drainSent c buf rest ret hloop _ _ hc =>
      exact ⟨.of_setClient hc { c with writes := c.writes ++ [buf] } rfl rfl id rfl rfl rfl
        (by simp [hloop]), by simp⟩
  | @drainFailed c buf rest ret es s' hloop _ _ hc _ hd =>
      have hpop : Away s { s with sendTemp := rest } := .of_heap rfl rfl Iff.rfl
      exact ⟨hpop.trans (.of_drops hd (by simp [hloop])), by simpa using hdrop hd⟩
  | @walkClose a c hloop hc =>
      exact ⟨.of_setClient hc { c with closing := some .null } rfl rfl nofun rfl rfl rfl
        (by simp [hloop]), by simp⟩
  | @sent a c buf rest hloop hc =>
      exact ⟨.of_setClient hc { c with writes := rest } rfl rfl id rfl rfl rfl
        (by simp [hloop]), by simp⟩
  | @sendFailed a c buf rest st es s' hloop hc _ _ hd =>
      have hput : Away s (s.setClient a { c with writes := rest }) :=
        .of_setClient hc { c with writes := rest } rfl rfl id rfl rfl rfl (by simp [hloop])
      exact ⟨hput.trans (.of_drops hd (by simp [hloop])), hdrop hd⟩
  | @clientClose a c hloop hc hcl hw =>
      refine ⟨⟨Nat.le_refl _, fun {b d} hd ho => ⟨d, ?_, rfl, ho, rfl⟩, fun h => ?_, id⟩, by simp⟩
      · have hd : Function.update s.heap a none b = some d := hd
        exact (of_update_none hd).2
      · have h : s.loop = .reading _ := h
        rw [hloop] at h
        cases h
  | asyncCallBack hloop =>
      refine ⟨.of_heap rfl rfl fun {a} => ?_, by simp⟩
      show (if s.m_is_closing then LoopPc.walking else .asyncCallBack) = .reading a ↔
        s.loop = .reading a
      split <;> simp [hloop]
  | swap hloop => exact ⟨.of_heap rfl rfl (by simp [hloop]), by simp⟩
  | drained hloop => exact ⟨.of_heap rfl rfl (by simp [hloop]), by simp⟩
  | walked hloop => exact ⟨.of_heap rfl rfl (by simp [hloop]), by simp⟩
  | read => cases hact
  | passExit => cases hact
  | passMore => cases hact
  | passStop => cases hact
  | passNext => cases hact
  | acceptNone => cases hact
  | acceptFailed => cases hact
  | accepted => cases hact
  | _ => exact ⟨.of_heap rfl rfl Iff.rfl, by simp⟩

/-- A pass of the reading loop concerns the client being read. -/
theorem pass_frame {D : DataModel} {s s' : RJTcpServer} {es : List Event}
    (hm : Moves D s .pass es s') :
    ∃ a c, s.loop = .reading a ∧ s.heap a = some c ∧ s'.serial = s.serial ∧
      (∀ b, b ≠ a → s'.heap b = s.heap b) ∧ (∀ c', s'.heap a = some c' → c'.conn = c.conn) ∧
      (s'.loop = .idle ∨ s'.loop = .reading a) ∧
      ∀ b k msg, .OnMsg b k msg ∈ es → k = c.conn := by
  have hdrop : ∀ {s s' : RJTcpServer} {a es} {k : Nat}, Drops s a es s' →
      (∀ c, s.heap a = some c → c.conn = k) →
      s'.serial = s.serial ∧ (∀ b, b ≠ a → s'.heap b = s.heap b) ∧
      (∀ c, s'.heap a = some c → c.conn = k) ∧ s'.loop = s.loop ∧
      ∀ b k msg, .OnMsg b k msg ∉ es := by
    intro s s' a es k hd hk
    cases hd with
    | unknown => exact ⟨rfl, fun _ _ => rfl, hk, rfl, by simp⟩
    | @known c _ hc =>
        refine ⟨rfl, fun b hne => Function.update_of_ne hne .., fun c' hc' => ?_, rfl, by simp⟩
        obtain rfl := heap_self (s := { s with m_clients := s.m_clients.erase a }) hc'
        exact hk c hc
  have hhandle : ∀ {s s' : RJTcpServer} {a call es} {k : Nat}, Handles s a call es s' →
      (∀ c, s.heap a = some c → c.conn = k) →
      s'.serial = s.serial ∧ (∀ b, b ≠ a → s'.heap b = s.heap b) ∧
      (∀ c, s'.heap a = some c → c.conn = k) ∧ s'.loop = s.loop ∧
      ∀ b k' msg, .OnMsg b k' msg ∈ es → k' = k := by
    intro s s' a call es k hh hk
    cases hh with
    | drop _ hd =>
        obtain ⟨h₁, h₂, h₃, h₄, h₅⟩ := hdrop hd hk
        exact ⟨h₁, h₂, h₃, h₄, fun b k' msg he => absurd he (h₅ b k' msg)⟩
    | deliver _ _ _ hc =>
        refine ⟨rfl, fun _ _ => rfl, hk, rfl, fun b k' msg he => ?_⟩
        obtain ⟨-, rfl, -⟩ : b = _ ∧ k' = _ ∧ msg = _ := by simpa using he
        exact hk _ hc
    | skip => exact ⟨rfl, fun _ _ => rfl, hk, rfl, by simp⟩
  cases hm with
  | @passExit a c hloop hc =>
      exact ⟨a, c, hloop, hc, rfl, fun _ _ => rfl, fun c' hc' => by
        rw [Option.some.inj (hc'.symm.trans hc)], Or.inl rfl, by simp⟩
  | @passMore a c r hloop hc =>
      exact ⟨a, c, hloop, hc, rfl, fun b hne => Function.update_of_ne hne .., fun c' hc' => by
        rw [heap_self (s := s) hc'], Or.inl rfl, by simp⟩
  | @passStop a c r call _ _ hloop hc _ hh =>
      obtain ⟨h₁, h₂, h₃, h₄, h₅⟩ := hhandle (k := c.conn) hh fun c' hc' => by
        rw [heap_self (s := s) hc']
      exact ⟨a, c, hloop, hc, h₁, fun b hne => (h₂ b hne).trans (Function.update_of_ne hne ..), h₃,
        Or.inl h₄, h₅⟩
  | @passNext a c r call _ _ hloop hc _ hh =>
      obtain ⟨h₁, h₂, h₃, h₄, h₅⟩ := hhandle (k := c.conn) hh fun c' hc' => by
        rw [heap_self hc']
      exact ⟨a, c, hloop, hc, h₁, fun b hne => (h₂ b hne).trans (Function.update_of_ne hne ..), h₃,
        Or.inr (h₄.trans hloop), h₅⟩

/-- Putting back the client that is there. -/
theorem setClient_self {s : RJTcpServer} {a : Addr} {c : uv_tcp_client}
    (hc : s.heap a = some c) : s.setClient a c = s := by
  unfold setClient
  rw [← hc, Function.update_eq_self]

end RJTcpServer

namespace EndToEnd

/-! ### The invariant -/

open RJTcpServer (Registry Moves Drops Handles)

variable {D : DataModel} {k : Nat}

/-- The connection, before it is accepted and while it is open, has ahead of
it the packages of the messages `left`. -/
structure Ahead (D : DataModel) (k : Nat) (left : List (List Byte)) (s : EndToEnd) : Prop where
  unborn : s.srv.serial ≤ k → s.wire = left.flatMap Msg2Package
  stream : ∀ {a c}, s.srv.heap a = some c → c.conn = k → c.closing = none →
    c.reader.received ++ s.wire = left.flatMap Msg2Package
  /-- while it is read it is open -/
  reading : ∀ {a c}, s.srv.loop = .reading a → s.srv.heap a = some c → c.conn = k →
    c.closing = none
  /-- between two reads it holds no complete package -/
  waiting : ∀ {a c}, s.srv.heap a = some c → c.conn = k → c.closing = none →
    s.srv.loop ≠ .reading a → nextPackage D c.reader.received = .more
  roomy : ∀ {a c}, s.srv.heap a = some c → c.conn = k → c.closing = none → Roomy c.reader

/-- Messages pushed are delivered, ahead of the reader or in the queue of the
client. -/
structure Streamed (D : DataModel) (k : Nat) (tr : List Event) (s : EndToEnd) : Prop where
  registry : Registry s.srv
  split : ∃ left queue, pushed tr = delivered k tr ++ left ++ queue ∧
    s.cli.m_send_buf = queue.map Msg2Package ∧ Ahead D k left s

namespace Ahead

variable {left : List (List Byte)} {s : EndToEnd} {srv : RJTcpServer}

/-- The server reads from no client, or from another one. -/
theorem of_away (h : Ahead D k left s) (ha : RJTcpServer.Away s.srv srv) :
    Ahead D k left { s with srv := srv } where
  unborn := fun hk => h.unborn (ha.serial.trans hk)
  stream := fun hc hk ho => by
    obtain ⟨c, hc, hconn, ho, hr⟩ := ha.heap hc ho
    rw [← hr]
    exact h.stream hc (hconn.trans hk) ho
  reading := fun hl hc hk => by
    obtain ⟨hl, hh⟩ := ha.reading hl
    exact h.reading hl (hh ▸ hc) hk
  waiting := fun hc hk ho hl => by
    obtain ⟨c, hc, hconn, ho, hr⟩ := ha.heap hc ho
    rw [← hr]
    exact h.waiting hc (hconn.trans hk) ho fun hold => hl (ha.loop hold)
  roomy := fun hc hk ho => by
    obtain ⟨c, hc, hconn, ho, hr⟩ := ha.heap hc ho
    rw [← hr]
    exact h.roomy hc (hconn.trans hk) ho

/-- The server reads from another client. -/
theorem of_other (h : Ahead D k left s) (hserial : srv.serial = s.srv.serial)
    (hheap : ∀ {b c'}, srv.heap b = some c' → c'.conn = k → s.srv.heap b = some c')
    (hread : ∀ {b c'}, srv.loop = .reading b → srv.heap b = some c' → c'.conn = k →
      s.srv.loop = .reading b)
    (hloop : ∀ {b c}, s.srv.loop = .reading b → s.srv.heap b = some c → c.conn = k →
      srv.loop = .reading b) : Ahead D k left { s with srv := srv } where
  unborn := fun hk => h.unborn (hserial ▸ hk)
  stream := fun hc hk ho => h.stream (hheap hc hk) hk ho
  reading := fun hl hc hk => h.reading (hread hl hc hk) (hheap hc hk) hk
  waiting := fun hc hk ho hl => by
    have hc' := hheap hc hk
    exact h.waiting hc' hk ho fun hold => hl (hloop hold hc' hk)
  roomy := fun hc hk ho => h.roomy (hheap hc hk) hk ho

/-- The connection is accepted, or another one is. -/
theorem accept (h : Ahead D k left s) {a : Addr} (hloop : s.srv.loop = .idle)
    {m : List Addr} :
    Ahead D k left { s with
      srv := { s.srv.opened a s.srv.newClient with m_clients := m } } where
  unborn := fun hk => h.unborn (Nat.le_of_succ_le hk)
  stream := fun {b c} hc hk ho => by
    rcases RJTcpServer.heap_eq (s := { s.srv with serial := s.srv.serial + 1 }) hc with
      ⟨rfl, rfl⟩ | ⟨-, hold⟩
    · -- nothing has been read from the new connection
      exact h.unborn (Nat.le_of_eq hk)
    · exact h.stream hold hk ho
  reading := fun hl => by
    rw [show s.srv.loop = _ from hl] at hloop
    cases hloop
  waiting := fun {b c} hc hk ho _ => by
    rcases RJTcpServer.heap_eq (s := { s.srv with serial := s.srv.serial + 1 }) hc with
      ⟨rfl, rfl⟩ | ⟨-, hold⟩
    · exact (packageFraming D).next_nil
    · exact h.waiting hold hk ho (hloop ▸ nofun)
  roomy := fun {b c} hc hk ho => by
    rcases RJTcpServer.heap_eq (s := { s.srv with serial := s.srv.serial + 1 }) hc with
      ⟨rfl, rfl⟩ | ⟨-, hold⟩
    · exact roomy_new
    · exact h.roomy hold hk ho

/-- What the reader holds between two reads leaves room for another one. -/
theorem receive (h : Ahead D k left s) (hfits : ∀ m ∈ left, Fits m) {a : Addr}
    {c : uv_tcp_client} (hloop : s.srv.loop = .idle) (hc : s.srv.heap a = some c)
    (hk : c.conn = k) (ho : c.closing = none) {chunk : List Byte}
    (hlen : chunk.length ≤ READ_SIZE) :
    ∃ r, c.reader.receive chunk = some r ∧ Roomy r := by
  have hmore := h.waiting hc hk ho (hloop ▸ nofun)
  have hlens : ∀ m ∈ left, m.length < 2 ^ 31 := fun m hm => (hfits m hm).lt
  refine receive_roomy chunk (h.roomy hc hk ho) hlen ?_
  rw [← BufferReader.received_length]
  rcases (package_decodes D).next_of_append hlens (h.stream hc hk ho) with
    ⟨-, hnil, hlt⟩ | ⟨m, ms, rest, -, hf, -⟩
  · rcases left with - | ⟨m, ms⟩
    · rw [hnil rfl, List.length_nil]
      unfold READ_SIZE at hlen
      omega
    · have hm := hfits m (List.mem_cons_self ..)
      have hlt := hlt m ms rfl
      rw [Msg2Package_length] at hlt
      unfold Fits at hm
      omega
  · rw [show (packageFraming D).next _ = _ from hmore] at hf
    cases hf

/-- A connection is nowhere else. -/
theorem only_reader {srv : RJTcpServer} (hreg : Registry srv) {a b : Addr}
    {c c' : uv_tcp_client} (hc : srv.heap a = some c) (hk : c.conn = k) {r : BufferReader}
    (hc' : (srv.setClient a { c with reader := r }).heap b = some c') (hk' : c'.conn = k) :
    b = a ∧ c' = { c with reader := r } := by
  rcases RJTcpServer.heap_eq hc' with hnew | ⟨hne, hold⟩
  · exact hnew
  · exact absurd (hreg.inj hold hc (hk'.trans hk.symm)) hne

/-- A read from the connection. -/
theorem read (h : Ahead D k left s) (hreg : Registry s.srv) {a : Addr} {c : uv_tcp_client}
    (hc : s.srv.heap a = some c) (hk : c.conn = k) (ho : c.closing = none) {chunk : List Byte}
    {r : BufferReader} (hr : c.reader.receive chunk = some r) (hroom : Roomy r)
    (hpre : chunk <+: s.wire) :
    Ahead D k left { s with
      wire := s.wire.drop chunk.length
      srv := { s.srv.setClient a { c with reader := r } with loop := .reading a } } := by
  have hself : ∀ {b c'}, (s.srv.setClient a { c with reader := r }).heap b = some c' →
      c'.conn = k → b = a ∧ c' = { c with reader := r } := only_reader hreg hc hk
  have hwire : chunk ++ s.wire.drop chunk.length = s.wire := by
    obtain ⟨rest, hrest⟩ := hpre
    rw [← hrest, List.drop_left]
  exact
    { unborn := fun hs => absurd (hreg.serial hc) (Nat.not_lt.mpr (hk ▸ hs))
      stream := fun hc' hk' _ => by
        obtain ⟨-, rfl⟩ := hself hc' hk'
        show r.received ++ s.wire.drop chunk.length = _
        rw [BufferReader.receive_received hr, List.append_assoc, hwire]
        exact h.stream hc hk ho
      reading := fun _ hc' hk' => by
        obtain ⟨-, rfl⟩ := hself hc' hk'
        exact ho
      waiting := fun hc' hk' _ hl => absurd (congrArg _ (hself hc' hk').1.symm) hl
      roomy := fun hc' hk' _ => by
        obtain ⟨-, rfl⟩ := hself hc' hk'
        exact hroom }

/-- The loop of `SetBuffer` goes on: it has taken a package off the front, or
come to its end. -/
theorem pass {left' : List (List Byte)} (h : Ahead D k left s) (hreg : Registry s.srv) {a : Addr}
    {c : uv_tcp_client} (hc : s.srv.heap a = some c) (hk : c.conn = k) (ho : c.closing = none)
    {r : BufferReader} {l : LoopPc}
    (hr : r.received ++ s.wire = left'.flatMap Msg2Package)
    (hsize : r.m_buffer_size = c.reader.m_buffer_size)
    (hl : l = .reading a ∨ l = .idle ∧ nextPackage D r.received = .more) :
    Ahead D k left' { s with
      srv := { s.srv.setClient a { c with reader := r } with loop := l } } := by
  have hself : ∀ {b c'}, (s.srv.setClient a { c with reader := r }).heap b = some c' →
      c'.conn = k → b = a ∧ c' = { c with reader := r } := only_reader hreg hc hk
  exact
    { unborn := fun hs => absurd (hreg.serial hc) (Nat.not_lt.mpr (hk ▸ hs))
      stream := fun hc' hk' _ => by
        obtain ⟨-, rfl⟩ := hself hc' hk'
        exact hr
      reading := fun _ hc' hk' => by
        obtain ⟨-, rfl⟩ := hself hc' hk'
        exact ho
      waiting := fun hc' hk' _ hne => by
        obtain ⟨rfl, rfl⟩ := hself hc' hk'
        rcases hl with hl | ⟨-, hmore⟩
        · exact absurd hl hne
        · exact hmore
      roomy := fun hc' hk' _ => by
        obtain ⟨-, rfl⟩ := hself hc' hk'
        obtain ⟨n, hlo, hhi, hn⟩ := h.roomy hc hk ho
        exact ⟨n, hlo, hhi, hsize.trans hn⟩ }

end Ahead

/-! ### The steps -/

namespace Streamed

variable {tr es : List Event} {s s' : EndToEnd}

/-- The messages delivered and ahead are among those pushed. -/
theorem fits_left {left queue : List (List Byte)} (hfits : ∀ m ∈ pushed tr, Fits m)
    (hp : pushed tr = delivered k tr ++ left ++ queue) : ∀ m ∈ left, Fits m := by
  intro m hm
  exact hfits m (hp ▸ List.mem_append_left _ (List.mem_append_right _ hm))

/-- A step of the client. -/
theorem client (h : Streamed D k tr s) {cli : RJTcpClient} {es : List RJTcpClient.Event}
    (hq : RJTcpClient.Queues s.cli cli es) :
    Streamed D k (tr ++ es.map .client)
      { s with cli := cli, wire := s.wire ++ bytesWritten es } := by
  obtain ⟨left, queue, hp, hbuf, ha⟩ := h.split
  refine ⟨h.registry, ?_⟩
  rw [pushed_append, delivered_append, delivered_client, List.append_nil, hp]
  cases hq with
  | none hq => exact ⟨left, queue, List.append_nil _, hq.trans hbuf, by
      rw [show s.wire ++ bytesWritten [] = s.wire from List.append_nil _]
      exact { ha with }⟩
  | @push msg hq =>
      refine ⟨left, queue ++ [msg], List.append_assoc .., ?_, ?_⟩
      · rw [hq, hbuf, List.map_append]
        rfl
      · rw [show s.wire ++ bytesWritten [.pushed msg] = s.wire from List.append_nil _]
        exact { ha with }
  | @write buf hq =>
      -- the first message in the queue is the one written
      rw [hbuf] at hq
      obtain ⟨m, queue', rfl, hbuf', hrest⟩ := List.map_eq_cons_iff.mp hq
      have henc : left.flatMap Msg2Package ++ buf = (left ++ [m]).flatMap Msg2Package := by
        rw [List.flatMap_append, List.flatMap_singleton, hbuf']
      have hbytes : bytesWritten [.uv_write buf] = buf := List.append_nil _
      refine ⟨left ++ [m], queue', by simp [pushed], hrest.symm, ?_⟩
      exact
        { unborn := fun hk => by
            show s.wire ++ bytesWritten [.uv_write buf] = _
            rw [hbytes, ha.unborn hk, henc]
          stream := fun hc hk ho => by
            show _ ++ (s.wire ++ bytesWritten [.uv_write buf]) = _
            rw [hbytes, ← List.append_assoc, ha.stream hc hk ho, henc]
          reading := ha.reading
          waiting := ha.waiting
          roomy := ha.roomy }

/-- A step of the server that delivers nothing from the connection. -/
theorem quiet (h : Streamed D k tr s) {es : List RJTcpServer.Event} {wire : List Byte}
    {srv : RJTcpServer} (hreg : Registry srv)
    (hdel : delivered k (es.map .server) = [])
    (hahead : ∀ {left}, (∀ m ∈ left, m ∈ pushed tr) → Ahead D k left s →
      Ahead D k left { s with wire := wire, srv := srv }) :
    Streamed D k (tr ++ es.map .server) { s with wire := wire, srv := srv } := by
  obtain ⟨left, queue, hp, hbuf, ha⟩ := h.split
  refine ⟨hreg, left, queue, ?_, hbuf, hahead (fun m hm => ?_) ha⟩
  · rw [pushed_append, pushed_server, delivered_append, hdel, List.append_nil, List.append_nil, hp]
  · exact hp ▸ List.mem_append_left _ (List.mem_append_right _ hm)

/-- One evaluation of the loop of `SetBuffer` for another client. -/
theorem passOther (h : Streamed D k tr s) {srv : RJTcpServer} {es : List RJTcpServer.Event}
    (hm : Moves D s.srv .pass es srv) {a : Addr} {c : uv_tcp_client}
    (hloop : s.srv.loop = .reading a) (hc : s.srv.heap a = some c) (hk : c.conn ≠ k) :
    Streamed D k (tr ++ es.map .server) { s with srv := srv } := by
  obtain ⟨a', c', hloop', hc', hserial, hheap, hconn, hl, hes⟩ := RJTcpServer.pass_frame hm
  obtain rfl := LoopPc.reading.inj (hloop.symm.trans hloop')
  obtain rfl := Option.some.inj (hc.symm.trans hc')
  -- the connection is at another address
  have hne : ∀ {b d}, srv.heap b = some d → d.conn = k → b ≠ a := by
    rintro b d hd hkd rfl
    exact hk ((hconn d hd).symm.trans hkd)
  refine h.quiet (h.registry.step hm) ?_ fun _ ha => ha.of_other hserial (fun hd hkd => ?_)
    (fun hlb hd hkd => ?_) (fun hlb hd hkd => ?_)
  · refine List.filterMap_eq_nil_iff.mpr fun e he => ?_
    obtain ⟨e', he', rfl⟩ := List.mem_map.mp he
    cases e' with
    | OnMsg b k' msg => exact if_neg (hes b k' msg he' ▸ hk)
    | _ => rfl
  · rw [← hheap _ (hne hd hkd)]
    exact hd
  · rcases hl with hl | hl
    · rw [hl] at hlb
      cases hlb
    · rw [hl] at hlb
      exact absurd (LoopPc.reading.inj hlb).symm (hne hd hkd)
  · obtain rfl := LoopPc.reading.inj (hloop.symm.trans hlb)
    exact absurd (Option.some.inj (hc.symm.trans hd) ▸ hkd) hk

/-- One evaluation of the loop of `SetBuffer` for the connection. -/
theorem passOwn (h : Streamed D k tr s) (hfits : ∀ m ∈ pushed tr, Fits m) {srv : RJTcpServer}
    {es : List RJTcpServer.Event} (hm : Moves D s.srv .pass es srv) {a : Addr} {c : uv_tcp_client}
    (hloop : s.srv.loop = .reading a) (hc : s.srv.heap a = some c) (hk : c.conn = k) :
    Streamed D k (tr ++ es.map .server) { s with srv := srv } := by
  have hreg' := h.registry.step hm
  obtain ⟨left, queue, hp, hbuf, ha⟩ := h.split
  have ho := ha.reading hloop hc hk
  have hlen : ∀ m ∈ left, m.length < 2 ^ 31 := fun m hm => (fits_left hfits hp m hm).lt
  -- whatever branch the step has taken, it started from this client
  have hsame : ∀ {a' c'}, s.srv.loop = .reading a' → s.srv.heap a' = some c' → a' = a ∧ c' = c := by
    intro a' c' hl hc'
    obtain rfl := LoopPc.reading.inj (hloop.symm.trans hl)
    exact ⟨rfl, Option.some.inj (hc'.symm.trans hc)⟩
  rcases pass_of_stream hlen (ha.stream hc hk ho) with
    ⟨hstop, hmore⟩ | ⟨m, left', r', rfl, hnext, hrest, hsize⟩
  · cases hm with
    | passExit =>
        refine h.quiet hreg' rfl fun {left} _ ha => ?_
        have hidle := ha.pass (l := .idle) h.registry hc hk ho (ha.stream hc hk ho) rfl
          (Or.inr ⟨rfl, hmore⟩)
        rwa [show ({ c with reader := c.reader } : uv_tcp_client) = c from rfl,
          RJTcpServer.setClient_self hc] at hidle
    | passMore hl hc' hp =>
        obtain ⟨rfl, rfl⟩ := hsame hl hc'
        rcases hstop with he | he
        · rw [he] at hp
          cases hp
        · rw [he] at hp
          cases hp
          exact h.quiet hreg' rfl fun _ ha => ha.pass h.registry hc hk ho (ha.stream hc hk ho) rfl
            (Or.inr ⟨rfl, hmore⟩)
    | passStop hl hc' hp =>
        obtain ⟨rfl, rfl⟩ := hsame hl hc'
        rcases hstop with he | he <;> rw [he] at hp <;> cases hp
    | passNext hl hc' hp =>
        obtain ⟨rfl, rfl⟩ := hsame hl hc'
        rcases hstop with he | he <;> rw [he] at hp <;> cases hp
  · cases hm with
    | passExit hl hc' hp =>
        obtain ⟨rfl, rfl⟩ := hsame hl hc'
        rw [hnext] at hp
        cases hp
    | passMore hl hc' hp =>
        obtain ⟨rfl, rfl⟩ := hsame hl hc'
        rw [hnext] at hp
        cases hp
    | passStop hl hc' hp =>
        obtain ⟨rfl, rfl⟩ := hsame hl hc'
        rw [hnext] at hp
        cases hp
    | passNext hl hc' hp hh =>
        obtain ⟨rfl, rfl⟩ := hsame hl hc'
        rw [hnext] at hp
        cases hp
        cases hh with
        | drop hbad =>
            -- the call hands over a message
            rcases hbad with hnone | hneg
            · cases hnone
            · exact absurd hneg (Int.not_lt.mpr (Int.natCast_nonneg _))
        | skip _ _ hmem => exact absurd (h.registry.mem_of_open hc ho) hmem
        | deliver hmsg _ _ hd =>
            obtain rfl := RJTcpServer.heap_self (s := s.srv) hd
            obtain rfl := Option.some.inj hmsg
            refine ⟨hreg', left', queue, ?_, hbuf, ?_⟩
            · rw [pushed_append, pushed_server, delivered_append, hp]
              simp [delivered, hk]
            · have hnew := ha.pass (l := .reading _) h.registry hc hk ho hrest hsize (Or.inl rfl)
              rwa [← hloop] at hnew

/-- One evaluation of the loop of `SetBuffer`. -/
theorem pass (h : Streamed D k tr s) (hfits : ∀ m ∈ pushed tr, Fits m) {srv : RJTcpServer}
    {es : List RJTcpServer.Event} (hm : Moves D s.srv .pass es srv) :
    Streamed D k (tr ++ es.map .server) { s with srv := srv } := by
  obtain ⟨a, c, hloop, hc, -⟩ := RJTcpServer.pass_frame hm
  by_cases hk : c.conn = k
  · exact h.passOwn hfits hm hloop hc hk
  · exact h.passOther hm hloop hc hk

/-- A read callback. -/
theorem read (h : Streamed D k tr s) (hfits : ∀ m ∈ pushed tr, Fits m) {a : Addr}
    {chunk wire : List Byte} {srv : RJTcpServer} {es : List RJTcpServer.Event}
    (hw : s.readWire k (.read a chunk) = some wire) (hm : Moves D s.srv (.read a chunk) es srv) :
    Streamed D k (tr ++ es.map .server) { s with wire := wire, srv := srv } := by
  have hreg' := h.registry.step hm
  cases hm with
  | @read a c _ r hloop hc ho hne hr =>
      refine h.quiet hreg' rfl fun hleft ha => ?_
      simp only [readWire, isConn, hc, Option.any_some, decide_eq_true_eq] at hw
      split at hw
      · next hk =>
        split at hw
        · next hcond =>
          obtain rfl := Option.some.inj hw
          obtain ⟨r', hr', hroom⟩ :=
            ha.receive (fun m hm => hfits m (hleft m hm)) hloop hc hk ho hcond.1
          obtain rfl := Option.some.inj (hr.symm.trans hr')
          exact ha.read h.registry hc hk ho hr hroom hcond.2
        · cases hw
      · next hk =>
        obtain rfl := Option.some.inj hw
        refine ha.of_other rfl (fun hb hk' => ?_) (fun hl hb hk' => ?_) (fun hl _ _ => ?_)
        · rcases RJTcpServer.heap_eq (s := s.srv) hb with ⟨-, rfl⟩ | ⟨-, hold⟩
          · exact absurd hk' hk
          · exact hold
        · obtain rfl := LoopPc.reading.inj hl
          obtain rfl := RJTcpServer.heap_self (s := s.srv) hb
          exact absurd hk' hk
        · rw [hloop] at hl
          cases hl

/-- A step of the server. -/
theorem server (h : Streamed D k tr s) (hfits : ∀ m ∈ pushed tr, Fits m)
    {act : RJTcpServer.Act} {wire : List Byte} {srv : RJTcpServer} {es : List RJTcpServer.Event}
    (hw : s.readWire k act = some wire) (hm : Moves D s.srv act es srv) :
    Streamed D k (tr ++ es.map .server) { s with wire := wire, srv := srv } := by
  have hreg' := h.registry.step hm
  by_cases hact : act.other = true
  · obtain ⟨haway, hno⟩ := RJTcpServer.away_of_moves hm hact
    have hwire : wire = s.wire := by
      cases act with
      | read => cases hact
      | _ => exact (Option.some.inj hw).symm
    subst hwire
    exact h.quiet hreg' (delivered_of_no_OnMsg hno) fun _ ha => ha.of_away haway
  · cases act with
    | read a chunk => exact h.read hfits hw hm
    | pass =>
        obtain rfl := Option.some.inj hw
        exact h.pass hfits hm
    | accept a st i ac r =>
        obtain rfl := Option.some.inj hw
        cases hm with
        | acceptNone => exact h.quiet hreg' rfl fun _ ha => { ha with }
        | acceptFailed hloop hfresh =>
            refine h.quiet hreg' rfl fun _ ha => ha.of_away ⟨Nat.le_succ _, ?_, ?_, ?_⟩
            · intro b c' hc' ho
              rcases RJTcpServer.heap_eq (s := { s.srv with serial := s.srv.serial + 1 }) hc' with
                ⟨-, rfl⟩ | ⟨-, hold⟩
              · cases ho
              · exact ⟨c', hold, rfl, ho, rfl⟩
            · intro b hl
              rw [show s.srv.loop = _ from hl] at hloop
              cases hloop
            · exact id
        | accepted hloop => exact h.quiet hreg' rfl fun _ ha => ha.accept hloop
    | _ => exact absurd rfl hact

theorem step {a : Act} (h : Streamed D k tr s) (hfits : ∀ m ∈ pushed tr, Fits m)
    (hs : EndToEnd.step D k s a = some (s', es)) : Streamed D k (tr ++ es) s' := by
  cases a with
  | client a =>
      obtain ⟨⟨cli, es'⟩, hstep, he⟩ := Option.map_eq_some_iff.mp hs
      obtain ⟨rfl, rfl⟩ := Prod.mk.inj he
      exact h.client (RJTcpClient.queues_of_step hstep)
  | server a =>
      obtain ⟨wire, hw, hs⟩ := Option.bind_eq_some_iff.mp hs
      obtain ⟨⟨srv, es'⟩, hstep, he⟩ := Option.map_eq_some_iff.mp hs
      obtain ⟨rfl, rfl⟩ := Prod.mk.inj he
      exact h.server hfits hw (RJTcpServer.moves_of_step hstep)

theorem init : Streamed D k [] (machine D k).init where
  registry := .init
  split := ⟨[], [], rfl, rfl, fun _ => rfl, nofun, nofun, nofun, nofun⟩

end Streamed

theorem fits_of_le {m : List Byte} (h : m.length ≤ 2 ^ 29) : Fits m := by
  unfold Fits PACKAGE_HEAD_SIZE READ_SIZE
  omega

theorem streamed_run {tr : List Event} {s : EndToEnd} (h : (machine D k).Run AnyStep tr s)
    (hsize : ∀ m ∈ pushed tr, m.length ≤ 2 ^ 29) : Streamed D k tr s := by
  refine h.invariant (fun tr s => (∀ m ∈ pushed tr, m.length ≤ 2 ^ 29) → Streamed D k tr s)
    (fun _ => .init) ?_ hsize
  intro tr s a s' es ih _ hs hsize'
  have hsize : ∀ m ∈ pushed tr, m.length ≤ 2 ^ 29 := fun m hm =>
    hsize' m (pushed_append tr es ▸ List.mem_append_left _ hm)
  exact (ih hsize).step (fun m hm => fits_of_le (hsize m hm)) hs

/-- **From end to end.**  Whatever the client's threads, the two loop threads
and the cutting of the stream into reads do, the messages delivered from the
connection are a prefix of the messages pushed. -/
theorem delivered_prefix_pushed {tr : List Event} {s : EndToEnd}
    (h : (machine D k).Run AnyStep tr s) (hsize : ∀ m ∈ pushed tr, m.length ≤ 2 ^ 29) :
    delivered k tr <+: pushed tr := by
  obtain ⟨left, queue, hp, -⟩ := (streamed_run h hsize).split
  rw [hp, List.append_assoc]
  exact List.prefix_append _ _

/-- Two threads and one wake-up; the first read ends inside the first header,
the second brings the rest. -/
theorem delivered_prefix_pushed_two :
    ∃ tr s, (machine .lp64 0).Run AnyStep tr s ∧ delivered 0 tr = [[66, 67], [65]] ∧
      delivered 0 tr <+: pushed tr := by
  obtain ⟨tr, s, hrun, hp⟩ := (machine .lp64 0).run_of_exec AnyStep
    [.client (.HandleConnection 0 0), .client (.send 0 [65]), .client (.send 1 [66, 67]),
      .client (.push 1), .client (.push 0), .client (.signal 1), .client .asyncCallBack,
      .client .lock, .client .drain, .client (.signal 0), .client .drain, .client .drained,
      .server (.accept 1 0 0 0 0), .server (.read 1 [0x75, 0x76, 0]), .server .pass,
      .server (.read 1 [0, 0, 2, 66, 67, 0x75, 0x76, 0, 0, 0, 1, 65]),
      .server .pass, .server .pass, .server .pass]
    (fun q => decide (delivered 0 q.2 = [[66, 67], [65]] ∧ pushed q.2 = [[66, 67], [65]]))
    (by decide +kernel)
  obtain ⟨hdel, hpush⟩ := of_decide_eq_true hp
  refine ⟨tr, s, hrun, hdel, delivered_prefix_pushed hrun fun m hm => ?_⟩
  have hlen : ∀ m ∈ [[66, 67], [(65 : Byte)]], m.length ≤ 2 ^ 29 := by decide
  exact hlen m (hpush ▸ hm)

/-- No run ends because a read cannot be taken in: between two reads there is
room for whatever comes next. -/
theorem read_defined {tr : List Event} {s : EndToEnd} (h : (machine D k).Run AnyStep tr s)
    (hsize : ∀ m ∈ pushed tr, m.length ≤ 2 ^ 29) {a : Addr} {c : uv_tcp_client}
    (hloop : s.srv.loop = .idle) (hc : s.srv.heap a = some c) (hk : c.conn = k)
    (ho : c.closing = none) {chunk : List Byte} (hne : chunk ≠ []) (hlen : chunk.length ≤ READ_SIZE)
    (hpre : chunk <+: s.wire) : ((machine D k).step s (.server (.read a chunk))).isSome := by
  have hst := streamed_run h hsize
  obtain ⟨left, queue, hp, -, ha⟩ := hst.split
  have hfits := Streamed.fits_left (fun m hm => fits_of_le (hsize m hm)) hp
  obtain ⟨r, hr, -⟩ := ha.receive hfits hloop hc hk ho hlen
  have hconn : s.isConn k a = true := by
    rw [isConn, hc]
    exact decide_eq_true hk
  show (step D k s (.server (.read a chunk))).isSome
  simp only [step, readWire, hconn, if_true, if_pos (And.intro hlen hpre), Option.bind_some,
    RJTcpServer.step, hloop, hc, ho, ne_eq, hne, not_false_eq_true, and_self,
    RJTcpServer.HandleMsg, hr, Option.map_some, Option.isSome_some]

end EndToEnd

end TestExamples
