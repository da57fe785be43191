/-
TestExamples/MyClientEvents.lean

What the application of libuvClient_test/MyClient.cpp hears of: `OnConnection`
and `OnMsg` file an entry in `m_receiveMsgVec`, and the thread of
`MsgDespatcher` swaps the vector out and hands its entries to `Handle`.

The two functions are split at `m_receiveMsgLock` and at
`m_receiveMsgSem.Release()`, the despatcher at its wait, its lock and every
call of `Handle`; between two steps any other thread may move, the requests
of MyClient.lean among them.  `Wait(1)` ends when it likes to, and the
despatcher never looks at its result.

A connection travels through the vector as the string `OnConnection`, and a
frame as its bytes.  Nothing is lost, reordered or handed out twice on the way
(`Filed`); but `Handle` tells the two apart by the C string the entry begins
with, so a frame that begins with `OnConnection` and a NUL is reported as a
connection.  The calls are those due exactly where no such frame has been
received (`eventStream_iff`).

The callback of the application is set before `Start` and stays.
-/
import TestExamples.MessageHeadRange
import TestExamples.MyClientSteps

namespace TestExamples

open MyClient (CallBack ON_CONNECTION_MSG replyId)

/-- What the loop thread is doing. -/
inductive Filing
  | idle
  | storing (buf : List Byte)  -- before the push
  | releasing                  -- before `m_receiveMsgSem.Release()`
  deriving DecidableEq, Repr

/-- Where the thread of `MsgDespatcher` is. -/
inductive DespatcherPc
  | absent                            -- before `Start` creates it
  | test                              -- before `while (m_is_running)`
  | waiting                           -- in `m_receiveMsgSem.Wait(1)`
  | swapping
  | handling (rest : List (List Byte))
  | done
  deriving DecidableEq, Repr

/-- The entry the loop thread has in hand. -/
def Filing.inHand : Filing → List (List Byte)
  | .storing buf => [buf]
  | _ => []

/-- The entries the despatcher has in hand. -/
def DespatcherPc.inHand : DespatcherPc → List (List Byte)
  | .handling rest => rest
  | _ => []

/-- `MyClient` with its loop thread and the thread of `MsgDespatcher`. -/
structure MsgDespatcher where
  client : MyClient
  m_is_running : Bool
  temp_bufs : List (List Byte)
  loop : Filing
  pc : DespatcherPc

/-- The waiter a frame is a reply to. -/
def MyClient.waiter (s : MyClient) (msg : List Byte) : Option Thread :=
  if replyId msg ≠ 0 then s.GetSyscReqSem (replyId msg) else none

namespace MsgDespatcher

inductive Act
  | Start
  | Stop
  | request (a : MyClient.Act)
  | OnConnection
  | OnMsg (msg : List Byte)
  | store
  | release
  | test
  | wait (res : WaitResult)
  | swap
  | Handle
  | clear

/-- `connected` and `received` are what the application is to hear of: a
connection, and a frame longer than the head that is not a reply to a
registered `SyncSend`.  `called` is a call `Handle` makes. -/
inductive Event
  | connected
  | received (msg : List Byte)
  | called (call : CallBack)
  | request (e : MyClient.Event)
  deriving DecidableEq, Repr

def init : MsgDespatcher where
  client := .init
  m_is_running := false
  temp_bufs := []
  loop := .idle
  pc := .absent

abbrev Outcome := Option (MsgDespatcher × List Event)

/-- The part of `MyClient::OnMsg` up to `m_receiveMsgLock`. -/
def OnMsg (s : MsgDespatcher) (msg : List Byte) : Outcome :=
  if msg.length ≤ MSG_HEAD_LENGTH then some (s, [])
  else
    match s.client.waiter msg with
    | some _ => (s.client.OnMsg msg).map fun c => ({ s with client := c }, [])
    | none => some ({ s with loop := .storing msg }, [.received msg])

/-- One step. -/
def step (s : MsgDespatcher) : Act → Outcome
  | .Start =>
      if s.pc = .absent then some ({ s with m_is_running := true, pc := .test }, []) else none
  | .Stop => if s.m_is_running then some ({ s with m_is_running := false }, []) else some (s, [])
  | .request (.onMsg _) => none
  | .request a => (s.client.step a).map fun r => ({ s with client := r.1 }, r.2.map .request)
  | .OnConnection =>
      if s.loop = .idle then some ({ s with loop := .storing ON_CONNECTION_MSG }, [.connected])
      else none
  | .OnMsg msg => if s.loop = .idle then s.OnMsg msg else none
  | .store =>
      match s.loop with
      | .storing buf =>
          some ({ s with
            client := { s.client with m_receiveMsgVec := s.client.m_receiveMsgVec ++ [buf] }
            loop := .releasing }, [])
      | _ => none
  | .release =>
      match s.loop with
      | .releasing =>
          some ({ s with
            client := { s.client with m_receiveMsgSem := s.client.m_receiveMsgSem + 1 }
            loop := .idle }, [])
      | _ => none
  | .test =>
      if s.pc = .test then
        some ({ s with pc := if s.m_is_running then .waiting else .done }, [])
      else none
  | .wait res =>
      match s.pc, res, s.client.m_receiveMsgSem with
      | .waiting, .object, n + 1 =>
          some ({ s with client := { s.client with m_receiveMsgSem := n }, pc := .swapping }, [])
      | .waiting, .timeout, _ | .waiting, .failed, _ => some ({ s with pc := .swapping }, [])
      | _, _, _ => none
  | .swap =>
      if s.pc = .swapping then
        let bufs := s.client.m_receiveMsgVec
        some ({ s with
          client := { s.client with m_receiveMsgVec := s.temp_bufs }
          temp_bufs := bufs
          pc := if bufs = [] then .test else .handling bufs }, [])
      else none
  | .Handle =>
      match s.pc with
      | .handling (msg :: rest) =>
          -- no step where `substr` throws
          (MyClient.Handle msg).map fun call =>
            ({ s with pc := .handling rest }, call.toList.map .called)
      | _ => none
  | .clear =>
      match s.pc with
      | .handling [] => some ({ s with temp_bufs := [], pc := .test }, [])
      | _ => none

/-- `MyClient` with its despatcher as a machine. -/
def machine : Machine MsgDespatcher Act Event := ⟨init, step⟩

/-! ### The branches -/

/-- A request of the application touches neither the vector nor the
despatcher. -/
theorem moves_m_receiveMsgVec {c c' : MyClient} {a : MyClient.Act} {es : List MyClient.Event}
    (h : MyClient.Moves c a es c') (ha : ∀ msg, a ≠ .onMsg msg) :
    c'.m_receiveMsgVec = c.m_receiveMsgVec := by
  cases h with
  | take =>
      show (c.takeResult _).2.m_receiveMsgVec = _
      unfold MyClient.takeResult
      split <;> rfl
  | onMsg => exact absurd rfl (ha _)
  | _ => rfl

/-- A reply goes to its waiter and not into the vector. -/
theorem OnMsg_m_receiveMsgVec {c c' : MyClient} {msg : List Byte} {t : Thread}
    (h : c.OnMsg msg = some c') (hwait : c.waiter msg = some t) :
    c'.m_receiveMsgVec = c.m_receiveMsgVec := by
  have hid : replyId msg ≠ 0 ∧ c.m_reqSemMap (replyId msg) = some t := by
    unfold MyClient.waiter at hwait
    split at hwait
    · next hid => exact ⟨hid, hwait⟩
    · cases hwait
  cases MyClient.files_of_OnMsg h with
  | short => rfl
  | stored => rfl
  | queued _ hfree =>
      rcases hfree with hzero | hnone
      · exact absurd hzero hid.1
      · rw [hid.2] at hnone
        cases hnone

/-- **The steps, branch by branch.** -/
inductive Moves (s : MsgDespatcher) : Act → List Event → MsgDespatcher → Prop
  | Start (hpc : s.pc = .absent) : Moves s .Start [] { s with m_is_running := true, pc := .test }
  | Stop : Moves s .Stop [] { s with m_is_running := false }
  | request {a es c} (hreq : ∀ msg, a ≠ .onMsg msg) (hs : s.client.step a = some (c, es)) :
      Moves s (.request a) (es.map .request) { s with client := c }
  | OnConnection (hloop : s.loop = .idle) :
      Moves s .OnConnection [.connected] { s with loop := .storing ON_CONNECTION_MSG }
  | short {msg} (hloop : s.loop = .idle) (hlen : msg.length ≤ MSG_HEAD_LENGTH) :
      Moves s (.OnMsg msg) [] s
  | replied {msg t c} (hloop : s.loop = .idle) (hwait : s.client.waiter msg = some t)
      (hs : s.client.OnMsg msg = some c) : Moves s (.OnMsg msg) [] { s with client := c }
  | received {msg} (hloop : s.loop = .idle) (hlen : MSG_HEAD_LENGTH < msg.length)
      (hwait : s.client.waiter msg = none) :
      Moves s (.OnMsg msg) [.received msg] { s with loop := .storing msg }
  | store {buf} (hloop : s.loop = .storing buf) :
      Moves s .store [] { s with
        client := { s.client with m_receiveMsgVec := s.client.m_receiveMsgVec ++ [buf] }
        loop := .releasing }
  | release (hloop : s.loop = .releasing) :
      Moves s .release [] { s with
        client := { s.client with m_receiveMsgSem := s.client.m_receiveMsgSem + 1 }
        loop := .idle }
  | again (hpc : s.pc = .test) (hrun : s.m_is_running = true) :
      Moves s .test [] { s with pc := .waiting }
  | stopped (hpc : s.pc = .test) (hrun : s.m_is_running = false) :
      Moves s .test [] { s with pc := .done }
  | wait {res n} (hpc : s.pc = .waiting) :
      Moves s (.wait res) []
        { s with client := { s.client with m_receiveMsgSem := n }, pc := .swapping }
  | swapNone (hpc : s.pc = .swapping) (hvec : s.client.m_receiveMsgVec = []) :
      Moves s .swap [] { s with
        client := { s.client with m_receiveMsgVec := s.temp_bufs }
        temp_bufs := []
        pc := .test }
  | swap (hpc : s.pc = .swapping) (hvec : s.client.m_receiveMsgVec ≠ []) :
      Moves s .swap [] { s with
        client := { s.client with m_receiveMsgVec := s.temp_bufs }
        temp_bufs := s.client.m_receiveMsgVec
        pc := .handling s.client.m_receiveMsgVec }
  | Handle {msg rest call} (hpc : s.pc = .handling (msg :: rest))
      (hcall : MyClient.Handle msg = some call) :
      Moves s .Handle (call.toList.map .called) { s with pc := .handling rest }
  | clear (hpc : s.pc = .handling []) : Moves s .clear [] { s with temp_bufs := [], pc := .test }

theorem moves_of_OnMsg {s s' : MsgDespatcher} {msg : List Byte} {es : List Event}
    (h : s.step (.OnMsg msg) = some (s', es)) : Moves s (.OnMsg msg) es s' := by
  simp only [step] at h
  split at h
  · next hloop =>
    unfold OnMsg at h
    split at h
    · next hlen =>
      obtain ⟨rfl, rfl⟩ := Prod.mk.inj (Option.some.inj h)
      exact .short hloop hlen
    · next hlen =>
      split at h
      · next t hwait =>
        obtain ⟨c, hc, he⟩ := Option.map_eq_some_iff.mp h
        obtain ⟨rfl, rfl⟩ := Prod.mk.inj he
        exact .replied hloop hwait hc
      · next hwait =>
        obtain ⟨rfl, rfl⟩ := Prod.mk.inj (Option.some.inj h)
        exact .received hloop (Nat.not_le.mp hlen) hwait
  · cases h

theorem moves_of_request {s s' : MsgDespatcher} {a : MyClient.Act} {es : List Event}
    (h : s.step (.request a) = some (s', es)) : Moves s (.request a) es s' := by
  have key : (∀ msg, a ≠ .onMsg msg) →
      (s.client.step a).map (fun r => ({ s with client := r.1 }, r.2.map .request)) =
        some (s', es) → Moves s (.request a) es s' := by
    intro hreq hs
    obtain ⟨r, hr, he⟩ := Option.map_eq_some_iff.mp hs
    obtain ⟨rfl, rfl⟩ := Prod.mk.inj he
    exact .request hreq hr
  cases a with
  | onMsg msg => cases h
  | _ => exact key (by simp) h

theorem moves_of_wait {s s' : MsgDespatcher} {res : WaitResult} {es : List Event}
    (h : s.step (.wait res) = some (s', es)) : Moves s (.wait res) es s' := by
  simp only [step] at h
  split at h
  · next n hpc hsem =>
    obtain ⟨rfl, rfl⟩ := Prod.mk.inj (Option.some.inj h)
    exact .wait hpc
  · next hpc =>
    obtain ⟨rfl, rfl⟩ := Prod.mk.inj (Option.some.inj h)
    exact .wait hpc
  · next hpc =>
    obtain ⟨rfl, rfl⟩ := Prod.mk.inj (Option.some.inj h)
    exact .wait hpc
  · cases h

theorem moves_of_step {s s' : MsgDespatcher} {a : Act} {es : List Event}
    (h : s.step a = some (s', es)) : Moves s a es s' := by
  cases a with
  | request a => exact moves_of_request h
  | OnMsg msg => exact moves_of_OnMsg h
  | wait res => exact moves_of_wait h
  | Start =>
      simp only [step] at h
      split at h
      · next hpc =>
        obtain ⟨rfl, rfl⟩ := Prod.mk.inj (Option.some.inj h)
        exact .Start hpc
      · cases h
  | Stop =>
      simp only [step] at h
      split at h
      · obtain ⟨rfl, rfl⟩ := Prod.mk.inj (Option.some.inj h)
        exact .Stop
      · next hrun =>
        obtain ⟨rfl, rfl⟩ := Prod.mk.inj (Option.some.inj h)
        have hstop := Moves.Stop (s := s)
        rwa [← Bool.eq_false_iff.mpr hrun] at hstop
  | OnConnection =>
      simp only [step] at h
      split at h
      · next hloop =>
        obtain ⟨rfl, rfl⟩ := Prod.mk.inj (Option.some.inj h)
        exact .OnConnection hloop
      · cases h
  | store =>
      simp only [step] at h
      split at h
      · next buf hloop =>
        obtain ⟨rfl, rfl⟩ := Prod.mk.inj (Option.some.inj h)
        exact .store hloop
      · cases h
  | release =>
      simp only [step] at h
      split at h
      · next hloop =>
        obtain ⟨rfl, rfl⟩ := Prod.mk.inj (Option.some.inj h)
        exact .release hloop
      · cases h
  | test =>
      simp only [step] at h
      split at h
      · next hpc =>
        obtain ⟨rfl, rfl⟩ := Prod.mk.inj (Option.some.inj h)
        by_cases hrun : s.m_is_running = true
        · rw [if_pos hrun]
          exact .again hpc hrun
        · rw [if_neg hrun]
          exact .stopped hpc (Bool.eq_false_iff.mpr hrun)
      · cases h
  | swap =>
      simp only [step] at h
      split at h
      · next hpc =>
        obtain ⟨rfl, rfl⟩ := Prod.mk.inj (Option.some.inj h)
        by_cases hvec : s.client.m_receiveMsgVec = []
        · rw [if_pos hvec, hvec]
          exact .swapNone hpc hvec
        · rw [if_neg hvec]
          exact .swap hpc hvec
      · cases h
  | Handle =>
      simp only [step] at h
      split at h
      · next msg rest hpc =>
        obtain ⟨call, hcall, he⟩ := Option.map_eq_some_iff.mp h
        obtain ⟨rfl, rfl⟩ := Prod.mk.inj he
        exact .Handle hpc hcall
      · cases h
  | clear =>
      simp only [step] at h
      split at h
      · next hpc =>
        obtain ⟨rfl, rfl⟩ := Prod.mk.inj (Option.some.inj h)
        exact .clear hpc
      · cases h

/-- Uninterrupted, the three sections of a frame are `MyClient.OnMsg`. -/
theorem OnMsg_sections {s : MsgDespatcher} {msg : List Byte} (tr : List Event)
    (hloop : s.loop = .idle) (hlen : MSG_HEAD_LENGTH < msg.length)
    (hwait : s.client.waiter msg = none) :
    ∃ s', machine.exec AnyStep s tr [.OnMsg msg, .store, .release] =
        some (s', tr ++ [.received msg]) ∧
      s.client.OnMsg msg = some s'.client := by
  refine ⟨{ s with client := s.client.receiveMsg msg }, ?_, ?_⟩
  · have h₁ : s.step (.OnMsg msg) = some ({ s with loop := .storing msg }, [.received msg]) := by
      simp only [step, hloop, if_true, OnMsg, Nat.not_le.mpr hlen, if_false, hwait]
    rw [Machine.exec_cons trivial h₁, Machine.exec_cons trivial rfl,
      Machine.exec_cons trivial rfl, List.append_nil, List.append_nil]
    simp only [Machine.exec, MyClient.receiveMsg, ← hloop]
  · unfold MyClient.waiter at hwait
    unfold MyClient.OnMsg
    rw [if_neg (Nat.not_le.mpr hlen)]
    dsimp only
    split
    · next hid =>
      rw [if_pos hid] at hwait
      rw [hwait]
    · rfl

/-! ### The event stream -/

/-- The fields of a frame. -/
def fields (msg : List Byte) : MsgFields :=
  ⟨atoi (msg.take REQ_ID_LENGH), cmdField msg, msg.drop MSG_HEAD_LENGTH⟩

/-- The call made. -/
def Event.call? : Event → Option CallBack
  | .called call => some call
  | _ => none

/-- The call due. -/
def Event.due? : Event → Option CallBack
  | .connected => some .OnConnection
  | .received msg => some (.OnMsg (fields msg))
  | _ => none

/-- The entry filed. -/
def Event.buf? : Event → Option (List Byte)
  | .connected => some ON_CONNECTION_MSG
  | .received msg => some msg
  | _ => none

/-- The calls made on `IClientCallBack`. -/
def calls (tr : List Event) : List CallBack := tr.filterMap Event.call?

/-- The calls due: one for each connection and one for each frame. -/
def due (tr : List Event) : List CallBack := tr.filterMap Event.due?

/-- The entries for which no call has been made yet. -/
def pending (s : MsgDespatcher) : List (List Byte) :=
  s.pc.inHand ++ s.client.m_receiveMsgVec ++ s.loop.inHand

/-- The steps by which what has been received is worked off. -/
def Act.finishes : Act → Bool
  | .store | .release | .test | .wait _ | .swap | .Handle | .clear => true
  | _ => false

/-- Nothing but these steps. -/
def Finishes (_ : MsgDespatcher) (a : Act) : Prop := a.finishes = true

instance (s : MsgDespatcher) (a : Act) : Decidable (Finishes s a) :=
  inferInstanceAs (Decidable (_ = true))

/-- What the application may rely on.  The calls made are the first of those
due, and as many are missing as there are entries pending; no frame is
reported as a connection; and while the client runs, the threads left to
themselves make the calls that are missing. -/
structure EventStream (tr : List Event) (s : MsgDespatcher) : Prop where
  inOrder : calls tr <+: due tr
  once : (calls tr).length + s.pending.length = (due tr).length
  noForgery : ∀ {msg}, .received msg ∈ tr → MyClient.Handle msg ≠ some (some .OnConnection)
  drains : s.m_is_running = true →
    ∃ as s' tr', machine.exec Finishes s tr as = some (s', tr') ∧ calls tr' = due tr

/-! ### What is filed comes out -/

/-- The call made for an entry. -/
def handled (buf : List Byte) : Option CallBack := (MyClient.Handle buf).join

/-- The entries filed so far. -/
def bufs (tr : List Event) : List (List Byte) := tr.filterMap Event.buf?

/-- What holds of the vector and of the despatcher in every run. -/
structure Filed (tr : List Event) (s : MsgDespatcher) : Prop where
  temp : (∀ rest, s.pc ≠ .handling rest) → s.temp_bufs = []
  alive : s.m_is_running = true → s.pc ≠ .absent ∧ s.pc ≠ .done
  entries : ∀ buf ∈ s.pending, buf = ON_CONNECTION_MSG ∨ MSG_HEAD_LENGTH < buf.length
  order : calls tr ++ s.pending.filterMap handled = (bufs tr).filterMap handled

section Lists

variable (tr es : List Event)

@[simp] theorem calls_append : calls (tr ++ es) = calls tr ++ calls es :=
  List.filterMap_append

@[simp] theorem bufs_append : bufs (tr ++ es) = bufs tr ++ bufs es :=
  List.filterMap_append

/-- The events of a request are none of the despatcher's. -/
theorem filterMap_request {β : Type} {f : Event → Option β} (hf : ∀ e, f (.request e) = none)
    (rs : List MyClient.Event) : (rs.map Event.request).filterMap f = [] := by
  rw [List.filterMap_map, List.filterMap_eq_nil_iff]
  intro e _
  exact hf e

@[simp] theorem calls_request (rs : List MyClient.Event) : calls (rs.map .request) = [] :=
  filterMap_request (fun _ => rfl) rs

@[simp] theorem bufs_request (rs : List MyClient.Event) : bufs (rs.map .request) = [] :=
  filterMap_request (fun _ => rfl) rs

end Lists

section Moves

variable {s s' : MsgDespatcher} {a : Act} {es tr : List Event}

/-- What a step does to the pending entries: it takes the one in hand, or
appends the one filed. -/
theorem pending_of_moves (hm : Moves s a es s')
    (htemp : (∀ rest, s.pc ≠ .handling rest) → s.temp_bufs = []) :
    (∃ buf call, MyClient.Handle buf = some call ∧ s.pending = buf :: s'.pending ∧
        calls es = call.toList ∧ bufs es = []) ∨
      (s'.pending = s.pending ++ bufs es ∧ calls es = []) := by
  cases hm with
  | @Handle msg rest call hpc hcall =>
      refine Or.inl ⟨msg, call, hcall, by simp [pending, DespatcherPc.inHand, hpc], ?_⟩
      rcases call with - | call
      · exact ⟨rfl, rfl⟩
      · exact ⟨rfl, rfl⟩
  | request hreq hs =>
      refine Or.inr ⟨?_, calls_request _⟩
      rw [bufs_request, List.append_nil, pending, pending]
      show _ ++ (MyClient.m_receiveMsgVec _) ++ _ = _
      rw [moves_m_receiveMsgVec (MyClient.moves_of_step hs) hreq]
  | replied hloop hwait hs =>
      refine Or.inr ⟨?_, rfl⟩
      show _ ++ (MyClient.m_receiveMsgVec _) ++ _ = _ ++ []
      rw [OnMsg_m_receiveMsgVec hs hwait, List.append_nil]
      rfl
  | swapNone hpc hvec =>
      have ht := htemp (by simp [hpc])
      refine Or.inr ⟨?_, rfl⟩
      simp [pending, DespatcherPc.inHand, hpc, hvec, ht, bufs]
  | swap hpc hvec =>
      have ht := htemp (by simp [hpc])
      refine Or.inr ⟨?_, rfl⟩
      simp [pending, DespatcherPc.inHand, hpc, ht, bufs]
  | _ =>
      refine Or.inr ⟨?_, rfl⟩
      simp [pending, DespatcherPc.inHand, Filing.inHand, bufs, Event.buf?, *]

/-- What is filed is the string of a connection or a frame. -/
theorem bufs_of_moves (hm : Moves s a es s') {buf : List Byte} (hbuf : buf ∈ bufs es) :
    buf = ON_CONNECTION_MSG ∨ MSG_HEAD_LENGTH < buf.length := by
  cases hm with
  | OnConnection => exact Or.inl (List.mem_singleton.mp hbuf)
  | received _ hlen =>
      rw [List.mem_singleton.mp hbuf]
      exact Or.inr hlen
  | request =>
      rw [bufs_request] at hbuf
      cases hbuf
  | @Handle msg rest call =>
      rcases call with - | call
      · cases hbuf
      · cases hbuf
  | _ => cases hbuf

theorem Filed.next (h : Filed tr s) (hs : s.step a = some (s', es)) : Filed (tr ++ es) s' := by
  have hm := moves_of_step hs
  have hpending := pending_of_moves hm h.temp
  refine ⟨?_, ?_, ?_, ?_⟩
  · have htemp := h.temp
    cases hm with
    | clear => exact fun _ => rfl
    | swapNone => exact fun _ => rfl
    | swap => exact fun hpc => absurd rfl (hpc _)
    | Handle => exact fun hpc => absurd rfl (hpc _)
    | Start hpc => exact fun _ => htemp (by simp [hpc])
    | again hpc => exact fun _ => htemp (by simp [hpc])
    | stopped hpc => exact fun _ => htemp (by simp [hpc])
    | wait hpc => exact fun _ => htemp (by simp [hpc])
    | _ => exact htemp
  · have halive := h.alive
    cases hm with
    | Stop => nofun
    | stopped _ hrun => exact fun hr => absurd (hrun.symm.trans hr) (by simp)
    | Start => exact fun _ => by simp
    | again => exact fun _ => by simp
    | wait => exact fun _ => by simp
    | swapNone => exact fun _ => by simp
    | swap => exact fun _ => by simp
    | Handle => exact fun _ => by simp
    | clear => exact fun _ => by simp
    | _ => exact halive
  · intro buf hbuf
    rcases hpending with ⟨b, call, -, heq, -⟩ | ⟨heq, -⟩
    · apply h.entries
      rw [heq]
      exact List.mem_cons_of_mem b hbuf
    · rw [heq] at hbuf
      rcases List.mem_append.mp hbuf with hold | hnew
      · exact h.entries buf hold
      · exact bufs_of_moves hm hnew
  · rw [calls_append, bufs_append, List.filterMap_append, ← h.order]
    rcases hpending with ⟨b, call, hcall, heq, hcalls, hbufs⟩ | ⟨heq, hcalls⟩
    · have hb : handled b = call := by
        show (MyClient.Handle b).join = call
        rw [hcall]
        rfl
      rw [hcalls, hbufs, heq, List.filterMap_nil, List.append_nil, List.append_assoc]
      congr 1
      rcases call with - | call
      · rw [List.filterMap_cons_none hb]
        rfl
      · rw [List.filterMap_cons_some hb]
        rfl
    · rw [hcalls, heq, List.append_nil, List.filterMap_append, List.append_assoc]

/-- **Nothing is lost, reordered or handed out twice.** -/
theorem filed (h : machine.Run AnyStep tr s) : Filed tr s := by
  refine h.invariant Filed ?_ fun h _ hs => h.next hs
  exact ⟨fun _ => rfl, nofun, nofun, rfl⟩

end Moves

/-! ### What `Handle` makes of an entry -/

theorem handled_connection : handled ON_CONNECTION_MSG = some .OnConnection := by decide

theorem Handle_of_plain {msg : List Byte} (hlen : MSG_HEAD_LENGTH < msg.length)
    (hplain : cstr msg ≠ ON_CONNECTION_MSG) :
    MyClient.Handle msg = some (some (.OnMsg (fields msg))) := by
  unfold MyClient.Handle
  rw [if_neg hplain, if_neg (Nat.not_le.mpr hlen), parseMsg_of_le (Nat.le_of_lt hlen)]
  rfl

/-- A forged frame is reported as a connection. -/
theorem Handle_of_forged {msg : List Byte} (hforged : cstr msg = ON_CONNECTION_MSG) :
    MyClient.Handle msg = some (some .OnConnection) := by
  unfold MyClient.Handle
  rw [if_pos hforged]

/-- `Handle` makes one call for every entry. -/
theorem exists_call {buf : List Byte} (h : buf = ON_CONNECTION_MSG ∨ MSG_HEAD_LENGTH < buf.length) :
    ∃ call, MyClient.Handle buf = some (some call) := by
  by_cases hc : cstr buf = ON_CONNECTION_MSG
  · exact ⟨_, Handle_of_forged hc⟩
  · rcases h with rfl | hlen
    · exact absurd (by decide) hc
    · exact ⟨_, Handle_of_plain hlen hc⟩

/-- A frame received is longer than the head. -/
theorem length_of_received {tr : List Event} {s : MsgDespatcher} (h : machine.Run AnyStep tr s) :
    ∀ msg, .received msg ∈ tr → MSG_HEAD_LENGTH < msg.length := by
  refine h.invariant (fun tr _ => ∀ msg, .received msg ∈ tr → MSG_HEAD_LENGTH < msg.length)
    nofun fun ih _ hs msg hmsg => ?_
  rcases List.mem_append.mp hmsg with hold | hnew
  · exact ih msg hold
  · cases moves_of_step hs with
    | received _ hlen =>
        obtain rfl : msg = _ := by simpa using hnew
        exact hlen
    | _ => simp at hnew

/-- No forged frame has been received. -/
def Plain (tr : List Event) : Prop := ∀ msg, .received msg ∈ tr → cstr msg ≠ ON_CONNECTION_MSG

/-- Two partial maps that are defined at the same places. -/
theorem filterMap_eq_iff {α β : Type} {f g : α → Option β} {l : List α}
    (hdom : ∀ a ∈ l, (f a).isSome = (g a).isSome) :
    l.filterMap f = l.filterMap g ↔ ∀ a ∈ l, f a = g a := by
  induction l with
  | nil => exact iff_of_true rfl nofun
  | cons a l ih =>
      have ih := ih fun b hb => hdom b (List.mem_cons_of_mem a hb)
      have ha := hdom a (List.mem_cons_self ..)
      rw [List.forall_mem_cons, ← ih]
      rcases hf : f a with - | x
      · rw [hf] at ha
        have hg : g a = none := Option.not_isSome_iff_eq_none.mp (by simp [← ha])
        rw [List.filterMap_cons_none hf, List.filterMap_cons_none hg, hg]
        exact (and_iff_right rfl).symm
      · rw [hf] at ha
        obtain ⟨y, hg⟩ := Option.isSome_iff_exists.mp ha.symm
        rw [List.filterMap_cons_some hf, List.filterMap_cons_some hg, hg, List.cons.injEq,
          Option.some.injEq]

/-- What comes out for the entries is what is due, unless one of them is
forged. -/
theorem handled_bufs_iff {tr : List Event} {s : MsgDespatcher} (h : machine.Run AnyStep tr s) :
    (bufs tr).filterMap handled = due tr ↔ Plain tr := by
  have hlong := length_of_received h
  rw [bufs, List.filterMap_filterMap, due, filterMap_eq_iff]
  · constructor
    · intro hall msg hmsg hforged
      have hcall : (MyClient.Handle msg).join = some (.OnMsg (fields msg)) := hall _ hmsg
      rw [Handle_of_forged hforged] at hcall
      cases hcall
    · intro hplain e he
      cases e with
      | connected => exact handled_connection
      | received msg =>
          show (MyClient.Handle msg).join = _
          rw [Handle_of_plain (hlong msg he) (hplain msg he)]
          rfl
      | _ => rfl
  · intro e he
    cases e with
    | connected => rfl
    | received msg =>
        obtain ⟨call, hcall⟩ := exists_call (Or.inr (hlong msg he))
        show ((MyClient.Handle msg).join).isSome = _
        rw [hcall]
        rfl
    | _ => rfl

/-! ### Working off what is pending -/

end MsgDespatcher

/-- How far the despatcher is from the next entry. -/
def DespatcherPc.rank : DespatcherPc → Nat
  | .handling [] => 4
  | .test => 3
  | .waiting => 2
  | .swapping => 1
  | _ => 0

def Filing.rank : Filing → Nat
  | .storing _ => 1
  | _ => 0

namespace MsgDespatcher

/-- Bounds the finishing steps until nothing is pending. -/
def rank (s : MsgDespatcher) : Nat :=
  5 * s.pending.length + s.pc.rank + s.loop.rank

section Finishes

variable {s s' : MsgDespatcher} {a : Act} {es tr : List Event}

/-- The finishing steps bring nothing new. -/
theorem finishes_frame (hfin : Finishes s a) (hs : s.step a = some (s', es)) :
    bufs es = [] ∧ s'.m_is_running = s.m_is_running := by
  cases moves_of_step hs with
  | @Handle msg rest call =>
      rcases call with - | call
      · exact ⟨rfl, rfl⟩
      · exact ⟨rfl, rfl⟩
  | Start => cases hfin
  | Stop => cases hfin
  | request => cases hfin
  | OnConnection => cases hfin
  | short => cases hfin
  | replied => cases hfin
  | received => cases hfin
  | _ => exact ⟨rfl, rfl⟩

/-- While something is pending, a finishing step brings it closer to its
call. -/
theorem exists_finishing_step (h : Filed tr s) (hrun : s.m_is_running = true)
    (hne : s.pending ≠ []) :
    ∃ a s' es, Finishes s a ∧ s.step a = some (s', es) ∧ s'.rank < s.rank := by
  obtain ⟨habsent, hdone⟩ := h.alive hrun
  rcases hloop : s.loop with - | buf | -
  case storing =>
    refine ⟨.store, _, _, rfl, by simp only [step, hloop]; rfl, ?_⟩
    simp [rank, pending, Filing.inHand, Filing.rank, hloop]
  all_goals
    rcases hpc : s.pc with - | - | - | - | rest | -
    case absent => exact absurd hpc habsent
    case done => exact absurd hpc hdone
    case test =>
      refine ⟨.test, _, _, rfl, by simp only [step, hpc, hrun, if_true]; rfl, ?_⟩
      simp [rank, pending, DespatcherPc.inHand, DespatcherPc.rank, hpc]
    case waiting =>
      refine ⟨.wait .timeout, _, _, rfl, by simp only [step, hpc]; rfl, ?_⟩
      simp [rank, pending, DespatcherPc.inHand, DespatcherPc.rank, hpc]
    case swapping =>
      -- the vector holds what is pending, so the despatcher finds work
      have hvec : s.client.m_receiveMsgVec ≠ [] := by
        simpa [pending, DespatcherPc.inHand, Filing.inHand, hpc, hloop] using hne
      have htemp := h.temp (by simp [hpc])
      refine ⟨.swap, _, _, rfl, by simp only [step, hpc, if_true, if_neg hvec]; rfl, ?_⟩
      obtain ⟨b, bs, hb⟩ := List.exists_cons_of_ne_nil hvec
      simp [rank, pending, DespatcherPc.inHand, DespatcherPc.rank, hpc, htemp, hb]
    case handling =>
      rcases rest with - | ⟨msg, rest⟩
      · refine ⟨.clear, _, _, rfl, by simp only [step, hpc]; rfl, ?_⟩
        simp [rank, pending, DespatcherPc.inHand, DespatcherPc.rank, hpc]
      · obtain ⟨call, hcall⟩ := exists_call (h.entries msg (by
          simp [pending, DespatcherPc.inHand, hpc]))
        refine ⟨.Handle, _, _, rfl, by simp only [step, hpc, hcall, Option.map_some]; rfl, ?_⟩
        rcases rest with - | ⟨m, rest⟩
        · simp [rank, pending, DespatcherPc.inHand, DespatcherPc.rank, hpc]
          omega
        · simp [rank, pending, DespatcherPc.inHand, DespatcherPc.rank, hpc]

/-- **The threads left to themselves work everything off.** -/
theorem Filed.drains (h : Filed tr s) (hrun : s.m_is_running = true) :
    ∃ as s' tr', machine.exec Finishes s tr as = some (s', tr') ∧
      calls tr' = (bufs tr).filterMap handled := by
  obtain ⟨as, s', tr', he, ⟨hfiled, -, hbufs⟩, hgoal⟩ :=
    Machine.exec_of_rank (M := machine) Finishes
      (fun tr' c => Filed tr' c ∧ c.m_is_running = true ∧ bufs tr' = bufs tr)
      (fun c => c.pending = []) rank
      (fun {tr₁ c} hinv hne => by
        obtain ⟨hf, hr, hb⟩ := hinv
        obtain ⟨a, c', es, hfin, hs, hlt⟩ := exists_finishing_step hf hr hne
        obtain ⟨hbufs, hr'⟩ := finishes_frame hfin hs
        refine ⟨a, c', es, hfin, hs, ⟨hf.next hs, hr'.trans hr, ?_⟩, hlt⟩
        rw [bufs_append, hbufs, List.append_nil, hb])
      ⟨h, hrun, rfl⟩
  refine ⟨as, s', tr', he, ?_⟩
  have horder := hfiled.order
  rwa [hgoal, List.filterMap_nil, List.append_nil, hbufs] at horder

end Finishes

/-! ### Main results -/

section Run

variable {tr : List Event} {s : MsgDespatcher}

/-- Every pending entry makes one call. -/
theorem Filed.length_handled (h : Filed tr s) :
    (s.pending.filterMap handled).length = s.pending.length := by
  rw [List.length_filterMap_eq_countP, List.countP_eq_length]
  intro buf hbuf
  obtain ⟨call, hcall⟩ := exists_call (h.entries buf hbuf)
  show ((MyClient.Handle buf).join).isSome = true
  rw [hcall]
  rfl

/-- Where everything has been handed out, a forged frame has changed the
calls. -/
theorem calls_eq_due_iff (h : machine.Run AnyStep tr s) (hdone : s.pending = []) :
    calls tr = due tr ↔ Plain tr := by
  have horder := (filed h).order
  rw [hdone, List.filterMap_nil, List.append_nil] at horder
  rw [horder]
  exact handled_bufs_iff h

/-- **The event stream.**  The application hears of every connection and of
every frame, in order and once each, exactly where no frame begins with the
string of a connection. -/
theorem eventStream_iff (h : machine.Run AnyStep tr s) : EventStream tr s ↔ Plain tr := by
  have hfiled := filed h
  have horder := hfiled.order
  constructor
  · intro hstream msg hmsg hforged
    exact hstream.noForgery hmsg (Handle_of_forged hforged)
  · intro hplain
    have hdue := (handled_bufs_iff h).mpr hplain
    rw [hdue] at horder
    refine ⟨⟨_, horder⟩, ?_, fun {msg} hmsg => ?_, fun hrun => ?_⟩
    · rw [← horder, List.length_append, hfiled.length_handled]
    · rw [Handle_of_plain (length_of_received h msg hmsg) (hplain msg hmsg)]
      simp
    · obtain ⟨as, s', tr', he, hcalls⟩ := hfiled.drains hrun
      exact ⟨as, s', tr', he, hcalls.trans hdue⟩

end Run

/-- A connection and a frame with id 7, the first handed out and the second
still in the vector. -/
theorem eventStream_iff_two : ∃ tr s, machine.Run AnyStep tr s ∧
    (due tr).length = 2 ∧ calls tr = [.OnConnection] ∧ (EventStream tr s ↔ Plain tr) := by
  obtain ⟨tr, s, hrun, hp⟩ := Machine.run_of_exec machine AnyStep
    [.Start, .OnConnection, .store, .release, .test, .wait .object, .swap, .Handle,
      .OnMsg (55 :: List.replicate 40 0), .store]
    (fun r => decide ((due r.2).length = 2 ∧ calls r.2 = [.OnConnection])) (by decide +kernel)
  obtain ⟨hdue, hcalls⟩ := of_decide_eq_true hp
  exact ⟨tr, s, hrun, hdue, hcalls, eventStream_iff hrun⟩

/-- A frame of 41 bytes that begins with `OnConnection` and a NUL: the
application hears of a connection and of no message. -/
theorem not_eventStream : ¬ ∀ tr s, machine.Run AnyStep tr s → EventStream tr s := by
  intro h
  obtain ⟨tr, s, hrun, hp⟩ := Machine.run_of_exec machine AnyStep
    [.Start, .OnMsg (ON_CONNECTION_MSG ++ List.replicate 29 0), .store, .release, .test,
      .wait .object, .swap, .Handle]
    (fun r => decide (¬ calls r.2 <+: due r.2)) (by decide +kernel)
  exact of_decide_eq_true hp (h tr s hrun).inOrder

end MsgDespatcher

end TestExamples
