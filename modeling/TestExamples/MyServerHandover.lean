/-
TestExamples/MyServerHandover.lean

The hand-over from `MyServer::OnMsg` to `MyServer::MsgDespatcher`, access by
access.

`MyServer` takes a critical section of `m_bufs_lock` as one step; here each
access to what the two sides share is a step: the lock itself, `m_bufs`,
`m_has_new_msg`, `m_is_running` and `temp_bufs`.  Any number of threads call
`OnMsg`.  A call is in the history when it begins and when its message is appended
to `m_bufs`, which gives the order of arrival; between the two the thread has the
message in hand (`pending`), so a call that has returned has its message appended.

`temp_bufs` is worked off by an iterator and cleared afterwards; it is empty
again when it is swapped.  That and the owner of the lock is what the invariant
says besides the queue itself (`HandedOver`).
-/
import Mathlib.Logic.Function.Basic
import TestExamples.MyServer

namespace TestExamples

namespace Handover

/-- A client and the bytes it has sent. -/
abbrev Received := Addr × List Byte

/-- Where a thread is in `OnMsg`. -/
inductive OnMsgPc
  | idle
  | built (buff : Received)   -- before `lock()`
  | locked (buff : Received)  -- before `push_back`
  | pushed                    -- before `m_has_new_msg = true`
  | flagged                   -- before `unlock()`
  deriving DecidableEq, Repr

/-- Where the thread of `MsgDespatcher` is. -/
inductive DespatcherPc
  | testing                -- before `while (m_is_running)`
  | locking                -- before `lock()`
  | locked                 -- before `if (m_has_new_msg)`
  | swapping               -- before `temp_bufs.swap(m_bufs)`
  | swapped                -- before `m_has_new_msg = false`
  | unlocking              -- before `unlock()`
  | sized                  -- before `if (temp_bufs.size() > 0)`
  | despatching (i : Nat)  -- in the loop over `temp_bufs`
  | clearing               -- before `temp_bufs.clear()`
  | sleeping
  | ended
  deriving DecidableEq, Repr

inductive Owner
  | onMsg (t : Thread)
  | despatcher
  deriving DecidableEq, Repr

structure State where
  m_bufs : List Received
  m_has_new_msg : Bool
  m_is_running : Bool
  m_bufs_lock : Option Owner
  temp_bufs : List Received
  onMsg : Thread → OnMsgPc
  despatcher : DespatcherPc

inductive Act
  | call (t : Thread) (client : Addr) (msg : List Byte) -- a thread enters `OnMsg`
  | onMsg (t : Thread)                                  -- and goes on
  | despatcher
  | stop                                                -- `m_is_running` becomes false
  deriving DecidableEq, Repr

inductive Event
  | OnMsg (t : Thread) (buff : Received)    -- the call
  | received (t : Thread) (buff : Received) -- its message is appended to `m_bufs`
  | DespatchMsg (buff : Received)
  deriving DecidableEq, Repr

def init : State where
  m_bufs := []
  m_has_new_msg := false
  m_is_running := true
  m_bufs_lock := none
  temp_bufs := []
  onMsg := fun _ => .idle
  despatcher := .testing

abbrev Outcome := Option (State × List Event)

def State.setPc (s : State) (t : Thread) (pc : OnMsgPc) : State :=
  { s with onMsg := Function.update s.onMsg t pc }

/-- `MyServer::OnMsg`. -/
def OnMsg (s : State) (t : Thread) : Outcome :=
  match s.onMsg t with
  | .idle => none
  | .built buff =>
      if s.m_bufs_lock = none then
        some ({ s with m_bufs_lock := some (.onMsg t) }.setPc t (.locked buff), [])
      else none
  | .locked buff =>
      some ({ s with m_bufs := s.m_bufs ++ [buff] }.setPc t .pushed, [.received t buff])
  | .pushed => some ({ s with m_has_new_msg := true }.setPc t .flagged, [])
  | .flagged => some ({ s with m_bufs_lock := none }.setPc t .idle, [])

/-- `MyServer::MsgDespatcher`. -/
def MsgDespatcher (s : State) : Outcome :=
  match s.despatcher with
  | .testing =>
      some ({ s with despatcher := if s.m_is_running then .locking else .ended }, [])
  | .locking =>
      if s.m_bufs_lock = none then
        some ({ s with m_bufs_lock := some .despatcher, despatcher := .locked }, [])
      else none
  | .locked =>
      some ({ s with despatcher := if s.m_has_new_msg then .swapping else .unlocking }, [])
  | .swapping =>
      some ({ s with
        temp_bufs := s.m_bufs, m_bufs := s.temp_bufs, despatcher := .swapped }, [])
  | .swapped => some ({ s with m_has_new_msg := false, despatcher := .unlocking }, [])
  | .unlocking => some ({ s with m_bufs_lock := none, despatcher := .sized }, [])
  | .sized =>
      some ({ s with
        despatcher := if s.temp_bufs.length > 0 then .despatching 0 else .sleeping }, [])
  | .despatching i =>
      match s.temp_bufs[i]? with
      | some buff => some ({ s with despatcher := .despatching (i + 1) }, [.DespatchMsg buff])
      | none => some ({ s with despatcher := .clearing }, [])
  | .clearing => some ({ s with temp_bufs := [], despatcher := .sleeping }, [])
  | .sleeping => some ({ s with despatcher := .testing }, [])
  | .ended => none

def step (s : State) : Act → Outcome
  | .call t client msg =>
      if s.onMsg t = .idle then
        some (s.setPc t (.built (client, msg)), [.OnMsg t (client, msg)])
      else none
  | .onMsg t => OnMsg s t
  | .despatcher => MsgDespatcher s
  | .stop => some ({ s with m_is_running := false }, [])

/-- The two sides as a machine. -/
def machine : Machine State Act Event := ⟨init, step⟩

/-! ### The queue -/

/-- What is left to despatch of `temp_bufs`. -/
def State.remaining (s : State) : List Received :=
  match s.despatcher with
  | .despatching i => s.temp_bufs.drop i
  | .clearing => []
  | _ => s.temp_bufs

/-- The messages received, in the order of arrival. -/
def receivedIn (tr : List Event) : List Received :=
  tr.filterMap fun
    | .received _ buff => some buff
    | _ => none

def despatchedIn (tr : List Event) : List Received :=
  tr.filterMap fun
    | .DespatchMsg buff => some buff
    | _ => none

/-- What a thread has called `OnMsg` with. -/
def callsOf (t : Thread) (tr : List Event) : List Received :=
  tr.filterMap fun
    | .OnMsg t' buff => if t' = t then some buff else none
    | _ => none

/-- What has been received of it. -/
def receivedOf (t : Thread) (tr : List Event) : List Received :=
  tr.filterMap fun
    | .received t' buff => if t' = t then some buff else none
    | _ => none

/-- The message that is still to be appended. -/
def OnMsgPc.pending : OnMsgPc → List Received
  | .built buff | .locked buff => [buff]
  | .idle | .pushed | .flagged => []

/-- The thread is between `lock()` and `unlock()`. -/
def OnMsgPc.Inside : OnMsgPc → Prop
  | .locked _ | .pushed | .flagged => True
  | .idle | .built _ => False

def DespatcherPc.Inside : DespatcherPc → Prop
  | .locked | .swapping | .swapped | .unlocking => True
  | _ => False

/-- `temp_bufs` has been cleared and not been swapped yet. -/
def DespatcherPc.Cleared : DespatcherPc → Prop
  | .testing | .locking | .locked | .swapping | .sleeping | .ended => True
  | _ => False

/-- **The hand-over.** -/
structure HandedOver (tr : List Event) (s : State) : Prop where
  queue : receivedIn tr = despatchedIn tr ++ s.remaining ++ s.m_bufs
  temp : s.despatcher.Cleared → s.temp_bufs = []
  swapped : s.despatcher = .swapped → s.m_bufs = []
  onMsg : ∀ t, (s.onMsg t).Inside → s.m_bufs_lock = some (.onMsg t)
  despatcher : s.despatcher.Inside → s.m_bufs_lock = some .despatcher
  flag : s.m_bufs ≠ [] → s.m_has_new_msg = true ∨ ∃ t, s.onMsg t = .pushed

theorem receivedIn_append (tr es : List Event) :
    receivedIn (tr ++ es) = receivedIn tr ++ receivedIn es :=
  List.filterMap_append

theorem despatchedIn_append (tr es : List Event) :
    despatchedIn (tr ++ es) = despatchedIn tr ++ despatchedIn es :=
  List.filterMap_append

theorem callsOf_append (t : Thread) (tr es : List Event) :
    callsOf t (tr ++ es) = callsOf t tr ++ callsOf t es :=
  List.filterMap_append

theorem receivedOf_append (t : Thread) (tr es : List Event) :
    receivedOf t (tr ++ es) = receivedOf t tr ++ receivedOf t es :=
  List.filterMap_append

/-! ### The calls -/

/-- Every message a thread has called `OnMsg` with is received, once and in the
order of its calls, but for the one in hand. -/
def Called (tr : List Event) (s : State) : Prop :=
  ∀ t, callsOf t tr = receivedOf t tr ++ (s.onMsg t).pending

namespace Called

variable {tr es : List Event} {s s' : State} {t : Thread} {act : Act}

theorem init : Called [] Handover.init := fun _ => rfl

/-- A step of a thread. -/
theorem onMsg_update {pc : OnMsgPc} (h : Called tr s)
    (hs : s'.onMsg = Function.update s.onMsg t pc)
    (hother : ∀ t', t' ≠ t → callsOf t' es = [] ∧ receivedOf t' es = [])
    (hself : (s.onMsg t).pending ++ callsOf t es = receivedOf t es ++ pc.pending) :
    Called (tr ++ es) s' := by
  intro t'
  rw [callsOf_append, receivedOf_append, h t', hs]
  rcases eq_or_ne t' t with rfl | hne
  · rw [Function.update_self, List.append_assoc, hself, List.append_assoc]
  · obtain ⟨hcalls, hreceived⟩ := hother t' hne
    rw [Function.update_of_ne hne, hcalls, hreceived, List.append_nil, List.append_nil]

/-- The other threads are not spoken of. -/
theorem callsOf_of_ne {t' : Thread} (hne : t' ≠ t) (buff : Received) :
    callsOf t' [.OnMsg t buff] = [] ∧ receivedOf t' [.received t buff] = [] := by
  simp [callsOf, receivedOf, hne.symm]

theorem call (h : Called tr s) (hidle : s.onMsg t = .idle) (buff : Received) :
    Called (tr ++ [.OnMsg t buff]) (s.setPc t (.built buff)) := by
  apply h.onMsg_update rfl (fun t' hne => ⟨(callsOf_of_ne hne buff).1, rfl⟩)
  rw [hidle]
  simp [callsOf, receivedOf, OnMsgPc.pending]

/-- **One step of `OnMsg`**: the message in hand is the one appended. -/
theorem onMsg_step (h : Called tr s) (hs : OnMsg s t = some (s', es)) : Called (tr ++ es) s' := by
  unfold OnMsg at hs
  split at hs
  · cases hs
  · next buff hpc =>
    obtain ⟨-, hs⟩ := Option.ite_none_right_eq_some.mp hs
    obtain ⟨rfl, rfl⟩ := Prod.mk.inj (Option.some.inj hs)
    apply h.onMsg_update rfl (fun _ _ => ⟨rfl, rfl⟩)
    rw [hpc]
    rfl
  · next buff hpc =>
    obtain ⟨rfl, rfl⟩ := Prod.mk.inj (Option.some.inj hs)
    apply h.onMsg_update rfl (fun t' hne => ⟨rfl, (callsOf_of_ne hne buff).2⟩)
    rw [hpc]
    simp [callsOf, receivedOf, OnMsgPc.pending]
  · next hpc =>
    obtain ⟨rfl, rfl⟩ := Prod.mk.inj (Option.some.inj hs)
    apply h.onMsg_update rfl (fun _ _ => ⟨rfl, rfl⟩)
    rw [hpc]
    rfl
  · next hpc =>
    obtain ⟨rfl, rfl⟩ := Prod.mk.inj (Option.some.inj hs)
    apply h.onMsg_update rfl (fun _ _ => ⟨rfl, rfl⟩)
    rw [hpc]
    rfl

/-- The dispatcher does not touch the calls. -/
theorem MsgDespatcher_frame (hs : MsgDespatcher s = some (s', es)) :
    s'.onMsg = s.onMsg ∧ ∀ t, callsOf t es = [] ∧ receivedOf t es = [] := by
  unfold MsgDespatcher at hs
  split at hs
  case h_2 =>
    obtain ⟨-, hs⟩ := Option.ite_none_right_eq_some.mp hs
    obtain ⟨rfl, rfl⟩ := Prod.mk.inj (Option.some.inj hs)
    exact ⟨rfl, fun _ => ⟨rfl, rfl⟩⟩
  case h_8 =>
    split at hs
    · obtain ⟨rfl, rfl⟩ := Prod.mk.inj (Option.some.inj hs)
      exact ⟨rfl, fun _ => ⟨rfl, rfl⟩⟩
    · obtain ⟨rfl, rfl⟩ := Prod.mk.inj (Option.some.inj hs)
      exact ⟨rfl, fun _ => ⟨rfl, rfl⟩⟩
  case h_11 => cases hs
  all_goals
    obtain ⟨rfl, rfl⟩ := Prod.mk.inj (Option.some.inj hs)
    exact ⟨rfl, fun _ => ⟨rfl, rfl⟩⟩

theorem step (h : Called tr s) (hs : Handover.step s act = some (s', es)) :
    Called (tr ++ es) s' := by
  cases act with
  | call t client msg =>
      obtain ⟨hidle, hs⟩ := Option.ite_none_right_eq_some.mp hs
      obtain ⟨rfl, rfl⟩ := Prod.mk.inj (Option.some.inj hs)
      exact h.call hidle _
  | onMsg t => exact h.onMsg_step hs
  | despatcher =>
      obtain ⟨hpcs, hes⟩ := MsgDespatcher_frame hs
      intro t
      rw [callsOf_append, receivedOf_append, (hes t).1, (hes t).2, List.append_nil,
        List.append_nil, hpcs]
      exact h t
  | stop =>
      obtain ⟨rfl, rfl⟩ := Prod.mk.inj (Option.some.inj hs)
      rw [List.append_nil]
      exact h

theorem of_run (h : machine.Run AnyStep tr s) : Called tr s :=
  h.invariant Called .init fun ih _ hs => ih.step hs

end Called

/-! ### The queue from end to end -/

namespace HandedOver

variable {tr es : List Event} {s s' : State} {t : Thread} {act : Act}

theorem init : HandedOver [] Handover.init where
  queue := rfl
  temp := fun _ => rfl
  swapped := nofun
  onMsg := fun _ => False.elim
  despatcher := False.elim
  flag := fun hne => absurd rfl hne

/-- The lock has one owner. -/
theorem outside_of_onMsg (h : HandedOver tr s) (ht : (s.onMsg t).Inside) :
    ¬ s.despatcher.Inside ∧ ∀ t', t' ≠ t → ¬ (s.onMsg t').Inside := by
  have howner := h.onMsg t ht
  refine ⟨fun hd => ?_, fun t' hne ht' => hne ?_⟩
  · have hother := h.despatcher hd
    rw [howner] at hother
    cases hother
  · have hother := h.onMsg t' ht'
    rw [howner] at hother
    cases hother
    rfl

theorem outside_of_despatcher (h : HandedOver tr s) (hd : s.despatcher.Inside) (t : Thread) :
    ¬ (s.onMsg t).Inside := fun ht => (h.outside_of_onMsg ht).1 hd

theorem outside_of_free (h : HandedOver tr s) (hfree : s.m_bufs_lock = none) :
    ¬ s.despatcher.Inside ∧ ∀ t, ¬ (s.onMsg t).Inside := by
  constructor
  · intro hd
    rw [h.despatcher hd] at hfree
    cases hfree
  · intro t ht
    rw [h.onMsg t ht] at hfree
    cases hfree

/-- A thread goes on inside the section or outside it, and no other place
changes. -/
theorem onMsg_update {pc : OnMsgPc} {lock : Option Owner}
    (hlock : pc.Inside → lock = some (.onMsg t))
    (hothers : ∀ t', t' ≠ t → (s.onMsg t').Inside → lock = some (.onMsg t')) :
    ∀ t', (Function.update s.onMsg t pc t').Inside → lock = some (.onMsg t') :=
  forall_update (P := fun t' pc => OnMsgPc.Inside pc → lock = some (.onMsg t')) hlock hothers

/-- A thread enters `OnMsg`. -/
theorem call (h : HandedOver tr s) (hidle : s.onMsg t = .idle) (buff : Received) :
    HandedOver (tr ++ [.OnMsg t buff]) (s.setPc t (.built buff)) where
  queue := by
    rw [receivedIn_append, despatchedIn_append]
    show _ ++ [] = _ ++ [] ++ _ ++ _
    rw [List.append_nil, List.append_nil]
    exact h.queue
  temp := h.temp
  swapped := h.swapped
  onMsg := onMsg_update False.elim fun t' _ => h.onMsg t'
  despatcher := h.despatcher
  flag := fun hne => (h.flag hne).imp_right fun ⟨t', ht'⟩ => by
    have hne' : t' ≠ t := fun he => by rw [he, hidle] at ht'; cases ht'
    exact ⟨t', (Function.update_of_ne hne' ..).trans ht'⟩

/-- **One step of `OnMsg`.** -/
theorem onMsg_step (h : HandedOver tr s) (hs : OnMsg s t = some (s', es)) :
    HandedOver (tr ++ es) s' := by
  unfold OnMsg at hs
  split at hs
  · cases hs
  · next buff hpc =>
    obtain ⟨hfree, hs⟩ := Option.ite_none_right_eq_some.mp hs
    obtain ⟨rfl, rfl⟩ := Prod.mk.inj (Option.some.inj hs)
    obtain ⟨hd, hothers⟩ := h.outside_of_free hfree
    rw [List.append_nil]
    refine ⟨h.queue, h.temp, h.swapped, ?_, fun hin => absurd hin hd, fun hne => ?_⟩
    · exact onMsg_update (fun _ => rfl) fun t' _ ht' => absurd ht' (hothers t')
    · -- nobody has pushed and not raised the flag while the lock is free
      refine (h.flag hne).imp_right fun ⟨t', ht'⟩ => absurd ?_ (hothers t')
      rw [ht']
      trivial
  · next buff hpc =>
    obtain ⟨rfl, rfl⟩ := Prod.mk.inj (Option.some.inj hs)
    have hin : (s.onMsg t).Inside := by rw [hpc]; trivial
    obtain ⟨hd, hothers⟩ := h.outside_of_onMsg hin
    refine ⟨?_, h.temp, fun hsw => ?_, ?_, h.despatcher, fun _ => .inr ⟨t, Function.update_self ..⟩⟩
    · rw [receivedIn_append, despatchedIn_append, h.queue]
      show _ ++ _ ++ _ ++ [buff] = _ ++ [] ++ _ ++ (s.m_bufs ++ [buff])
      rw [List.append_nil, ← List.append_assoc]
      rfl
    · have hsw : s.despatcher = .swapped := hsw
      refine absurd ?_ hd
      rw [hsw]
      trivial
    · exact onMsg_update (fun _ => h.onMsg t hin) fun t' hne ht' => absurd ht' (hothers t' hne)
  · next hpc =>
    obtain ⟨rfl, rfl⟩ := Prod.mk.inj (Option.some.inj hs)
    have hin : (s.onMsg t).Inside := by rw [hpc]; trivial
    obtain ⟨-, hothers⟩ := h.outside_of_onMsg hin
    rw [List.append_nil]
    refine ⟨h.queue, h.temp, h.swapped, ?_, h.despatcher, fun _ => .inl rfl⟩
    exact onMsg_update (fun _ => h.onMsg t hin) fun t' hne ht' => absurd ht' (hothers t' hne)
  · next hpc =>
    obtain ⟨rfl, rfl⟩ := Prod.mk.inj (Option.some.inj hs)
    have hin : (s.onMsg t).Inside := by rw [hpc]; trivial
    obtain ⟨hd, hothers⟩ := h.outside_of_onMsg hin
    rw [List.append_nil]
    refine ⟨h.queue, h.temp, h.swapped, ?_, fun hin' => absurd hin' hd, fun hne => ?_⟩
    · exact onMsg_update False.elim fun t' hne ht' => absurd ht' (hothers t' hne)
    · refine (h.flag hne).imp_right fun ⟨t', ht'⟩ => ?_
      have hne' : t' ≠ t := fun he => by rw [he, hpc] at ht'; cases ht'
      refine absurd ?_ (hothers t' hne')
      rw [ht']
      trivial

/-- What remains is read off the place of the despatcher. -/
theorem remaining_of {pc : DespatcherPc} (h : s.despatcher = pc) :
    s.remaining = ({ s with despatcher := pc } : State).remaining := by
  rw [← h]

/-- The despatcher changes its place only. -/
theorem goto {pc : DespatcherPc} (h : HandedOver tr s)
    (hrem : ({ s with despatcher := pc } : State).remaining = s.remaining)
    (htemp : pc.Cleared → s.temp_bufs = []) (hsw : pc ≠ .swapped)
    (hin : pc.Inside → s.despatcher.Inside) :
    HandedOver (tr ++ []) { s with despatcher := pc } where
  queue := by
    rw [List.append_nil, hrem]
    exact h.queue
  temp := htemp
  swapped := fun he => absurd he hsw
  onMsg := h.onMsg
  despatcher := fun hp => h.despatcher (hin hp)
  flag := h.flag

/-- **One step of `MsgDespatcher`.** -/
theorem despatcher_step (h : HandedOver tr s) (hs : MsgDespatcher s = some (s', es)) :
    HandedOver (tr ++ es) s' := by
  unfold MsgDespatcher at hs
  split at hs
  · next hpc =>
    obtain ⟨rfl, rfl⟩ := Prod.mk.inj (Option.some.inj hs)
    have hnil := h.temp (by rw [hpc]; trivial)
    have hrem : s.remaining = s.temp_bufs := remaining_of hpc
    split
    · exact h.goto hrem.symm (fun _ => hnil) nofun False.elim
    · exact h.goto hrem.symm (fun _ => hnil) nofun False.elim
  · next hpc =>
    obtain ⟨hfree, hs⟩ := Option.ite_none_right_eq_some.mp hs
    obtain ⟨rfl, rfl⟩ := Prod.mk.inj (Option.some.inj hs)
    have hnil := h.temp (by rw [hpc]; trivial)
    have hrem : s.remaining = s.temp_bufs := remaining_of hpc
    have hqueue := h.queue
    rw [hrem] at hqueue
    rw [List.append_nil]
    exact ⟨hqueue, fun _ => hnil, nofun, fun t ht => absurd ht ((h.outside_of_free hfree).2 t),
      fun _ => rfl, h.flag⟩
  · next hpc =>
    obtain ⟨rfl, rfl⟩ := Prod.mk.inj (Option.some.inj hs)
    have hnil := h.temp (by rw [hpc]; trivial)
    have hrem : s.remaining = s.temp_bufs := remaining_of hpc
    have hin : s.despatcher.Inside := by rw [hpc]; trivial
    split
    · exact h.goto hrem.symm (fun _ => hnil) nofun fun _ => hin
    · exact h.goto hrem.symm (fun _ => hnil) nofun fun _ => hin
  · next hpc =>
    obtain ⟨rfl, rfl⟩ := Prod.mk.inj (Option.some.inj hs)
    have hnil := h.temp (by rw [hpc]; trivial)
    have hrem : s.remaining = s.temp_bufs := remaining_of hpc
    have hin : s.despatcher.Inside := by rw [hpc]; trivial
    have hqueue := h.queue
    rw [hrem, hnil, List.append_nil] at hqueue
    rw [List.append_nil]
    refine ⟨?_, False.elim, fun _ => hnil, h.onMsg, fun _ => h.despatcher hin,
      fun hne => absurd hnil hne⟩
    show _ = _ ++ s.m_bufs ++ s.temp_bufs
    rw [hnil, List.append_nil, hqueue]
  · next hpc =>
    obtain ⟨rfl, rfl⟩ := Prod.mk.inj (Option.some.inj hs)
    have hrem : s.remaining = s.temp_bufs := remaining_of hpc
    have hin : s.despatcher.Inside := by rw [hpc]; trivial
    have hqueue := h.queue
    rw [hrem] at hqueue
    rw [List.append_nil]
    -- nothing has come between the swap and the flag
    exact ⟨hqueue, False.elim, nofun, h.onMsg, fun _ => h.despatcher hin,
      fun hne => absurd (h.swapped hpc) hne⟩
  · next hpc =>
    obtain ⟨rfl, rfl⟩ := Prod.mk.inj (Option.some.inj hs)
    have hrem : s.remaining = s.temp_bufs := remaining_of hpc
    have hout := h.outside_of_despatcher (by rw [hpc]; trivial)
    have hqueue := h.queue
    rw [hrem] at hqueue
    rw [List.append_nil]
    exact ⟨hqueue, False.elim, nofun, fun t ht => absurd ht (hout t), False.elim, h.flag⟩
  · next hpc =>
    obtain ⟨rfl, rfl⟩ := Prod.mk.inj (Option.some.inj hs)
    have hrem : s.remaining = s.temp_bufs := remaining_of hpc
    split
    · exact h.goto hrem.symm False.elim nofun False.elim
    · next hlen =>
      have hnil : s.temp_bufs = [] := List.length_eq_zero_iff.mp (Nat.eq_zero_of_not_pos hlen)
      exact h.goto hrem.symm (fun _ => hnil) nofun False.elim
  · next i hpc =>
    have hrem : s.remaining = s.temp_bufs.drop i := remaining_of hpc
    split at hs
    · next buff hget =>
      obtain ⟨rfl, rfl⟩ := Prod.mk.inj (Option.some.inj hs)
      refine ⟨?_, False.elim, nofun, h.onMsg, False.elim, h.flag⟩
      obtain ⟨hlt, rfl⟩ := List.getElem?_eq_some_iff.mp hget
      rw [receivedIn_append, despatchedIn_append, h.queue, hrem, List.drop_eq_getElem_cons hlt]
      show _ ++ _ ++ _ ++ [] = _ ++ [_] ++ s.temp_bufs.drop (i + 1) ++ s.m_bufs
      rw [List.append_nil, List.append_cons]
    · next hget =>
      obtain ⟨rfl, rfl⟩ := Prod.mk.inj (Option.some.inj hs)
      have hnil : s.temp_bufs.drop i = [] :=
        List.drop_eq_nil_of_le (List.getElem?_eq_none_iff.mp hget)
      exact h.goto (hrem.trans hnil).symm False.elim nofun False.elim
  · next hpc =>
    obtain ⟨rfl, rfl⟩ := Prod.mk.inj (Option.some.inj hs)
    have hrem : s.remaining = [] := remaining_of hpc
    have hqueue := h.queue
    rw [hrem] at hqueue
    rw [List.append_nil]
    exact ⟨hqueue, fun _ => rfl, nofun, h.onMsg, False.elim, h.flag⟩
  · next hpc =>
    obtain ⟨rfl, rfl⟩ := Prod.mk.inj (Option.some.inj hs)
    have hnil := h.temp (by rw [hpc]; trivial)
    have hrem : s.remaining = s.temp_bufs := remaining_of hpc
    exact h.goto hrem.symm (fun _ => hnil) nofun False.elim
  · cases hs

theorem step (h : HandedOver tr s) (hs : Handover.step s act = some (s', es)) :
    HandedOver (tr ++ es) s' := by
  cases act with
  | call t client msg =>
      obtain ⟨hidle, hs⟩ := Option.ite_none_right_eq_some.mp hs
      obtain ⟨rfl, rfl⟩ := Prod.mk.inj (Option.some.inj hs)
      exact h.call hidle _
  | onMsg t => exact h.onMsg_step hs
  | despatcher => exact h.despatcher_step hs
  | stop =>
      obtain ⟨rfl, rfl⟩ := Prod.mk.inj (Option.some.inj hs)
      rw [List.append_nil]
      exact ⟨h.queue, h.temp, h.swapped, h.onMsg, h.despatcher, h.flag⟩

theorem of_run (h : machine.Run AnyStep tr s) : HandedOver tr s :=
  h.invariant HandedOver .init fun ih _ hs => ih.step hs

end HandedOver

/-- **The dispatcher loses nothing.**  Every call of `OnMsg` has its message
received, unless the thread has still to append it; `DespatchMsg` is called on the
messages received, in order and once each, up to those left in `temp_bufs` and
`m_bufs`; while nobody holds the lock, `m_has_new_msg` is set if `m_bufs` is not
empty. -/
theorem handed_over {tr : List Event} {s : State} (h : machine.Run AnyStep tr s) :
    (∀ t, callsOf t tr = receivedOf t tr ++ (s.onMsg t).pending) ∧
      receivedIn tr = despatchedIn tr ++ s.remaining ++ s.m_bufs ∧
      (s.m_bufs_lock = none → s.m_bufs ≠ [] → s.m_has_new_msg = true) := by
  have hinv := HandedOver.of_run h
  refine ⟨Called.of_run h, hinv.queue, fun hfree hne => (hinv.flag hne).resolve_right ?_⟩
  rintro ⟨t, ht⟩
  apply (hinv.outside_of_free hfree).2 t
  rw [ht]
  trivial

/-- Two messages are swapped; while the first is handled a third arrives, and a
fourth call has not got the lock. -/
theorem handed_over_three : ∃ tr s, machine.Run AnyStep tr s ∧
    callsOf 1 tr = [(1, [0x61]), (1, [0x63])] ∧ callsOf 2 tr = [(2, [0x62]), (2, [0x64])] ∧
      despatchedIn tr = [(1, [0x61])] ∧ s.remaining = [(2, [0x62])] ∧ s.m_bufs = [(1, [0x63])] ∧
      (s.onMsg 2).pending = [(2, [0x64])] ∧
      (∀ t, callsOf t tr = receivedOf t tr ++ (s.onMsg t).pending) ∧
      receivedIn tr = despatchedIn tr ++ s.remaining ++ s.m_bufs ∧
      (s.m_bufs_lock = none → s.m_bufs ≠ [] → s.m_has_new_msg = true) := by
  obtain ⟨tr, s, hrun, hp⟩ := machine.run_of_exec AnyStep
    [.call 1 1 [0x61], .call 2 2 [0x62], .despatcher, .onMsg 1, .onMsg 1, .onMsg 1, .onMsg 1,
      .onMsg 2, .onMsg 2, .onMsg 2, .onMsg 2, .despatcher, .despatcher, .despatcher, .despatcher,
      .despatcher, .call 1 1 [0x63], .onMsg 1, .call 2 2 [0x64], .onMsg 1, .onMsg 1, .onMsg 1,
      .despatcher, .despatcher]
    (fun q => decide (callsOf 1 q.2 = [(1, [0x61]), (1, [0x63])] ∧
      callsOf 2 q.2 = [(2, [0x62]), (2, [0x64])] ∧ despatchedIn q.2 = [(1, [0x61])] ∧
      q.1.remaining = [(2, [0x62])] ∧ q.1.m_bufs = [(1, [0x63])] ∧
      (q.1.onMsg 2).pending = [(2, [0x64])])) (by decide +kernel)
  obtain ⟨hone, htwo, hdone, hrem, hbufs, hhand⟩ := of_decide_eq_true hp
  exact ⟨tr, s, hrun, hone, htwo, hdone, hrem, hbufs, hhand, handed_over hrun⟩

end Handover

end TestExamples
