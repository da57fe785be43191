/-
TestExamples/MyClientSteps.lean

The steps of the client, branch by branch.

`Moves` lists what a step of `MyClient` can do, with the condition under which
it does it; `moves_of_step` is the inversion of `step`.
-/
import TestExamples.MyClient

namespace TestExamples

namespace MyClient

/-! ### Fields -/

section Fields

variable (s : MyClient) (t : Thread) (q : SendPc)

@[simp] theorem setPc_m_requestId : (s.setPc t q).m_requestId = s.m_requestId := rfl
@[simp] theorem setPc_m_reqSemMap : (s.setPc t q).m_reqSemMap = s.m_reqSemMap := rfl
@[simp] theorem setPc_m_reqResultMap : (s.setPc t q).m_reqResultMap = s.m_reqResultMap := rfl
@[simp] theorem setPc_sems : (s.setPc t q).sems = s.sems := rfl

variable (reqId : Nat)

@[simp] theorem takeResult_m_reqSemMap : (s.takeResult reqId).2.m_reqSemMap = s.m_reqSemMap := by
  unfold takeResult
  split <;> rfl

@[simp] theorem takeResult_sems : (s.takeResult reqId).2.sems = s.sems := by
  unfold takeResult
  split <;> rfl

@[simp] theorem takeResult_pc : (s.takeResult reqId).2.pc = s.pc := by
  unfold takeResult
  split <;> rfl

/-- No result is new after one has been taken. -/
theorem of_takeResult {s : MyClient} {reqId : Nat} {k : Int}
    (h : (s.takeResult reqId).2.m_reqResultMap k ≠ none) : s.m_reqResultMap k ≠ none := by
  unfold takeResult at h
  split at h
  · by_cases hk : k = reqId
    · rw [hk] at h
      simp at h
    · simpa [hk] using h
  · exact h

end Fields

/-! ### The branches -/

/-- What `OnMsg` does with a message: nothing, one entry in the map of results
with a permit for the waiter, or one entry in the queue of the dispatcher. -/
inductive Files (s : MyClient) (msg : List Byte) : MyClient → Prop
  | short (hlen : msg.length ≤ MSG_HEAD_LENGTH) : Files s msg s
  | stored {t n} (hreg : s.m_reqSemMap (replyId msg) = some t) (hsem : s.sems t = some n) :
      Files s msg { s with
        m_reqResultMap := Function.update s.m_reqResultMap (replyId msg)
          (some (msg.drop REQ_ID_LENGH))
        sems := Function.update s.sems t (some (n + 1)) }
  | queued (hlen : MSG_HEAD_LENGTH < msg.length)
      (hfree : replyId msg = 0 ∨ s.m_reqSemMap (replyId msg) = none) :
      Files s msg (s.receiveMsg msg)

theorem files_of_OnMsg {s s' : MyClient} {msg : List Byte} (h : s.OnMsg msg = some s') :
    Files s msg s' := by
  unfold OnMsg at h
  split at h
  · next hlen =>
    rw [← Option.some.inj h]
    exact .short hlen
  · next hlen =>
    have hlen := Nat.not_le.mp hlen
    dsimp only at h
    split at h
    · split at h
      · next t hreg =>
        obtain ⟨n, hsem, rfl⟩ := Option.map_eq_some_iff.mp h
        exact .stored hreg hsem
      · next hreg =>
        rw [← Option.some.inj h]
        exact .queued hlen (Or.inr hreg)
    · next hid =>
      rw [← Option.some.inj h]
      exact .queued hlen (Or.inl (not_not.mp hid))

/-- `OnMsg` fails only where it would release a semaphore that is gone. -/
theorem OnMsg_isSome {s : MyClient} {msg : List Byte}
    (halive : ∀ t, s.m_reqSemMap (replyId msg) = some t → s.sems t ≠ none) :
    (s.OnMsg msg).isSome := by
  unfold OnMsg
  split
  · rfl
  · dsimp only
    split
    · split
      · next t hreg =>
        obtain ⟨n, hn⟩ := Option.ne_none_iff_exists'.mp (halive t hreg)
        simp [release, hn]
      · rfl
    · rfl

/-- **The steps, branch by branch.** -/
inductive Moves (s : MyClient) : Act → List Event → MyClient → Prop
  | syncSend {t cmd msg} (hpc : s.pc t = .idle) :
      Moves s (.syncSend t cmd msg) [.issued (s.m_requestId + 1) msg]
        ({ s with
          m_requestId := s.m_requestId + 1
          sems := Function.update s.sems t (some 0) }.setPc t
            (.issued cmd msg (s.m_requestId + 1)))
  | register {t cmd msg reqId} (hpc : s.pc t = .issued cmd msg reqId)
      (hnew : s.m_reqSemMap reqId = none) :
      Moves s (.register t) []
        ({ s with
          m_reqSemMap := Function.update s.m_reqSemMap reqId (some t) }.setPc t
            (.registered cmd msg reqId))
  | registerAgain {t cmd msg reqId} (hpc : s.pc t = .issued cmd msg reqId)
      (hold : s.m_reqSemMap reqId ≠ none) :
      Moves s (.register t) [] (s.setPc t (.registered cmd msg reqId))
  | sent {t cmd msg reqId junk queued frame} (hpc : s.pc t = .registered cmd msg reqId)
      (hframe : packSend junk cmd msg reqId = some frame) :
      Moves s (.send t junk queued 0) [.sent frame] (s.setPc t (.waiting msg reqId))
  | sendFailed {t cmd msg reqId junk ret frame} {queued : Bool}
      (hpc : s.pc t = .registered cmd msg reqId)
      (hframe : packSend junk cmd msg reqId = some frame) (hret : ret ≠ 0) :
      Moves s (.send t junk queued ret) (if queued then [.sent frame] else [])
        (s.setPc t (.leaving msg reqId ⟨ret, [], []⟩))
  | asyncSent {t cmd msg reqId junk ret frame} {queued : Bool}
      (hpc : s.pc t = .asyncIssued cmd msg reqId)
      (hframe : packSend junk cmd msg reqId = some frame) :
      Moves s (.send t junk queued ret)
        ((if ret ≠ 0 ∧ queued = false then [] else [.sent frame]) ++
          [.asyncReturned ⟨ret, reqId⟩]) (s.setPc t .idle)
  | granted {t msg reqId n} (hpc : s.pc t = .waiting msg reqId) (hsem : s.sems t = some (n + 1)) :
      Moves s (.wait t .object) []
        ({ s with sems := Function.update s.sems t (some n) }.setPc t (.acquired msg reqId))
  | waitFailed {t msg reqId res err} (hpc : s.pc t = .waiting msg reqId) (herr : err ≠ RJ_S_OK) :
      Moves s (.wait t res) [] (s.setPc t (.leaving msg reqId ⟨err, [], []⟩))
  | take {t msg reqId} (hpc : s.pc t = .acquired msg reqId) :
      Moves s (.take t) []
        ((s.takeResult reqId).2.setPc t (.leaving msg reqId (s.takeResult reqId).1))
  | leave {t msg reqId result} (hpc : s.pc t = .leaving msg reqId result) :
      Moves s (.leave t) [.syncReturned reqId msg result] ((s.unregister t reqId).setPc t .idle)
  | asyncSend {t cmd msg} (hpc : s.pc t = .idle) :
      Moves s (.asyncSend t cmd msg) [.issued (s.m_requestId + 1) msg]
        ({ s with m_requestId := s.m_requestId + 1 }.setPc t
          (.asyncIssued cmd msg (s.m_requestId + 1)))
  | onMsg {msg s'} (hfiles : Files s msg s') : Moves s (.onMsg msg) [] s'

/-! ### Inversion -/

theorem moves_of_send {s s' : MyClient} {t : Thread} {junk : Block} {queued : Bool} {ret : Int}
    {es : List Event} (h : s.step (.send t junk queued ret) = some (s', es)) :
    Moves s (.send t junk queued ret) es s' := by
  simp only [step] at h
  split at h
  · next cmd msg reqId hpc =>
    obtain ⟨frame, hframe, hs⟩ := Option.bind_eq_some_iff.mp h
    split at hs
    · next hret =>
      obtain ⟨rfl, rfl⟩ := Prod.mk.inj (Option.some.inj hs)
      exact .sendFailed hpc hframe hret
    · next hret =>
      obtain rfl := not_not.mp hret
      obtain ⟨rfl, rfl⟩ := Prod.mk.inj (Option.some.inj hs)
      exact .sent hpc hframe
  · next cmd msg reqId hpc =>
    obtain ⟨frame, hframe, hs⟩ := Option.bind_eq_some_iff.mp h
    obtain ⟨rfl, rfl⟩ := Prod.mk.inj (Option.some.inj hs)
    exact .asyncSent hpc hframe
  · cases h

theorem moves_of_wait {s s' : MyClient} {t : Thread} {res : WaitResult} {es : List Event}
    (h : s.step (.wait t res) = some (s', es)) : Moves s (.wait t res) es s' := by
  simp only [step] at h
  split at h
  · next msg reqId n hpc hsem =>
    obtain ⟨rfl, rfl⟩ := Prod.mk.inj (Option.some.inj h)
    exact .granted hpc hsem
  · next msg reqId hpc =>
    obtain ⟨rfl, rfl⟩ := Prod.mk.inj (Option.some.inj h)
    exact .waitFailed hpc (by decide)
  · next msg reqId hpc =>
    obtain ⟨rfl, rfl⟩ := Prod.mk.inj (Option.some.inj h)
    exact .waitFailed hpc (by decide)
  · cases h

theorem moves_of_step {s s' : MyClient} {a : Act} {es : List Event}
    (h : s.step a = some (s', es)) : Moves s a es s' := by
  cases a with
  | send t junk queued ret => exact moves_of_send h
  | wait t res => exact moves_of_wait h
  | onMsg msg =>
      obtain ⟨c, hc, he⟩ := Option.map_eq_some_iff.mp h
      obtain ⟨rfl, rfl⟩ := Prod.mk.inj he
      exact .onMsg (files_of_OnMsg hc)
  | syncSend t cmd msg =>
      simp only [step] at h
      split at h
      · next hpc =>
        obtain ⟨rfl, rfl⟩ := Prod.mk.inj (Option.some.inj h)
        exact .syncSend hpc
      · cases h
  | register t =>
      simp only [step] at h
      split at h
      · next cmd msg reqId hpc =>
        obtain ⟨rfl, rfl⟩ := Prod.mk.inj (Option.some.inj h)
        -- `insert` keeps an entry that is there already
        rcases hold : s.m_reqSemMap reqId with - | t'
        · exact .register hpc hold
        · exact .registerAgain hpc (by rw [hold]; exact Option.some_ne_none t')
      · cases h
  | take t =>
      simp only [step] at h
      split at h
      · next msg reqId hpc =>
        obtain ⟨rfl, rfl⟩ := Prod.mk.inj (Option.some.inj h)
        exact .take hpc
      · cases h
  | leave t =>
      simp only [step] at h
      split at h
      · next msg reqId result hpc =>
        obtain ⟨rfl, rfl⟩ := Prod.mk.inj (Option.some.inj h)
        exact .leave hpc
      · cases h
  | asyncSend t cmd msg =>
      simp only [step] at h
      split at h
      · next hpc =>
        obtain ⟨rfl, rfl⟩ := Prod.mk.inj (Option.some.inj h)
        exact .asyncSend hpc
      · cases h

/-! ### The counter of request ids -/

section RequestId

variable {s c : MyClient}

theorem OnMsg_requestId {msg : List Byte} (h : s.OnMsg msg = some c) :
    c.m_requestId = s.m_requestId := by
  cases files_of_OnMsg h <;> rfl

theorem takeResult_requestId (s : MyClient) (reqId : Nat) :
    (s.takeResult reqId).2.m_requestId = s.m_requestId := by
  unfold takeResult
  split <;> rfl

/-- The counter never goes back. -/
theorem requestId_le {a : Act} {es : List Event} (h : s.step a = some (c, es)) :
    s.m_requestId ≤ c.m_requestId := by
  cases moves_of_step h with
  | syncSend => exact Nat.le_succ _
  | asyncSend => exact Nat.le_succ _
  | take => exact (takeResult_requestId s _).ge
  | onMsg hfiles => cases hfiles <;> exact Nat.le_refl _
  | _ => exact Nat.le_refl _

end RequestId

end MyClient

end TestExamples
