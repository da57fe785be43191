/-
TestExamples/RJTcpClientReentry.lean

The application of RJCommon/RJTcpClient.cpp calls `Send` from inside
`m_callback`.

A step of `ClientSession` that reports something leaves the loop thread in
`m_callback`.  There the application calls `Send` as often as it likes, with
any messages, and returns.  Such a `Send` runs on the loop thread: it passes its
tests, pushes the package under `m_send_lock` and calls `uv_async_send`.  Other
threads go on meanwhile.

`m_send_lock` is no recursive mutex.  The loop thread holds it from `lock()` to
`unlock()` of `AsyncCallBack`, and between two steps nobody else does.  It
reports one thing in there, a `uv_write` that has failed.  It does so before it
takes the package out of `m_send_buf`, which makes no difference to anybody who
has to wait for the lock.
-/
import TestExamples.RJTcpClientSession

namespace TestExamples

/-- Where the loop thread is with respect to `m_callback`. -/
inductive CallbackPc
  | outside
  | inside                   -- the application runs
  | built (msg : List Byte)  -- in its `Send`, before `m_send_lock.lock()`
  | pushed                   -- before `uv_async_send`
  deriving DecidableEq, Repr

structure ReentrantClient where
  session : ClientSession
  callback : CallbackPc

namespace ReentrantClient

inductive Act
  | session (a : ClientSession.Act)
  | send (msg : List Byte)
  | push
  | signal
  | ret  -- the application returns

abbrev Event := ClientSession.Event

abbrev Outcome := Option (ReentrantClient × List Event)

def init : ReentrantClient := ⟨.init, .outside⟩

/-- `m_callback` is called. -/
def isNotice : Event → Bool
  | .m_callback _ => true
  | _ => false

/-- A step of the client. -/
def sessionStep (D : DataModel) (s : ReentrantClient) (a : ClientSession.Act) : Outcome :=
  (s.session.step D a).map fun p =>
    ({ session := p.1, callback := if p.2.any isNotice then .inside else s.callback }, p.2)

/-- The sending side changed. -/
def setCli (s : ReentrantClient) (c : RJTcpClient) (pc : CallbackPc) : ReentrantClient where
  session := { s.session with cli := c }
  callback := pc

/-- One step.  While the loop thread is in `m_callback` it makes no other. -/
def step (D : DataModel) (s : ReentrantClient) : Act → Outcome
  | .session a =>
      if a.onLoop = true → s.callback = .outside then s.sessionStep D a else none
  | .send msg =>
      if s.callback = .inside ∧ msg.length ≤ INT_MAX then
        if s.session.cli.m_is_connected = false ∨ msg = [] then some (s, [])
        else some ({ s with callback := .built msg }, [])
      else none
  | .push =>
      match s.callback with
      | .built msg =>
          -- held by another thread or by this one
          if s.session.cli.m_send_lock then none
          else
            some (s.setCli { s.session.cli with
              m_send_buf := s.session.cli.m_send_buf ++ [Msg2Package msg] } .pushed,
              [.cli (.pushed msg)])
      | _ => none
  | .signal =>
      if s.callback = .pushed then
        some (s.setCli { s.session.cli with async_pending := true } .inside, [])
      else none
  | .ret => if s.callback = .inside then some ({ s with callback := .outside }, []) else none

/-- `RJTcpClient` with its application as a machine. -/
def machine (D : DataModel) : Machine ReentrantClient Act Event := ⟨init, step D⟩

/-- The loop thread is before a `lock()` of `m_send_lock`, in `AsyncCallBack` or in
a `Send` of the application. -/
def Locks (s : ReentrantClient) : Prop :=
  s.session.cli.loop = .asyncCallBack ∨ ∃ msg, s.callback = .built msg

/-- **The loop thread waits for itself.** -/
def SelfDeadlock (s : ReentrantClient) : Prop := s.session.cli.m_send_lock = true ∧ s.Locks

/-- No `Send` passes its tests while the loop thread holds the lock: the
application sends nothing when a `uv_write` of `AsyncCallBack` has failed. -/
def NoSendInDrain (s : ReentrantClient) : Act → Prop
  | .send msg =>
      s.session.cli.m_send_lock = true → s.session.cli.m_is_connected = false ∨ msg = []
  | _ => True

instance (s : ReentrantClient) (act : Act) : Decidable (NoSendInDrain s act) := by
  unfold NoSendInDrain
  split <;> infer_instance

/-! ### Who holds the lock -/

/-- Between two steps the lock is held in the loop of `AsyncCallBack` only. -/
def Holds (c : RJTcpClient) : Prop := c.m_send_lock = true → c.loop = .draining

variable {D : DataModel} {s s' : ReentrantClient} {act : Act} {tr es : List Event}

theorem holds_of_step {c c' : RJTcpClient} {a : RJTcpClient.Act} {ces : List RJTcpClient.Event}
    (h : Holds c) (hs : c.step a = some (c', ces)) : Holds c' := by
  cases RJTcpClient.moves_of_step hs with
  | asyncCallBack hloop =>
      intro hlock
      rw [h hlock] at hloop
      cases hloop
  | lock => exact fun _ => rfl
  | drained => exact nofun
  | walked hloop =>
      intro hlock
      rw [h hlock] at hloop
      cases hloop
  | _ => exact h

/-- The other threads leave the lock and the loop thread alone. -/
theorem same_of_step {c c' : RJTcpClient} {a : RJTcpClient.Act} {ces : List RJTcpClient.Event}
    (hloop : a.onLoop = false) (hs : c.step a = some (c', ces)) :
    c'.m_send_lock = c.m_send_lock ∧ c'.loop = c.loop := by
  cases RJTcpClient.moves_of_step hs with
  | sendRefused | send | push | signal | closeAgain | close | setClosing | setDisconnected =>
      exact ⟨rfl, rfl⟩
  | _ => cases hloop

theorem holds_of_session {r r' : ClientSession} {a : ClientSession.Act} (h : Holds r.cli)
    (hs : r.step D a = some (r', es)) : Holds r'.cli := by
  cases ClientSession.moves_of_step hs with
  | connectFailed hc => exact holds_of_step h hc
  | connected hc => exact holds_of_step h hc
  | drain hc => exact holds_of_step h hc
  | walked hc => exact holds_of_step h hc
  | cli hc => exact holds_of_step h hc
  | _ => exact h

/-- What another thread does is not reported. -/
theorem same_of_session {r r' : ClientSession} {a : ClientSession.Act} (hloop : a.onLoop = false)
    (hs : r.step D a = some (r', es)) :
    r'.cli.m_send_lock = r.cli.m_send_lock ∧ es.any isNotice = false := by
  cases ClientSession.moves_of_step hs with
  | cli hc =>
      refine ⟨(same_of_step hloop hc).1, ?_⟩
      rw [List.any_map]
      exact List.any_eq_false.mpr fun _ _ => nofun
  | _ => cases hloop

/-! ### No deadlock -/

/-- Nobody is before a `lock()` while the loop thread holds the lock. -/
structure Unlocked (s : ReentrantClient) : Prop where
  holds : Holds s.session.cli
  built : ∀ msg, s.callback = .built msg → s.session.cli.m_send_lock = false

theorem Unlocked.not_selfDeadlock (h : s.Unlocked) : ¬ s.SelfDeadlock := by
  rintro ⟨hlock, hloop | ⟨msg, hpc⟩⟩
  · rw [h.holds hlock] at hloop
    cases hloop
  · rw [h.built msg hpc] at hlock
    cases hlock

theorem Unlocked.step (h : s.Unlocked) (hok : NoSendInDrain s act)
    (hs : s.step D act = some (s', es)) : s'.Unlocked := by
  cases act with
  | session a =>
      simp only [ReentrantClient.step] at hs
      split at hs
      · next hout =>
        obtain ⟨⟨r, res⟩, hr, he⟩ := Option.map_eq_some_iff.mp hs
        obtain ⟨rfl, rfl⟩ := Prod.mk.inj he
        refine ⟨holds_of_session h.holds hr, fun msg hpc => ?_⟩
        dsimp only at hpc
        split at hpc
        · cases hpc
        · -- another thread has moved
          have hloop : a.onLoop = false := by
            by_contra hne
            rw [hout (Bool.eq_true_of_not_eq_false hne)] at hpc
            cases hpc
          exact (same_of_session hloop hr).1.trans (h.built msg hpc)
      · cases hs
  | send msg =>
      obtain ⟨-, hs⟩ := Option.ite_none_right_eq_some.mp hs
      split at hs
      · obtain ⟨rfl, rfl⟩ := Prod.mk.inj (Option.some.inj hs)
        exact h
      · next hpass =>
        obtain ⟨rfl, rfl⟩ := Prod.mk.inj (Option.some.inj hs)
        exact ⟨h.holds, fun _ _ => Bool.eq_false_iff.mpr fun hlock => hpass (hok hlock)⟩
  | push =>
      simp only [ReentrantClient.step] at hs
      split at hs
      · split at hs
        · cases hs
        · obtain ⟨rfl, rfl⟩ := Prod.mk.inj (Option.some.inj hs)
          exact ⟨h.holds, nofun⟩
      · cases hs
  | signal =>
      obtain ⟨-, hs⟩ := Option.ite_none_right_eq_some.mp hs
      obtain ⟨rfl, rfl⟩ := Prod.mk.inj (Option.some.inj hs)
      exact ⟨h.holds, nofun⟩
  | ret =>
      obtain ⟨-, hs⟩ := Option.ite_none_right_eq_some.mp hs
      obtain ⟨rfl, rfl⟩ := Prod.mk.inj (Option.some.inj hs)
      exact ⟨h.holds, nofun⟩

/-- **The client never deadlocks on itself** as long as the application sends
nothing when a `uv_write` of `AsyncCallBack` has failed. -/
theorem not_selfDeadlock_of_noSendInDrain (h : (machine D).Run NoSendInDrain tr s) :
    ¬ s.SelfDeadlock := by
  have hinv : s.Unlocked :=
    h.invariant (fun _ s => s.Unlocked) ⟨nofun, nofun⟩ fun ih hok hs => ih.step hok hs
  exact hinv.not_selfDeadlock

/-- The condition is exact: a `Send` that passes its tests under the lock waits
for the thread it runs on. -/
theorem selfDeadlock_of_sendInDrain (hok : ¬ NoSendInDrain s act)
    (hs : s.step D act = some (s', es)) : s'.SelfDeadlock := by
  cases act with
  | send msg =>
      obtain ⟨hlock, hpass⟩ := Classical.not_imp.mp hok
      obtain ⟨-, hs⟩ := Option.ite_none_right_eq_some.mp hs
      rw [if_neg hpass] at hs
      obtain ⟨rfl, rfl⟩ := Prod.mk.inj (Option.some.inj hs)
      exact ⟨hlock, .inr ⟨msg, rfl⟩⟩
  | _ => exact absurd trivial hok

/-- A client that is greeted from `ON_CONNECTION` and loses a write, of which the
application is told and sends nothing. -/
theorem not_selfDeadlock_of_noSendInDrain_two : ∃ tr s,
    (machine .lp64).Run NoSendInDrain tr s ∧ .m_callback .ON_CONNECTION ∈ tr ∧
      .uv_writeFailed (Msg2Package [0x61]) (-1) ∈ tr ∧ ¬ s.SelfDeadlock := by
  obtain ⟨tr, s, hrun, hp⟩ := (machine .lp64).run_of_exec NoSendInDrain
    [.session (.cli (.HandleConnection 0 0)), .send [0x61], .push, .signal, .ret,
      .session (.cli .asyncCallBack), .session (.cli .lock), .session (.drainFailed (-1)),
      .send [], .ret, .session (.cli .drained)]
    (fun r => decide (.m_callback .ON_CONNECTION ∈ r.2 ∧
      .uv_writeFailed (Msg2Package [0x61]) (-1) ∈ r.2)) (by decide +kernel)
  obtain ⟨hconn, hfailed⟩ := of_decide_eq_true hp
  exact ⟨tr, s, hrun, hconn, hfailed, not_selfDeadlock_of_noSendInDrain hrun⟩

/-- The same client, whose application sends the message again when it is told
of the error. -/
theorem not_safe_from_itself : ¬ ∀ D tr s, (machine D).Run AnyStep tr s → ¬ s.SelfDeadlock := by
  intro h
  obtain ⟨tr, s, hrun, hp⟩ := (machine .lp64).run_of_exec AnyStep
    [.session (.cli (.HandleConnection 0 0)), .send [0x61], .push, .signal, .ret,
      .session (.cli .asyncCallBack), .session (.cli .lock), .session (.drainFailed (-1)),
      .send [0x61]]
    (fun r => decide (r.1.session.cli.m_send_lock = true ∧ r.1.callback = .built [0x61]))
    (by decide +kernel)
  obtain ⟨hlock, hpc⟩ := of_decide_eq_true hp
  exact h .lp64 tr s hrun ⟨hlock, .inr ⟨[0x61], hpc⟩⟩

end ReentrantClient

end TestExamples
