/-
TestExamples/RJTcpClient.lean

The sending side of the TCP client, RJCommon/RJTcpClient.cpp.

As in the server, the loop thread runs one callback at a time and other
threads are inside `Send` or `Close`.  Unlike there the queue is not swapped:
`AsyncCallBack` holds `m_send_lock` from its first package to its last, so a
push has to wait for it (`m_send_lock` is the step's condition).

Every `uv_write` returns 0.  Whether the bytes written reach the server is not
decided here.  What the client receives plays no part in this and is left
out, and so are the calls of `m_callback` and the output.
-/
import Mathlib.Logic.Function.Basic
import TestExamples.Lib.Machine
import TestExamples.LibUvHelper

namespace TestExamples

/-- What the loop thread is doing. -/
inductive ClientLoop
  | idle
  | asyncCallBack  -- before `m_send_lock.lock()`
  | draining
  | walking        -- in `CloseAll`
  deriving DecidableEq, Repr

/-- Where a thread is in `Send` or `Close`. -/
inductive ClientCall
  | idle
  | built (msg : List Byte)  -- before the push of the package of `msg`
  | pushed                   -- before `uv_async_send`
  | closing                  -- before `m_is_closing = true`
  | disconnecting            -- before `m_is_connected = false`
  | closed                   -- before the `uv_async_send` of `Close`
  deriving DecidableEq, Repr

structure RJTcpClient where
  m_is_connected : Bool
  m_is_closing : Bool
  m_send_lock : Bool
  m_send_buf : List (List Byte)
  connecting : Bool
  async_pending : Bool
  loop : ClientLoop
  pc : Thread → ClientCall

namespace RJTcpClient

inductive Act
  | HandleConnection (status readRet : Int)
  | asyncCallBack
  | lock
  | drain
  | drained
  | walked
  | send (t : Thread) (msg : List Byte)
  | push (t : Thread)
  | signal (t : Thread)
  | close (t : Thread)
  | setClosing (t : Thread)
  | setDisconnected (t : Thread)

/-- `pushed` is the entry of a message into `m_send_buf`. -/
inductive Event
  | pushed (msg : List Byte)
  | uv_write (buf : List Byte)
  deriving DecidableEq, Repr

/-- After a successful `Connect`. -/
def init : RJTcpClient where
  m_is_connected := false
  m_is_closing := false
  m_send_lock := false
  m_send_buf := []
  connecting := true
  async_pending := false
  loop := .idle
  pc := fun _ => .idle

abbrev Outcome := Option (RJTcpClient × List Event)

def setPc (s : RJTcpClient) (t : Thread) (pc : ClientCall) : RJTcpClient :=
  { s with pc := Function.update s.pc t pc }

/-- The first part of `Send`. -/
def Send (s : RJTcpClient) (t : Thread) (msg : List Byte) : RJTcpClient :=
  if s.m_is_connected = false ∨ msg = [] then s else s.setPc t (.built msg)

/-- One step. -/
def step (s : RJTcpClient) : Act → Outcome
  | .HandleConnection status readRet =>
      if s.loop = .idle ∧ s.connecting then
        let s' := { s with connecting := false }
        if status ≠ 0 then some (s', [])
        else if readRet ≠ 0 then some (s', [])
        else some ({ s' with m_is_connected := true }, [])
      else none
  | .asyncCallBack =>
      if s.loop = .idle ∧ s.async_pending then
        some ({ s with
          async_pending := false
          loop := if s.m_is_closing then .walking else .asyncCallBack }, [])
      else none
  | .lock =>
      if s.loop = .asyncCallBack ∧ s.m_send_lock = false then
        some ({ s with m_send_lock := true, loop := .draining }, [])
      else none
  | .drain =>
      match s.loop, s.m_send_buf with
      | .draining, buf :: rest => some ({ s with m_send_buf := rest }, [.uv_write buf])
      | _, _ => none
  | .drained =>
      if s.loop = .draining ∧ s.m_send_buf = [] then
        some ({ s with m_send_lock := false, loop := .idle }, [])
      else none
  | .walked => if s.loop = .walking then some ({ s with loop := .idle }, []) else none
  | .send t msg =>
      if s.pc t = .idle ∧ msg.length ≤ INT_MAX then some (s.Send t msg, []) else none
  | .push t =>
      match s.pc t with
      | .built msg =>
          if s.m_send_lock then none
          else
            some ({ s with m_send_buf := s.m_send_buf ++ [Msg2Package msg] }.setPc t .pushed,
              [.pushed msg])
      | _ => none
  | .signal t =>
      match s.pc t with
      | .pushed | .closed => some ({ s with async_pending := true }.setPc t .idle, [])
      | _ => none
  | .close t =>
      if s.pc t = .idle then
        if s.m_is_closing then some (s, []) else some (s.setPc t .closing, [])
      else none
  | .setClosing t =>
      if s.pc t = .closing then
        some ({ s with m_is_closing := true }.setPc t .disconnecting, [])
      else none
  | .setDisconnected t =>
      if s.pc t = .disconnecting then
        some ({ s with m_is_connected := false }.setPc t .closed, [])
      else none

/-- `RJTcpClient` as a machine. -/
def machine : Machine RJTcpClient Act Event := ⟨init, step⟩

/-! ### The branches -/

/-- **The steps, branch by branch.** -/
inductive Moves (s : RJTcpClient) : Act → List Event → RJTcpClient → Prop
  | connectFailed {status readRet} (hret : status ≠ 0 ∨ readRet ≠ 0) :
      Moves s (.HandleConnection status readRet) [] { s with connecting := false }
  | connected :
      Moves s (.HandleConnection 0 0) [] { s with connecting := false, m_is_connected := true }
  | asyncCallBack (hloop : s.loop = .idle) (hpend : s.async_pending = true) :
      Moves s .asyncCallBack []
        { s with
          async_pending := false
          loop := if s.m_is_closing then .walking else .asyncCallBack }
  | lock (hloop : s.loop = .asyncCallBack) (hfree : s.m_send_lock = false) :
      Moves s .lock [] { s with m_send_lock := true, loop := .draining }
  | drain {buf rest} (hloop : s.loop = .draining) (hq : s.m_send_buf = buf :: rest) :
      Moves s .drain [.uv_write buf] { s with m_send_buf := rest }
  | drained (hloop : s.loop = .draining) (hq : s.m_send_buf = []) :
      Moves s .drained [] { s with m_send_lock := false, loop := .idle }
  | walked (hloop : s.loop = .walking) : Moves s .walked [] { s with loop := .idle }
  | sendRefused {t msg} : Moves s (.send t msg) [] s
  | send {t msg} (hpc : s.pc t = .idle) (hconn : s.m_is_connected = true) (hmsg : msg ≠ []) :
      Moves s (.send t msg) [] (s.setPc t (.built msg))
  | push {t msg} (hpc : s.pc t = .built msg) (hfree : s.m_send_lock = false) :
      Moves s (.push t) [.pushed msg]
        ({ s with m_send_buf := s.m_send_buf ++ [Msg2Package msg] }.setPc t .pushed)
  | signal {t} (hpc : s.pc t = .pushed ∨ s.pc t = .closed) :
      Moves s (.signal t) [] ({ s with async_pending := true }.setPc t .idle)
  | closeAgain {t} : Moves s (.close t) [] s
  | close {t} (hpc : s.pc t = .idle) : Moves s (.close t) [] (s.setPc t .closing)
  | setClosing {t} (hpc : s.pc t = .closing) :
      Moves s (.setClosing t) [] ({ s with m_is_closing := true }.setPc t .disconnecting)
  | setDisconnected {t} (hpc : s.pc t = .disconnecting) :
      Moves s (.setDisconnected t) [] ({ s with m_is_connected := false }.setPc t .closed)

theorem moves_of_HandleConnection {s s' : RJTcpClient} {status readRet : Int} {es : List Event}
    (h : s.step (.HandleConnection status readRet) = some (s', es)) :
    Moves s (.HandleConnection status readRet) es s' := by
  simp only [step] at h
  split at h
  · split at h
    · next hstatus =>
      obtain ⟨rfl, rfl⟩ := Prod.mk.inj (Option.some.inj h)
      exact .connectFailed (Or.inl hstatus)
    · next hstatus =>
      obtain rfl := not_not.mp hstatus
      split at h
      · next hread =>
        obtain ⟨rfl, rfl⟩ := Prod.mk.inj (Option.some.inj h)
        exact .connectFailed (Or.inr hread)
      · next hread =>
        obtain rfl := not_not.mp hread
        obtain ⟨rfl, rfl⟩ := Prod.mk.inj (Option.some.inj h)
        exact .connected
  · cases h

theorem moves_of_send {s s' : RJTcpClient} {t : Thread} {msg : List Byte} {es : List Event}
    (h : s.step (.send t msg) = some (s', es)) : Moves s (.send t msg) es s' := by
  obtain ⟨⟨hpc, -⟩, hs⟩ := Option.ite_none_right_eq_some.mp h
  obtain ⟨rfl, rfl⟩ := Prod.mk.inj (Option.some.inj hs)
  unfold Send
  split
  · exact .sendRefused
  · next hok =>
    obtain ⟨hconn, hmsg⟩ := not_or.mp hok
    exact .send hpc (Bool.eq_true_of_not_eq_false hconn) hmsg

theorem moves_of_step {s s' : RJTcpClient} {a : Act} {es : List Event}
    (h : s.step a = some (s', es)) : Moves s a es s' := by
  cases a with
  | HandleConnection status readRet => exact moves_of_HandleConnection h
  | send t msg => exact moves_of_send h
  | asyncCallBack =>
      obtain ⟨⟨hloop, hpend⟩, hs⟩ := Option.ite_none_right_eq_some.mp h
      obtain ⟨rfl, rfl⟩ := Prod.mk.inj (Option.some.inj hs)
      exact .asyncCallBack hloop hpend
  | lock =>
      obtain ⟨⟨hloop, hfree⟩, hs⟩ := Option.ite_none_right_eq_some.mp h
      obtain ⟨rfl, rfl⟩ := Prod.mk.inj (Option.some.inj hs)
      exact .lock hloop hfree
  | drain =>
      simp only [step] at h
      split at h
      · next buf rest hloop hq =>
        obtain ⟨rfl, rfl⟩ := Prod.mk.inj (Option.some.inj h)
        exact .drain hloop hq
      · cases h
  | drained =>
      obtain ⟨⟨hloop, hq⟩, hs⟩ := Option.ite_none_right_eq_some.mp h
      obtain ⟨rfl, rfl⟩ := Prod.mk.inj (Option.some.inj hs)
      exact .drained hloop hq
  | walked =>
      obtain ⟨hloop, hs⟩ := Option.ite_none_right_eq_some.mp h
      obtain ⟨rfl, rfl⟩ := Prod.mk.inj (Option.some.inj hs)
      exact .walked hloop
  | push t =>
      simp only [step] at h
      split at h
      · next msg hpc =>
        split at h
        · cases h
        · next hfree =>
          obtain ⟨rfl, rfl⟩ := Prod.mk.inj (Option.some.inj h)
          exact .push hpc (Bool.eq_false_iff.mpr hfree)
      · cases h
  | signal t =>
      simp only [step] at h
      split at h
      · next hpc =>
        obtain ⟨rfl, rfl⟩ := Prod.mk.inj (Option.some.inj h)
        exact .signal (Or.inl hpc)
      · next hpc =>
        obtain ⟨rfl, rfl⟩ := Prod.mk.inj (Option.some.inj h)
        exact .signal (Or.inr hpc)
      · cases h
  | close t =>
      obtain ⟨hpc, hs⟩ := Option.ite_none_right_eq_some.mp h
      split at hs
      · obtain ⟨rfl, rfl⟩ := Prod.mk.inj (Option.some.inj hs)
        exact .closeAgain
      · obtain ⟨rfl, rfl⟩ := Prod.mk.inj (Option.some.inj hs)
        exact .close hpc
  | setClosing t =>
      obtain ⟨hpc, hs⟩ := Option.ite_none_right_eq_some.mp h
      obtain ⟨rfl, rfl⟩ := Prod.mk.inj (Option.some.inj hs)
      exact .setClosing hpc
  | setDisconnected t =>
      obtain ⟨hpc, hs⟩ := Option.ite_none_right_eq_some.mp h
      obtain ⟨rfl, rfl⟩ := Prod.mk.inj (Option.some.inj hs)
      exact .setDisconnected hpc

/-! ### The queue -/

/-- What a step does to the queue: nothing, one push or one write. -/
inductive Queues (s s' : RJTcpClient) : List Event → Prop
  | none (hq : s'.m_send_buf = s.m_send_buf) : Queues s s' []
  | push {msg} (hq : s'.m_send_buf = s.m_send_buf ++ [Msg2Package msg]) :
      Queues s s' [.pushed msg]
  | write {buf} (hq : s.m_send_buf = buf :: s'.m_send_buf) : Queues s s' [.uv_write buf]

theorem queues_of_step {s s' : RJTcpClient} {a : Act} {es : List Event}
    (h : s.step a = some (s', es)) : Queues s s' es := by
  cases moves_of_step h with
  | drain _ hq => exact .write hq
  | push => exact .push rfl
  | _ => exact .none rfl

/-! ### The flags -/

/-- What a step does to the two flags.  `Close` alone takes `m_is_connected`
back, after it has set `m_is_closing`. -/
inductive Flags (c c' : RJTcpClient) : Prop
  | unclosed (hconn : c.m_is_connected = true → c'.m_is_connected = true)
      (hclosing : c'.m_is_closing = c.m_is_closing)
      (hpc : ∀ t, c'.pc t = .disconnecting → c.pc t = .disconnecting)
  | setClosing (hclosing : c'.m_is_closing = true)
  | setDisconnected {t} (ht : c.pc t = .disconnecting) (hclosing : c'.m_is_closing = c.m_is_closing)

/-- A thread moves, and not into the last part of `Close`. -/
theorem Flags.of_setPc {c r : RJTcpClient} {t : Thread} {q : ClientCall}
    (hconn : r.m_is_connected = c.m_is_connected) (hclosing : r.m_is_closing = c.m_is_closing)
    (hpc : r.pc = c.pc) (hq : q ≠ .disconnecting) : Flags c (r.setPc t q) := by
  refine .unclosed (fun h => hconn.trans h) hclosing fun u hu => ?_
  rcases update_eq hu with ⟨-, heq⟩ | ⟨-, hold⟩
  · exact absurd heq hq
  · rwa [← hpc]

theorem flags_of_step {c c' : RJTcpClient} {a : Act} {es : List Event}
    (h : c.step a = some (c', es)) : Flags c c' := by
  cases moves_of_step h with
  | connected => exact .unclosed (fun _ => rfl) rfl fun _ => id
  | send => exact .of_setPc rfl rfl rfl nofun
  | push => exact .of_setPc rfl rfl rfl nofun
  | signal => exact .of_setPc rfl rfl rfl nofun
  | close => exact .of_setPc rfl rfl rfl nofun
  | setClosing => exact .setClosing rfl
  | setDisconnected hpc => exact .setDisconnected hpc rfl
  | _ => exact .unclosed id rfl fun _ => id

/-- The flags agree with where the threads in `Close` are. -/
def Shut (c : RJTcpClient) : Prop := ∀ t, c.pc t = .disconnecting → c.m_is_closing = true

/-- Connected, or being closed. -/
def Up (c : RJTcpClient) : Prop := c.m_is_connected = true ∨ c.m_is_closing = true

theorem Flags.shut {c c' : RJTcpClient} (h : Flags c c') (hc : c.Shut) : c'.Shut := by
  intro t ht
  cases h with
  | unclosed _ hclosing hpc =>
      rw [hclosing]
      exact hc t (hpc t ht)
  | setClosing hclosing => exact hclosing
  | setDisconnected hu hclosing =>
      rw [hclosing]
      exact hc _ hu

theorem Flags.up {c c' : RJTcpClient} (h : Flags c c') (hc : c.Shut) (hup : c.Up) : c'.Up := by
  cases h with
  | unclosed hconn hclosing _ =>
      refine hup.imp hconn fun hcl => ?_
      rwa [hclosing]
  | setClosing hclosing => exact Or.inr hclosing
  | setDisconnected hu hclosing =>
      refine Or.inr ?_
      rw [hclosing]
      exact hc _ hu

end RJTcpClient

end TestExamples
