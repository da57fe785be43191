/-
TestExamples/MyClientDisconnection.lean

The whole client program: `MyClient` of libuvClient_test/MyClient.cpp on
`RJTcpClient`.

The loop thread of the transport makes its calls of `m_callback` in the step
that makes them, and `MyClient::func` sends them on: to `OnMsg` and
`OnConnection`, which leave the loop thread inside MyClientEvents.lean until
it has filed the entry, or to `OnError`, which calls the application.  A
request of the application goes the other way: `MyClient::Send` lays the frame
out in a block of its own and calls `RJTcpClient::Send`, and what that returns
is the result of the step of MyClient.lean.  `uv_async_send` returns 0.

`MyClient::func` has a branch for `ON_DISCONNECTION` and calls `OnError` in it;
nothing calls `MyClient::OnDisConnection`.  And nothing but `Close` takes
`m_is_connected` back, so that a send after the end of the connection is
queued like any other.
-/
import TestExamples.Lib.Simulation
import TestExamples.MyClientEvents
import TestExamples.RJTcpClientSession

namespace TestExamples

structure ClientApp where
  app : MsgDespatcher
  m_client : ClientSession
  /-- the block of `MyClient::Send`, while a thread is in `m_client.Send` -/
  buf : Thread → Option Block

/-- The request a thread is about to send. -/
def SendPc.sending? : SendPc → Option (List Byte × List Byte × Nat)
  | .registered cmd msg reqId | .asyncIssued cmd msg reqId => some (cmd, msg, reqId)
  | _ => none

namespace ClientApp

inductive Act
  | app (a : MsgDespatcher.Act)
  | loop (a : ClientSession.Act)
  | Send (t : Thread) (junk : Block)
  | push (t : Thread)
  | signal (t : Thread)
  | Close (t : Thread)
  | setClosing (t : Thread)
  | setDisconnected (t : Thread)

/-- `OnError` and `OnDisConnection` are calls of `IClientCallBack`; `queued`
is the entry of a request into `m_send_buf`. -/
inductive Event
  | app (e : MsgDespatcher.Event)
  | cli (e : ClientSession.Event)
  | OnError
  | OnDisConnection
  | queued (reqId : Nat)
  deriving DecidableEq, Repr

def init : ClientApp := ⟨.init, .init, fun _ => none⟩

abbrev Outcome := Option (ClientApp × List Event)

/-- One after the other. -/
def andThen (o : Outcome) (f : ClientApp → Outcome) : Outcome :=
  o.bind fun p => (f p.1).map fun q => (q.1, p.2 ++ q.2)

/-- A step of the application. -/
def appStep (s : ClientApp) (a : MsgDespatcher.Act) : Outcome :=
  (s.app.step a).map fun p => ({ s with app := p.1 }, p.2.map .app)

/-- A step of the transport, without the calls of `m_callback`. -/
def cliStep (D : DataModel) (s : ClientApp) (a : ClientSession.Act) : Outcome :=
  (s.m_client.step D a).map fun p => ({ s with m_client := p.1 }, p.2.map .cli)

/-- `MyClient::func`. -/
def func (s : ClientApp) : Notice → Outcome
  | .ON_MSG msg => s.appStep (.OnMsg msg)
  | .ON_CONNECTION => s.appStep .OnConnection
  | .ON_ERROR => some (s, [.OnError])
  | .ON_DISCONNECTION => some (s, [.OnError])

/-- The calls of `m_callback` among the events of the transport. -/
def callbacks (s : ClientApp) : List ClientSession.Event → Outcome
  | [] => some (s, [])
  | .m_callback n :: es =>
      andThen ((s.func n).map fun p => (p.1, .cli (.m_callback n) :: p.2)) fun s' => callbacks s' es
  | e :: es => andThen (some (s, [.cli e])) fun s' => callbacks s' es

/-- `MyClient::Send` up to the push, or to its end where `m_client.Send`
returns -1. -/
def Send (D : DataModel) (s : ClientApp) (t : Thread) (junk : Block) : Outcome :=
  (s.app.client.pc t).sending?.bind fun (cmd, msg, reqId) =>
    (MyClient.packSend junk cmd msg reqId).bind fun frame =>
      andThen (s.cliStep D (.cli (.send t frame))) fun s' =>
        if s'.m_client.cli.pc t = .idle then s'.appStep (.request (.send t junk false (-1)))
        else some ({ s' with buf := Function.update s.buf t (some junk) }, [])

/-- `uv_async_send`, and the end of `MyClient::Send` or of `Close`. -/
def signal (D : DataModel) (s : ClientApp) (t : Thread) : Outcome :=
  andThen (s.cliStep D (.cli (.signal t))) fun s' =>
    match s.buf t with
    | some junk =>
        { s' with buf := Function.update s.buf t none }.appStep (.request (.send t junk true 0))
    | none => some (s', [])

/-- One step. -/
def step (D : DataModel) (s : ClientApp) : Act → Outcome
  -- these are made by `func` and by `Send`
  | .app .OnConnection | .app (.OnMsg _) | .app (.request (.send _ _ _ _)) => none
  | .app a => s.appStep a
  | .loop a =>
      if a.onLoop = true ∧ s.app.loop = .idle then
        (s.m_client.step D a).bind fun p => callbacks { s with m_client := p.1 } p.2
      else none
  | .Send t junk => if s.buf t = none then s.Send D t junk else none
  | .push t =>
      (s.app.client.pc t).sending?.bind fun (_, _, reqId) =>
        andThen (s.cliStep D (.cli (.push t))) fun s' => some (s', [.queued reqId])
  | .signal t => s.signal D t
  | .Close t => if s.app.client.pc t = .idle then s.cliStep D (.cli (.close t)) else none
  | .setClosing t => s.cliStep D (.cli (.setClosing t))
  | .setDisconnected t => s.cliStep D (.cli (.setDisconnected t))

/-- The client program as a machine. -/
def machine (D : DataModel) : Machine ClientApp Act Event := ⟨init, step D⟩

/-! ### The end of the connection -/

/-- The request a call has returned for, and its error code. -/
def Event.returned? : Event → Option (Nat × Int)
  | .app (.request (.syncReturned reqId _ result)) => some (reqId, result.errorCode)
  | .app (.request (.asyncReturned result)) => some (result.reqId, result.errorCode)
  | _ => none

/-- The end of the connection is final: the application is told once, and
whatever it sends after that is refused and not queued. -/
structure Final (tr : List Event) : Prop where
  announced : ∀ n, n < 0 → .cli (.HandleMsg n) ∈ tr → tr.count .OnDisConnection = 1
  refused : ∀ pre n post, n < 0 → tr = pre ++ .cli (.HandleMsg n) :: post →
    ∀ reqId msg, .app (.request (.issued reqId msg)) ∈ post → .queued reqId ∉ post ∧
      ∀ e ∈ post, ∀ err, e.returned? = some (reqId, err) → err ≠ 0

/-! ### The parts of a step -/

/-- What an event says about the application. -/
def Event.app? : Event → Option MsgDespatcher.Event
  | .app e => some e
  | _ => none

/-- What an event says about the transport. -/
def Event.cli? : Event → Option ClientSession.Event
  | .cli e => some e
  | _ => none

/-- Both parts take steps of their own, and the application is not told of a
disconnection. -/
structure Within (D : DataModel) (s : ClientApp) (es : List Event) (s' : ClientApp) : Prop where
  quiet : .OnDisConnection ∉ es
  app : MsgDespatcher.machine.Continues s.app (es.filterMap Event.app?) s'.app
  cli : (ClientSession.machine D).Continues s.m_client (es.filterMap Event.cli?) s'.m_client

section Steps

variable {D : DataModel} {s s' s'' : ClientApp} {es es' : List Event}

theorem Within.trans (h : Within D s es s') (h' : Within D s' es' s'') :
    Within D s (es ++ es') s'' := by
  refine ⟨?_, ?_, ?_⟩
  · rw [List.mem_append, not_or]
    exact ⟨h.quiet, h'.quiet⟩
  · rw [List.filterMap_append]
    exact h.app.trans h'.app
  · rw [List.filterMap_append]
    exact h.cli.trans h'.cli

/-- Neither part moves. -/
theorem Within.of_parts (happ : s'.app = s.app) (hcli : s'.m_client = s.m_client)
    (hes : ∀ e ∈ es, e = .OnError ∨ ∃ reqId, e = .queued reqId) : Within D s es s' := by
  have hnone : ∀ {δ : Type} {g : Event → Option δ}, g .OnError = none →
      (∀ reqId, g (.queued reqId) = none) → es.filterMap g = [] := by
    intro δ g herror hqueued
    rw [List.filterMap_eq_nil_iff]
    intro e he
    rcases hes e he with rfl | ⟨reqId, rfl⟩
    · exact herror
    · exact hqueued reqId
  refine ⟨fun hmem => ?_, ?_, ?_⟩
  · rcases hes _ hmem with he | ⟨reqId, he⟩
    · cases he
    · cases he
  · rw [hnone rfl fun _ => rfl, happ]
    exact Machine.Continues.refl _ _
  · rw [hnone rfl fun _ => rfl, hcli]
    exact Machine.Continues.refl _ _

theorem within_of_andThen {o : Outcome} {f : ClientApp → Outcome}
    (h : andThen o f = some (s', es)) (ho : ∀ {s₁ es₁}, o = some (s₁, es₁) → Within D s es₁ s₁)
    (hf : ∀ {s₁ s₂ es₂}, f s₁ = some (s₂, es₂) → Within D s₁ es₂ s₂) : Within D s es s' := by
  obtain ⟨p, hp, h⟩ := Option.bind_eq_some_iff.mp h
  obtain ⟨q, hq, he⟩ := Option.map_eq_some_iff.mp h
  obtain ⟨rfl, rfl⟩ := Prod.mk.inj he
  exact (ho hp).trans (hf hq)

theorem within_of_appStep {a : MsgDespatcher.Act} (h : s.appStep a = some (s', es)) :
    Within D s es s' := by
  obtain ⟨p, hp, he⟩ := Option.map_eq_some_iff.mp h
  obtain ⟨rfl, rfl⟩ := Prod.mk.inj he
  refine ⟨by simp, ?_, ?_⟩
  · rw [List.filterMap_map, show Event.app? ∘ Event.app = some from rfl, List.filterMap_some]
    exact .of_step hp
  · have hnone : p.2.filterMap (Event.cli? ∘ Event.app) = [] :=
      List.filterMap_eq_nil_iff.mpr fun _ _ => rfl
    rw [List.filterMap_map, hnone]
    exact Machine.Continues.refl _ _

theorem within_of_cliStep {a : ClientSession.Act} (h : s.cliStep D a = some (s', es)) :
    Within D s es s' := by
  obtain ⟨p, hp, he⟩ := Option.map_eq_some_iff.mp h
  obtain ⟨rfl, rfl⟩ := Prod.mk.inj he
  refine ⟨by simp, ?_, ?_⟩
  · have hnone : p.2.filterMap (Event.app? ∘ Event.cli) = [] :=
      List.filterMap_eq_nil_iff.mpr fun _ _ => rfl
    rw [List.filterMap_map, hnone]
    exact Machine.Continues.refl _ _
  · rw [List.filterMap_map, show Event.cli? ∘ Event.cli = some from rfl, List.filterMap_some]
    exact .of_step hp

/-- `func` never calls `OnDisConnection`, and the transport does not move. -/
theorem within_of_func {n : Notice} (h : s.func n = some (s', es)) :
    Within D s es s' ∧ s'.m_client = s.m_client ∧ es.filterMap Event.cli? = [] := by
  have happ : ∀ {a}, s.appStep a = some (s', es) →
      Within D s es s' ∧ s'.m_client = s.m_client ∧ es.filterMap Event.cli? = [] := by
    intro a ha
    refine ⟨within_of_appStep ha, ?_⟩
    obtain ⟨p, -, he⟩ := Option.map_eq_some_iff.mp ha
    obtain ⟨rfl, rfl⟩ := Prod.mk.inj he
    refine ⟨rfl, ?_⟩
    rw [List.filterMap_map, List.filterMap_eq_nil_iff]
    exact fun _ _ => rfl
  cases n with
  | ON_MSG msg => exact happ h
  | ON_CONNECTION => exact happ h
  | ON_ERROR =>
      obtain ⟨rfl, rfl⟩ := Prod.mk.inj (Option.some.inj h)
      exact ⟨.of_parts rfl rfl (by simp), rfl, rfl⟩
  | ON_DISCONNECTION =>
      obtain ⟨rfl, rfl⟩ := Prod.mk.inj (Option.some.inj h)
      exact ⟨.of_parts rfl rfl (by simp), rfl, rfl⟩

theorem callbacks_spec (D : DataModel) {ces : List ClientSession.Event}
    (h : s.callbacks ces = some (s', es)) :
    .OnDisConnection ∉ es ∧
      MsgDespatcher.machine.Continues s.app (es.filterMap Event.app?) s'.app ∧
      s'.m_client = s.m_client ∧ es.filterMap Event.cli? = ces := by
  induction ces generalizing s es with
  | nil =>
      obtain ⟨rfl, rfl⟩ := Prod.mk.inj (Option.some.inj h)
      exact ⟨by simp, Machine.Continues.refl _ _, rfl, rfl⟩
  | cons e ces ih =>
      have hplain : andThen (some (s, [.cli e])) (fun s' => callbacks s' ces) = some (s', es) →
          .OnDisConnection ∉ es ∧
            MsgDespatcher.machine.Continues s.app (es.filterMap Event.app?) s'.app ∧
            s'.m_client = s.m_client ∧ es.filterMap Event.cli? = e :: ces := by
        intro h
        obtain ⟨q, hq, he⟩ := Option.map_eq_some_iff.mp h
        obtain ⟨rfl, rfl⟩ := Prod.mk.inj he
        obtain ⟨hquiet, happ, hm, hcli⟩ := ih hq
        exact ⟨by simp [hquiet], happ, hm, congrArg (e :: ·) hcli⟩
      cases e with
      | m_callback n =>
          obtain ⟨p, hp, h⟩ := Option.bind_eq_some_iff.mp h
          obtain ⟨r, hr, rfl⟩ := Option.map_eq_some_iff.mp hp
          obtain ⟨q, hq, he⟩ := Option.map_eq_some_iff.mp h
          obtain ⟨rfl, rfl⟩ := Prod.mk.inj he
          obtain ⟨hfunc, hm₁, hnone⟩ := within_of_func (D := D) hr
          obtain ⟨hquiet, happ, hm, hcli⟩ := ih hq
          refine ⟨by simp [hfunc.quiet, hquiet], ?_, hm.trans hm₁, ?_⟩
          · rw [List.filterMap_append]
            exact hfunc.app.trans happ
          · rw [List.filterMap_append, hcli]
            have hcons : (Event.cli (.m_callback n) :: r.2).filterMap Event.cli? =
                .m_callback n :: r.2.filterMap Event.cli? := rfl
            rw [hcons, hnone]
            rfl
      | _ => exact hplain h

theorem within_of_step {a : Act} (h : s.step D a = some (s', es)) : Within D s es s' := by
  cases a with
  | app a =>
      cases a with
      | OnConnection => cases h
      | OnMsg msg => cases h
      | request a =>
          cases a with
          | send => cases h
          | _ => exact within_of_appStep h
      | _ => exact within_of_appStep h
  | loop a =>
      obtain ⟨-, h⟩ := Option.ite_none_right_eq_some.mp h
      obtain ⟨p, hp, h⟩ := Option.bind_eq_some_iff.mp h
      obtain ⟨hquiet, happ, hm, hcli⟩ := callbacks_spec D h
      refine ⟨hquiet, happ, ?_⟩
      rw [hcli, hm]
      exact .of_step hp
  | Send t junk =>
      obtain ⟨-, h⟩ := Option.ite_none_right_eq_some.mp h
      obtain ⟨⟨cmd, msg, reqId⟩, -, h⟩ := Option.bind_eq_some_iff.mp h
      obtain ⟨frame, -, h⟩ := Option.bind_eq_some_iff.mp h
      refine within_of_andThen h within_of_cliStep fun {s₁ s₂ es₂} hs => ?_
      split at hs
      · exact within_of_appStep hs
      · obtain ⟨rfl, rfl⟩ := Prod.mk.inj (Option.some.inj hs)
        exact .of_parts rfl rfl (by simp)
  | push t =>
      obtain ⟨⟨cmd, msg, reqId⟩, -, h⟩ := Option.bind_eq_some_iff.mp h
      refine within_of_andThen h within_of_cliStep fun {s₁ s₂ es₂} hs => ?_
      obtain ⟨rfl, rfl⟩ := Prod.mk.inj (Option.some.inj hs)
      exact .of_parts rfl rfl (by simp)
  | signal t =>
      have h : s.signal D t = some (s', es) := h
      refine within_of_andThen h within_of_cliStep fun {s₁ s₂ es₂} hs => ?_
      split at hs
      · have hbuf : ∀ {b}, Within D s₁ [] { s₁ with buf := b } := .of_parts rfl rfl (by simp)
        exact hbuf.trans (within_of_appStep hs)
      · obtain ⟨rfl, rfl⟩ := Prod.mk.inj (Option.some.inj hs)
        exact .of_parts rfl rfl (by simp)
  | Close t =>
      obtain ⟨-, h⟩ := Option.ite_none_right_eq_some.mp h
      exact within_of_cliStep h
  | setClosing t => exact within_of_cliStep h
  | setDisconnected t => exact within_of_cliStep h

end Steps

/-- **The application and the transport in a run of the program.**  What is
proved of their runs holds of them here. -/
theorem parts_of_run {D : DataModel} {tr : List Event} {s : ClientApp}
    (h : (machine D).Run AnyStep tr s) :
    MsgDespatcher.machine.Run AnyStep (tr.filterMap Event.app?) s.app ∧
      (ClientSession.machine D).Run AnyStep (tr.filterMap Event.cli?) s.m_client :=
  ⟨h.part (f := ClientApp.app) rfl fun hs => (within_of_step hs).app,
    h.part (f := ClientApp.m_client) rfl fun hs => (within_of_step hs).cli⟩

/-! ### The application is not told -/

section Run

variable {D : DataModel} {tr : List Event} {s : ClientApp}

/-- No call of `IClientCallBack::OnDisConnection` in any run. -/
theorem OnDisConnection_not_mem (h : (machine D).Run AnyStep tr s) : .OnDisConnection ∉ tr := by
  refine h.invariant (fun tr _ => .OnDisConnection ∉ tr) (by simp) fun ih _ hs => ?_
  rw [List.mem_append, not_or]
  exact ⟨ih, (within_of_step hs).quiet⟩

/-- **The end of the connection is never final.**  Not in a single run in
which `HandleMsg` gets one. -/
theorem final_iff (h : (machine D).Run AnyStep tr s) :
    Final tr ↔ ∀ n, .cli (.HandleMsg n) ∈ tr → 0 ≤ n := by
  constructor
  · intro hfinal n hn
    by_contra hneg
    have hcount := hfinal.announced n (Int.not_le.mp hneg) hn
    rw [List.count_eq_zero.mpr (OnDisConnection_not_mem h)] at hcount
    cases hcount
  · intro hall
    refine ⟨fun n hn hmem => absurd (hall n hmem) (Int.not_le.mpr hn), ?_⟩
    intro pre n post hn htr
    exact absurd (hall n (by simp [htr])) (Int.not_le.mpr hn)

/-- The peer closes the connection; the application hears `OnError`, and an
`AsyncSend` after that is queued and returns 0. -/
def closedByPeer : List Act :=
  [.app .Start, .loop (.cli (.HandleConnection 0 0)), .app .store, .app .release,
    .loop (.HandleMsg (-4095) []),
    .app (.request (.asyncSend 0 SERVER_CMD_STX_COMMAND [65])),
    .Send 0 fun _ => 0, .push 0, .signal 0]

theorem final_iff_closedByPeer : ∃ tr s, (machine .lp64).Run AnyStep tr s ∧
    .cli (.HandleMsg (-4095)) ∈ tr ∧ .OnError ∈ tr ∧
    .app (.request (.asyncReturned ⟨0, 1⟩)) ∈ tr ∧
    (Final tr ↔ ∀ n, .cli (.HandleMsg n) ∈ tr → 0 ≤ n) := by
  obtain ⟨tr, s, hrun, hp⟩ := Machine.run_of_exec (machine .lp64) AnyStep closedByPeer
    (fun r => decide (Event.cli (.HandleMsg (-4095)) ∈ r.2 ∧ Event.OnError ∈ r.2 ∧
      Event.app (.request (.asyncReturned ⟨0, 1⟩)) ∈ r.2)) (by decide +kernel)
  obtain ⟨hmsg, herror, hret⟩ := of_decide_eq_true hp
  exact ⟨tr, s, hrun, hmsg, herror, hret, final_iff hrun⟩

theorem not_final : ¬ ∀ D tr s, (machine D).Run AnyStep tr s → Final tr := by
  intro h
  obtain ⟨tr, s, hrun, hp⟩ := Machine.run_of_exec (machine .lp64) AnyStep closedByPeer
    (fun r => decide (Event.cli (.HandleMsg (-4095)) ∈ r.2 ∧ r.2.count .OnDisConnection = 0))
    (by decide +kernel)
  obtain ⟨hmsg, hzero⟩ := of_decide_eq_true hp
  have hcount := (h .lp64 tr s hrun).announced (-4095) (by decide) hmsg
  rw [hzero] at hcount
  cases hcount

end Run

end ClientApp

/-! ### Sends after the end of the connection -/

namespace ClientSession

/-- What is read from is connected. -/
structure Reads (s : ClientSession) : Prop where
  shut : s.cli.Shut
  up : s.reading = true → s.cli.Up

theorem connected_of_HandleConnection {c c' : RJTcpClient} {es : List RJTcpClient.Event}
    (h : c.step (.HandleConnection 0 0) = some (c', es)) : c'.m_is_connected = true := by
  cases RJTcpClient.moves_of_step h with
  | connectFailed hret => simp at hret
  | connected => rfl

variable {D : DataModel} {s s' : ClientSession} {a : Act} {es : List Event}

theorem Reads.next (h : s.Reads) (hm : Moves D s a es s') :
    s'.Reads ∧ (s.cli.Up → s'.cli.Up) ∧ ∀ n, .HandleMsg n ∈ es → s'.cli.Up := by
  have hcli : ∀ {c a ces}, s.cli.step a = some (c, ces) → c.Shut ∧ (s.cli.Up → c.Up) := by
    intro c a ces hs
    have hflags := RJTcpClient.flags_of_step hs
    exact ⟨hflags.shut h.shut, hflags.up h.shut⟩
  cases hm with
  | connectFailed hs =>
      obtain ⟨hshut, hup⟩ := hcli hs
      exact ⟨⟨hshut, fun hr => hup (h.up hr)⟩, hup, by simp⟩
  | connected hs =>
      obtain ⟨hshut, hup⟩ := hcli hs
      have hc := connected_of_HandleConnection hs
      exact ⟨⟨hshut, fun _ => Or.inl hc⟩, hup, by simp⟩
  | drain hs =>
      obtain ⟨hshut, hup⟩ := hcli hs
      exact ⟨⟨hshut, fun hr => hup (h.up hr)⟩, hup, by simp⟩
  | walked hs =>
      obtain ⟨hshut, hup⟩ := hcli hs
      exact ⟨⟨hshut, nofun⟩, hup, by simp⟩
  | cli hs =>
      obtain ⟨hshut, hup⟩ := hcli hs
      exact ⟨⟨hshut, fun hr => hup (h.up hr)⟩, hup, by simp⟩
  | received hreading => exact ⟨⟨h.shut, h.up⟩, id, fun _ _ => h.up hreading⟩
  | ended hreading =>
      exact ⟨⟨h.shut, fun _ => h.up hreading⟩, id, fun _ _ => h.up hreading⟩
  | AfterSend =>
      refine ⟨⟨h.shut, h.up⟩, id, fun n hn => ?_⟩
      split at hn <;> simp at hn
  | _ => exact ⟨⟨h.shut, h.up⟩, id, by simp⟩

theorem reads_of_run {tr : List Event} (h : (machine D).Run AnyStep tr s) :
    s.Reads ∧ ∀ n, .HandleMsg n ∈ tr → s.cli.Up := by
  refine h.invariant (fun tr s => s.Reads ∧ ∀ n, .HandleMsg n ∈ tr → s.cli.Up)
    ⟨⟨nofun, nofun⟩, nofun⟩ fun ih _ hs => ?_
  obtain ⟨hreads, hup⟩ := ih
  obtain ⟨hreads', hkeep, hnew⟩ := hreads.next (moves_of_step hs)
  refine ⟨hreads', fun n hn => ?_⟩
  rcases List.mem_append.mp hn with hold | hn
  · exact hkeep (hup n hold)
  · exact hnew n hn

end ClientSession

namespace ClientApp

variable {D : DataModel} {tr : List Event} {s : ClientApp}

/-- A connection that has been read from stays up until `Close`. -/
theorem up_of_HandleMsg (h : (machine D).Run AnyStep tr s) {n : Int}
    (hmsg : .cli (.HandleMsg n) ∈ tr) : s.m_client.cli.Up := by
  refine (ClientSession.reads_of_run (parts_of_run h).2).2 n ?_
  exact List.mem_filterMap.mpr ⟨_, hmsg, rfl⟩

/-- **A later request is queued and reported as sent.**  `AsyncSend` after the
end of the connection, as long as nothing has called `Close`. -/
theorem AsyncSend_queued (h : (machine D).Run AnyStep tr s) {n : Int}
    (hend : .cli (.HandleMsg n) ∈ tr) (hclosing : s.m_client.cli.m_is_closing = false)
    {t : Thread} {cmd msg frame : List Byte} {reqId : Nat} {junk : Block}
    (hpc : s.app.client.pc t = .asyncIssued cmd msg reqId)
    (hframe : MyClient.packSend junk cmd msg reqId = some frame)
    (hsize : frame.length ≤ INT_MAX) (hidle : s.m_client.cli.pc t = .idle)
    (hbuf : s.buf t = none) (hlock : s.m_client.cli.m_send_lock = false) :
    ∃ s', (machine D).exec AnyStep s tr [.Send t junk, .push t, .signal t] =
      some (s', tr ++ [.cli (.cli (.pushed frame)), .queued reqId,
        .app (.request (.sent frame)), .app (.request (.asyncReturned ⟨0, reqId⟩))]) := by
  have hconn : s.m_client.cli.m_is_connected = true :=
    (up_of_HandleMsg h hend).resolve_right (by simp [hclosing])
  have hne : frame ≠ [] := by
    rintro rfl
    have hlen := (packMsg_laidOut hframe).length_eq
    have hhead : MSG_HEAD_LENGTH = 40 := rfl
    rw [List.length_nil] at hlen
    omega
  -- the transport after the first section, after the push and after the signal
  let c₁ := s.m_client.cli.setPc t (.built frame)
  let c₂ := { c₁ with m_send_buf := c₁.m_send_buf ++ [Msg2Package frame] }.setPc t .pushed
  let c₃ := { c₂ with async_pending := true }.setPc t .idle
  have h₁ : s.m_client.cli.step (.send t frame) = some (c₁, []) := by
    simp [RJTcpClient.step, RJTcpClient.Send, hidle, hsize, hconn, hne, c₁]
  have h₂ : c₁.step (.push t) = some (c₂, [.pushed frame]) := by
    simp [RJTcpClient.step, RJTcpClient.setPc, hlock, c₁, c₂]
  have h₃ : c₂.step (.signal t) = some (c₃, []) := by
    simp [RJTcpClient.step, RJTcpClient.setPc, c₂, c₃]
  let s₁ : ClientApp :=
    ⟨s.app, { s.m_client with cli := c₁ }, Function.update s.buf t (some junk)⟩
  let s₂ : ClientApp := { s₁ with m_client := { s.m_client with cli := c₂ } }
  have hbusy : c₁.pc t ≠ .idle := by simp [c₁, RJTcpClient.setPc]
  have hstep₁ : step D s (.Send t junk) = some (s₁, []) := by
    simp [step, Send, andThen, cliStep, hbuf, hpc, SendPc.sending?, hframe, ClientSession.step,
      RJTcpClient.Act.onLoop, h₁, hbusy, s₁]
  have hstep₂ : step D s₁ (.push t) = some (s₂, [.cli (.cli (.pushed frame)), .queued reqId]) := by
    simp [step, andThen, cliStep, hpc, SendPc.sending?, ClientSession.step,
      RJTcpClient.Act.onLoop, h₂, s₁, s₂]
  have hstep₃ : ∃ s₃, step D s₂ (.signal t) = some (s₃,
      [.app (.request (.sent frame)), .app (.request (.asyncReturned ⟨0, reqId⟩))]) := by
    simp [step, signal, andThen, cliStep, ClientSession.step, RJTcpClient.Act.onLoop, h₃, s₁, s₂,
      appStep, MsgDespatcher.step, MyClient.step, hpc, hframe]
  obtain ⟨s₃, hstep₃⟩ := hstep₃
  refine ⟨s₃, ?_⟩
  rw [Machine.exec_cons trivial hstep₁, Machine.exec_cons trivial hstep₂,
    Machine.exec_cons trivial hstep₃]
  simp [Machine.exec]

end ClientApp

end TestExamples
