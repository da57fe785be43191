/-
TestExamples/RJTcpServerSteps.lean

The steps of the TCP server, branch by branch.

`Moves` lists what a step can do, with the condition under which it does it;
`moves_of_step` is the inversion of `step`.  Every invariant of the server is
proved by cases on `Moves`.  `idle_of_moves` says by which steps a thread enters
`Send` or `Close`.  The first invariant is here: `Registry` ties `m_clients` to
the clients alive.
-/
import TestExamples.RJTcpServer

namespace TestExamples

namespace RJTcpServer

/-! ### Fields -/

section Fields

variable (s : RJTcpServer) (a : Addr) (c : uv_tcp_client) (t : Thread) (q : CallPc)

@[simp] theorem setClient_heap : (s.setClient a c).heap = Function.update s.heap a (some c) := rfl
@[simp] theorem setClient_m_clients : (s.setClient a c).m_clients = s.m_clients := rfl
@[simp] theorem setClient_m_is_closing : (s.setClient a c).m_is_closing = s.m_is_closing := rfl
@[simp] theorem setClient_m_send_buf : (s.setClient a c).m_send_buf = s.m_send_buf := rfl
@[simp] theorem setClient_sendTemp : (s.setClient a c).sendTemp = s.sendTemp := rfl
@[simp] theorem setClient_serial : (s.setClient a c).serial = s.serial := rfl
@[simp] theorem setClient_async_pending :
    (s.setClient a c).async_pending = s.async_pending := rfl
@[simp] theorem setClient_loop : (s.setClient a c).loop = s.loop := rfl
@[simp] theorem setClient_pc : (s.setClient a c).pc = s.pc := rfl

@[simp] theorem setPc_heap : (s.setPc t q).heap = s.heap := rfl
@[simp] theorem setPc_m_clients : (s.setPc t q).m_clients = s.m_clients := rfl
@[simp] theorem setPc_m_is_closing : (s.setPc t q).m_is_closing = s.m_is_closing := rfl
@[simp] theorem setPc_m_send_buf : (s.setPc t q).m_send_buf = s.m_send_buf := rfl
@[simp] theorem setPc_sendTemp : (s.setPc t q).sendTemp = s.sendTemp := rfl
@[simp] theorem setPc_serial : (s.setPc t q).serial = s.serial := rfl
@[simp] theorem setPc_async_pending : (s.setPc t q).async_pending = s.async_pending := rfl
@[simp] theorem setPc_loop : (s.setPc t q).loop = s.loop := rfl
@[simp] theorem setPc_pc : (s.setPc t q).pc = Function.update s.pc t q := rfl

end Fields

/-! ### The branches -/

/-- A registered client is removed and `uv_close` called on it. -/
def dropped (s : RJTcpServer) (a : Addr) (c : uv_tcp_client) : RJTcpServer :=
  { s with m_clients := s.m_clients.erase a }.setClient a { c with closing := some .ClientClose }

/-- `RemoveClient` and `uv_close`: both or neither. -/
inductive Drops (s : RJTcpServer) (a : Addr) : List Event → RJTcpServer → Prop
  | unknown (hmem : a ∉ s.m_clients) : Drops s a [] s
  | known {c} (hmem : a ∈ s.m_clients) (hc : s.heap a = some c) :
      Drops s a [.OnDisconnection a, .uv_close c.conn] (s.dropped a c)

theorem drops_of_dropClient {s s' : RJTcpServer} {a : Addr} {es : List Event}
    (h : s.dropClient a = some (s', es)) : Drops s a es s' := by
  unfold dropClient RemoveClient at h
  by_cases hmem : a ∈ s.m_clients
  · simp only [hmem, if_true] at h
    obtain ⟨p, hp, he⟩ := Option.map_eq_some_iff.mp h
    obtain ⟨c, hc, rfl⟩ := Option.map_eq_some_iff.mp hp
    obtain ⟨rfl, rfl⟩ := Prod.mk.inj he
    exact .known hmem hc
  · simp only [hmem, if_false] at h
    obtain ⟨rfl, rfl⟩ := Prod.mk.inj (Option.some.inj h)
    exact .unknown hmem

/-- What `OnMsg` does with a call of the reader. -/
inductive Handles (s : RJTcpServer) (a : Addr) (call : OnMsgCall) : List Event → RJTcpServer → Prop
  | drop {es s'} (hbad : call.msg = none ∨ call.size < 0) (hd : Drops s a es s') :
      Handles s a call es s'
  | deliver {c msg} (hmsg : call.msg = some msg) (hsize : 0 ≤ call.size) (hmem : a ∈ s.m_clients)
      (hc : s.heap a = some c) : Handles s a call [.OnMsg a c.conn msg] s
  | skip {msg} (hmsg : call.msg = some msg) (hsize : 0 ≤ call.size) (hmem : a ∉ s.m_clients) :
      Handles s a call [] s

theorem handles_of_OnMsg {s s' : RJTcpServer} {a : Addr} {call : OnMsgCall} {es : List Event}
    (h : s.OnMsg a call = some (s', es)) : Handles s a call es s' := by
  unfold OnMsg at h
  split at h
  · next hmsg => exact .drop (Or.inl hmsg) (drops_of_dropClient h)
  · next msg hmsg =>
    split at h
    · next hsize => exact .drop (Or.inr hsize) (drops_of_dropClient h)
    · next hsize =>
      split at h
      · next hmem =>
        obtain ⟨c, hc, he⟩ := Option.map_eq_some_iff.mp h
        obtain ⟨rfl, rfl⟩ := Prod.mk.inj he
        exact .deliver hmsg (Int.not_lt.mp hsize) hmem hc
      · next hmem =>
        obtain ⟨rfl, rfl⟩ := Prod.mk.inj (Option.some.inj h)
        exact .skip hmsg (Int.not_lt.mp hsize) hmem

/-- The server with the new client `c` at `a`. -/
def opened (s : RJTcpServer) (a : Addr) (c : uv_tcp_client) : RJTcpServer :=
  { s with serial := s.serial + 1 }.setClient a c

/-- **The steps, branch by branch.** -/
inductive Moves (D : DataModel) (s : RJTcpServer) : Act → List Event → RJTcpServer → Prop
  | acceptNone {a st i ac r} : Moves D s (.accept a st i ac r) [] s
  | acceptFailed {a st i ac r} (hloop : s.loop = .idle) (hfresh : s.heap a = none) :
      Moves D s (.accept a st i ac r) [.uv_close s.serial]
        (s.opened a { s.newClient with closing := some .ClientClose })
  | accepted {a st i ac r} (hloop : s.loop = .idle) (hfresh : s.heap a = none)
      (hok : st = 0 ∧ i = 0 ∧ ac = 0 ∧ r = 0) (hopen : s.m_is_closing = false)
      (hnull : a ≠ nullptr) :
      Moves D s (.accept a st i ac r) [.OnNewConnection a s.serial]
        { s.opened a s.newClient with m_clients := s.m_clients ++ [a] }
  | read {a c msg r} (hloop : s.loop = .idle) (hc : s.heap a = some c) (hopen : c.closing = none)
      (hmsg : msg ≠ []) (hr : c.reader.receive msg = some r) :
      Moves D s (.read a msg) [] { s.setClient a { c with reader := r } with loop := .reading a }
  | readEnd {a c es s'} (hloop : s.loop = .idle) (hc : s.heap a = some c)
      (hopen : c.closing = none) (hd : Drops s a es s') : Moves D s (.readEnd a) es s'
  | passExit {a c} (hloop : s.loop = .reading a) (hc : s.heap a = some c)
      (hp : c.reader.pass D = .exit) : Moves D s .pass [] { s with loop := .idle }
  | passMore {a c r} (hloop : s.loop = .reading a) (hc : s.heap a = some c)
      (hp : c.reader.pass D = .stop none r) :
      Moves D s .pass [] { s.setClient a { c with reader := r } with loop := .idle }
  | passStop {a c r call es s'} (hloop : s.loop = .reading a) (hc : s.heap a = some c)
      (hp : c.reader.pass D = .stop (some call) r)
      (hh : Handles { s.setClient a { c with reader := r } with loop := .idle } a call es s') :
      Moves D s .pass es s'
  | passNext {a c r call es s'} (hloop : s.loop = .reading a) (hc : s.heap a = some c)
      (hp : c.reader.pass D = .next call r)
      (hh : Handles (s.setClient a { c with reader := r }) a call es s') : Moves D s .pass es s'
  | asyncCallBack (hloop : s.loop = .idle) (hpend : s.async_pending = true) :
      Moves D s .asyncCallBack []
        { s with
          async_pending := false
          loop := if s.m_is_closing then .walking else .asyncCallBack }
  | swap (hloop : s.loop = .asyncCallBack) :
      Moves D s .swap []
        { s with m_send_buf := s.sendTemp, sendTemp := s.m_send_buf, loop := .draining }
  | drainSent {c buf rest ret} (hloop : s.loop = .draining) (hq : s.sendTemp = buf :: rest)
      (hmem : buf.client ∈ s.m_clients) (hc : s.heap buf.client = some c) (hret : ret = 0) :
      Moves D s (.drain ret) [.uv_write c.conn buf ret]
        ({ s with sendTemp := rest }.setClient buf.client { c with writes := c.writes ++ [buf] })
  | drainFailed {c buf rest ret es s'} (hloop : s.loop = .draining)
      (hq : s.sendTemp = buf :: rest) (hmem : buf.client ∈ s.m_clients)
      (hc : s.heap buf.client = some c) (hret : ret ≠ 0)
      (hd : Drops { s with sendTemp := rest } buf.client es s') :
      Moves D s (.drain ret) (.uv_write c.conn buf ret :: es) s'
  | drainDropped {buf rest ret} (hloop : s.loop = .draining) (hq : s.sendTemp = buf :: rest)
      (hmem : buf.client ∉ s.m_clients) :
      Moves D s (.drain ret) [.dropped buf] { s with sendTemp := rest }
  | drained (hloop : s.loop = .draining) (hq : s.sendTemp = []) :
      Moves D s .drained [] { s with loop := .idle }
  | walkClose {a c} (hloop : s.loop = .walking) (hc : s.heap a = some c)
      (hopen : c.closing = none) :
      Moves D s (.walk a) [.uv_close c.conn] (s.setClient a { c with closing := some .null })
  | walkSkip {a c} (hloop : s.loop = .walking) (hc : s.heap a = some c) (hopen : c.closing ≠ none) :
      Moves D s (.walk a) [] s
  | walked (hloop : s.loop = .walking) : Moves D s .walked [] { s with loop := .idle }
  | sent {a c buf rest} (hloop : s.loop = .idle) (hc : s.heap a = some c)
      (hopen : c.closing = none) (hw : c.writes = buf :: rest) :
      Moves D s (.afterSend a 0) [] (s.setClient a { c with writes := rest })
  | sendFailed {a c buf rest status es s'} (hloop : s.loop = .idle) (hc : s.heap a = some c)
      (hw : c.writes = buf :: rest) (hst : status ≠ 0)
      (hd : Drops (s.setClient a { c with writes := rest }) a es s') :
      Moves D s (.afterSend a status) es s'
  | clientClose {a c} (hloop : s.loop = .idle) (hc : s.heap a = some c)
      (hcl : c.closing = some .ClientClose) (hw : c.writes = []) :
      Moves D s (.closeDone a) [] { s with heap := Function.update s.heap a none }
  | closeNone {a} : Moves D s (.closeDone a) [] s
  | sendRefused {t client msg meant} : Moves D s (.send t client msg meant) [] s
  | send {t client msg meant} (hpc : s.pc t = .idle) (hnull : client ≠ nullptr) (hmsg : msg ≠ [])
      (hsize : msg.length ≤ INT_MAX) :
      Moves D s (.send t client msg meant) [.accepted t ⟨client, Msg2Package msg, meant⟩]
        (s.setPc t (.built ⟨client, Msg2Package msg, meant⟩))
  | push {t buf} (hpc : s.pc t = .built buf) :
      Moves D s (.push t) [.pushed t buf]
        ({ s with m_send_buf := s.m_send_buf ++ [buf] }.setPc t .pushed)
  | signal {t} (hpc : s.pc t = .pushed ∨ s.pc t = .closed) :
      Moves D s (.signal t) [] ({ s with async_pending := true }.setPc t .idle)
  | closeAgain {t} : Moves D s (.close t) [] s
  | close {t} (hpc : s.pc t = .idle) : Moves D s (.close t) [] (s.setPc t .closing)
  | setClosing {t} (hpc : s.pc t = .closing) :
      Moves D s (.setClosing t) [] ({ s with m_is_closing := true }.setPc t .closed)

/-! ### Inversion -/

theorem moves_of_accept {D : DataModel} {s s' : RJTcpServer} {a : Addr} {st i ac r : Int}
    {es : List Event} (hloop : s.loop = .idle)
    (h : s.AcceptConnection a st i ac r = some (s', es)) :
    Moves D s (.accept a st i ac r) es s' := by
  unfold AcceptConnection at h
  split at h
  · obtain ⟨rfl, rfl⟩ := Prod.mk.inj (Option.some.inj h)
    exact .acceptNone
  · next hst =>
    split at h
    · obtain ⟨rfl, rfl⟩ := Prod.mk.inj (Option.some.inj h)
      exact .acceptNone
    · next hopen =>
      split at h
      · cases h
      · next hfree =>
        obtain ⟨hnull, hfresh⟩ := not_or.mp hfree
        have hfresh : s.heap a = none := by simpa using hfresh
        -- both failures close the client just created
        have hclose : (s.opened a s.newClient).uv_close a .ClientClose =
            some (s.opened a { s.newClient with closing := some .ClientClose },
              [.uv_close s.serial]) := by
          simp [uv_close, opened, setClient, newClient]
        split at h
        · obtain ⟨rfl, rfl⟩ := Prod.mk.inj (Option.some.inj h)
          exact .acceptNone
        · next hi =>
          split at h
          · obtain ⟨rfl, rfl⟩ := Prod.mk.inj (Option.some.inj (hclose.symm.trans h))
            exact .acceptFailed hloop hfresh
          · next hac =>
            split at h
            · obtain ⟨rfl, rfl⟩ := Prod.mk.inj (Option.some.inj (hclose.symm.trans h))
              exact .acceptFailed hloop hfresh
            · next hr =>
              obtain ⟨rfl, rfl⟩ := Prod.mk.inj (Option.some.inj h)
              exact .accepted hloop hfresh
                ⟨not_not.mp hst, not_not.mp hi, not_not.mp hac, not_not.mp hr⟩
                (Bool.not_eq_true _ ▸ hopen) hnull

theorem moves_of_pass {D : DataModel} {s s' : RJTcpServer} {a : Addr} {c : uv_tcp_client}
    {es : List Event} (hloop : s.loop = .reading a) (hc : s.heap a = some c)
    (h : s.SetBufferPass D a c = some (s', es)) : Moves D s .pass es s' := by
  unfold SetBufferPass at h
  split at h
  · next hp =>
    obtain ⟨rfl, rfl⟩ := Prod.mk.inj (Option.some.inj h)
    exact .passExit hloop hc hp
  · next r hp =>
    obtain ⟨rfl, rfl⟩ := Prod.mk.inj (Option.some.inj h)
    exact .passMore hloop hc hp
  · next call r hp => exact .passStop hloop hc hp (handles_of_OnMsg h)
  · next call r hp => exact .passNext hloop hc hp (handles_of_OnMsg h)

theorem moves_of_drainOne {D : DataModel} {s s' : RJTcpServer} {ret : Int} {es : List Event}
    (hloop : s.loop = .draining) (h : s.drainOne ret = some (s', es)) :
    Moves D s (.drain ret) es s' := by
  unfold drainOne at h
  split at h
  · cases h
  · next buf rest hq =>
    dsimp only at h
    split at h
    · next hcheck =>
      have hmem : buf.client ∈ s.m_clients := of_decide_eq_true hcheck
      obtain ⟨c, hc, h⟩ := Option.bind_eq_some_iff.mp h
      split at h
      · next hret =>
        obtain ⟨p, hp, he⟩ := Option.map_eq_some_iff.mp h
        obtain ⟨rfl, rfl⟩ := Prod.mk.inj he
        exact .drainFailed hloop hq hmem hc hret (drops_of_dropClient hp)
      · next hret =>
        obtain ⟨rfl, rfl⟩ := Prod.mk.inj (Option.some.inj h)
        exact .drainSent hloop hq hmem hc (not_not.mp hret)
    · next hcheck =>
      obtain ⟨rfl, rfl⟩ := Prod.mk.inj (Option.some.inj h)
      exact .drainDropped hloop hq fun hmem => hcheck (decide_eq_true hmem)

theorem moves_of_walk {D : DataModel} {s s' : RJTcpServer} {a : Addr} {c : uv_tcp_client}
    {es : List Event} (hloop : s.loop = .walking) (hc : s.heap a = some c)
    (h : s.WalkCallBack a c = some (s', es)) : Moves D s (.walk a) es s' := by
  unfold WalkCallBack at h
  split at h
  · next hopen =>
    rw [uv_close, hc] at h
    obtain ⟨rfl, rfl⟩ := Prod.mk.inj (Option.some.inj h)
    exact .walkClose hloop hc hopen
  · next hopen =>
    obtain ⟨rfl, rfl⟩ := Prod.mk.inj (Option.some.inj h)
    exact .walkSkip hloop hc hopen

theorem moves_of_afterSend {D : DataModel} {s s' : RJTcpServer} {a : Addr} {c : uv_tcp_client}
    {status : Int} {es : List Event} (hloop : s.loop = .idle) (hc : s.heap a = some c)
    (hst : ¬ (c.closing ≠ none ∧ status = 0)) (h : s.AfterSend a c status = some (s', es)) :
    Moves D s (.afterSend a status) es s' := by
  unfold AfterSend at h
  split at h
  · cases h
  · next buf rest hw =>
    dsimp only at h
    split at h
    · next hne => exact .sendFailed hloop hc hw hne (drops_of_dropClient h)
    · next heq =>
      obtain rfl := not_not.mp heq
      obtain ⟨rfl, rfl⟩ := Prod.mk.inj (Option.some.inj h)
      exact .sent hloop hc (not_not.mp fun hcl => hst ⟨hcl, rfl⟩) hw

/-- **Inversion of a step.** -/
theorem moves_of_step {D : DataModel} {s s' : RJTcpServer} {act : Act} {es : List Event}
    (h : s.step D act = some (s', es)) : Moves D s act es s' := by
  cases act with
  | accept a st i ac r =>
      simp only [step] at h
      split at h
      · next hloop => exact moves_of_accept hloop h
      · cases h
  | read a msg =>
      simp only [step] at h
      split at h
      · next c hloop hc =>
        split at h
        · next hcond =>
          obtain ⟨r, hr, he⟩ := Option.map_eq_some_iff.mp h
          obtain ⟨rfl, rfl⟩ := Prod.mk.inj he
          exact .read hloop hc hcond.1 hcond.2 hr
        · cases h
      · cases h
  | readEnd a =>
      simp only [step] at h
      split at h
      · next c hloop hc =>
        split at h
        · next hopen => exact .readEnd hloop hc hopen (drops_of_dropClient h)
        · cases h
      · cases h
  | pass =>
      simp only [step] at h
      split at h
      · next a hloop =>
        obtain ⟨c, hc, h⟩ := Option.bind_eq_some_iff.mp h
        exact moves_of_pass hloop hc h
      · cases h
  | asyncCallBack =>
      simp only [step] at h
      split at h
      · next hcond =>
        obtain ⟨rfl, rfl⟩ := Prod.mk.inj (Option.some.inj h)
        exact .asyncCallBack hcond.1 hcond.2
      · cases h
  | swap =>
      simp only [step] at h
      split at h
      · next hloop =>
        obtain ⟨rfl, rfl⟩ := Prod.mk.inj (Option.some.inj h)
        exact .swap hloop
      · cases h
  | drain ret =>
      simp only [step] at h
      split at h
      · next hloop => exact moves_of_drainOne hloop h
      · cases h
  | drained =>
      simp only [step] at h
      split at h
      · next hcond =>
        obtain ⟨rfl, rfl⟩ := Prod.mk.inj (Option.some.inj h)
        exact .drained hcond.1 hcond.2
      · cases h
  | walk a =>
      simp only [step] at h
      split at h
      · next hloop =>
        obtain ⟨c, hc, h⟩ := Option.bind_eq_some_iff.mp h
        exact moves_of_walk hloop hc h
      · cases h
  | walked =>
      simp only [step] at h
      split at h
      · next hloop =>
        obtain ⟨rfl, rfl⟩ := Prod.mk.inj (Option.some.inj h)
        exact .walked hloop
      · cases h
  | afterSend a status =>
      simp only [step] at h
      split at h
      · next c hloop hc =>
        split at h
        · cases h
        · next hst => exact moves_of_afterSend hloop hc hst h
      · cases h
  | closeDone a =>
      simp only [step] at h
      split at h
      · next hloop hc =>
        obtain ⟨rfl, rfl⟩ := Prod.mk.inj (Option.some.inj h)
        exact .clientClose hloop hc rfl rfl
      · obtain ⟨rfl, rfl⟩ := Prod.mk.inj (Option.some.inj h)
        exact .closeNone
      · cases h
  | send t client msg meant =>
      simp only [step] at h
      split at h
      · next hcond =>
        unfold Send at h
        split at h
        · obtain ⟨rfl, rfl⟩ := Prod.mk.inj (Option.some.inj h)
          exact .sendRefused
        · next hok =>
          obtain ⟨-, hok⟩ := not_or.mp hok
          obtain ⟨hnull, hmsg⟩ := not_or.mp hok
          obtain ⟨rfl, rfl⟩ := Prod.mk.inj (Option.some.inj h)
          exact .send hcond.1 hnull hmsg hcond.2
      · cases h
  | push t =>
      simp only [step] at h
      split at h
      · next buf hpc =>
        obtain ⟨rfl, rfl⟩ := Prod.mk.inj (Option.some.inj h)
        exact .push hpc
      · cases h
  | signal t =>
      simp only [step] at h
      split at h
      · next hpc =>
        obtain ⟨rfl, rfl⟩ := Prod.mk.inj (Option.some.inj h)
        exact .signal (Or.inl hpc)
      · next hpc =>
        obtain ⟨rfl, rfl⟩ := Prod.mk.inj (Option.some.inj h)
        exact .signal (Or.inr hpc)
      · cases h
  | close t =>
      simp only [step] at h
      split at h
      · next hpc =>
        split at h
        · obtain ⟨rfl, rfl⟩ := Prod.mk.inj (Option.some.inj h)
          exact .closeAgain
        · obtain ⟨rfl, rfl⟩ := Prod.mk.inj (Option.some.inj h)
          exact .close hpc
      · cases h
  | setClosing t =>
      simp only [step] at h
      split at h
      · next hpc =>
        obtain ⟨rfl, rfl⟩ := Prod.mk.inj (Option.some.inj h)
        exact .setClosing hpc
      · cases h

/-! ### The threads -/

section Threads

variable {D : DataModel} {s s' : RJTcpServer} {act : Act} {a : Addr} {es : List Event}

theorem Drops.pc_eq (hd : Drops s a es s') : s'.pc = s.pc := by
  cases hd <;> rfl

theorem Handles.pc_eq {call : OnMsgCall} (hh : Handles s a call es s') : s'.pc = s.pc := by
  cases hh with
  | drop _ hd => exact hd.pc_eq
  | deliver => rfl
  | skip => rfl

/-- A thread is outside `Send` and `Close` until it calls one of them. -/
theorem idle_of_moves (hm : Moves D s act es s') {t : Thread} (hidle : s.pc t = .idle) :
    s'.pc t = .idle ∨ act = .close t ∨ ∃ client msg meant, act = .send t client msg meant := by
  have hsame : s'.pc = s.pc → s'.pc t = .idle := fun hpc => hpc ▸ hidle
  -- a thread that moves on has been inside
  have hother : ∀ {u : Thread} {q : CallPc}, s.pc u ≠ .idle →
      Function.update s.pc u q t = .idle := by
    intro u q hu
    have hne : t ≠ u := fun htu => hu (htu ▸ hidle)
    rwa [Function.update_of_ne hne]
  cases hm with
  | readEnd _ _ _ hd => exact Or.inl (hsame hd.pc_eq)
  | passStop _ _ _ hh => exact Or.inl (hsame hh.pc_eq)
  | passNext _ _ _ hh => exact Or.inl (hsame hh.pc_eq)
  | drainFailed _ _ _ _ _ hd => exact Or.inl (hsame hd.pc_eq)
  | sendFailed _ _ _ _ hd => exact Or.inl (hsame hd.pc_eq)
  | @send u client msg meant =>
      rcases eq_or_ne t u with rfl | hne
      · exact Or.inr (Or.inr ⟨client, msg, meant, rfl⟩)
      · exact Or.inl ((Function.update_of_ne hne ..).trans hidle)
  | push hpc => exact Or.inl (hother (hpc ▸ nofun))
  | signal hpc => exact Or.inl (hother (by rcases hpc with hpc | hpc <;> simp [hpc]))
  | @close u =>
      rcases eq_or_ne t u with rfl | hne
      · exact Or.inr (Or.inl rfl)
      · exact Or.inl ((Function.update_of_ne hne ..).trans hidle)
  | setClosing hpc => exact Or.inl (hother (hpc ▸ nofun))
  | _ => exact Or.inl hidle

end Threads

/-! ### Registered clients -/

/-- One event changes who is registered. -/
def register (m : List Addr) : Event → List Addr
  | .OnNewConnection a _ => m ++ [a]
  | .OnDisconnection a => m.erase a
  | _ => m

/-- **`m_clients` follows the calls of `OnNewConnection` and
`OnDisconnection`.** -/
theorem m_clients_step {D : DataModel} {s s' : RJTcpServer} {act : Act} {es : List Event}
    (hm : Moves D s act es s') : s'.m_clients = es.foldl register s.m_clients := by
  have hdrop : ∀ {s s' : RJTcpServer} {a es}, Drops s a es s' →
      s'.m_clients = es.foldl register s.m_clients := by
    intro s s' a es hd
    cases hd <;> rfl
  have hhandle : ∀ {s s' : RJTcpServer} {a call es}, Handles s a call es s' →
      s'.m_clients = es.foldl register s.m_clients := by
    intro s s' a call es hh
    cases hh with
    | drop _ hd => exact hdrop hd
    | deliver => rfl
    | skip => rfl
  cases hm with
  | readEnd _ _ _ hd => exact hdrop hd
  | passStop _ _ _ hh =>
      have hs := hhandle hh
      exact hs
  | passNext _ _ _ hh =>
      have hs := hhandle hh
      exact hs
  | drainFailed _ _ _ _ _ hd =>
      have hs := hdrop hd
      exact hs
  | sendFailed _ _ _ _ hd =>
      have hs := hdrop hd
      exact hs
  | _ => rfl

/-- The registered clients are alive, each once; a client that is not closing
is registered, and one that `ClientClose` will delete is not. -/
structure Registry (s : RJTcpServer) : Prop where
  nodup : s.m_clients.Nodup
  alive : ∀ {a}, a ∈ s.m_clients → ∃ c, s.heap a = some c
  mem_of_open : ∀ {a c}, s.heap a = some c → c.closing = none → a ∈ s.m_clients
  not_mem : ∀ {a c}, s.heap a = some c → c.closing = some .ClientClose → a ∉ s.m_clients
  serial : ∀ {a c}, s.heap a = some c → c.conn < s.serial
  inj : ∀ {a a' c c'}, s.heap a = some c → s.heap a' = some c' → c.conn = c'.conn → a = a'

/-- Reading an updated heap: the new client or an old one. -/
theorem heap_eq {s : RJTcpServer} {a b : Addr} {c c' : uv_tcp_client}
    (h : (s.setClient a c).heap b = some c') : b = a ∧ c' = c ∨ b ≠ a ∧ s.heap b = some c' := by
  rw [setClient_heap] at h
  rcases update_eq h with ⟨hb, hnew⟩ | hold
  · exact Or.inl ⟨hb, (Option.some.inj hnew).symm⟩
  · exact Or.inr hold

/-- The client just put at an address. -/
theorem heap_self {s : RJTcpServer} {a : Addr} {c c' : uv_tcp_client}
    (h : (s.setClient a c).heap a = some c') : c' = c :=
  (heap_eq h).elim And.right fun hne => absurd rfl hne.1

namespace Registry

variable {s s' : RJTcpServer} {a : Addr} {c c' : uv_tcp_client} {es : List Event}

theorem congr (h : Registry s) (hm : s'.m_clients = s.m_clients) (hh : s'.heap = s.heap)
    (hs : s'.serial = s.serial) : Registry s' where
  nodup := hm ▸ h.nodup
  alive := fun ha => hh ▸ h.alive (hm ▸ ha)
  mem_of_open := fun hc ho => hm ▸ h.mem_of_open (hh ▸ hc) ho
  not_mem := fun hc ho => hm ▸ h.not_mem (hh ▸ hc) ho
  serial := fun hc => hs ▸ h.serial (hh ▸ hc)
  inj := fun hc hc' => h.inj (hh ▸ hc) (hh ▸ hc')

/-- A client changes in place, and with it whether it is registered. -/
theorem replace (h : Registry s) (hc : s.heap a = some c) (c' : uv_tcp_client)
    (hconn : c'.conn = c.conn) {m : List Addr} (hm : m.Nodup) (hsub : ∀ b ∈ m, b ∈ s.m_clients)
    (hsup : ∀ b ∈ s.m_clients, b ≠ a → b ∈ m) (hopen : c'.closing = none → a ∈ m)
    (hclosed : c'.closing = some .ClientClose → a ∉ m) :
    Registry ({ s with m_clients := m }.setClient a c') where
  nodup := hm
  alive := fun {b} hb => by
    rcases eq_or_ne b a with rfl | hne
    · exact ⟨c', by rw [setClient_heap, Function.update_self]⟩
    · rw [setClient_heap, Function.update_of_ne hne]
      exact h.alive (hsub b hb)
  mem_of_open := fun {b d} hd ho => by
    rcases heap_eq hd with ⟨rfl, rfl⟩ | ⟨hne, hold⟩
    · exact hopen ho
    · exact hsup b (h.mem_of_open hold ho) hne
  not_mem := fun {b d} hd ho hb => by
    rcases heap_eq hd with ⟨rfl, rfl⟩ | ⟨-, hold⟩
    · exact hclosed ho hb
    · exact h.not_mem hold ho (hsub b hb)
  serial := fun {b d} hd => by
    rcases heap_eq hd with ⟨rfl, rfl⟩ | ⟨-, hold⟩
    · exact hconn ▸ h.serial hc
    · exact h.serial hold
  inj := fun {b b' d d'} hd hd' hk => by
    rcases heap_eq hd with ⟨rfl, rfl⟩ | ⟨-, hold⟩ <;> rcases heap_eq hd' with ⟨hb, hd'⟩ | ⟨-, hold'⟩
    · exact hb.symm
    · exact h.inj hc hold' (hconn.symm.trans hk)
    · rw [hb]
      exact h.inj hold hc (hk.trans ((congrArg _ hd').trans hconn))
    · exact h.inj hold hold' hk

/-- A client changes and stays as closed and as registered as it was. -/
theorem setClient (h : Registry s) (hc : s.heap a = some c) (r : BufferReader)
    (w : List uv_tcp_send_buf) : Registry (s.setClient a { c with reader := r, writes := w }) :=
  h.replace hc { c with reader := r, writes := w } rfl h.nodup (fun _ hb => hb)
    (fun _ hb _ => hb) (fun ho => h.mem_of_open hc ho) (fun ho => h.not_mem hc ho)

theorem drops (h : Registry s) (hd : Drops s a es s') : Registry s' := by
  cases hd with
  | unknown => exact h
  | @known c hmem hc =>
      refine h.replace hc { c with closing := some .ClientClose } rfl (h.nodup.erase a)
        (fun b hb => List.mem_of_mem_erase hb)
        (fun b hb hne => (List.mem_erase_of_ne hne).mpr hb) nofun fun _ hb => ?_
      exact ((List.Nodup.mem_erase_iff h.nodup).mp hb).1 rfl

theorem handles {call : OnMsgCall} (h : Registry s) (hh : Handles s a call es s') :
    Registry s' := by
  cases hh with
  | drop _ hd => exact h.drops hd
  | deliver => exact h
  | skip => exact h

/-- A client is created. -/
theorem create (h : Registry s) (hfresh : s.heap a = none) (hconn : c.conn = s.serial)
    {m : List Addr} (hm : m = s.m_clients ∧ c.closing ≠ none ∨
      m = s.m_clients ++ [a] ∧ c.closing = none) :
    Registry { s.opened a c with m_clients := m } := by
  have hnew : a ∉ s.m_clients := fun ha => by
    obtain ⟨d, hd⟩ := h.alive ha
    rw [hfresh] at hd
    cases hd
  have hold : ∀ {b}, b ≠ a → (b ∈ m ↔ b ∈ s.m_clients) := by
    rintro b hne
    rcases hm with ⟨rfl, -⟩ | ⟨rfl, -⟩
    · rfl
    · simp [hne]
  have hlt : ∀ {b d}, s.heap b = some d → d.conn ≠ c.conn := fun hd =>
    hconn ▸ Nat.ne_of_lt (h.serial hd)
  refine
    { nodup := ?_
      alive := fun {b} hb => ?_
      mem_of_open := fun {b d} hd ho => ?_
      not_mem := fun {b d} hd ho hb => ?_
      serial := fun {b d} hd => ?_
      inj := fun {b b' d d'} hd hd' hk => ?_ }
  · rcases hm with ⟨rfl, -⟩ | ⟨rfl, -⟩
    · exact h.nodup
    · exact List.nodup_append.mpr ⟨h.nodup, List.pairwise_singleton _ a, by
        intro x hx y hy
        rw [List.mem_singleton.mp hy]
        exact fun hxa => hnew (hxa ▸ hx)⟩
  · rcases eq_or_ne b a with rfl | hne
    · exact ⟨c, Function.update_self ..⟩
    · obtain ⟨d, hd⟩ := h.alive ((hold hne).mp hb)
      exact ⟨d, (Function.update_of_ne hne ..).trans hd⟩
  · rcases heap_eq (s := s) hd with ⟨rfl, rfl⟩ | ⟨hne, hd⟩
    · rcases hm with ⟨-, hcl⟩ | ⟨rfl, -⟩
      · exact absurd ho hcl
      · exact List.mem_append_right _ (List.mem_singleton_self b)
    · exact (hold hne).mpr (h.mem_of_open hd ho)
  · rcases heap_eq (s := s) hd with ⟨rfl, rfl⟩ | ⟨hne, hd⟩
    · rcases hm with ⟨rfl, -⟩ | ⟨-, hcl⟩
      · exact hnew hb
      · rw [hcl] at ho
        cases ho
    · exact h.not_mem hd ho ((hold hne).mp hb)
  · rcases heap_eq (s := s) hd with ⟨rfl, rfl⟩ | ⟨-, hd⟩
    · rw [hconn]
      exact Nat.lt_succ_self _
    · exact Nat.lt_succ_of_lt (h.serial hd)
  · rcases heap_eq (s := s) hd with ⟨rfl, rfl⟩ | ⟨-, hd⟩ <;>
      rcases heap_eq (s := s) hd' with ⟨hb, hc⟩ | ⟨-, hd'⟩
    · exact hb.symm
    · exact absurd hk.symm (hlt hd')
    · exact absurd (hk.trans (congrArg _ hc)) (hlt hd)
    · exact h.inj hd hd' hk

/-- `ClientClose` deletes a client. -/
theorem delete (h : Registry s) (hc : s.heap a = some c) (hcl : c.closing = some .ClientClose) :
    Registry { s with heap := Function.update s.heap a none } := by
  have hold : ∀ {b d}, Function.update s.heap a none b = some d → s.heap b = some d :=
    fun hd => (of_update_none hd).2
  refine
    { nodup := h.nodup
      alive := fun {b} hb => ?_
      mem_of_open := fun hd ho => h.mem_of_open (hold hd) ho
      not_mem := fun hd ho => h.not_mem (hold hd) ho
      serial := fun hd => h.serial (hold hd)
      inj := fun hd hd' => h.inj (hold hd) (hold hd') }
  obtain ⟨d, hd⟩ := h.alive hb
  have hne : b ≠ a := fun hba => h.not_mem hc hcl (hba ▸ hb)
  exact ⟨d, (Function.update_of_ne hne ..).trans hd⟩

/-- **Every step keeps the registry.** -/
theorem step (h : Registry s) {D : DataModel} {act : Act} (hm : Moves D s act es s') :
    Registry s' := by
  cases hm with
  | acceptNone => exact h
  | acceptFailed _ hfresh => exact h.create hfresh rfl (Or.inl ⟨rfl, nofun⟩)
  | accepted _ hfresh => exact h.create hfresh rfl (Or.inr ⟨rfl, rfl⟩)
  | @read a c msg r _ hc => exact (h.setClient hc r c.writes).congr rfl rfl rfl
  | readEnd _ _ _ hd => exact h.drops hd
  | passExit => exact h.congr rfl rfl rfl
  | @passMore a c r _ hc => exact (h.setClient hc r c.writes).congr rfl rfl rfl
  | @passStop a c r _ _ _ _ hc _ hh =>
      have hidle : Registry { s.setClient a { c with reader := r } with loop := .idle } :=
        (h.setClient hc r c.writes).congr rfl rfl rfl
      exact hidle.handles hh
  | @passNext a c r _ _ _ _ hc _ hh => exact (h.setClient hc r c.writes).handles hh
  | asyncCallBack => exact h.congr rfl rfl rfl
  | swap => exact h.congr rfl rfl rfl
  | @drainSent c buf rest _ _ _ _ hc =>
      have hpop : Registry { s with sendTemp := rest } := h.congr rfl rfl rfl
      exact hpop.setClient hc c.reader (c.writes ++ [buf])
  | @drainFailed _ _ rest _ _ _ _ _ _ _ _ hd =>
      have hpop : Registry { s with sendTemp := rest } := h.congr rfl rfl rfl
      exact hpop.drops hd
  | drainDropped => exact h.congr rfl rfl rfl
  | drained => exact h.congr rfl rfl rfl
  | @walkClose a c _ hc =>
      exact h.replace hc { c with closing := some .null } rfl h.nodup (fun _ hb => hb)
        (fun _ hb _ => hb) nofun nofun
  | walkSkip => exact h
  | walked => exact h.congr rfl rfl rfl
  | @sent a c _ rest _ hc => exact h.setClient hc c.reader rest
  | @sendFailed a c _ rest _ _ _ _ hc _ _ hd => exact (h.setClient hc c.reader rest).drops hd
  | clientClose _ hc hcl => exact h.delete hc hcl
  | closeNone => exact h
  | sendRefused => exact h
  | send => exact h.congr rfl rfl rfl
  | push => exact h.congr rfl rfl rfl
  | signal => exact h.congr rfl rfl rfl
  | closeAgain => exact h
  | close => exact h.congr rfl rfl rfl
  | setClosing => exact h.congr rfl rfl rfl

theorem init : Registry RJTcpServer.init :=
  ⟨List.Pairwise.nil, nofun, nofun, nofun, nofun, nofun⟩

end Registry

end RJTcpServer

end TestExamples
