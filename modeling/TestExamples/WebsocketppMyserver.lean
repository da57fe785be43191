/-
TestExamples/WebsocketppMyserver.lean

The application of websocketpp_server/Myserver.cpp on top of websocketpp.

The io thread calls `NewConnection`, `TextReceived` and `Disconnection`; a
connection gets the last of them once, behind all its messages.
`process_messages` is a thread of its own.  It takes one message out of the
queue under `m_action_lock` and handles it afterwards, so `Disconnection` may
come while messages of the connection are queued or in the hands of the worker.

A step is one critical section: `TextReceived`, `Disconnection`, the section of
`m_action_lock` in `process_messages` and `handle_msg`, which holds
`m_connection_lock` where it reads or writes the tables.  `wait_for` may end at
any time and is part of the section it guards.

A handle is a `weak_ptr`; the sets compare its control block, which is not
reused while a handle to it exists, so handles are numbered.  `conns` says what
the io thread has told about a connection.  The output, the destructor and
`Stop`, which deletes the server under the worker's feet, are left out.
-/
import Mathlib.Data.List.Basic
import Mathlib.Logic.Function.Basic
import TestExamples.Lib.Bytes
import TestExamples.Lib.Machine

namespace TestExamples

/-- `websocketpp::connection_hdl`. -/
abbrev WSHandle := Nat

structure ConnectionMsg where
  wsi : WSHandle
  msg : List Byte
  deriving DecidableEq, Repr

/-- What the io thread has reported about a connection. -/
inductive ConnStatus
  | unknown
  | connected
  | disconnected
  deriving DecidableEq, Repr

/-- Where `process_messages` is. -/
inductive ProcessPc
  | waiting                       -- before `wait_for`
  | handling (msg : ConnectionMsg) -- before `handle_msg`
  deriving DecidableEq, Repr

structure Myserver where
  m_receiveMsgVec : List ConnectionMsg
  m_connections : List WSHandle
  m_con_map : WSHandle → Option Nat
  m_con_id : Nat
  process : ProcessPc
  conns : WSHandle → ConnStatus
  stopped : Bool

namespace Myserver

/-- The messages `handle_msg` knows. -/
def login : List Byte := ['l', 'o', 'g', 'i', 'n'].map Char.toUInt8
def logout : List Byte := ['l', 'o', 'g', 'o', 'u', 't'].map Char.toUInt8
def echo : List Byte := ['e', 'c', 'h', 'o'].map Char.toUInt8
def stop : List Byte := ['s', 't', 'o', 'p'].map Char.toUInt8

/-- The answers it gives. -/
def login_sucess : List Byte := login ++ [' ', 's', 'u', 'c', 'e', 's', 's'].map Char.toUInt8
def logout_sucess : List Byte := logout ++ [' ', 's', 'u', 'c', 'e', 's', 's'].map Char.toUInt8
def test_echo_rsp : List Byte :=
  ['t', 'e', 's', 't', ' '].map Char.toUInt8 ++ echo ++ [' ', 'r', 's', 'p'].map Char.toUInt8

inductive Act
  | newConnection (wsi : WSHandle)
  | textReceived (wsi : WSHandle) (message : List Byte)
  | disconnection (wsi : WSHandle)
  | take
  | handle
  deriving DecidableEq, Repr

/-- The calls of `m_pServer`. -/
inductive Event
  | SendText (wsi : WSHandle) (message : List Byte)
  | CloseConnection (wsi : WSHandle)
  | Stop
  deriving DecidableEq, Repr

def init : Myserver where
  m_receiveMsgVec := []
  m_connections := []
  m_con_map := fun _ => none
  m_con_id := 0
  process := .waiting
  conns := fun _ => .unknown
  stopped := false

abbrev Outcome := Option (Myserver × List Event)

/-! ### The io thread -/

def Disconnection (s : Myserver) (wsi : WSHandle) : Myserver :=
  { s with
    m_connections := s.m_connections.filter fun w => w ≠ wsi
    m_con_map := Function.update s.m_con_map wsi none }

def TextReceived (s : Myserver) (wsi : WSHandle) (message : List Byte) : Myserver :=
  { s with m_receiveMsgVec := s.m_receiveMsgVec ++ [⟨wsi, message⟩] }

/-! ### The worker -/

/-- `m_connections.insert(wsi)` and `m_con_map.insert({wsi, m_con_id++})`. -/
def enter (s : Myserver) (wsi : WSHandle) : Myserver :=
  { s with
    m_connections := if wsi ∈ s.m_connections then s.m_connections else s.m_connections ++ [wsi]
    m_con_map := match s.m_con_map wsi with
      | some _ => s.m_con_map
      | none => Function.update s.m_con_map wsi (some s.m_con_id)
    m_con_id := s.m_con_id + 1 }

def handle_msg (s : Myserver) (msg : ConnectionMsg) : Myserver × List Event :=
  if msg.msg = login then
    -- nobody asks whether the connection still exists
    (s.enter msg.wsi, [.SendText msg.wsi login_sucess])
  else if msg.msg = logout then
    (s.Disconnection msg.wsi, [.SendText msg.wsi logout_sucess, .CloseConnection msg.wsi])
  else if msg.msg = echo then (s, [.SendText msg.wsi test_echo_rsp])
  else if msg.msg = stop then
    ({ s with m_connections := [], m_con_map := fun _ => none, stopped := true },
      s.m_connections.map .CloseConnection ++ [.Stop])
  else (s, [.SendText msg.wsi msg.msg])

/-- One step.  After `m_pServer->Stop()` the io thread makes no more calls. -/
def step (s : Myserver) : Act → Outcome
  | .newConnection wsi =>
      if s.stopped = false ∧ s.conns wsi = .unknown then
        some ({ s with conns := Function.update s.conns wsi .connected }, [])
      else none
  | .textReceived wsi message =>
      if s.stopped = false ∧ s.conns wsi = .connected then some (s.TextReceived wsi message, [])
      else none
  | .disconnection wsi =>
      if s.stopped = false ∧ s.conns wsi = .connected then
        some ({ s.Disconnection wsi with
          conns := Function.update s.conns wsi .disconnected }, [])
      else none
  | .take =>
      match s.process, s.m_receiveMsgVec with
      | .waiting, [] => some (s, [])
      | .waiting, msg :: rest =>
          some ({ s with m_receiveMsgVec := rest, process := .handling msg }, [])
      | .handling _, _ => none
  | .handle =>
      match s.process with
      | .handling msg =>
          let (s', es) := s.handle_msg msg
          some ({ s' with process := .waiting }, es)
      | .waiting => none

/-- The server with its worker as a machine. -/
def machine : Machine Myserver Act Event := ⟨init, step⟩

/-! ### The tables -/

/-- A handle is logged in: it is in one of the tables. -/
def LoggedIn (s : Myserver) (wsi : WSHandle) : Prop :=
  wsi ∈ s.m_connections ∨ s.m_con_map wsi ≠ none

/-- **Only live connections are logged in.** -/
def LiveOnly (s : Myserver) : Prop := ∀ wsi, s.LoggedIn wsi → s.conns wsi ≠ .disconnected

/-- The message in the hands of the worker. -/
def msg? (s : Myserver) : Option ConnectionMsg :=
  match s.process with
  | .handling msg => some msg
  | .waiting => none

/-- No login is handled after the `Disconnection` of its connection. -/
def NoLateLogin (s : Myserver) (act : Act) : Prop :=
  act = .handle → ∀ msg ∈ s.msg?, msg.msg = login → s.conns msg.wsi ≠ .disconnected

instance (s : Myserver) (act : Act) : Decidable (NoLateLogin s act) :=
  inferInstanceAs (Decidable (act = .handle → ∀ msg ∈ s.msg?, _))

section Tables

variable {s s' : Myserver} {act : Act} {wsi w : WSHandle} {msg : ConnectionMsg}
  {tr es : List Event}

theorem LoggedIn.of_Disconnection (h : (s.Disconnection wsi).LoggedIn w) :
    w ≠ wsi ∧ s.LoggedIn w := by
  rcases h with hmem | hmap
  · obtain ⟨hmem, hne⟩ := List.mem_filter.mp hmem
    exact ⟨of_decide_eq_true hne, Or.inl hmem⟩
  · have hne : w ≠ wsi := by
      rintro rfl
      exact hmap (Function.update_self ..)
    refine ⟨hne, Or.inr ?_⟩
    have hmap : Function.update s.m_con_map wsi none w ≠ none := hmap
    rwa [Function.update_of_ne hne] at hmap

theorem loggedIn_enter : (s.enter wsi).LoggedIn wsi := by
  left
  show wsi ∈ if wsi ∈ s.m_connections then s.m_connections else s.m_connections ++ [wsi]
  split
  · assumption
  · simp

theorem LoggedIn.of_enter (h : (s.enter wsi).LoggedIn w) : w = wsi ∨ s.LoggedIn w := by
  by_cases hw : w = wsi
  · exact Or.inl hw
  · right
    rcases h with hmem | hmap
    · left
      have hmem : w ∈ if wsi ∈ s.m_connections then s.m_connections
        else s.m_connections ++ [wsi] := hmem
      split at hmem
      · exact hmem
      · simpa [hw] using hmem
    · right
      intro hnone
      apply hmap
      unfold enter
      rcases s.m_con_map wsi with - | k
      · show Function.update s.m_con_map wsi _ w = none
        rwa [Function.update_of_ne hw]
      · exact hnone

theorem handle_msg_conns (s : Myserver) (msg : ConnectionMsg) :
    (s.handle_msg msg).1.conns = s.conns := by
  unfold handle_msg
  split_ifs <;> rfl

/-- **A message logs in its own connection only**, and only if it is a login. -/
theorem LoggedIn.of_handle_msg (h : (s.handle_msg msg).1.LoggedIn w) :
    msg.msg = login ∧ w = msg.wsi ∨ s.LoggedIn w := by
  unfold handle_msg at h
  split_ifs at h with hlogin hlogout
  · rcases h.of_enter with hw | hold
    · exact Or.inl ⟨hlogin, hw⟩
    · exact Or.inr hold
  · exact Or.inr h.of_Disconnection.2
  · exact Or.inr h
  · rcases h with hmem | hmap
    · cases hmem
    · exact absurd rfl hmap
  · exact Or.inr h

theorem LiveOnly.step (h : LiveOnly s) (hok : NoLateLogin s act)
    (hs : s.step act = some (s', es)) : LiveOnly s' := by
  cases act with
  | newConnection wsi =>
      obtain ⟨-, hs⟩ := Option.ite_none_right_eq_some.mp hs
      obtain ⟨rfl, rfl⟩ := Prod.mk.inj (Option.some.inj hs)
      intro w hw
      show Function.update s.conns wsi .connected w ≠ _
      by_cases hwsi : w = wsi
      · rw [hwsi, Function.update_self]
        nofun
      · rw [Function.update_of_ne hwsi]
        exact h w hw
  | textReceived wsi message =>
      obtain ⟨-, hs⟩ := Option.ite_none_right_eq_some.mp hs
      obtain ⟨rfl, rfl⟩ := Prod.mk.inj (Option.some.inj hs)
      exact h
  | disconnection wsi =>
      obtain ⟨-, hs⟩ := Option.ite_none_right_eq_some.mp hs
      obtain ⟨rfl, rfl⟩ := Prod.mk.inj (Option.some.inj hs)
      intro w hw
      obtain ⟨hne, hold⟩ := LoggedIn.of_Disconnection (s := s) hw
      show Function.update s.conns wsi .disconnected w ≠ _
      rw [Function.update_of_ne hne]
      exact h w hold
  | take =>
      simp only [Myserver.step] at hs
      split at hs
      · obtain ⟨rfl, rfl⟩ := Prod.mk.inj (Option.some.inj hs)
        exact h
      · obtain ⟨rfl, rfl⟩ := Prod.mk.inj (Option.some.inj hs)
        exact h
      · cases hs
  | handle =>
      simp only [Myserver.step] at hs
      split at hs
      · next msg hpc =>
        obtain ⟨rfl, rfl⟩ := Prod.mk.inj (Option.some.inj hs)
        intro w hw
        show (s.handle_msg msg).1.conns w ≠ _
        rw [handle_msg_conns]
        rcases LoggedIn.of_handle_msg (s := s) hw with ⟨hlogin, rfl⟩ | hold
        · exact hok rfl msg (by rw [msg?, hpc]; rfl) hlogin
        · exact h w hold
      · cases hs

/-- **Only live connections are logged in**, in every run in which no login is
handled after the disconnection of its connection. -/
theorem liveOnly_of_noLateLogin (h : machine.Run NoLateLogin tr s) : LiveOnly s :=
  h.invariant (fun _ s => LiveOnly s) (fun _ hw => by simp [LoggedIn, machine, init] at hw)
    fun ih hok hs => ih.step hok hs

/-- The condition is exact: a late login leaves a dead connection in the
tables. -/
theorem not_liveOnly_of_lateLogin (hok : ¬ NoLateLogin s act)
    (hs : s.step act = some (s', es)) : ¬ LiveOnly s' := by
  intro hlive
  apply hok
  rintro rfl msg hmsg hlogin hdead
  unfold msg? at hmsg
  split at hmsg
  · next hpc =>
    obtain rfl := Option.some.inj hmsg
    simp only [Myserver.step, hpc, handle_msg, if_pos hlogin] at hs
    obtain ⟨rfl, rfl⟩ := Prod.mk.inj (Option.some.inj hs)
    exact hlive _ (loggedIn_enter (s := s)) hdead
  · cases hmsg

end Tables

/-- Two connections log in, one of them leaves; its message that is still
queued is no login. -/
theorem liveOnly_of_noLateLogin_two :
    ∃ tr s, machine.Run NoLateLogin tr s ∧ s.conns 1 = .disconnected ∧
      s.m_connections = [2] ∧ LiveOnly s := by
  obtain ⟨tr, s, hrun, hp⟩ := machine.run_of_exec NoLateLogin
    [.newConnection 1, .newConnection 2, .textReceived 1 login, .textReceived 2 login, .take,
      .handle, .textReceived 1 echo, .disconnection 1, .take, .handle, .take, .handle]
    (fun q => decide (q.1.conns 1 = .disconnected ∧ q.1.m_connections = [2])) (by decide +kernel)
  obtain ⟨hconn, hlist⟩ := of_decide_eq_true hp
  exact ⟨tr, s, hrun, hconn, hlist, liveOnly_of_noLateLogin hrun⟩

/-- The login is taken out of the queue, then the connection ends, then the
login is handled. -/
theorem not_liveOnly : ¬ ∀ tr s, machine.Run AnyStep tr s → LiveOnly s := by
  intro h
  obtain ⟨tr, s, hrun, hp⟩ := machine.run_of_exec AnyStep
    [.newConnection 1, .textReceived 1 login, .take, .disconnection 1, .handle]
    (fun q => decide (1 ∈ q.1.m_connections ∧ q.1.conns 1 = .disconnected)) (by decide +kernel)
  obtain ⟨hmem, hdead⟩ := of_decide_eq_true hp
  exact h tr s hrun 1 (Or.inl hmem) hdead

end Myserver

end TestExamples
