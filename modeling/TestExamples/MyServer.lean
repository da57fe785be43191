/-
TestExamples/MyServer.lean

The server application of LibuvServer_test/MyServer.cpp on top of
`RJTcpServer`.

The callbacks run inside the steps of the server that call them; each is one
critical section.  `MsgDespatcher` is a thread of its own, `m_pThread`: it
takes all messages queued in `m_bufs` at once and answers them one by one, and
each answer is a call of `RJTcpServer::Send` by that thread.  `Broadcast` is
called by any other thread; the step is for one client in its loop.

The queue and the client list hold raw pointers.  Next to each pointer stands,
as a ghost, the number of the client it denoted when the callback received it,
and this number goes with the pointer into `Send`.
-/
import TestExamples.MessageHead
import TestExamples.RJTcpServer

namespace TestExamples

/-- A message waiting for the despatcher. -/
structure ServerBufferStruct where
  client : Addr
  msg : List Byte
  /-- the client `client` denoted when the message came -/
  conn : Nat
  deriving DecidableEq, Repr

structure MyServer where
  m_server : RJTcpServer
  m_clients : List (Addr × Nat)
  m_bufs : List ServerBufferStruct
  m_has_new_msg : Bool
  temp_bufs : List ServerBufferStruct

namespace MyServer

/-- The thread of `MsgDespatcher`. -/
def m_pThread : Thread := 0

inductive Act
  | server (act : RJTcpServer.Act)
  | swap
  | despatch (junk : Block)
  | broadcast (t : Thread) (client : Addr) (msg : List Byte)

def init : MyServer := ⟨.init, [], [], false, []⟩

abbrev Outcome := Option (MyServer × List RJTcpServer.Event)

/-! ### The callbacks -/

def OnMsg (s : MyServer) (client : Addr) (conn : Nat) (msg : List Byte) : MyServer :=
  { s with m_bufs := s.m_bufs ++ [⟨client, msg, conn⟩], m_has_new_msg := true }

def OnNewConnection (s : MyServer) (client : Addr) (conn : Nat) : MyServer :=
  if client ∈ s.m_clients.map Prod.fst then s
  else { s with m_clients := s.m_clients ++ [(client, conn)] }

def OnDisconnection (s : MyServer) (client : Addr) : MyServer :=
  { s with m_clients := s.m_clients.eraseP fun p => p.1 = client }

/-- What the application does about an event of the server. -/
def callback (s : MyServer) : RJTcpServer.Event → MyServer
  | .OnNewConnection a k => s.OnNewConnection a k
  | .OnMsg a k msg => s.OnMsg a k msg
  | .OnDisconnection a => s.OnDisconnection a
  | _ => s

/-! ### The steps -/

/-- A step of the server with the callbacks it makes. -/
def server (D : DataModel) (s : MyServer) (act : RJTcpServer.Act) : Outcome :=
  (s.m_server.step D act).map fun p => (p.2.foldl callback { s with m_server := p.1 }, p.2)

/-- `m_server->Send(&client->client, msg, size)`. -/
def send (D : DataModel) (s : MyServer) (t : Thread) (client : Addr) (msg : List Byte)
    (conn : Nat) : Outcome :=
  s.server D (.send t client msg conn)

/-- `EchoCmd`. -/
def EchoCmd (D : DataModel) (s : MyServer) (junk : Block) (client : Addr) (conn : Nat)
    (m : MsgFields) : Outcome :=
  (packEcho junk m.id m.cmd m.value).bind fun frame => s.send D m_pThread client frame conn

/-- One step.  The despatcher moves when it is not inside `Send`. -/
def step (D : DataModel) (s : MyServer) : Act → Outcome
  | .server (.send _ _ _ _) => none
  | .server act => s.server D act
  | .swap =>
      -- the outer loop comes round only when `temp_bufs` has been worked off
      if s.m_server.pc m_pThread = .idle ∧ s.temp_bufs = [] then
        if s.m_has_new_msg then
          some ({ s with m_bufs := s.temp_bufs, temp_bufs := s.m_bufs, m_has_new_msg := false }, [])
        else some (s, [])
      else none
  | .despatch junk =>
      match s.m_server.pc m_pThread, s.temp_bufs with
      | .idle, buf :: rest =>
          match DespatchMsg buf.msg with
          | some (some m) => EchoCmd D { s with temp_bufs := rest } junk buf.client buf.conn m
          -- a command other than `SERVER_CMD_STX_COMMAND` gets no answer
          | some none => some ({ s with temp_bufs := rest }, [])
          -- `substr` has thrown
          | none => none
      | _, _ => none
  | .broadcast t client msg =>
      match s.m_clients.find? fun p => p.1 = client with
      | some (a, k) => if t ≠ m_pThread then s.send D t a msg k else none
      | none => none

/-- `MyServer` as a machine. -/
def machine (D : DataModel) : Machine MyServer Act RJTcpServer.Event := ⟨init, step D⟩

end MyServer

end TestExamples
