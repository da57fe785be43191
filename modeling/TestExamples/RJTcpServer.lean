/-
TestExamples/RJTcpServer.lean

The TCP server of RJCommon/RJTcpServer.cpp on top of libuv.

The loop thread runs one callback at a time; `loop` says which one it is in.
A read callback is one step that appends to the client's `BufferReader` and
one step for each evaluation of the loop in `SetBuffer`; `AsyncCallBack` is
its entry, the swap under `m_send_buf_lock`, one step for each package and its
end.  Any number of other threads are inside `Send` or `Close`, and any of
them may move between two steps of the loop thread.  A callback that calls
`Send` or `Close` itself is a thread that moves in between.

`heap` is what the addresses of clients designate.  The label of `accept`
picks the address, any one that is not in use; a step that reads or closes a
client at an address with nothing there has no outcome.  `serial` and `conn`
number the clients in the order they are created.  They are ghosts, as is
`meant` in a package: nothing the server does depends on them.

Of libuv this takes for granted what the steps say: a handle that is closing
gets no read callback, its writes complete in order and with an error, its
close callback comes after them, and `uv_async_send` makes the callback run
some time later.  `m_callback` is set.  The texts given to `OnLog` are left
out.
-/
import Mathlib.Logic.Function.Basic
import TestExamples.Lib.Machine
import TestExamples.LibUvHelper

namespace TestExamples

/-- The address of a `uv_tcp_client`, which is the address of its handle. -/
abbrev Addr := Nat

def nullptr : Addr := 0

/-- The close callbacks handed to `uv_close`. -/
inductive uv_close_cb
  | ClientClose
  | null
  deriving DecidableEq, Repr

/-- A package on its way to a client. -/
structure uv_tcp_send_buf where
  client : Addr
  buf : List Byte
  /-- the client the caller of `Send` takes `client` for -/
  meant : Nat
  deriving DecidableEq, Repr

/-- A client: its reader, the callback of a `uv_close` in progress and the
writes libuv has not completed. -/
structure uv_tcp_client where
  conn : Nat
  reader : BufferReader
  closing : Option uv_close_cb
  writes : List uv_tcp_send_buf

/-- What the loop thread is doing. -/
inductive LoopPc
  | idle
  | reading (client : Addr)  -- in the loop of `SetBuffer`
  | asyncCallBack            -- in `AsyncCallBack`, before the swap
  | draining                 -- in its loop over `sendTemp`
  | walking                  -- in `uv_walk`
  deriving DecidableEq, Repr

/-- Where a thread is in `Send` or `Close`. -/
inductive CallPc
  | idle
  | built (buf : uv_tcp_send_buf)  -- before the push
  | pushed                         -- before `uv_async_send`
  | closing                        -- before `m_is_closing = true`
  | closed                         -- before the `uv_async_send` of `Close`
  deriving DecidableEq, Repr

structure RJTcpServer where
  m_clients : List Addr
  m_is_closing : Bool
  m_send_buf : List uv_tcp_send_buf
  sendTemp : List uv_tcp_send_buf
  heap : Addr → Option uv_tcp_client
  serial : Nat
  async_pending : Bool
  loop : LoopPc
  pc : Thread → CallPc

namespace RJTcpServer

inductive Act
  | accept (client : Addr) (status initRet acceptRet readRet : Int)
  | read (client : Addr) (msg : List Byte)
  | readEnd (client : Addr)
  | pass
  | asyncCallBack
  | swap
  | drain (ret : Int)
  | drained
  | walk (client : Addr)
  | walked
  | afterSend (client : Addr) (status : Int)
  | closeDone (client : Addr)
  | send (t : Thread) (client : Addr) (msg : List Byte) (meant : Nat)
  | push (t : Thread)
  | signal (t : Thread)
  | close (t : Thread)
  | setClosing (t : Thread)

/-- The first three are calls of the application, the next two calls of
libuv; `dropped` is the `delete[]` of a package nobody is left to receive.
`accepted` says that a call of `Send` has not refused its message, and `pushed`
that the package made of it has entered `m_send_buf`. -/
inductive Event
  | OnNewConnection (client : Addr) (conn : Nat)
  | OnMsg (client : Addr) (conn : Nat) (msg : List Byte)
  | OnDisconnection (client : Addr)
  | uv_close (conn : Nat)
  | uv_write (conn : Nat) (buf : uv_tcp_send_buf) (ret : Int)
  | dropped (buf : uv_tcp_send_buf)
  | accepted (t : Thread) (buf : uv_tcp_send_buf)
  | pushed (t : Thread) (buf : uv_tcp_send_buf)
  deriving DecidableEq, Repr

def init : RJTcpServer where
  m_clients := []
  m_is_closing := false
  m_send_buf := []
  sendTemp := []
  heap := fun _ => none
  serial := 0
  async_pending := false
  loop := .idle
  pc := fun _ => .idle

/-- What a step leaves and what it has called. -/
abbrev Outcome := Option (RJTcpServer × List Event)

def setClient (s : RJTcpServer) (a : Addr) (c : uv_tcp_client) : RJTcpServer :=
  { s with heap := Function.update s.heap a (some c) }

def setPc (s : RJTcpServer) (t : Thread) (pc : CallPc) : RJTcpServer :=
  { s with pc := Function.update s.pc t pc }

/-- `uv_close`. -/
def uv_close (s : RJTcpServer) (a : Addr) (cb : uv_close_cb) : Outcome :=
  (s.heap a).map fun c => (s.setClient a { c with closing := some cb }, [.uv_close c.conn])

/-- `RemoveClient`; `none` is the result -1. -/
def RemoveClient (s : RJTcpServer) (a : Addr) : Outcome :=
  if a ∈ s.m_clients then
    some ({ s with m_clients := s.m_clients.erase a }, [.OnDisconnection a])
  else none

def CheckClient (s : RJTcpServer) (a : Addr) : Bool := a ∈ s.m_clients

/-- `if (RemoveClient(client) == 0) uv_close(client, ClientClose);` -/
def dropClient (s : RJTcpServer) (a : Addr) : Outcome :=
  match s.RemoveClient a with
  | some (s', es) => (s'.uv_close a .ClientClose).map fun p => (p.1, es ++ p.2)
  | none => some (s, [])

/-- `OnMsg`. -/
def OnMsg (s : RJTcpServer) (a : Addr) (call : OnMsgCall) : Outcome :=
  match call.msg with
  -- the reader has found a bad header
  | none => s.dropClient a
  | some msg =>
      if call.size < 0 then s.dropClient a
      else if a ∈ s.m_clients then
        (s.heap a).map fun c => (s, [.OnMsg a c.conn msg])
      else some (s, [])

/-- A client as `AcceptConnection` creates it. -/
def newClient (s : RJTcpServer) : uv_tcp_client := ⟨s.serial, .new, none, []⟩

/-- `AcceptConnection`. -/
def AcceptConnection (s : RJTcpServer) (a : Addr) (status initRet acceptRet readRet : Int) :
    Outcome :=
  if status ≠ 0 then some (s, [])
  else if s.m_is_closing then some (s, [])
  else if a = nullptr ∨ (s.heap a).isSome then none
  else if initRet ≠ 0 then some (s, [])  -- created and deleted
  else
    let s' := { s with serial := s.serial + 1 }.setClient a s.newClient
    -- a client that fails here is closed without having been announced
    if acceptRet ≠ 0 then s'.uv_close a .ClientClose
    else if readRet ≠ 0 then s'.uv_close a .ClientClose
    else some ({ s' with m_clients := s'.m_clients ++ [a] }, [.OnNewConnection a s.serial])

/-- `HandleMsg` with `nread > 0`, up to the loop of `SetBuffer`. -/
def HandleMsg (s : RJTcpServer) (a : Addr) (c : uv_tcp_client) (msg : List Byte) : Outcome :=
  (c.reader.receive msg).map fun r =>
    ({ s.setClient a { c with reader := r } with loop := .reading a }, [])

/-- One evaluation of the loop of `SetBuffer`. -/
def SetBufferPass (D : DataModel) (s : RJTcpServer) (a : Addr) (c : uv_tcp_client) : Outcome :=
  match c.reader.pass D with
  | .exit => some ({ s with loop := .idle }, [])
  | .stop none r => some ({ s.setClient a { c with reader := r } with loop := .idle }, [])
  | .stop (some call) r =>
      OnMsg { s.setClient a { c with reader := r } with loop := .idle } a call
  | .next call r => OnMsg (s.setClient a { c with reader := r }) a call

/-- The body of the loop over `sendTemp`; `ret` is the result of `uv_write`. -/
def drainOne (s : RJTcpServer) (ret : Int) : Outcome :=
  match s.sendTemp with
  | [] => none
  | buf :: rest =>
      let s' := { s with sendTemp := rest }
      if s.CheckClient buf.client then
        (s.heap buf.client).bind fun c =>
          -- the write has failed, or libuv has the package until `AfterSend`
          if ret ≠ 0 then
            (s'.dropClient buf.client).map fun p => (p.1, .uv_write c.conn buf ret :: p.2)
          else
            some (s'.setClient buf.client { c with writes := c.writes ++ [buf] },
              [.uv_write c.conn buf ret])
      else some (s', [.dropped buf])

/-- `WalkCallBack`. -/
def WalkCallBack (s : RJTcpServer) (a : Addr) (c : uv_tcp_client) : Outcome :=
  if c.closing = none then s.uv_close a .null else some (s, [])

/-- `AfterSend` for the oldest write of a client. -/
def AfterSend (s : RJTcpServer) (a : Addr) (c : uv_tcp_client) (status : Int) : Outcome :=
  match c.writes with
  | [] => none
  | _ :: rest =>
      let s' := s.setClient a { c with writes := rest }
      if status ≠ 0 then s'.dropClient a else some (s', [])

/-- The first part of `Send`. -/
def Send (s : RJTcpServer) (t : Thread) (client : Addr) (msg : List Byte) (meant : Nat) : Outcome :=
  if s.m_is_closing ∨ client = nullptr ∨ msg = [] then some (s, [])
  else
    let buf := ⟨client, Msg2Package msg, meant⟩
    some (s.setPc t (.built buf), [.accepted t buf])

/-- One step. -/
def step (D : DataModel) (s : RJTcpServer) : Act → Outcome
  | .accept a status initRet acceptRet readRet =>
      if s.loop = .idle then s.AcceptConnection a status initRet acceptRet readRet else none
  | .read a msg =>
      match s.loop, s.heap a with
      | .idle, some c => if c.closing = none ∧ msg ≠ [] then s.HandleMsg a c msg else none
      | _, _ => none
  | .readEnd a =>
      match s.loop, s.heap a with
      | .idle, some c => if c.closing = none then s.dropClient a else none
      | _, _ => none
  | .pass =>
      match s.loop with
      | .reading a => (s.heap a).bind (s.SetBufferPass D a)
      | _ => none
  | .asyncCallBack =>
      if s.loop = .idle ∧ s.async_pending then
        some ({ s with
          async_pending := false
          loop := if s.m_is_closing then .walking else .asyncCallBack }, [])
      else none
  | .swap =>
      if s.loop = .asyncCallBack then
        some ({ s with
          m_send_buf := s.sendTemp
          sendTemp := s.m_send_buf
          loop := .draining }, [])
      else none
  | .drain ret => if s.loop = .draining then s.drainOne ret else none
  | .drained =>
      if s.loop = .draining ∧ s.sendTemp = [] then some ({ s with loop := .idle }, []) else none
  | .walk a => if s.loop = .walking then (s.heap a).bind (s.WalkCallBack a) else none
  | .walked => if s.loop = .walking then some ({ s with loop := .idle }, []) else none
  | .afterSend a status =>
      match s.loop, s.heap a with
      | .idle, some c =>
          -- the writes of a closing client complete with an error
          if c.closing ≠ none ∧ status = 0 then none else s.AfterSend a c status
      | _, _ => none
  | .closeDone a =>
      match s.loop, s.heap a with
      | .idle, some ⟨_, _, some .ClientClose, []⟩ =>  -- `ClientClose` deletes the client
          some ({ s with heap := Function.update s.heap a none }, [])
      | .idle, some ⟨_, _, some .null, []⟩ => some (s, [])
      | _, _ => none
  | .send t client msg meant =>
      if s.pc t = .idle ∧ msg.length ≤ INT_MAX then s.Send t client msg meant else none
  | .push t =>
      match s.pc t with
      | .built buf =>
          some ({ s with m_send_buf := s.m_send_buf ++ [buf] }.setPc t .pushed, [.pushed t buf])
      | _ => none
  | .signal t =>
      match s.pc t with
      | .pushed | .closed => some ({ s with async_pending := true }.setPc t .idle, [])
      | _ => none
  | .close t =>
      if s.pc t = .idle then
        if s.m_is_closing then some (s, []) else some (s.setPc t .closing, [])
      else none
  | .setClosing t =>
      if s.pc t = .closing then some ({ s with m_is_closing := true }.setPc t .closed, [])
      else none

/-- `RJTcpServer` as a machine. -/
def machine (D : DataModel) : Machine RJTcpServer Act Event := ⟨init, step D⟩

end RJTcpServer

end TestExamples
