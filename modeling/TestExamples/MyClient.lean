/-
TestExamples/MyClient.lean

The synchronous and asynchronous requests of libuvClient_test/MyClient.cpp.

Any number of threads call `SyncSend` and `AsyncSend` while the loop thread
delivers messages to `OnMsg`.  A step is a critical section of `m_reqSemLock`,
or the call that stands between two of them: drawing the id, handing the
message to the transport, waiting on the semaphore.  Between two steps of one
thread any other thread may move.

`SyncSend` registers the address of a semaphore on its own stack.  The address
is named by the thread; `sems` says which of these semaphores are alive and
how many permits they hold, counted as the Win32 branch of `RJSemaphore`
counts them.  A `Release` on a semaphore that is gone has no outcome.

The label of a step carries what the environment decides: the payload, what
`new char[]` left in the block, what the transport returned, how a wait ended.
A transport that reports an error may have queued the message all the same:
`RJTcpClient::Send` returns the result of `uv_async_send`, after the push.
-/
import Mathlib.Data.Int.Basic
import Mathlib.Logic.Function.Basic
import TestExamples.Lib.Machine
import TestExamples.MessageHead

namespace TestExamples

def RJ_S_OK : Int := 0
def RJ_E_FAIL : Int := -1
def RJ_E_TIMEOUT : Int := -13

structure SyncSendRtn where
  errorCode : Int
  cmd : List Byte
  value : List Byte
  deriving DecidableEq, Repr

structure AsyncSendRtn where
  errorCode : Int
  reqId : Nat
  deriving DecidableEq, Repr

/-- Where a thread is.  The arguments are the locals of the call. -/
inductive SendPc
  | idle
  | issued (cmd msg : List Byte) (reqId : Nat)      -- `SyncSend`, before it registers
  | registered (cmd msg : List Byte) (reqId : Nat)  -- before `Send`
  | waiting (msg : List Byte) (reqId : Nat)         -- in `sem.Wait(ms)`
  | acquired (msg : List Byte) (reqId : Nat)        -- `Wait` returned `RJ_S_OK`
  | leaving (msg : List Byte) (reqId : Nat) (result : SyncSendRtn) -- before the last section
  | asyncIssued (cmd msg : List Byte) (reqId : Nat) -- `AsyncSend`, before `m_client.Send`
  deriving DecidableEq, Repr

/-- The id a thread in `SyncSend` holds. -/
def SendPc.reqId? : SendPc → Option Nat
  | .issued _ _ i | .registered _ _ i | .waiting _ i | .acquired _ i | .leaving _ i _ => some i
  | .idle | .asyncIssued _ _ _ => none

/-- How a wait ended. -/
inductive WaitResult
  | object
  | timeout
  | failed
  deriving DecidableEq, Repr

/-- The fields of `MyClient`, the semaphores on the stacks of its callers and
where these callers are. -/
structure MyClient where
  m_requestId : Nat
  m_reqSemMap : Int → Option Thread
  m_reqResultMap : Int → Option (List Byte)
  m_receiveMsgVec : List (List Byte)
  m_receiveMsgSem : Nat
  sems : Thread → Option Nat
  pc : Thread → SendPc

namespace MyClient

inductive Act
  | syncSend (t : Thread) (cmd msg : List Byte)
  | register (t : Thread)
  | send (t : Thread) (junk : Block) (queued : Bool) (ret : Int)
  | wait (t : Thread) (res : WaitResult)
  | take (t : Thread)
  | leave (t : Thread)
  | asyncSend (t : Thread) (cmd msg : List Byte)
  | onMsg (msg : List Byte)

/-- `issued` records the payload an id was drawn for, `sent` a message handed
to the transport, and the last two what a call returned. -/
inductive Event
  | issued (reqId : Nat) (msg : List Byte)
  | sent (frame : List Byte)
  | syncReturned (reqId : Nat) (msg : List Byte) (result : SyncSendRtn)
  | asyncReturned (result : AsyncSendRtn)
  deriving DecidableEq, Repr

def init : MyClient where
  m_requestId := 0
  m_reqSemMap := fun _ => none
  m_reqResultMap := fun _ => none
  m_receiveMsgVec := []
  m_receiveMsgSem := 0
  sems := fun _ => none
  pc := fun _ => .idle

def setPc (s : MyClient) (t : Thread) (pc : SendPc) : MyClient :=
  { s with pc := Function.update s.pc t pc }

/-- `m_requestIdHelper.GetNextRequestId()`. -/
def GetNextRequestId (s : MyClient) : Nat × MyClient :=
  (s.m_requestId + 1, { s with m_requestId := s.m_requestId + 1 })

/-- `GetSyscReqSem`. -/
def GetSyscReqSem (s : MyClient) (reqId : Int) : Option Thread := s.m_reqSemMap reqId

/-- `sem->Release()` on the semaphore of thread `t`. -/
def release (s : MyClient) (t : Thread) : Option MyClient :=
  (s.sems t).map fun n => { s with sems := Function.update s.sems t (some (n + 1)) }

/-- `m_receiveMsgVec.push_back` and the signal to the dispatcher. -/
def receiveMsg (s : MyClient) (msg : List Byte) : MyClient :=
  { s with
    m_receiveMsgVec := s.m_receiveMsgVec ++ [msg]
    m_receiveMsgSem := s.m_receiveMsgSem + 1 }

/-- `OnMsg`. -/
def OnMsg (s : MyClient) (msg : List Byte) : Option MyClient :=
  if msg.length ≤ MSG_HEAD_LENGTH then some s
  else
    let id := replyId msg
    if id ≠ 0 then
      match s.GetSyscReqSem id with
      | some t =>
          release { s with
            m_reqResultMap := Function.update s.m_reqResultMap id (some (msg.drop REQ_ID_LENGH)) } t
      | none => some (s.receiveMsg msg)
    else some (s.receiveMsg msg)

/-- The critical section of `SyncSend` after a successful wait. -/
def takeResult (s : MyClient) (reqId : Nat) : SyncSendRtn × MyClient :=
  match s.m_reqResultMap reqId with
  | some msg =>
      (⟨RJ_S_OK, msg.take CMD_LENGTH, msg.drop CMD_LENGTH⟩,
        { s with m_reqResultMap := Function.update s.m_reqResultMap reqId none })
  | none => (⟨RJ_S_OK, [], []⟩, s)

/-- The last critical section of `SyncSend`; the semaphore ends with the
call. -/
def unregister (s : MyClient) (t : Thread) (reqId : Nat) : MyClient :=
  { s with
    m_reqSemMap := Function.update s.m_reqSemMap reqId none
    m_reqResultMap := Function.update s.m_reqResultMap reqId none
    sems := Function.update s.sems t none }

/-- One step.  `m_reqSemMap.insert` keeps an entry that is there already. -/
def step (s : MyClient) : Act → Option (MyClient × List Event)
  | .syncSend t cmd msg =>
      match s.pc t with
      | .idle =>
          let (reqId, s') := s.GetNextRequestId
          some (({ s' with sems := Function.update s'.sems t (some 0) }).setPc t
            (.issued cmd msg reqId), [.issued reqId msg])
      | _ => none
  | .register t =>
      match s.pc t with
      | .issued cmd msg reqId =>
          let map := match s.m_reqSemMap reqId with
            | some _ => s.m_reqSemMap
            | none => Function.update s.m_reqSemMap reqId (some t)
          some (({ s with m_reqSemMap := map }).setPc t (.registered cmd msg reqId), [])
      | _ => none
  | .send t junk queued ret =>
      match s.pc t with
      | .registered cmd msg reqId =>
          (packSend junk cmd msg reqId).bind fun frame =>
            if ret ≠ 0 then
              some (s.setPc t (.leaving msg reqId ⟨ret, [], []⟩),
                if queued then [.sent frame] else [])
            else some (s.setPc t (.waiting msg reqId), [.sent frame])
      | .asyncIssued cmd msg reqId =>
          (packSend junk cmd msg reqId).bind fun frame =>
            some (s.setPc t .idle,
              (if ret ≠ 0 ∧ queued = false then [] else [.sent frame]) ++
                [.asyncReturned ⟨ret, reqId⟩])
      | _ => none
  | .wait t res =>
      match s.pc t, res, s.sems t with
      | .waiting msg reqId, .object, some (n + 1) =>
          some (({ s with sems := Function.update s.sems t (some n) }).setPc t
            (.acquired msg reqId), [])
      | .waiting msg reqId, .timeout, _ =>
          some (s.setPc t (.leaving msg reqId ⟨RJ_E_TIMEOUT, [], []⟩), [])
      | .waiting msg reqId, .failed, _ =>
          some (s.setPc t (.leaving msg reqId ⟨RJ_E_FAIL, [], []⟩), [])
      | _, _, _ => none
  | .take t =>
      match s.pc t with
      | .acquired msg reqId =>
          let (result, s') := s.takeResult reqId
          some (s'.setPc t (.leaving msg reqId result), [])
      | _ => none
  | .leave t =>
      match s.pc t with
      | .leaving msg reqId result =>
          some ((s.unregister t reqId).setPc t .idle, [.syncReturned reqId msg result])
      | _ => none
  | .asyncSend t cmd msg =>
      match s.pc t with
      | .idle =>
          let (reqId, s') := s.GetNextRequestId
          some (s'.setPc t (.asyncIssued cmd msg reqId), [.issued reqId msg])
      | _ => none
  | .onMsg msg => (s.OnMsg msg).map fun s' => (s', [])

/-- `MyClient` as a machine. -/
def machine : Machine MyClient Act Event := ⟨init, step⟩

end MyClient

end TestExamples
