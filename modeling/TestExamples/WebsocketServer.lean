/-
TestExamples/WebsocketServer.lean

The sending side of websock_net/WebsocketServer.cpp on top of libwebsockets.

Any thread calls `MetaSend` through `SendText` and its companions; it is one
critical section of `send_mutex_`.
One thread serves all connections: it collects the connections with something
new to send, asks libwebsockets for a writeable callback for each and lets
libwebsockets make its callbacks.  `loop` says where it is.  A
`LWS_CALLBACK_SERVER_WRITEABLE` callback is one step up to its loop, with the
section of `send_mutex_` in it, and one step for each record; `MetaSend` may
come in between.

The writeable callback comes only on request (`requested`), and requests made
before it comes are one request.  The label `partial` of a write is what
`lws_partial_buffered` returns after it.  A callback that returns -1 ends the
connection: no other writeable callback follows, and `LWS_CALLBACK_WSI_DESTROY`
comes some time later, as it may for any connection at any time.

`serial` and `conn` number the connections in the order in which they are
established; they are ghosts.  Receiving is the subject of
`WebsocketReceive.lean`; peer addresses, the log and the calls of
`NewConnection` and `Disconnection` are left out.
-/
import Mathlib.Logic.Function.Basic
import TestExamples.Lib.Machine
import TestExamples.WebsocketRecords

namespace TestExamples

/-- The address of a `struct lws`. -/
abbrev Wsi := Nat

structure CacheItem where
  sendBuf_ : List Byte
  updated_ : Bool
  sending_ : Bool
  conn : Nat

/-- A connection: the sending part of `ServerInOut`, whether libwebsockets
owes it a writeable callback, and whether it has been given up. -/
structure ServerInOut where
  send_ : List Byte
  curSendPos_ : Nat
  requested : Bool
  closing : Bool
  conn : Nat

/-- Where `ServerThread::run` is. -/
inductive ServicePc
  | top                            -- at `if (server_updated_)`
  | collecting                     -- before `send_mutex_.lock()`
  | requesting (rest : List Wsi)   -- in the loop over `updateds`
  | service                        -- in `lws_service`
  | writing (wsi : Wsi)            -- there, in the loop of a writeable callback
  deriving DecidableEq, Repr

/-- The map `send_cache_` is a function together with its keys. -/
structure WebsocketServer where
  send_cache_ : Wsi → Option CacheItem
  keys : List Wsi
  inout : Wsi → Option ServerInOut
  server_updated_ : Bool
  loop : ServicePc
  serial : Nat

namespace WebsocketServer

/-- The calls that come to `MetaSend`. -/
inductive Call
  | SendText (message : List Byte)
  | SendBinary (message : List Byte)
  | Ping (payload : List Byte)
  | CloseConnection

inductive Act
  | call (wsi : Wsi) (call : Call)
  | pass
  | collect
  | request
  | established (wsi : Wsi)
  | writeable (wsi : Wsi)
  | write (partially : Bool)
  | destroy (wsi : Wsi)

/-- `accepted` is a message taken over by `MetaSend`, `overflow` one for which
there was no room, `written` a call of `lws_write`, and `unknownType` stands for
`assert(0)`. -/
inductive Event
  | accepted (conn : Nat) (r : Record)
  | overflow (conn : Nat)
  | written (conn : Nat) (r : Record)
  | unknownType (conn : Nat)
  deriving DecidableEq, Repr

def init : WebsocketServer where
  send_cache_ := fun _ => none
  keys := []
  inout := fun _ => none
  server_updated_ := false
  loop := .top
  serial := 0

abbrev Outcome := Option (WebsocketServer × List Event)

def setItem (s : WebsocketServer) (w : Wsi) (item : CacheItem) : WebsocketServer :=
  { s with send_cache_ := Function.update s.send_cache_ w (some item) }

def setInOut (s : WebsocketServer) (w : Wsi) (c : ServerInOut) : WebsocketServer :=
  { s with inout := Function.update s.inout w (some c) }

/-! ### The producer -/

/-- What a call passes to `MetaSend`, if it does not return before. -/
def Call.toMetaSend : Call → Option (MsgType × List Byte)
  | .SendText message => if message.length ≤ 0 then none else some (.Text, message)
  | .SendBinary message => if message.length ≤ 0 then none else some (.Binary, message)
  | .Ping payload => some (.Ping, payload)
  | .CloseConnection => some (.Close, [])

/-- `sendBuf` after `MetaSend`, and whether it has overflowed. -/
def queueRecord (sendBuf : List Byte) (type : MsgType) (message : List Byte) :
    Option (List Byte × Bool) :=
  if sendBuf.length + message.length + LWS_PRE > SERVRE_CACHE_MAX then
    (appendRecord [] .Close []).map fun buf => (buf, true)
  else (appendRecord sendBuf type message).map fun buf => (buf, false)

/-- The cache of a connection after `MetaSend`, with `sendBuf` in it. -/
def queued (s : WebsocketServer) (w : Wsi) (item : CacheItem) (sendBuf : List Byte) :
    WebsocketServer :=
  { s.setItem w { item with
      sendBuf_ := sendBuf
      updated_ := if item.sending_ then item.updated_ else true } with
    server_updated_ := true }

/-- `MetaSend` for a connection in `send_cache_`. -/
def MetaSend (s : WebsocketServer) (w : Wsi) (item : CacheItem) (type : MsgType)
    (message : List Byte) : Outcome :=
  (queueRecord item.sendBuf_ type message).map fun p =>
    (s.queued w item p.1,
      [if p.2 then .overflow item.conn else .accepted item.conn ⟨type, message⟩])

/-! ### The service thread -/

/-- The connections the pass asks a writeable callback for. -/
def updateds (s : WebsocketServer) : List Wsi :=
  s.keys.filter fun w => (s.send_cache_ w).any fun item => !item.sending_ && item.updated_

/-- The section of `send_mutex_` in `run`. -/
def collect (s : WebsocketServer) : WebsocketServer :=
  { s with
    send_cache_ := fun w => (s.send_cache_ w).map fun item =>
      if !item.sending_ && item.updated_ then { item with updated_ := false } else item
    server_updated_ := false
    loop := .requesting s.updateds }

/-- `LWS_CALLBACK_ESTABLISHED`. -/
def established (s : WebsocketServer) (w : Wsi) : WebsocketServer :=
  { (s.setItem w ⟨[], false, false, s.serial⟩).setInOut w ⟨[], 0, false, false, s.serial⟩ with
    keys := s.keys ++ [w]
    serial := s.serial + 1 }

/-- `LWS_CALLBACK_WSI_DESTROY`. -/
def destroy (s : WebsocketServer) (w : Wsi) : WebsocketServer :=
  { s with
    send_cache_ := Function.update s.send_cache_ w none
    keys := s.keys.filter fun w' => w' ≠ w
    inout := Function.update s.inout w none }

/-- `LWS_CALLBACK_SERVER_WRITEABLE` from its test for a full cache on. -/
def beginWriting (s : WebsocketServer) (w : Wsi) (c : ServerInOut) : WebsocketServer :=
  if c.send_.length - c.curSendPos_ > SERVRE_CACHE_MAX then s.setInOut w { c with closing := true }
  else { s.setInOut w c with loop := .writing w }

/-- `LWS_CALLBACK_SERVER_WRITEABLE` up to its loop. -/
def writeable (s : WebsocketServer) (w : Wsi) (c : ServerInOut) : WebsocketServer :=
  if c.send_.length < c.curSendPos_ + SIZEOF_MsgHead then
    match s.send_cache_ w with
    | some item =>
        -- the two buffers change places
        let s' := s.setItem w { item with sendBuf_ := [], sending_ := 0 < item.sendBuf_.length }
        let c' := { c with send_ := item.sendBuf_, curSendPos_ := 0, requested := false }
        if item.sendBuf_.length ≤ 0 then s'.setInOut w c' else s'.beginWriting w c'
    | none => s.setInOut w { c with send_ := [], curSendPos_ := 0, requested := false }
  else s.beginWriting w { c with requested := false }

/-- `curSendPos_` behind the record just handled, and what follows from it. -/
def advance (s : WebsocketServer) (w : Wsi) (c : ServerInOut) (partially : Bool) :
    WebsocketServer :=
  let pos := c.curSendPos_ + SIZEOF_MsgHead + (lenAt c.send_ c.curSendPos_).toNat
  if pos ≥ c.send_.length then
    { s.setInOut w { c with
        send_ := [], curSendPos_ := 0, requested := c.requested || !partially } with
      loop := .service }
  else
    { s.setInOut w { c with curSendPos_ := pos } with
      loop := if partially then .service else .writing w }

/-- One round of the loop of the callback. -/
def writeOne (s : WebsocketServer) (w : Wsi) (c : ServerInOut) (partially : Bool) :
    WebsocketServer × List Event :=
  if c.send_.length ≥ SIZEOF_MsgHead + c.curSendPos_ then
    let payload := payloadAt c.send_ c.curSendPos_
    match typeAt c.send_ c.curSendPos_ with
    | 3 => ({ s.setInOut w { c with closing := true } with loop := .service }, [])
    | 0 => (s.advance w c partially, [.written c.conn ⟨.Text, payload⟩])
    | 1 => (s.advance w c partially, [.written c.conn ⟨.Binary, payload⟩])
    | 2 => (s.advance w c partially, [.written c.conn ⟨.Ping, payload⟩])
    | _ => (s.advance w c partially, [.unknownType c.conn])
  else ({ s with loop := .service }, [])

/-- One step. -/
def step (s : WebsocketServer) : Act → Outcome
  | .call w call =>
      match call.toMetaSend with
      | some (type, message) =>
          if message.length ≤ INT_MAX then
            match s.send_cache_ w with
            | some item => s.MetaSend w item type message
            | none => some (s, [])  -- returns -1
          else none
      | none => some (s, [])
  | .pass =>
      match s.loop with
      | .top => some ({ s with loop := if s.server_updated_ then .collecting else .service }, [])
      | .service => some ({ s with loop := .top }, [])
      | _ => none
  | .collect => if s.loop = .collecting then some (s.collect, []) else none
  | .request =>
      match s.loop with
      | .requesting [] => some ({ s with loop := .service }, [])
      | .requesting (w :: rest) =>
          (s.inout w).map fun c =>
            ({ s.setInOut w { c with requested := true } with loop := .requesting rest }, [])
      | _ => none
  | .established w =>
      match s.loop, s.inout w with
      | .service, none => some (s.established w, [])
      | _, _ => none
  | .writeable w =>
      match s.loop, s.inout w with
      | .service, some c =>
          if c.requested ∧ c.closing = false then some (s.writeable w c, []) else none
      | _, _ => none
  | .write partially =>
      match s.loop with
      | .writing w => (s.inout w).map fun c => s.writeOne w c partially
      | _ => none
  | .destroy w =>
      match s.loop, s.inout w with
      | .service, some _ => some (s.destroy w, [])
      | _, _ => none

/-- The sending side of `WebsocketServer` as a machine. -/
def machine : Machine WebsocketServer Act Event := ⟨init, step⟩

end WebsocketServer

end TestExamples
