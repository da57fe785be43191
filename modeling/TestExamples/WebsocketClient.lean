/-
TestExamples/WebsocketClient.lean

The client of websock_net: WebsocketClient.cpp and WebSock.cpp on top of
libwebsockets.

One thread runs `WebsocketClient::run`.  It makes the connection attempts that
are due, collects the connections with something to send, asks libwebsockets
for a writeable callback for each and lets libwebsockets make its callbacks;
`loop` says where it is.  A section of `client_mutex_` is one step, and so is
what the thread does between two accesses to shared data; what the application
does in `Connected` and `Disconnected` comes in between.  Any other thread
calls the functions of a `WebSock`: it reads `wsi_` in one step and is in the
section of `ClinetMetaSend` in a later one.

`lws_client_connect_via_info` gives an address that no connection has, which
may be that of one destroyed before; `serial` and `conn` number the connections
in the order they are created, and are ghosts.  A `WebSock` remembers which
connection its handle is of, again a ghost; before the first attempt `wsi_` is
whatever `junk` says, since the constructor does not set it.  A connection is
destroyed at the section of `check_reconnect`, when `LWS_CALLBACK_WSI_DESTROY`
comes.  A writeable callback is one step up to its loop and one step for each
record, as in `WebsocketServer.lean`.

Names and ports of the peers, `first_`, the log and the receiving side are left
out.  No label stands for `Stop`; an attempt that fails makes no callback.
-/
import Mathlib.Data.List.Sort
import TestExamples.WebsocketReceive
import TestExamples.WebsocketServer

namespace TestExamples

/-- The fields of a `WebSock`. -/
structure WebSockFields where
  wsi_ : Wsi
  auto_reconnect_ : Bool
  interval_ : Int
  bFirst_ : Bool
  conn : Option Nat

structure ConnectItem where
  websock_ : WebSock
  timestamp_ : Int
  deriving DecidableEq, Repr

structure ClientMsgItem where
  websock_ : Option WebSock
  sendBuf_ : List Byte
  updated_ : Bool
  sending_ : Bool

/-- The sending part. -/
structure ClientInOut where
  send_ : List Byte
  curSendPos_ : Nat
  websock_ : Option WebSock

/-- A connection of libwebsockets.  `user` is what the client has hung on it,
from `LWS_CALLBACK_CLIENT_ESTABLISHED` on. -/
structure Lws where
  user : Option ClientInOut
  requested : Bool
  closing : Bool
  conn : Nat

/-- Who has a connection item in hand: the loop over `delayed_connect`, the loop
over `tmp_connect` with the rest of it, or `check_reconnect`. -/
inductive Origin
  | delayed (it : Nat)
  | immediate (rest : List ConnectItem)
  | check
  deriving DecidableEq, Repr

/-- Where `WebsocketClient::run` is. -/
inductive ClientPc
  | top
  | delayed (it : Nat)                             -- in the loop over `delayed_connect`
  | newConnect                                     -- at `if (has_new_connect_)`
  | swapping
  | immediate (rest : List ConnectItem)            -- in the loop over `tmp_connect`
  | attempting (item : ConnectItem) (origin : Origin)
  | registering (wsi : Wsi) (websock : WebSock) (origin : Origin)
  | failed (item : ConnectItem) (origin : Origin)  -- in `Connected(false)`, `Disconnected()`
  | pushing (item : ConnectItem) (origin : Origin) -- before `connect_queue_.push_back`
  | newData                                        -- at `if (bnew_data_to_send_)`
  | collecting
  | requesting (rest : List Wsi)                   -- in the loop over `updateds`
  | service                                        -- in `lws_service`
  | writing (wsi : Wsi)
  deriving DecidableEq, Repr

def Origin.next : Origin → ClientPc
  | .delayed it => .delayed it
  | .immediate rest => .immediate rest
  | .check => .service

/-- A thread on its way into `ClinetMetaSend`. -/
structure Sending where
  wsi : Wsi
  conn : Option Nat
  type : MsgType
  message : List Byte

/-- The map `client_message_cache_` is a function together with its keys. -/
structure WebsocketClient where
  socks : WebSock → WebSockFields
  connect_queue_ : List ConnectItem
  has_new_connect_ : Bool
  client_message_cache_ : Wsi → Option ClientMsgItem
  keys : List Wsi
  bnew_data_to_send_ : Bool
  delayed_connect : List ConnectItem
  nowtime : Int
  lws : Wsi → Option Lws
  users : Thread → Option Sending
  loop : ClientPc
  serial : Nat

namespace WebsocketClient

/-- The calls of a `WebSock` that come to `ClinetMetaSend`. -/
inductive Call
  | Close
  | SendText (message : List Byte)
  | SendBinary (message : List Byte)
  | Ping (payload : List Byte)

inductive Act
  | connect (websock : WebSock)
  | setAutoReconnect (websock : WebSock) (enable : Bool)
  | setReconnectInterval (websock : WebSock) (secs : Int)
  | call (t : Thread) (websock : WebSock) (call : Call)
  | metaSend (t : Thread)
  | destruct (websock : WebSock)
  | pass (now : Int)
  | attempt (wsi : Option Wsi)
  | established (wsi : Wsi)
  | writeable (wsi : Wsi)
  | write (partially : Bool)
  | destroy (wsi : Wsi)

/-- `refused` is a call that returns -1; `accepted` and `overflow` are a call of
`ClinetMetaSend` that returns 0, for the connection whose handle was read, and
whether that connection is still there.  `requested` is a call of
`lws_callback_on_writable` with the connection at that address, `written` one of
`lws_write`, `attempted` one of `lws_client_connect_via_info`. -/
inductive Event
  | refused
  | accepted (conn : Option Nat) (live : Bool) (r : Record)
  | overflow (conn : Option Nat) (live : Bool)
  | requested (wsi : Wsi) (conn : Option Nat)
  | written (conn : Nat) (r : Record)
  | unknownType (conn : Nat)
  | attempted (websock : WebSock) (wsi : Option Wsi)
  deriving DecidableEq, Repr

def init (junk : WebSock → Wsi) : WebsocketClient where
  socks := fun websock => ⟨junk websock, false, 3, true, none⟩
  connect_queue_ := []
  has_new_connect_ := false
  client_message_cache_ := fun _ => none
  keys := []
  bnew_data_to_send_ := false
  delayed_connect := []
  nowtime := 0
  lws := fun _ => none
  users := fun _ => none
  loop := .top
  serial := 0

abbrev Outcome := Option (WebsocketClient × List Event)

def setSock (s : WebsocketClient) (websock : WebSock) (sock : WebSockFields) : WebsocketClient :=
  { s with socks := Function.update s.socks websock sock }

def setUser (s : WebsocketClient) (t : Thread) (sending : Option Sending) : WebsocketClient :=
  { s with users := Function.update s.users t sending }

def setLws (s : WebsocketClient) (w : Wsi) (c : Lws) : WebsocketClient :=
  { s with lws := Function.update s.lws w (some c) }

/-- `client_message_cache_[w] = item`. -/
def setItem (s : WebsocketClient) (w : Wsi) (item : ClientMsgItem) : WebsocketClient :=
  { s with
    client_message_cache_ := Function.update s.client_message_cache_ w (some item)
    keys := if w ∈ s.keys then s.keys else s.keys.orderedInsert (· ≤ ·) w }

/-- `client_message_cache_.erase(w)`. -/
def eraseItem (s : WebsocketClient) (w : Wsi) : WebsocketClient :=
  { s with
    client_message_cache_ := Function.update s.client_message_cache_ w none
    keys := s.keys.filter fun w' => w' ≠ w }

/-- `client_message_cache_[w]` gives an entry where there was none. -/
def item (s : WebsocketClient) (w : Wsi) : ClientMsgItem :=
  (s.client_message_cache_ w).getD ⟨none, [], false, false⟩

/-! ### The application -/

/-- `len` is an `int`. -/
def Call.len : Call → Nat
  | .Close => 0
  | .SendText message | .SendBinary message | .Ping message => message.length

/-- What a call passes to `ClinetMetaSend`, if it does not return before. -/
def Call.toMetaSend : Call → Option (MsgType × List Byte)
  | .Close => some (.Close, [])
  | .SendText message => if message.length ≤ 0 then none else some (.Text, message)
  | .SendBinary message => if message.length ≤ 0 then none else some (.Binary, message)
  | .Ping payload => if payload.length ≤ 0 then none else some (.Ping, payload)

/-- `WebSock::Close` sets `bFirst_` first. -/
def Call.first (call : Call) (sock : WebSockFields) : WebSockFields :=
  match call with
  | .Close => { sock with bFirst_ := true }
  | _ => sock

/-- A function of a `WebSock` up to the lock of `ClinetMetaSend`. -/
def call (s : WebsocketClient) (t : Thread) (websock : WebSock) (call : Call) :
    WebsocketClient × List Event :=
  let sock := s.socks websock
  let s' := s.setSock websock (call.first sock)
  match call.toMetaSend with
  | some (type, message) =>
      if sock.wsi_ ≠ 0 then (s'.setUser t (some ⟨sock.wsi_, sock.conn, type, message⟩), [])
      else (s', [.refused])
  | none => (s', [.refused])

/-- The connection numbered `conn` is the one at `w`. -/
def live (s : WebsocketClient) (w : Wsi) (conn : Option Nat) : Bool :=
  (s.lws w).any fun c => some c.conn = conn

/-- The section of `ClinetMetaSend`.  It writes the record as `MetaSend` of the
server does, but takes the entry for granted. -/
def ClinetMetaSend (s : WebsocketClient) (m : Sending) : Outcome :=
  let item := s.item m.wsi
  (WebsocketServer.queueRecord item.sendBuf_ m.type m.message).map fun p =>
    let s' := s.setItem m.wsi { item with
      sendBuf_ := p.1
      updated_ := if item.sending_ then item.updated_ else true }
    ({ s' with bnew_data_to_send_ := if item.sending_ then s.bnew_data_to_send_ else true },
      [if p.2 then .overflow m.conn (s.live m.wsi m.conn)
       else .accepted m.conn (s.live m.wsi m.conn) ⟨m.type, m.message⟩])

/-! ### The service thread -/

/-- Behind `Connected(false)` or `Disconnected()`: try again later, or not. -/
def reconsider (s : WebsocketClient) (now : Int) (item : ConnectItem) (origin : Origin) :
    ClientPc :=
  let sock := s.socks item.websock_
  if sock.auto_reconnect_ && !sock.bFirst_ then
    let val := if sock.interval_ ≤ 0 then 1 else sock.interval_
    .pushing { item with timestamp_ := now + val } origin
  else origin.next

/-- `connect_queue_.push_back`: only `check_reconnect` sets the flag. -/
def push (s : WebsocketClient) (item : ConnectItem) (origin : Origin) : WebsocketClient :=
  { s with
    connect_queue_ := s.connect_queue_ ++ [item]
    has_new_connect_ := if origin = .check then true else s.has_new_connect_
    loop := origin.next }

/-- `client_message_cache_[wsi].websock_ = ...`. -/
def register (s : WebsocketClient) (w : Wsi) (websock : WebSock) (origin : Origin) :
    WebsocketClient :=
  { s.setItem w { s.item w with websock_ := some websock } with loop := origin.next }

/-- The connections the pass asks a writeable callback for. -/
def updateds (s : WebsocketClient) : List Wsi :=
  s.keys.filter fun w => (s.client_message_cache_ w).any fun item => item.updated_

/-- The section of the pass over `client_message_cache_`. -/
def collect (s : WebsocketClient) : WebsocketClient :=
  { s with
    client_message_cache_ := fun w => (s.client_message_cache_ w).map fun item =>
      { item with updated_ := false }
    bnew_data_to_send_ := false
    loop := .requesting s.updateds }

/-- `lws_callback_on_writable(w)`. -/
def lws_callback_on_writable (s : WebsocketClient) (w : Wsi) : WebsocketClient × List Event :=
  match s.lws w with
  | some c => (s.setLws w { c with requested := true }, [.requested w (some c.conn)])
  | none => (s, [.requested w none])

/-- One step of `run` in which nothing is left to libwebsockets. -/
def pass (s : WebsocketClient) (now : Int) : Outcome :=
  match s.loop with
  | .top => some ({ s with nowtime := now, loop := .delayed 0 }, [])
  | .delayed it =>
      match s.delayed_connect[it]? with
      | some item =>
          if item.timestamp_ < s.nowtime then
            some ({ s with
              delayed_connect := s.delayed_connect.eraseIdx it
              loop := .attempting item (.delayed it) }, [])
          else some ({ s with loop := .delayed (it + 1) }, [])
      | none => some ({ s with loop := .newConnect }, [])
  | .newConnect => some ({ s with loop := if s.has_new_connect_ then .swapping else .newData }, [])
  | .swapping =>
      some ({ s with
        connect_queue_ := []
        has_new_connect_ := false
        loop := .immediate s.connect_queue_ }, [])
  | .immediate [] => some ({ s with loop := .newData }, [])
  | .immediate (item :: rest) =>
      if item.timestamp_ ≥ s.nowtime then
        some ({ s with
          delayed_connect := s.delayed_connect ++ [item]
          loop := .immediate rest }, [])
      else some ({ s with loop := .attempting item (.immediate rest) }, [])
  | .registering w websock origin => some (s.register w websock origin, [])
  | .failed item origin => some ({ s with loop := s.reconsider now item origin }, [])
  | .pushing item origin => some (s.push item origin, [])
  | .newData =>
      some ({ s with loop := if s.bnew_data_to_send_ then .collecting else .service }, [])
  | .collecting => some (s.collect, [])
  | .requesting [] => some ({ s with loop := .service }, [])
  | .requesting (w :: rest) =>
      let s' := { s with loop := .requesting rest }
      if w ≠ 0 then some (s'.lws_callback_on_writable w) else some (s', [])
  | .service => some ({ s with loop := .top }, [])
  | .attempting .. | .writing .. => none

/-- An attempt that gives a connection, up to `SetMetaData`. -/
def created (s : WebsocketClient) (w : Wsi) (websock : WebSock) (origin : Origin) :
    WebsocketClient :=
  { (s.setLws w ⟨none, false, false, s.serial⟩).setSock websock
      { s.socks websock with wsi_ := w, conn := some s.serial } with
    serial := s.serial + 1
    loop := .registering w websock origin }

/-- `lws_client_connect_via_info`. -/
def attempt (s : WebsocketClient) (item : ConnectItem) (origin : Origin) : Option Wsi → Outcome
  | some w =>
      match s.lws w with
      | none =>
          if w ≠ 0 then
            some (s.created w item.websock_ origin, [.attempted item.websock_ (some w)])
          else none
      | some _ => none
  | none => some ({ s with loop := .failed item origin }, [.attempted item.websock_ none])

/-- `LWS_CALLBACK_CLIENT_ESTABLISHED`, with `__connected(true)`. -/
def established (s : WebsocketClient) (w : Wsi) (c : Lws) : WebsocketClient :=
  let websock_ := (s.client_message_cache_ w).bind fun item => item.websock_
  let s' := s.setLws w { c with user := some ⟨[], 0, websock_⟩ }
  match websock_ with
  | some websock => s'.setSock websock { s'.socks websock with bFirst_ := false }
  | none => s'

/-- `LWS_CALLBACK_CLIENT_WRITEABLE` up to its loop. -/
def writeable (s : WebsocketClient) (w : Wsi) (c : Lws) (io : ClientInOut) : WebsocketClient :=
  let c := { c with requested := false }
  if io.send_.length < io.curSendPos_ + SIZEOF_MsgHead then
    match s.client_message_cache_ w with
    | some item =>
        -- the two buffers change places
        let s' := s.setItem w { item with sendBuf_ := [], sending_ := 0 < item.sendBuf_.length }
        if item.sendBuf_.length > SERVRE_CACHE_MAX then
          s'.setLws w
            { c with user := some { io with send_ := [], curSendPos_ := 0 }, closing := true }
        else
          let s' := s'.setLws w
            { c with user := some { io with send_ := item.sendBuf_, curSendPos_ := 0 } }
          if item.sendBuf_.length ≤ 0 then s' else { s' with loop := .writing w }
    | none => s.setLws w { c with user := some { io with send_ := [], curSendPos_ := 0 } }
  else { s.setLws w c with loop := .writing w }

/-- `curSendPos_` behind the record just handled, and what follows from it. -/
def advance (s : WebsocketClient) (w : Wsi) (c : Lws) (io : ClientInOut) (partially : Bool) :
    WebsocketClient × List Event :=
  let pos := io.curSendPos_ + SIZEOF_MsgHead + (lenAt io.send_ io.curSendPos_).toNat
  if pos ≥ io.send_.length then
    let s' := { s.setLws w { c with user := some { io with send_ := [], curSendPos_ := 0 } } with
      loop := .service }
    if partially then (s', []) else s'.lws_callback_on_writable w
  else
    ({ s.setLws w { c with user := some { io with curSendPos_ := pos } } with
      loop := if partially then .service else .writing w }, [])

/-- One round of the loop of the callback. -/
def writeOne (s : WebsocketClient) (w : Wsi) (c : Lws) (io : ClientInOut) (partially : Bool) :
    WebsocketClient × List Event :=
  if io.send_.length ≥ SIZEOF_MsgHead + io.curSendPos_ then
    let payload := payloadAt io.send_ io.curSendPos_
    let (s', es) := s.advance w c io partially
    match typeAt io.send_ io.curSendPos_ with
    | 3 => ({ s.setLws w { c with closing := true } with loop := .service }, [])
    | 0 => (s', .written c.conn ⟨.Text, payload⟩ :: es)
    | 1 => (s', .written c.conn ⟨.Binary, payload⟩ :: es)
    | 2 => (s', .written c.conn ⟨.Ping, payload⟩ :: es)
    | _ => (s', .unknownType c.conn :: es)
  else ({ s with loop := .service }, [])

/-- `check_reconnect` up to `Disconnected()`: the connection is gone. -/
def destroy (s : WebsocketClient) (w : Wsi) : WebsocketClient :=
  let websock := (s.client_message_cache_ w).bind fun item => item.websock_
  { s.eraseItem w with
    lws := Function.update s.lws w none
    loop := match websock with
      | some websock => .failed ⟨websock, 0⟩ .check
      | none => .service }

/-- One step. -/
def step (s : WebsocketClient) : Act → Outcome
  | .connect websock =>
      some ({ s with
        connect_queue_ := s.connect_queue_ ++ [⟨websock, 0⟩]
        has_new_connect_ := true }, [])
  | .setAutoReconnect websock enable =>
      some (s.setSock websock { s.socks websock with auto_reconnect_ := enable }, [])
  | .setReconnectInterval websock secs =>
      if secs > 0 then
        some (s.setSock websock { s.socks websock with interval_ := secs }, [])
      else some (s, [])
  | .call t websock call =>
      match s.users t with
      | none => if call.len ≤ INT_MAX then some (s.call t websock call) else none
      | some _ => none
  | .metaSend t =>
      match s.users t with
      | some m => (s.setUser t none).ClinetMetaSend m
      | none => none
  | .destruct websock =>
      -- `ClearRegisterCache`
      some (if (s.socks websock).wsi_ ≠ 0 then s.eraseItem (s.socks websock).wsi_ else s, [])
  | .pass now => s.pass now
  | .attempt wsi =>
      match s.loop with
      | .attempting item origin => s.attempt item origin wsi
      | _ => none
  | .established w =>
      match s.loop, s.lws w with
      | .service, some c =>
          if c.user = none ∧ c.closing = false then some (s.established w c, []) else none
      | _, _ => none
  | .writeable w =>
      match s.loop, s.lws w with
      | .service, some c =>
          if c.requested ∧ c.closing = false then
            match c.user with
            | some io => some (s.writeable w c io, [])
            | none => some (s.setLws w { c with requested := false }, [])
          else none
      | _, _ => none
  | .write partially =>
      match s.loop with
      | .writing w =>
          match s.lws w with
          | some c => c.user.map fun io => s.writeOne w c io partially
          | none => none
      | _ => none
  | .destroy w =>
      match s.loop, s.lws w with
      | .service, some _ => some (s.destroy w, [])
      | _, _ => none

/-- The client as a machine. -/
def machine (junk : WebSock → Wsi) : Machine WebsocketClient Act Event := ⟨init junk, step⟩

end WebsocketClient

end TestExamples
