/-
TestExamples/USockets.lean

The sockets, the contexts and the event loop of SocketExams/uSockets/src
(context.c, loop.c, socket.c and eventing/epoll.c).

A block of memory is known by its address.  `sockets` and `contexts` are what
the live blocks hold; every access goes through them, and an access to a block
that is not there has no outcome (`none`).  The pointers a socket carries, `prev`
and `next`, are maps of their own, and so are those of the contexts.  `epoll` is
the interest list of the kernel: for a descriptor, the events asked for and the
pointer handed back with them.

The machine takes the steps of `us_loop_run`.  A callback of the application is a
stretch of the run in which it may call the library as it likes, and `After` says
what the loop still has to do when the callback returns.  The labels carry what
the environment decides: addresses `malloc` and `realloc` return, descriptors,
what `epoll_wait`, `recv`, `send` and `accept` report.  A step that touches memory
that is not there leads to `crash`.

`us_socket_context_free` is left out: it does not take the context out of the list
of the loop.
-/
import Mathlib.Logic.Function.Basic
import TestExamples.Lib.Machine

namespace TestExamples.USockets

abbrev Addr := Nat

/-- A pointer; `none` is the null pointer. -/
abbrev Ptr := Option Addr

abbrev Fd := Nat

/-! ### Polls -/

/-- A set of `LIBUS_SOCKET_READABLE` and `LIBUS_SOCKET_WRITABLE`. -/
structure Events where
  readable : Bool
  writable : Bool
  deriving DecidableEq, Repr

def LIBUS_SOCKET_READABLE : Events := ⟨true, false⟩
def LIBUS_SOCKET_WRITABLE : Events := ⟨false, true⟩

/-- The four low bits: two for the type, two for the events polled for. -/
def POLL_TYPE_SOCKET : BitVec 4 := 0
def POLL_TYPE_SOCKET_SHUT_DOWN : BitVec 4 := 1
def POLL_TYPE_SEMI_SOCKET : BitVec 4 := 2
def POLL_TYPE_POLLING_OUT : BitVec 4 := 4
def POLL_TYPE_POLLING_IN : BitVec 4 := 8

structure us_poll where
  fd : Fd
  poll_type : BitVec 4
  deriving DecidableEq, Repr

def us_internal_poll_type (p : us_poll) : BitVec 4 := p.poll_type &&& 3

def us_poll_events (p : us_poll) : Events :=
  ⟨p.poll_type &&& POLL_TYPE_POLLING_IN ≠ 0, p.poll_type &&& POLL_TYPE_POLLING_OUT ≠ 0⟩

/-- The assignment `us_poll_start` and `us_poll_change` share. -/
def us_poll.withEvents (p : us_poll) (events : Events) : us_poll :=
  { p with
    poll_type := us_internal_poll_type p
      ||| (if events.readable then POLL_TYPE_POLLING_IN else 0)
      ||| (if events.writable then POLL_TYPE_POLLING_OUT else 0) }

/-- The assignment of `us_internal_poll_set_type`. -/
def us_poll.withType (p : us_poll) (poll_type : BitVec 4) : us_poll :=
  { p with poll_type := poll_type ||| (p.poll_type &&& 12) }

/-! ### Memory -/

/-- A `us_socket` but for its two pointers; `listen` is set where the block is a
`us_listen_socket`. -/
structure us_socket where
  p : us_poll
  context : Addr
  timeout : Nat
  listen : Bool
  deriving DecidableEq, Repr

structure us_socket_context where
  head : Ptr
  iterator : Ptr
  deriving DecidableEq, Repr

/-- An entry of `ready_events`: the sweep timer, the wakeup or a socket. -/
inductive Ready
  | timer
  | async
  | socket (p : Addr) (error : Bool) (events : Events)
  deriving DecidableEq, Repr

/-- The pointer of an entry to a socket. -/
def Ready.ptr : Ready → Ptr
  | .socket p _ _ => some p
  | _ => none

/-- The loop and the memory it works on.  `fd_iterator` is `none` until
`us_loop_run` sets it; `ready_events` are those from `fd_iterator` on. -/
structure us_loop where
  sockets : Addr → Option us_socket
  prev : Addr → Ptr
  next : Addr → Ptr
  contexts : Addr → Option us_socket_context
  context_prev : Addr → Ptr
  context_next : Addr → Ptr
  head : Ptr
  iterator : Ptr
  closed_head : Ptr
  last_write_failed : Bool
  num_polls : Int
  fd_iterator : Option Nat
  ready_events : List Ready
  epoll : Fd → Option (Events × Addr)

/-- What has happened: blocks coming and going, sockets entering and leaving the
list of a context, calls of the application, and calls of the library by it. -/
inductive Event
  | context (c : Addr)
  | opened (s : Addr)
  | moved (s s' : Addr)
  | freed (s : Addr)
  | linked (c s : Addr)
  | unlinked (c s : Addr)
  | on_open (s : Addr) (is_client : Bool)
  | on_data (s : Addr)
  | on_writable (s : Addr)
  | on_end (s : Addr)
  | on_close (s : Addr)
  | on_socket_timeout (s : Addr)
  | wakeup
  | timeout (s : Addr) (sweeps : Nat)
  | short_write (s : Addr)
  | shutdown (s : Addr)
  | sweep_begin
  | visited (s : Addr)
  | sweep_end
  | exit
  deriving DecidableEq, Repr

/-- What a call leaves and what has happened in it. -/
abbrev Outcome := Option (us_loop × List Event)

namespace us_loop

/-- `us_create_loop`. -/
def us_create_loop : us_loop where
  sockets := fun _ => none
  prev := fun _ => none
  next := fun _ => none
  contexts := fun _ => none
  context_prev := fun _ => none
  context_next := fun _ => none
  head := none
  iterator := none
  closed_head := none
  last_write_failed := false
  num_polls := 0
  fd_iterator := none
  ready_events := []
  epoll := fun _ => none

/-- An address `malloc` may return. -/
def Fresh (L : us_loop) (a : Addr) : Prop := L.sockets a = none ∧ L.contexts a = none

instance (L : us_loop) (a : Addr) : Decidable (L.Fresh a) :=
  inferInstanceAs (Decidable (_ ∧ _))

def setSocket (L : us_loop) (s : Addr) (x : us_socket) : us_loop :=
  { L with sockets := Function.update L.sockets s (some x) }

def setContext (L : us_loop) (c : Addr) (x : us_socket_context) : us_loop :=
  { L with contexts := Function.update L.contexts c (some x) }

/-- `s->next = p`. -/
def setNext (L : us_loop) (s : Addr) (p : Ptr) : Option us_loop := do
  let _ ← L.sockets s
  some { L with next := Function.update L.next s p }

/-- `s->prev = p`. -/
def setPrev (L : us_loop) (s : Addr) (p : Ptr) : Option us_loop := do
  let _ ← L.sockets s
  some { L with prev := Function.update L.prev s p }

/-- `context->head = p`. -/
def setHead (L : us_loop) (c : Addr) (p : Ptr) : Option us_loop := do
  let x ← L.contexts c
  some (L.setContext c { x with head := p })

/-- `context->iterator = p`. -/
def setIterator (L : us_loop) (c : Addr) (p : Ptr) : Option us_loop := do
  let x ← L.contexts c
  some (L.setContext c { x with iterator := p })

/-! ### eventing/epoll.c -/

/-- `us_create_poll`, `us_poll_init` and `us_poll_start` of a new socket.  Of the
other fields of the block none is read before it has been written. -/
def us_create_poll (L : us_loop) (s : Addr) (x : us_socket) (events : Events) : us_loop :=
  { L.setSocket s { x with p := x.p.withEvents events } with
    num_polls := L.num_polls + 1
    epoll := Function.update L.epoll x.p.fd (some (events, s)) }

/-- `EPOLL_CTL_MOD`, which fails for a descriptor that is not registered. -/
def epoll_ctl_mod (epoll : Fd → Option (Events × Addr)) (fd : Fd) (event : Events × Addr) :
    Fd → Option (Events × Addr) :=
  match epoll fd with
  | some _ => Function.update epoll fd (some event)
  | none => epoll

/-- `us_poll_change`. -/
def us_poll_change (L : us_loop) (s : Addr) (events : Events) : Option us_loop := do
  let x ← L.sockets s
  if us_poll_events x.p ≠ events then
    some { L.setSocket s { x with p := x.p.withEvents events } with
      epoll := epoll_ctl_mod L.epoll x.p.fd (events, s) }
  else some L

/-- `us_internal_poll_set_type`. -/
def us_internal_poll_set_type (L : us_loop) (s : Addr) (poll_type : BitVec 4) :
    Option us_loop := do
  let x ← L.sockets s
  some (L.setSocket s { x with p := x.p.withType poll_type })

/-- `us_poll_stop`, and `bsd_close_socket` on the descriptor. -/
def us_poll_stop (L : us_loop) (s : Addr) : Option us_loop := do
  let x ← L.sockets s
  some { L with epoll := Function.update L.epoll x.p.fd none }

/-- `us_poll_free`. -/
def us_poll_free (L : us_loop) (s : Addr) : Option us_loop := do
  let _ ← L.sockets s
  some { L with sockets := Function.update L.sockets s none, num_polls := L.num_polls - 1 }

/-- The entry of `ready_events` that holds `p` gets `p'` instead. -/
def replacePtr (p p' : Addr) : List Ready → List Ready
  | [] => []
  | .socket q error events :: rest =>
      if q = p then .socket p' error events :: rest
      else .socket q error events :: replacePtr p p' rest
  | r :: rest => r :: replacePtr p p' rest

/-- `fd_iterator` has been set and is an index of the array `ready_events`. -/
def Indexed (L : us_loop) : Prop := L.fd_iterator.any (· < 1024) = true

instance (L : us_loop) : Decidable L.Indexed := inferInstanceAs (Decidable (_ = _))

/-- `us_poll_resize`; `p'` is what `realloc` returns. -/
def us_poll_resize (L : us_loop) (p p' : Addr) : Option us_loop := do
  let x ← L.sockets p
  let events := us_poll_events x.p
  let L :=
    { L with
      sockets := Function.update (Function.update L.sockets p none) p' (some x)
      prev := Function.update L.prev p' (L.prev p)
      next := Function.update L.next p' (L.next p) }
  let L ←
    (if p ≠ p' ∧ events ≠ ⟨false, false⟩ then
      -- strips the events away, so that `us_poll_change` sees a difference
      (L.setSocket p' { x with p := { x.p with poll_type := us_internal_poll_type x.p } }
        ).us_poll_change p' events
    else some L)
  -- `ready_events[fd_iterator]` is read; behind the last event it makes no difference
  if ¬ L.Indexed then none
  else if (L.ready_events.head?.bind Ready.ptr) ≠ some p then
    some { L with ready_events := replacePtr p p' L.ready_events }
  else some L

/-! ### context.c -/

/-- `us_internal_loop_link`. -/
def us_internal_loop_link (L : us_loop) (c : Addr) : Option us_loop := do
  let _ ← L.contexts c
  let L :=
    { L with
      context_next := Function.update L.context_next c L.head
      context_prev := Function.update L.context_prev c none }
  let L ←
    (match L.head with
    | some h => do
        let _ ← L.contexts h
        some { L with context_prev := Function.update L.context_prev h (some c) }
    | none => some L)
  some { L with head := some c }

/-- `us_create_socket_context`; a child context is created the same way. -/
def us_create_socket_context (L : us_loop) (c : Addr) : Outcome := do
  let L ← (L.setContext c ⟨none, none⟩).us_internal_loop_link c
  some (L, [.context c])

/-- `us_internal_socket_context_link`. -/
def us_internal_socket_context_link (L : us_loop) (c s : Addr) : Option us_loop := do
  let x ← L.sockets s
  let ctx ← L.contexts c
  let L := L.setSocket s { x with context := c, timeout := 0 }
  let L ← L.setNext s ctx.head
  let L ← L.setPrev s none
  let L ←
    (match ctx.head with
    | some h => L.setPrev h (some s)
    | none => some L)
  L.setHead c (some s)

/-- `us_internal_socket_context_unlink`. -/
def us_internal_socket_context_unlink (L : us_loop) (c s : Addr) : Option us_loop := do
  let ctx ← L.contexts c
  let _ ← L.sockets s
  -- the sweep goes on behind `s`
  let L ← (if ctx.iterator = some s then L.setIterator c (L.next s) else some L)
  if L.prev s = L.next s then L.setHead c none
  else
    let L ←
      (match L.prev s with
      | some p => L.setNext p (L.next s)
      | none => L.setHead c (L.next s))
    match L.next s with
    | some n => L.setPrev n (L.prev s)
    | none => some L

/-- A socket as `us_poll_init` and the code after it leave it. -/
def newSocket (c : Addr) (fd : Fd) (poll_type : BitVec 4) (listen : Bool) : us_socket :=
  ⟨⟨fd, poll_type⟩, c, 0, listen⟩

/-- `us_socket_context_listen`, where the descriptor could be created. -/
def us_socket_context_listen (L : us_loop) (c s : Addr) (fd : Fd) : Outcome := do
  let x := newSocket c fd POLL_TYPE_SEMI_SOCKET true
  let L ← (L.us_create_poll s x LIBUS_SOCKET_READABLE).us_internal_socket_context_link c s
  some (L, [.opened s, .linked c s])

/-- `us_socket_context_connect`, where the descriptor could be created. -/
def us_socket_context_connect (L : us_loop) (c s : Addr) (fd : Fd) : Outcome := do
  let x := newSocket c fd POLL_TYPE_SEMI_SOCKET false
  let L ← (L.us_create_poll s x LIBUS_SOCKET_WRITABLE).us_internal_socket_context_link c s
  some (L, [.opened s, .linked c s])

/-- `us_listen_socket_close`; the block is freed at once. -/
def us_listen_socket_close (L : us_loop) (s : Addr) : Outcome := do
  let x ← L.sockets s
  let L ← L.us_internal_socket_context_unlink x.context s
  let L ← L.us_poll_stop s
  let L ← L.us_poll_free s
  some (L, [.unlinked x.context s, .freed s])

/-! ### socket.c -/

/-- A closed socket has `prev = context`. -/
def us_socket_is_closed (L : us_loop) (s : Addr) : Option Bool := do
  let x ← L.sockets s
  some (L.prev s = some x.context)

def us_socket_is_shut_down (x : us_socket) : Bool :=
  us_internal_poll_type x.p = POLL_TYPE_SOCKET_SHUT_DOWN

/-- `us_socket_close`, which ends with the call of `on_close`. -/
def us_socket_close (L : us_loop) (s : Addr) : Outcome := do
  let closed ← L.us_socket_is_closed s
  if closed then some (L, [])
  else
    let x ← L.sockets s
    let L ← L.us_internal_socket_context_unlink x.context s
    let L ← L.us_poll_stop s
    let L ← L.setNext s L.closed_head
    let L := { L with closed_head := some s }
    let L ← L.setPrev s (some x.context)
    some (L, [.unlinked x.context s, .on_close s])

/-- `us_socket_context_adopt_socket`. -/
def us_socket_context_adopt_socket (L : us_loop) (c s s' : Addr) : Outcome := do
  let closed ← L.us_socket_is_closed s
  if closed then some (L, [])
  else
    let x ← L.sockets s
    let L ← L.us_internal_socket_context_unlink x.context s
    let L ← L.us_poll_resize s s'
    let L ← L.us_internal_socket_context_link c s'
    some (L, [.unlinked x.context s, .moved s s', .linked c s'])

/-- `us_socket_write` of `length` bytes, of which `bsd_send` takes `written`. -/
def us_socket_write (L : us_loop) (s : Addr) (length written : Int) : Outcome := do
  let closed ← L.us_socket_is_closed s
  let x ← L.sockets s
  if closed || us_socket_is_shut_down x then some (L, [])
  else if written ≠ length then
    let L ← ({ L with last_write_failed := true }).us_poll_change s ⟨true, true⟩
    some (L, [.short_write s])
  else some (L, [])

/-- `us_socket_shutdown`. -/
def us_socket_shutdown (L : us_loop) (s : Addr) : Outcome := do
  let closed ← L.us_socket_is_closed s
  let x ← L.sockets s
  if closed || us_socket_is_shut_down x then some (L, [])
  else
    let L ← L.us_internal_poll_set_type s POLL_TYPE_SOCKET_SHUT_DOWN
    let x ← L.sockets s
    let L ← L.us_poll_change s ⟨(us_poll_events x.p).readable, false⟩
    some (L, [.shutdown s])

/-- `LIBUS_TIMEOUT_GRANULARITY`, in seconds. -/
def LIBUS_TIMEOUT_GRANULARITY : Nat := 4

/-- The number of sweeps for a number of seconds.  The source rounds
`seconds / 4` in floating point, which is exact where the result fits into an
`unsigned short`; beyond that the conversion has no meaning. -/
def timeout_sweeps (seconds : Nat) : Nat :=
  (2 * seconds + LIBUS_TIMEOUT_GRANULARITY) / (2 * LIBUS_TIMEOUT_GRANULARITY)

/-- `us_socket_timeout`. -/
def us_socket_timeout (L : us_loop) (s : Addr) (seconds : Nat) : Outcome := do
  let x ← L.sockets s
  let timeout := if seconds = 0 then 0 else max 1 (timeout_sweeps seconds)
  some (L.setSocket s { x with timeout := timeout }, [.timeout s timeout])

end us_loop

/-! ### The loop -/

/-- What `us_internal_dispatch_ready_poll` still has to do when a callback of the
application returns. -/
inductive After
  | done
  | accept (listen_socket : Addr)             -- in the loop over `bsd_accept_socket`
  | writable (s : Addr) (readable : Bool)     -- in `on_writable`
  | timeout (context s : Addr)                -- in `on_socket_timeout`
  deriving DecidableEq, Repr

/-- Where `us_loop_run` is. -/
inductive Pc
  | idle                   -- outside the dispatch: before the run, in `pre_cb` and `post_cb`
  | dispatch               -- at the head of the loop over `ready_events`
  | receive (s : Addr) (readable : Bool)    -- before the `READABLE` branch of a dispatch
  | callback (k : After)   -- in a callback of the application
  | sweep                  -- at the head of a loop of `us_internal_timer_sweep`
  | free (s : Ptr)         -- in the loop of `us_internal_free_closed_sockets`
  | exited                 -- `exit(-2)`
  | crash
  deriving DecidableEq, Repr

/-- What `bsd_recv` reports. -/
inductive Recv
  | received
  | end_of_stream
  | would_block
  | failed
  deriving DecidableEq, Repr

/-- A call of the library by the application. -/
inductive Api
  | create_socket_context (c : Addr)
  | listen (c s : Addr) (fd : Fd)
  | connect (c s : Addr) (fd : Fd)
  | listen_socket_close (s : Addr)
  | close (s : Addr)
  | adopt_socket (c s s' : Addr)
  | write (s : Addr) (length written : Int)
  | shutdown (s : Addr)
  | timeout (s : Addr) (seconds : Nat)
  deriving DecidableEq, Repr

/-- What `epoll_wait` reports: the timer, the wakeup or a descriptor. -/
inductive Wait
  | timer
  | async
  | polled (fd : Fd) (error : Bool) (events : Events)
  deriving DecidableEq, Repr

/-- What is reported on, whatever is reported. -/
def Wait.source : Wait → Wait
  | .polled fd _ _ => .polled fd false ⟨false, false⟩
  | w => w

/-- The descriptor of a connection and the address its block gets, where
`bsd_accept_socket` has one. -/
abbrev Accepted := Option (Addr × Fd)

inductive Label
  | api (call : Api)
  | epoll_wait (events : List Wait)
  | next (accepted : Accepted)   -- the next entry of `ready_events`
  | recv (recv : Recv)
  | sweep
  | ret (accepted : Accepted)    -- a callback returns
  | free
  deriving DecidableEq, Repr

/-- What a step of the loop leaves. -/
abbrev Next := Option (us_loop × Pc × List Event)

namespace us_loop

/-- `fd_iterator++`. -/
def advance (L : us_loop) : us_loop :=
  { L with fd_iterator := L.fd_iterator.map (· + 1), ready_events := L.ready_events.tail }

/-- The dispatch of an entry is over. -/
def finish (L : us_loop) : us_loop × Pc × List Event := (L.advance, .dispatch, [])

/-- `us_socket_close` at the end of a dispatch; `on_close` is called where the
socket has not been closed before. -/
def closeLast (L : us_loop) (s : Addr) : Next := do
  let (L, es) ← L.us_socket_close s
  if es = [] then some L.finish else some (L, .callback .done, es)

/-- The `READABLE` branch of the dispatch. -/
def receive (L : us_loop) (s : Addr) (recv : Recv) : Next := do
  let x ← L.sockets s
  match recv with
  | .received => some (L, .callback .done, [.on_data s])
  | .end_of_stream =>
      if us_socket_is_shut_down x then L.closeLast s
      else
        let L ← L.us_poll_change s ⟨false, (us_poll_events x.p).writable⟩
        some (L, .callback .done, [.on_end s])
  | .would_block => some L.finish
  | .failed => L.closeLast s

/-- One round of the loop over `bsd_accept_socket`. -/
def acceptRound (L : us_loop) (l : Addr) : Accepted → Next
  | none => do
      let _ ← L.sockets l
      some L.finish
  | some (s, fd) => do
      let x ← L.sockets l
      let y := newSocket x.context fd POLL_TYPE_SOCKET false
      let L ← (L.us_create_poll s y LIBUS_SOCKET_READABLE).us_internal_socket_context_link
        x.context s
      some (L, .callback (.accept l), [.opened s, .linked x.context s, .on_open s false])

/-- The sweep enters the context `loop->iterator`. -/
def enterContext (L : us_loop) : Option us_loop :=
  match L.iterator with
  | none => some L
  | some c => do
      let ctx ← L.contexts c
      L.setIterator c ctx.head

/-- The beginning of `us_internal_timer_sweep`. -/
def us_internal_timer_sweep (L : us_loop) : Next :=
  if L.iterator ≠ none then some (L, .exited, [.exit])
  else do
    let L ← ({ L with iterator := L.head }).enterContext
    some (L, .sweep, [.sweep_begin])

/-- One evaluation of a loop condition in `us_internal_timer_sweep`, with what
follows it. -/
def sweepRound (L : us_loop) : Next :=
  match L.iterator with
  | none => some (L.advance, .dispatch, [.sweep_end])
  | some c => do
      let ctx ← L.contexts c
      match ctx.iterator with
      | none => do
          let L ← ({ L with iterator := L.context_next c }).enterContext
          some (L, .sweep, [])
      | some s => do
          let x ← L.sockets s
          if x.timeout = 1 then
            some (L.setSocket s { x with timeout := 0 }, .callback (.timeout c s),
              [.visited s, .on_socket_timeout s])
          else do
            -- this does not count down below 0
            let L ← (L.setSocket s { x with timeout := x.timeout - 1 }).setIterator c (L.next s)
            some (L, .sweep, [.visited s])

/-- `us_internal_dispatch_ready_poll`. -/
def us_internal_dispatch_ready_poll (L : us_loop) (accepted : Accepted) : Ready → Next
  | .timer => L.us_internal_timer_sweep
  | .async => some (L, .callback .done, [.wakeup])
  | .socket p error events => do
      let x ← L.sockets p
      if us_internal_poll_type x.p = POLL_TYPE_SEMI_SOCKET then
        if us_poll_events x.p = LIBUS_SOCKET_WRITABLE then
          let L ← L.us_poll_change p LIBUS_SOCKET_READABLE
          let L ← L.us_internal_poll_set_type p POLL_TYPE_SOCKET
          some (L, .callback .done, [.on_open p true])
        else L.acceptRound p accepted
      else if error then L.closeLast p
      else if events.writable then
        some ({ L with last_write_failed := false }, .callback (.writable p events.readable),
          [.on_writable p])
      else some (L, .receive p events.readable, [])

/-- What follows when a callback returns.  `on_writable` returns the socket it
was given, or what that has become. -/
def resume (L : us_loop) (accepted : Accepted) : After → Next
  | .done => some L.finish
  | .accept l => L.acceptRound l accepted
  | .writable s readable => do
      let closed ← L.us_socket_is_closed s
      if closed then some L.finish
      else
        let x ← L.sockets s
        let L ←
          (if !L.last_write_failed || us_socket_is_shut_down x then
            L.us_poll_change s ⟨(us_poll_events x.p).readable, false⟩
          else some L)
        some (L, .receive s readable, [])
  | .timeout c s => do
      let ctx ← L.contexts c
      -- was the iterator moved on, because `s` has left the list?
      let L ← (if ctx.iterator = some s then L.setIterator c (L.next s) else some L)
      some (L, .sweep, [])

/-- One round of the loop of `us_internal_free_closed_sockets`. -/
def freeRound (L : us_loop) : Ptr → Next
  | none => some ({ L with closed_head := none }, .idle, [])
  | some s => do
      let next := L.next s
      let L ← L.us_poll_free s
      some (L, .free next, [.freed s])

/-- The live socket at `s`, as the parameter of a call. -/
def IsSocket (L : us_loop) (s : Addr) : Prop := (L.sockets s).any (!·.listen) = true

instance (L : us_loop) (s : Addr) : Decidable (L.IsSocket s) :=
  inferInstanceAs (Decidable (_ = _))

end us_loop

open us_loop in
/-- What a call may be given: contexts and sockets that are there, a listen
socket where one is asked for.  A new block does not lie on another one, and a
new descriptor is not that of a socket in use. -/
def Api.Allowed (L : us_loop) : Api → Prop
  | .create_socket_context c => L.Fresh c
  | .listen c s fd => (L.contexts c).isSome ∧ L.Fresh s ∧ L.epoll fd = none
  | .connect c s fd => (L.contexts c).isSome ∧ L.Fresh s ∧ L.epoll fd = none
  | .listen_socket_close s => (L.sockets s).any (·.listen) = true
  | .close s => L.IsSocket s
  | .adopt_socket c s s' => (L.contexts c).isSome ∧ L.IsSocket s ∧ (s' = s ∨ L.Fresh s')
  | .write s length written => L.IsSocket s ∧ -1 ≤ written ∧ written ≤ length
  | .shutdown s => L.IsSocket s
  | .timeout s seconds => L.IsSocket s ∧ timeout_sweeps seconds < 65536

instance (L : us_loop) : (call : Api) → Decidable (call.Allowed L)
  | .create_socket_context c => inferInstanceAs (Decidable (L.Fresh c))
  | .listen .. => inferInstanceAs (Decidable (_ ∧ _))
  | .connect .. => inferInstanceAs (Decidable (_ ∧ _))
  | .listen_socket_close _ => inferInstanceAs (Decidable (_ = _))
  | .close s => inferInstanceAs (Decidable (L.IsSocket s))
  | .adopt_socket .. => inferInstanceAs (Decidable (_ ∧ _))
  | .write .. => inferInstanceAs (Decidable (_ ∧ _))
  | .shutdown s => inferInstanceAs (Decidable (L.IsSocket s))
  | .timeout .. => inferInstanceAs (Decidable (_ ∧ _))

def Api.run (L : us_loop) : Api → Outcome
  | .create_socket_context c => L.us_create_socket_context c
  | .listen c s fd => L.us_socket_context_listen c s fd
  | .connect c s fd => L.us_socket_context_connect c s fd
  | .listen_socket_close s => L.us_listen_socket_close s
  | .close s => L.us_socket_close s
  | .adopt_socket c s s' => L.us_socket_context_adopt_socket c s s'
  | .write s length written => L.us_socket_write s length written
  | .shutdown s => L.us_socket_shutdown s
  | .timeout s seconds => L.us_socket_timeout s seconds

/-- The socket `on_writable` will return is known by its new address after it
has been moved. -/
def Pc.move (L : us_loop) : Api → Pc → Pc
  | .adopt_socket _ s s', .callback (.writable t readable) =>
      if t = s ∧ L.us_socket_is_closed s = some false then .callback (.writable s' readable)
      else .callback (.writable t readable)
  | _, pc => pc

/-- The application is running. -/
def Pc.user : Pc → Bool
  | .idle => true
  | .callback _ => true
  | _ => false

structure State where
  loop : us_loop
  pc : Pc

namespace State

def init : State := ⟨us_loop.us_create_loop, .idle⟩

/-- The entry of `ready_events` for what `epoll_wait` reports. -/
def ready (L : us_loop) : Wait → Option Ready
  | .timer => some .timer
  | .async => some .async
  | .polled fd error events => (L.epoll fd).map fun r => .socket r.2 error events

/-- A step goes wrong where memory is touched that is not there. -/
def enter (σ : State) : Next → State × List Event
  | some (L, pc, es) => (⟨L, pc⟩, es)
  | none => ({ σ with pc := .crash }, [])

/-- What `bsd_accept_socket` and `malloc` may return. -/
def Accepts (L : us_loop) (accepted : Accepted) : Prop :=
  ∀ p ∈ accepted, L.Fresh p.1 ∧ L.epoll p.2 = none

instance (L : us_loop) (accepted : Accepted) : Decidable (Accepts L accepted) :=
  inferInstanceAs (Decidable (∀ p ∈ accepted, L.Fresh p.1 ∧ L.epoll p.2 = none))

def step (σ : State) : Label → Option (State × List Event)
  | .api call =>
      if σ.pc.user ∧ call.Allowed σ.loop then
        some (σ.enter ((call.run σ.loop).map fun p => (p.1, σ.pc.move σ.loop call, p.2)))
      else none
  | .epoll_wait events =>
      -- `while (loop->num_polls)`
      if σ.pc = .idle ∧ σ.loop.num_polls ≠ 0 ∧ (events.map Wait.source).Nodup ∧
          events.length ≤ 1024 then
        (events.mapM (ready σ.loop)).map fun rs =>
          (⟨{ σ.loop with fd_iterator := some 0, ready_events := rs }, .dispatch⟩, [])
      else none
  | .next accepted =>
      if σ.pc = .dispatch ∧ Accepts σ.loop accepted then
        match σ.loop.ready_events with
        | [] => some (⟨σ.loop, .free σ.loop.closed_head⟩, [])
        | r :: _ => some (σ.enter (σ.loop.us_internal_dispatch_ready_poll accepted r))
      else none
  | .recv recv =>
      match σ.pc with
      | .receive s true => some (σ.enter (σ.loop.receive s recv))
      | .receive _ false => some (σ.enter (some σ.loop.finish))
      | _ => none
  | .sweep => if σ.pc = .sweep then some (σ.enter σ.loop.sweepRound) else none
  | .ret accepted =>
      match σ.pc with
      | .callback k =>
          if Accepts σ.loop accepted then some (σ.enter (σ.loop.resume accepted k)) else none
      | _ => none
  | .free =>
      match σ.pc with
      | .free s => some (σ.enter (σ.loop.freeRound s))
      | _ => none

end State

def machine : Machine State Label Event := ⟨State.init, State.step⟩

end TestExamples.USockets
