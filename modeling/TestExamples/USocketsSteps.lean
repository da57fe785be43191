/-
TestExamples/USocketsSteps.lean

The steps of the loop, branch by branch.

`Called` lists what a call of the library can do and `Moves` what a step of the
loop can do, with the record it leaves and the condition under which it does so.
`called_of_run` and `moves_of_step` are the inversions, on a loop whose lists are
in order; a call that is allowed has an outcome, unless it moves a socket while
`fd_iterator` is no index of `ready_events`.  Every invariant of the loop is proved
by cases on `Called` and `Moves`.  `Ordered` is what the inversions need.
-/
import TestExamples.USocketsCalls

namespace TestExamples.USockets

open us_loop

variable {A : Lists} {L L' : us_loop} {q : Ptr} {es : List Event}

/-! ### Calls -/

/-- A call that opens a socket or a listen socket. -/
def Api.opens (s : Addr) (x : us_socket) (events : Events) (call : Api) : Prop :=
  (∃ fd, call = .listen x.context s fd ∧ x = newSocket x.context fd POLL_TYPE_SEMI_SOCKET true ∧
      events = LIBUS_SOCKET_READABLE) ∨
    ∃ fd, call = .connect x.context s fd ∧
      x = newSocket x.context fd POLL_TYPE_SEMI_SOCKET false ∧ events = LIBUS_SOCKET_WRITABLE

/-- **What a call does.** -/
inductive Called (A : Lists) (L : us_loop) : Api → List Event → us_loop → Prop
  | context {c} (hc : L.Fresh c) :
      Called A L (.create_socket_context c) [.context c] (L.withContext c)
  | opened {call s x events ctx} (hcall : Api.opens s x events call)
      (hctx : L.contexts x.context = some ctx) (hs : L.Fresh s) (hfd : L.epoll x.p.fd = none) :
      Called A L call [.opened s, .linked x.context s] (L.opened s x events ctx)
  | listenClosed {s x ctx} (hx : L.sockets s = some x) (hctx : L.contexts x.context = some ctx)
      (hs : s ∈ A.sockets x.context) (hlisten : x.listen = true) :
      Called A L (.listen_socket_close s) [.unlinked x.context s, .freed s]
        (L.listenClosing s x ctx)
  | closed {s x ctx} (hx : L.sockets s = some x) (hctx : L.contexts x.context = some ctx)
      (hs : s ∈ A.sockets x.context) (hlisten : x.listen = false) :
      Called A L (.close s) [.unlinked x.context s, .on_close s] (L.closing s x ctx)
  | adopted {c s s' x ctx ctx'} (hx : L.sockets s = some x)
      (hctx : L.contexts x.context = some ctx) (hs : s ∈ A.sockets x.context)
      (hlisten : x.listen = false) (hctx' : (L.unlinked x.context s ctx).contexts c = some ctx')
      (hs' : s' = s ∨ L.Fresh s') :
      Called A L (.adopt_socket c s s') [.unlinked x.context s, .moved s s', .linked c s']
        (L.adopting c s s' x ctx ctx')
  | adoptedClosed {c s s' x} (hx : L.sockets s = some x) (hs : s ∈ A.closed) :
      Called A L (.adopt_socket c s s') [] L
  | nothing {call} (hcall : ∀ c s s', call ≠ .adopt_socket c s s') : Called A L call [] L
  | short_write {s x length written} (hx : L.sockets s = some x)
      (hs : s ∈ A.sockets x.context) (hlisten : x.listen = false)
      (hshut : us_socket_is_shut_down x = false) :
      Called A L (.write s length written) [.short_write s]
        (({ L with last_write_failed := true } : us_loop).changed s x ⟨true, true⟩)
  | shutdown {s x} (hx : L.sockets s = some x) (hs : s ∈ A.sockets x.context)
      (hlisten : x.listen = false) (hshut : us_socket_is_shut_down x = false) :
      Called A L (.shutdown s) [.shutdown s]
        ((L.setSocket s { x with p := x.p.withType POLL_TYPE_SOCKET_SHUT_DOWN }).changed s
          { x with p := x.p.withType POLL_TYPE_SOCKET_SHUT_DOWN }
          ⟨(us_poll_events x.p).readable, false⟩)
  | timeout {s x seconds} (hx : L.sockets s = some x) (hlisten : x.listen = false) (n : Nat) :
      Called A L (.timeout s seconds) [.timeout s n] (L.setSocket s { x with timeout := n })

/-- A live socket, read out of the condition of a call. -/
theorem us_loop.IsSocket.exists {s : Addr} (h : L.IsSocket s) :
    ∃ x, L.sockets s = some x ∧ x.listen = false := by
  unfold us_loop.IsSocket at h
  rcases hx : L.sockets s with - | x
  · rw [hx] at h
    cases h
  · rw [hx] at h
    exact ⟨x, rfl, by simpa using h⟩

theorem open_eq (h : Good A L q) {s : Addr} {x : us_socket} {ctx : us_socket_context}
    (hctx : L.contexts x.context = some ctx) (hs : L.Fresh s) (events : Events) :
    (L.us_create_poll s x events).us_internal_socket_context_link x.context s
      = some (L.opened s x events ctx) := by
  refine us_loop.link_eq (x := { x with p := x.p.withEvents events }) (Function.update_self _ _ _)
    hctx fun a ha => ?_
  have hl := h.sockets x.context ctx hctx
  have hlive := h.live_of_mem (List.mem_of_head? (hl.head_eq.symm.trans ha))
  have hne : a ≠ s := by
    rintro rfl
    rw [hs.1] at hlive
    cases hlive
  show (Function.update L.sockets s _ a).isSome
  rw [Function.update_of_ne hne]
  exact hlive

/-- **Every call that is allowed has an outcome**, where `fd_iterator` is an index. -/
theorem called_of_run (h : Good A L q) {call : Api} (hall : call.Allowed L)
    (hindex : ∀ c s s', call = .adopt_socket c s s' → L.Indexed) :
    ∃ L' es, call.run L = some (L', es) ∧ Called A L call es L' := by
  cases call with
  | create_socket_context c =>
      refine ⟨_, _, ?_, .context hall⟩
      rcases hh : L.head with - | a
      · simp [Api.run, us_create_socket_context, us_internal_loop_link, setContext, withContext,
          linkPrev, linkNext, hh]
      · have hlive : (L.contexts a).isSome :=
          (h.mem_contexts a).mp (List.mem_of_head? (h.contexts.head_eq.symm.trans hh))
        obtain ⟨y, hy⟩ := Option.isSome_iff_exists.mp hlive
        have hne : a ≠ c := by
          rintro rfl
          rw [hall.2] at hy
          cases hy
        simp [Api.run, us_create_socket_context, us_internal_loop_link, setContext, withContext,
          linkPrev, linkNext, hh, hy, hne]
  | listen c s fd =>
      obtain ⟨hc, hs, hfd⟩ := hall
      obtain ⟨ctx, hctx⟩ := Option.isSome_iff_exists.mp hc
      have hopen := open_eq h (x := newSocket c fd POLL_TYPE_SEMI_SOCKET true) hctx hs
        LIBUS_SOCKET_READABLE
      refine ⟨_, _, ?_, .opened (x := newSocket c fd POLL_TYPE_SEMI_SOCKET true)
        (Or.inl ⟨fd, rfl, rfl, rfl⟩) hctx hs hfd⟩
      exact congrArg (Option.bind · fun L => some (L, [Event.opened s, .linked c s])) hopen
  | connect c s fd =>
      obtain ⟨hc, hs, hfd⟩ := hall
      obtain ⟨ctx, hctx⟩ := Option.isSome_iff_exists.mp hc
      have hopen := open_eq h (x := newSocket c fd POLL_TYPE_SEMI_SOCKET false) hctx hs
        LIBUS_SOCKET_WRITABLE
      refine ⟨_, _, ?_, .opened (x := newSocket c fd POLL_TYPE_SEMI_SOCKET false)
        (Or.inr ⟨fd, rfl, rfl, rfl⟩) hctx hs hfd⟩
      exact congrArg (Option.bind · fun L => some (L, [Event.opened s, .linked c s])) hopen
  | listen_socket_close s =>
      rcases hx : L.sockets s with - | x
      · simp [Api.Allowed, hx] at hall
      · have hlisten : x.listen = true := by simpa [Api.Allowed, hx] using hall
        obtain ⟨ctx, hctx⟩ := h.context_of hx
        rcases h.open_or_closed hx with ⟨hcl, -⟩ | ⟨hs, -⟩
        · rw [h.closed_plain s hcl x hx] at hlisten
          cases hlisten
        · exact ⟨_, _, h.listen_close_eq hx hctx hs, .listenClosed hx hctx hs hlisten⟩
  | close s =>
      obtain ⟨x, hx, hlisten⟩ := IsSocket.exists hall
      obtain ⟨ctx, hctx⟩ := h.context_of hx
      rcases h.open_or_closed hx with ⟨hcl, -⟩ | ⟨hs, -⟩
      · exact ⟨_, _, h.close_eq_closed hx hcl, .nothing (by simp)⟩
      · exact ⟨_, _, h.close_eq hx hctx hs, .closed hx hctx hs hlisten⟩
  | adopt_socket c s s' =>
      obtain ⟨hc, hsocket, hs'⟩ := hall
      obtain ⟨x, hx, hlisten⟩ := IsSocket.exists hsocket
      obtain ⟨ctx, hctx⟩ := h.context_of hx
      rcases h.open_or_closed hx with ⟨hcl, -⟩ | ⟨hs, -⟩
      · exact ⟨_, _, h.adopt_eq_closed hx hcl, .adoptedClosed hx hcl⟩
      · have hc' : ((L.unlinked x.context s ctx).contexts c).isSome := by
          have hkeep := isSome_update (f := L.contexts) (a := x.context) (b := c)
            (y := (⟨unlinkHead L.prev L.next ctx.head s,
              if ctx.iterator = some s then L.next s else ctx.iterator⟩ : us_socket_context))
            (by rw [hctx]; rfl)
          exact hkeep.trans hc
        obtain ⟨ctx', hctx'⟩ := Option.isSome_iff_exists.mp hc'
        exact ⟨_, _, h.adopt_eq hx hctx hs hctx' hs' (hindex c s s' rfl),
          .adopted hx hctx hs hlisten hctx' hs'⟩
  | write s length written =>
      obtain ⟨x, hx, hlisten⟩ := IsSocket.exists hall.1
      have hchange := poll_change_eq (L := { L with last_write_failed := true }) hx ⟨true, true⟩
      rcases h.open_or_closed hx with ⟨hcl, -⟩ | ⟨hs, -⟩
      · refine ⟨L, [], ?_, .nothing (by simp)⟩
        simp [Api.run, us_socket_write, h.is_closed_iff hx, hx, hcl]
      · have hncl := h.not_mem_closed hs
        rcases hshut : us_socket_is_shut_down x with - | -
        · by_cases hw : written = length
          · refine ⟨L, [], ?_, .nothing (by simp)⟩
            simp [Api.run, us_socket_write, h.is_closed_iff hx, hx, hncl, hw]
          · refine ⟨_, _, ?_, .short_write hx hs hlisten hshut⟩
            simp [Api.run, us_socket_write, h.is_closed_iff hx, hx, hncl, hshut, hw, hchange]
        · refine ⟨L, [], ?_, .nothing (by simp)⟩
          simp [Api.run, us_socket_write, h.is_closed_iff hx, hx, hshut]
  | shutdown s =>
      obtain ⟨x, hx, hlisten⟩ := IsSocket.exists hall
      have hset := poll_set_type_eq hx POLL_TYPE_SOCKET_SHUT_DOWN
      have hx' : (L.setSocket s { x with p := x.p.withType POLL_TYPE_SOCKET_SHUT_DOWN }).sockets s
          = some { x with p := x.p.withType POLL_TYPE_SOCKET_SHUT_DOWN } :=
        Function.update_self _ _ _
      have hevents : us_poll_events (x.p.withType POLL_TYPE_SOCKET_SHUT_DOWN)
          = us_poll_events x.p := poll_events_withType x.p (Or.inr rfl)
      have hchange := poll_change_eq hx' ⟨(us_poll_events x.p).readable, false⟩
      rcases h.open_or_closed hx with ⟨hcl, -⟩ | ⟨hs, -⟩
      · refine ⟨L, [], ?_, .nothing (by simp)⟩
        simp [Api.run, us_socket_shutdown, h.is_closed_iff hx, hx, hcl]
      · have hncl := h.not_mem_closed hs
        rcases hshut : us_socket_is_shut_down x with - | -
        · refine ⟨_, _, ?_, .shutdown hx hs hlisten hshut⟩
          simp [Api.run, us_socket_shutdown, h.is_closed_iff hx, hx, hncl, hshut, hset, hx',
            hevents, hchange]
        · refine ⟨L, [], ?_, .nothing (by simp)⟩
          simp [Api.run, us_socket_shutdown, h.is_closed_iff hx, hx, hshut]
  | timeout s seconds =>
      obtain ⟨x, hx, hlisten⟩ := IsSocket.exists hall.1
      refine ⟨_, _, ?_, .timeout hx hlisten
        (if seconds = 0 then 0 else max 1 (timeout_sweeps seconds))⟩
      simp [Api.run, us_socket_timeout, hx]

/-! ### Steps of the loop -/

/-- The sweep is going on. -/
def Pc.sweeping : Pc → Bool
  | .sweep => true
  | .callback (.timeout _ _) => true
  | _ => false

/-- The entry of `ready_events` in front is being dispatched, and it is not that
of the timer. -/
def Pc.dispatching : Pc → Bool
  | .dispatch => true
  | .receive _ _ => true
  | .callback .done => true
  | .callback (.accept _) => true
  | .callback (.writable _ _) => true
  | _ => false

/-- The loop enters the loop over `bsd_accept_socket` of a listen socket, or goes
on in it. -/
inductive Accepting (L : us_loop) (l : Addr) : Pc → Label → Accepted → Prop
  | first {accepted x error events rest}
      (hr : L.ready_events = .socket l error events :: rest) (hx : L.sockets l = some x)
      (hsemi : us_internal_poll_type x.p = POLL_TYPE_SEMI_SOCKET)
      (hevents : us_poll_events x.p ≠ LIBUS_SOCKET_WRITABLE) :
      Accepting L l .dispatch (.next accepted) accepted
  | again {accepted} : Accepting L l (.callback (.accept l)) (.ret accepted) accepted

/-- The pointers that may have been left behind: the one in `ready_events` and
that of the listen socket in the loop over `bsd_accept_socket`. -/
inductive Touches (L : us_loop) (p : Addr) : Pc → Label → Prop
  | dispatch {accepted error events rest}
      (hr : L.ready_events = .socket p error events :: rest) :
      Touches L p .dispatch (.next accepted)
  | accept {accepted} : Touches L p (.callback (.accept p)) (.ret accepted)

/-- The dispatch closes `s` at its end: on an error of the poll, when reading
fails, or at the end of the stream of a socket that has been shut down. -/
inductive ClosesLast (L : us_loop) (s : Addr) : Pc → Label → Prop
  | error {accepted events rest} (hr : L.ready_events = .socket s true events :: rest) :
      ClosesLast L s .dispatch (.next accepted)
  | received {recv} (hrecv : recv = .failed ∨ recv = .end_of_stream) :
      ClosesLast L s (.receive s true) (.recv recv)

/-- The sweep enters the context at `p`, if there is one. -/
inductive Enters (L : us_loop) : Ptr → us_loop → Prop
  | none : Enters L none { L with iterator := none }
  | some {c ctx} (hctx : L.contexts c = some ctx) :
      Enters L (some c)
        (({ L with iterator := some c } : us_loop).setContext c
          { ctx with iterator := ctx.head })

/-- Entering a context changes neither the sockets nor what the kernel knows of. -/
theorem Enters.same {p : Ptr} (h : Enters L p L') :
    L'.sockets = L.sockets ∧ L'.epoll = L.epoll ∧ L'.ready_events = L.ready_events := by
  cases h <;> exact ⟨rfl, rfl, rfl⟩

theorem Enters.fd_iterator {p : Ptr} (h : Enters L p L') : L'.fd_iterator = L.fd_iterator := by
  cases h <;> rfl

/-- **The steps, branch by branch.** -/
inductive Moves (A : Lists) (L : us_loop) : Pc → Label → List Event → State → Prop
  | call {pc call es L'} (hpc : pc.user = true) (hall : call.Allowed L)
      (hcalled : Called A L call es L') : Moves A L pc (.api call) es ⟨L', pc.move L call⟩
  | misplaced {c s s'} (hindex : ¬ L.Indexed) :
      Moves A L .idle (.api (.adopt_socket c s s')) [] ⟨L, .crash⟩
  | wait {events rs} (hnum : L.num_polls ≠ 0) (hnodup : (events.map Wait.source).Nodup)
      (hlength : events.length ≤ 1024) (hrs : events.mapM (State.ready L) = some rs) :
      Moves A L .idle (.epoll_wait events) []
        ⟨{ L with fd_iterator := some 0, ready_events := rs }, .dispatch⟩
  | batchDone {accepted} (hr : L.ready_events = []) :
      Moves A L .dispatch (.next accepted) [] ⟨L, .free L.closed_head⟩
  | dangling {pc a p} (htouch : Touches L p pc a) (hdead : L.sockets p = none) :
      Moves A L pc a [] ⟨L, .crash⟩
  | sweepBegin {accepted rest L'} (hr : L.ready_events = .timer :: rest)
      (henter : Enters L L.head L') :
      Moves A L .dispatch (.next accepted) [.sweep_begin] ⟨L', .sweep⟩
  | wakeup {accepted rest} (hr : L.ready_events = .async :: rest) :
      Moves A L .dispatch (.next accepted) [.wakeup] ⟨L, .callback .done⟩
  | connected {accepted p x error events rest}
      (hr : L.ready_events = .socket p error events :: rest) (hx : L.sockets p = some x)
      (hsemi : us_internal_poll_type x.p = POLL_TYPE_SEMI_SOCKET)
      (hevents : us_poll_events x.p = LIBUS_SOCKET_WRITABLE) :
      Moves A L .dispatch (.next accepted) [.on_open p true]
        ⟨(L.changed p x LIBUS_SOCKET_READABLE).setSocket p
          { x with p := (x.p.withEvents LIBUS_SOCKET_READABLE).withType POLL_TYPE_SOCKET },
          .callback .done⟩
  | accepted {pc a l s fd x ctx} (haccept : Accepting L l pc a (some (s, fd)))
      (hx : L.sockets l = some x) (hctx : L.contexts x.context = some ctx) (hs : L.Fresh s)
      (hfd : L.epoll fd = none) :
      Moves A L pc a [.opened s, .linked x.context s, .on_open s false]
        ⟨L.opened s (newSocket x.context fd POLL_TYPE_SOCKET false) LIBUS_SOCKET_READABLE ctx,
          .callback (.accept l)⟩
  | closedLast {pc a s x ctx} (hclose : ClosesLast L s pc a) (hx : L.sockets s = some x)
      (hctx : L.contexts x.context = some ctx) (hs : s ∈ A.sockets x.context)
      (hlisten : x.listen = false) :
      Moves A L pc a [.unlinked x.context s, .on_close s] ⟨L.closing s x ctx, .callback .done⟩
  | finish {pc a} (hpc : pc.dispatching = true) (hne : L.ready_events ≠ []) :
      Moves A L pc a [] ⟨L.advance, .dispatch⟩
  | onWritable {accepted p x events rest} (hr : L.ready_events = .socket p false events :: rest)
      (hx : L.sockets p = some x) (hsemi : us_internal_poll_type x.p ≠ POLL_TYPE_SEMI_SOCKET) :
      Moves A L .dispatch (.next accepted) [.on_writable p]
        ⟨{ L with last_write_failed := false }, .callback (.writable p events.readable)⟩
  | toReceive {accepted p x events rest} (hr : L.ready_events = .socket p false events :: rest)
      (hx : L.sockets p = some x) (hsemi : us_internal_poll_type x.p ≠ POLL_TYPE_SEMI_SOCKET) :
      Moves A L .dispatch (.next accepted) [] ⟨L, .receive p events.readable⟩
  | unwritable {accepted s readable x} (hx : L.sockets s = some x)
      (hs : s ∈ A.sockets x.context)
      (hwritten : L.last_write_failed = false ∨ us_socket_is_shut_down x = true) :
      Moves A L (.callback (.writable s readable)) (.ret accepted) []
        ⟨L.changed s x ⟨(us_poll_events x.p).readable, false⟩, .receive s readable⟩
  | stillWritable {accepted s readable x} (hx : L.sockets s = some x)
      (hs : s ∈ A.sockets x.context) :
      Moves A L (.callback (.writable s readable)) (.ret accepted) [] ⟨L, .receive s readable⟩
  | data {s} : Moves A L (.receive s true) (.recv .received) [.on_data s] ⟨L, .callback .done⟩
  | ended {s x} (hx : L.sockets s = some x) (hshut : us_socket_is_shut_down x = false) :
      Moves A L (.receive s true) (.recv .end_of_stream) [.on_end s]
        ⟨L.changed s x ⟨false, (us_poll_events x.p).writable⟩, .callback .done⟩
  | timeoutPassed {accepted c s ctx} (hctx : L.contexts c = some ctx)
      (hit : ctx.iterator = some s) :
      Moves A L (.callback (.timeout c s)) (.ret accepted) []
        ⟨L.setContext c { ctx with iterator := L.next s }, .sweep⟩
  | timeoutLeft {accepted c s ctx} (hctx : L.contexts c = some ctx)
      (hit : ctx.iterator ≠ some s) :
      Moves A L (.callback (.timeout c s)) (.ret accepted) [] ⟨L, .sweep⟩
  | sweepEnd (hi : L.iterator = none) :
      Moves A L .sweep .sweep [.sweep_end] ⟨L.advance, .dispatch⟩
  | nextContext {c ctx L'} (hi : L.iterator = some c) (hctx : L.contexts c = some ctx)
      (hit : ctx.iterator = none) (henter : Enters L (L.context_next c) L') :
      Moves A L .sweep .sweep [] ⟨L', .sweep⟩
  | timedOut {c ctx s x} (hi : L.iterator = some c) (hctx : L.contexts c = some ctx)
      (hit : ctx.iterator = some s) (hx : L.sockets s = some x) (htimeout : x.timeout = 1) :
      Moves A L .sweep .sweep [.visited s, .on_socket_timeout s]
        ⟨L.setSocket s { x with timeout := 0 }, .callback (.timeout c s)⟩
  | visited {c ctx s x} (hi : L.iterator = some c) (hctx : L.contexts c = some ctx)
      (hit : ctx.iterator = some s) (hx : L.sockets s = some x) (htimeout : x.timeout ≠ 1) :
      Moves A L .sweep .sweep [.visited s]
        ⟨(L.setSocket s { x with timeout := x.timeout - 1 }).setContext c
          { ctx with iterator := L.next s }, .sweep⟩
  | freed {s l} (hl : A.closed = s :: l) :
      Moves A L (.free (some s)) .free [.freed s]
        ⟨{ L with
            sockets := Function.update L.sockets s none
            num_polls := L.num_polls - 1 }, .free (L.next s)⟩
  | freeDone (hl : A.closed = []) :
      Moves A L (.free none) .free [] ⟨{ L with closed_head := none }, .idle⟩

/-! ### What always holds -/

/-- Where the list of the closed sockets begins: while they are being freed, with
the one that is next. -/
def State.closedFrom (σ : State) : Ptr :=
  match σ.pc with
  | .free s => s
  | _ => σ.loop.closed_head

/-- A listen socket polls for connections, and nothing makes it another one. -/
def Listening (L : us_loop) : Prop :=
  ∀ s x, L.sockets s = some x → x.listen = true →
    us_internal_poll_type x.p = POLL_TYPE_SEMI_SOCKET ∧ us_poll_events x.p = LIBUS_SOCKET_READABLE

/-- A socket that is no listen socket and not connecting. -/
def us_socket.Plain (x : us_socket) : Prop :=
  x.listen = false ∧ us_internal_poll_type x.p ≠ POLL_TYPE_SEMI_SOCKET

/-- The block at `s` is such a socket. -/
def Plain (L : us_loop) (s : Addr) : Prop := ∃ x, L.sockets s = some x ∧ x.Plain

/-- The lists are in order, and the callbacks and the sweep are where they believe
to be. -/
structure Arranged (A : Lists) (σ : State) : Prop where
  good : Good A σ.loop σ.closedFrom
  listening : Listening σ.loop
  writable : ∀ s readable, σ.pc = .callback (.writable s readable) → Plain σ.loop s
  receive : ∀ s readable, σ.pc = .receive s readable → Plain σ.loop s
  iterator : σ.pc.sweeping = false → σ.loop.iterator = none
  timeout : ∀ c s, σ.pc = .callback (.timeout c s) → σ.loop.iterator = some c

/-- The loop over `ready_events` is going on. -/
def Pc.batch : Pc → Bool
  | .dispatch => true
  | .receive _ _ => true
  | .callback _ => true
  | .sweep => true
  | _ => false

/-- What is left of the batch lies in the array, and what is being dispatched is of it. -/
structure Batch (L : us_loop) (pc : Pc) : Prop where
  inside : pc.batch = true → ∃ i, L.fd_iterator = some i ∧ i + L.ready_events.length ≤ 1024
  front : pc.batch = true → pc ≠ .dispatch → L.ready_events ≠ []

/-- In a callback of a dispatch `fd_iterator` is an index. -/
theorem Batch.indexed {pc : Pc} (h : Batch L pc) (hpc : pc.batch = true) (hne : pc ≠ .dispatch) :
    L.Indexed := by
  obtain ⟨i, hi, hle⟩ := h.inside hpc
  have hpos := List.length_pos_of_ne_nil (h.front hpc hne)
  have hlt : i < 1024 := by omega
  simpa [Indexed, hi] using hlt

/-- The lists are in order, and so is the loop over `ready_events`. -/
structure Ordered (A : Lists) (σ : State) : Prop extends Arranged A σ where
  batch : Batch σ.loop σ.pc

/-! ### The inversion of the steps -/

section Inversion

variable {pc : Pc} {a : Label} {σ : State} {s l c : Addr} {x : us_socket}

theorem acceptRound_moves (h : Good A L q) {accepted : Accepted}
    (hall : State.Accepts L accepted) (haccept : Accepting L l pc a accepted)
    (hpc : pc.dispatching = true) (hne : L.ready_events ≠ []) :
    Moves A L pc a (State.enter ⟨L, pc⟩ (L.acceptRound l accepted)).2
      (State.enter ⟨L, pc⟩ (L.acceptRound l accepted)).1 := by
  have htouch : Touches L l pc a := by
    cases haccept with
    | first hr => exact .dispatch hr
    | again => exact .accept
  rcases hx : L.sockets l with - | x
  · have hnone : L.acceptRound l accepted = none := by
      rcases accepted with - | ⟨s, fd⟩ <;> simp [acceptRound, hx]
    rw [hnone]
    exact .dangling htouch hx
  · rcases accepted with - | ⟨s, fd⟩
    · have hdone : L.acceptRound l none = some L.finish := by simp [acceptRound, hx]
      rw [hdone]
      exact .finish hpc hne
    · obtain ⟨hs, hfd⟩ := hall _ rfl
      obtain ⟨ctx, hctx⟩ := h.context_of hx
      have hopen := open_eq h (x := newSocket x.context fd POLL_TYPE_SOCKET false) hctx hs
        LIBUS_SOCKET_READABLE
      have hround : L.acceptRound l (some (s, fd)) = some
          (L.opened s (newSocket x.context fd POLL_TYPE_SOCKET false) LIBUS_SOCKET_READABLE ctx,
            .callback (.accept l), [.opened s, .linked x.context s, .on_open s false]) := by
        simp only [acceptRound, hx, Option.bind_eq_bind, Option.bind_some]
        exact congrArg (Option.bind · _) hopen
      rw [hround]
      exact .accepted haccept hx hctx hs hfd

theorem closeLast_moves (h : Good A L q) (hx : L.sockets s = some x) (hlisten : x.listen = false)
    (hclose : ClosesLast L s pc a) (hpc : pc.dispatching = true) (hne : L.ready_events ≠ []) :
    Moves A L pc a (State.enter ⟨L, pc⟩ (L.closeLast s)).2
      (State.enter ⟨L, pc⟩ (L.closeLast s)).1 := by
  obtain ⟨ctx, hctx⟩ := h.context_of hx
  rcases h.open_or_closed hx with ⟨hcl, -⟩ | ⟨hs, -⟩
  · have hlast : L.closeLast s = some L.finish := by
      simp [closeLast, h.close_eq_closed hx hcl]
    rw [hlast]
    exact .finish hpc hne
  · have hlast : L.closeLast s = some
        (L.closing s x ctx, .callback .done, [.unlinked x.context s, .on_close s]) := by
      simp [closeLast, h.close_eq hx hctx hs]
    rw [hlast]
    exact .closedLast hclose hx hctx hs hlisten

theorem receive_moves (h : Good A L q) (hx : L.sockets s = some x) (hlisten : x.listen = false)
    (hne : L.ready_events ≠ []) (recv : Recv) :
    Moves A L (.receive s true) (.recv recv)
      (State.enter ⟨L, .receive s true⟩ (L.receive s recv)).2
      (State.enter ⟨L, .receive s true⟩ (L.receive s recv)).1 := by
  cases recv with
  | received =>
      have hround : L.receive s .received = some (L, .callback .done, [.on_data s]) := by
        simp [us_loop.receive, hx]
      rw [hround]
      exact .data
  | would_block =>
      have hround : L.receive s .would_block = some L.finish := by simp [us_loop.receive, hx]
      rw [hround]
      exact .finish rfl hne
  | failed =>
      have hround : L.receive s .failed = L.closeLast s := by simp [us_loop.receive, hx]
      rw [hround]
      exact closeLast_moves h hx hlisten (.received (Or.inl rfl)) rfl hne
  | end_of_stream =>
      rcases hshut : us_socket_is_shut_down x with - | -
      · have hround : L.receive s .end_of_stream = some
            (L.changed s x ⟨false, (us_poll_events x.p).writable⟩, .callback .done,
              [.on_end s]) := by
          simp [us_loop.receive, hx, hshut, poll_change_eq hx]
        rw [hround]
        exact .ended hx hshut
      · have hround : L.receive s .end_of_stream = L.closeLast s := by
          simp [us_loop.receive, hx, hshut]
        rw [hround]
        exact closeLast_moves h hx hlisten (.received (Or.inr rfl)) rfl hne

/-- The sweep goes to a context of the loop, or to its end. -/
theorem enters_of_enterContext (p : Ptr) (hp : ∀ c, p = some c → (L.contexts c).isSome) :
    ∃ L', ({ L with iterator := p } : us_loop).enterContext = some L' ∧ Enters L p L' := by
  rcases p with - | c
  · exact ⟨_, rfl, .none⟩
  · obtain ⟨ctx, hctx⟩ := Option.isSome_iff_exists.mp (hp c rfl)
    exact ⟨_, by simp [enterContext, setIterator, hctx], .some hctx⟩

theorem sweepRound_moves (h : Good A L q) :
    Moves A L .sweep .sweep (State.enter ⟨L, .sweep⟩ L.sweepRound).2
      (State.enter ⟨L, .sweep⟩ L.sweepRound).1 := by
  rcases hi : L.iterator with - | c
  · have hround : L.sweepRound = some (L.advance, .dispatch, [.sweep_end]) := by
      simp [sweepRound, hi]
    rw [hround]
    exact .sweepEnd hi
  · obtain ⟨ctx, hctx⟩ := Option.isSome_iff_exists.mp (h.context_iterator c hi)
    rcases hit : ctx.iterator with - | s
    · have hnext : ∀ c', L.context_next c = some c' → (L.contexts c').isSome := fun c' hc' =>
        (h.mem_contexts c').mp
          (h.contexts.next_mem ((h.mem_contexts c).mpr (by rw [hctx]; rfl)) hc').1
      obtain ⟨L', henter, hL'⟩ := enters_of_enterContext (L := L) (L.context_next c) hnext
      have hround : L.sweepRound = some (L', .sweep, []) := by
        simp [sweepRound, hi, hctx, hit, henter]
      rw [hround]
      exact .nextContext hi hctx hit hL'
    · have hs := h.socket_iterator c ctx s hctx hit
      obtain ⟨x, hx⟩ := Option.isSome_iff_exists.mp (h.live_of_mem hs)
      by_cases htimeout : x.timeout = 1
      · have hround : L.sweepRound = some
            (L.setSocket s { x with timeout := 0 }, .callback (.timeout c s),
              [.visited s, .on_socket_timeout s]) := by
          simp [sweepRound, hi, hctx, hit, hx, htimeout]
        rw [hround]
        exact .timedOut hi hctx hit hx htimeout
      · have hctx' : (L.setSocket s { x with timeout := x.timeout - 1 }).contexts c = some ctx :=
          hctx
        have hround : L.sweepRound = some
            ((L.setSocket s { x with timeout := x.timeout - 1 }).setContext c
              { ctx with iterator := L.next s }, .sweep, [.visited s]) := by
          simp [sweepRound, hi, hctx, hit, hx, htimeout, setIterator, hctx']
        rw [hround]
        exact .visited hi hctx hit hx htimeout

theorem dispatch_moves (h : Ordered A ⟨L, .dispatch⟩) {accepted : Accepted} {r : Ready}
    {rest : List Ready} (hall : State.Accepts L accepted) (hr : L.ready_events = r :: rest) :
    Moves A L .dispatch (.next accepted)
      (State.enter ⟨L, .dispatch⟩ (L.us_internal_dispatch_ready_poll accepted r)).2
      (State.enter ⟨L, .dispatch⟩ (L.us_internal_dispatch_ready_poll accepted r)).1 := by
  have hgood : Good A L L.closed_head := h.good
  have hne : L.ready_events ≠ [] := by
    rw [hr]
    exact List.cons_ne_nil r rest
  cases r with
  | timer =>
      have hi : L.iterator = none := h.iterator rfl
      have hhead : ∀ c, L.head = some c → (L.contexts c).isSome := fun c hc =>
        (hgood.mem_contexts c).mp (List.mem_of_head? (hgood.contexts.head_eq.symm.trans hc))
      obtain ⟨L', henter, hL'⟩ := enters_of_enterContext (L := L) L.head hhead
      have hround : L.us_internal_dispatch_ready_poll accepted .timer
          = some (L', .sweep, [.sweep_begin]) := by
        simp [us_internal_dispatch_ready_poll, us_internal_timer_sweep, hi, henter]
      rw [hround]
      exact .sweepBegin hr hL'
  | async => exact .wakeup hr
  | socket p error events =>
      rcases hx : L.sockets p with - | x
      · have hround : L.us_internal_dispatch_ready_poll accepted (.socket p error events)
            = none := by
          simp [us_internal_dispatch_ready_poll, hx]
        rw [hround]
        exact .dangling (.dispatch hr) hx
      · by_cases hsemi : us_internal_poll_type x.p = POLL_TYPE_SEMI_SOCKET
        · by_cases hevents : us_poll_events x.p = LIBUS_SOCKET_WRITABLE
          · have hx' : (L.changed p x LIBUS_SOCKET_READABLE).sockets p
                = some { x with p := x.p.withEvents LIBUS_SOCKET_READABLE } :=
              Function.update_self _ _ _
            have hround : L.us_internal_dispatch_ready_poll accepted (.socket p error events)
                = some ((L.changed p x LIBUS_SOCKET_READABLE).setSocket p
                  { x with
                    p := (x.p.withEvents LIBUS_SOCKET_READABLE).withType POLL_TYPE_SOCKET },
                  .callback .done, [.on_open p true]) := by
              simp [us_internal_dispatch_ready_poll, hx, hsemi, hevents, poll_change_eq hx,
                poll_set_type_eq hx']
            rw [hround]
            exact .connected hr hx hsemi hevents
          · have hround : L.us_internal_dispatch_ready_poll accepted (.socket p error events)
                = L.acceptRound p accepted := by
              simp [us_internal_dispatch_ready_poll, hx, hsemi, hevents]
            rw [hround]
            exact acceptRound_moves hgood hall (.first hr hx hsemi hevents) rfl hne
        · have hlisten : x.listen = false := by
            rcases hl : x.listen with - | -
            · rfl
            · exact absurd (h.listening p x hx hl).1 hsemi
          rcases error with - | -
          · rcases hw : events.writable with - | -
            · have hround : L.us_internal_dispatch_ready_poll accepted (.socket p false events)
                  = some (L, .receive p events.readable, []) := by
                simp [us_internal_dispatch_ready_poll, hx, hsemi, hw]
              rw [hround]
              exact .toReceive hr hx hsemi
            · have hround : L.us_internal_dispatch_ready_poll accepted (.socket p false events)
                  = some ({ L with last_write_failed := false },
                    .callback (.writable p events.readable), [.on_writable p]) := by
                simp [us_internal_dispatch_ready_poll, hx, hsemi, hw]
              rw [hround]
              exact .onWritable hr hx hsemi
          · have hround : L.us_internal_dispatch_ready_poll accepted (.socket p true events)
                = L.closeLast p := by
              simp [us_internal_dispatch_ready_poll, hx, hsemi]
            rw [hround]
            exact closeLast_moves hgood hx hlisten (.error hr) rfl hne

theorem resume_moves {k : After} (h : Ordered A ⟨L, .callback k⟩) {accepted : Accepted}
    (hall : State.Accepts L accepted) :
    Moves A L (.callback k) (.ret accepted)
      (State.enter ⟨L, .callback k⟩ (L.resume accepted k)).2
      (State.enter ⟨L, .callback k⟩ (L.resume accepted k)).1 := by
  have hgood : Good A L L.closed_head := h.good
  have hne : L.ready_events ≠ [] := h.batch.front rfl (by simp)
  cases k with
  | done => exact .finish rfl hne
  | accept l => exact acceptRound_moves hgood hall .again rfl hne
  | writable s readable =>
      obtain ⟨x, hsocket, -⟩ := h.writable s readable rfl
      have hx : L.sockets s = some x := hsocket
      rcases hgood.open_or_closed hx with ⟨hcl, -⟩ | ⟨hs, -⟩
      · have hround : L.resume accepted (.writable s readable) = some L.finish := by
          simp [resume, hgood.is_closed_iff hx, hcl]
        rw [hround]
        exact .finish rfl hne
      · have hncl := hgood.not_mem_closed hs
        by_cases hwritten : L.last_write_failed = false ∨ us_socket_is_shut_down x = true
        · have hround : L.resume accepted (.writable s readable) = some
              (L.changed s x ⟨(us_poll_events x.p).readable, false⟩, .receive s readable, []) := by
            simp [resume, hgood.is_closed_iff hx, hncl, hx, hwritten, poll_change_eq hx]
          rw [hround]
          exact .unwritable hx hs hwritten
        · have hround : L.resume accepted (.writable s readable)
              = some (L, .receive s readable, []) := by
            simp [resume, hgood.is_closed_iff hx, hncl, hx, hwritten]
          rw [hround]
          exact .stillWritable hx hs
  | timeout c s =>
      obtain ⟨ctx, hctx⟩ := Option.isSome_iff_exists.mp
        (hgood.context_iterator c (h.timeout c s rfl))
      by_cases hit : ctx.iterator = some s
      · have hround : L.resume accepted (.timeout c s) = some
            (L.setContext c { ctx with iterator := L.next s }, .sweep, []) := by
          simp [resume, hctx, hit, setIterator]
        rw [hround]
        exact .timeoutPassed hctx hit
      · have hround : L.resume accepted (.timeout c s) = some (L, .sweep, []) := by
          simp [resume, hctx, hit]
        rw [hround]
        exact .timeoutLeft hctx hit

/-- A socket is moved outside the loop over `ready_events`, where `fd_iterator` may be
no index. -/
theorem adopt_moves (h : Ordered A ⟨L, pc⟩) {s' : Addr} (hpc : pc.user = true)
    (hall : Api.Allowed L (.adopt_socket c s s')) (hindex : ¬ L.Indexed) :
    Moves A L pc (.api (.adopt_socket c s s'))
      (State.enter ⟨L, pc⟩ ((L.us_socket_context_adopt_socket c s s').map fun p =>
        (p.1, pc.move L (.adopt_socket c s s'), p.2))).2
      (State.enter ⟨L, pc⟩ ((L.us_socket_context_adopt_socket c s s').map fun p =>
        (p.1, pc.move L (.adopt_socket c s s'), p.2))).1 := by
  have hgood : Good A L (State.closedFrom ⟨L, pc⟩) := h.good
  obtain ⟨x, hx, hlisten⟩ := IsSocket.exists hall.2.1
  rcases hgood.open_or_closed hx with ⟨hcl, -⟩ | ⟨hs, -⟩
  · rw [hgood.adopt_eq_closed hx hcl]
    exact .call hpc hall (.adoptedClosed hx hcl)
  · obtain ⟨ctx, hctx⟩ := hgood.context_of hx
    rw [hgood.adopt_eq_none hx hctx hs hindex]
    rcases pc with _ | _ | _ | k | _ | _ | _ | _ <;> try cases hpc
    · exact .misplaced hindex
    · exact absurd (h.batch.indexed rfl (by simp)) hindex

/-- **What a step can do.** -/
theorem moves_of_step (h : Ordered A σ) {σ' : State} (hs : State.step σ a = some (σ', es)) :
    Moves A σ.loop σ.pc a es σ' := by
  obtain ⟨L, pc⟩ := σ
  have hgood : Good A L (State.closedFrom ⟨L, pc⟩) := h.good
  cases a with
  | api call =>
      simp only [State.step, Option.ite_none_right_eq_some, Option.some.injEq] at hs
      obtain ⟨⟨hpc, hall⟩, hs⟩ := hs
      by_cases hindex : ∀ c s s', call = .adopt_socket c s s' → L.Indexed
      · obtain ⟨L', es', hrun, hcalled⟩ := called_of_run hgood hall hindex
        rw [hrun] at hs
        obtain ⟨rfl, rfl⟩ := Prod.mk.inj hs
        exact .call hpc hall hcalled
      · simp only [not_forall] at hindex
        obtain ⟨c, s, s', rfl, hindex⟩ := hindex
        have hmoves := adopt_moves h hpc hall hindex
        rw [show L.us_socket_context_adopt_socket c s s'
          = Api.run L (.adopt_socket c s s') from rfl, hs] at hmoves
        exact hmoves
  | epoll_wait events =>
      simp only [State.step, Option.ite_none_right_eq_some] at hs
      obtain ⟨⟨rfl, hnum, hnodup, hlength⟩, hs⟩ := hs
      obtain ⟨rs, hrs, he⟩ := Option.map_eq_some_iff.mp hs
      obtain ⟨rfl, rfl⟩ := Prod.mk.inj he
      exact .wait hnum hnodup hlength hrs
  | next accepted =>
      simp only [State.step, Option.ite_none_right_eq_some] at hs
      obtain ⟨⟨rfl, hall⟩, hs⟩ := hs
      rcases hr : L.ready_events with - | ⟨r, rest⟩
      · simp only [hr, Option.some.injEq] at hs
        obtain ⟨rfl, rfl⟩ := Prod.mk.inj hs
        exact .batchDone hr
      · simp only [hr, Option.some.injEq] at hs
        have hmoves := dispatch_moves h hall hr
        rw [hs] at hmoves
        exact hmoves
  | recv recv =>
      rcases pc with _ | _ | ⟨s, _ | _⟩ | k | _ | s | _ | _ <;>
        simp only [State.step, Option.some.injEq, reduceCtorEq] at hs
      · obtain ⟨rfl, rfl⟩ := Prod.mk.inj hs
        exact .finish rfl (h.batch.front rfl (by simp))
      · obtain ⟨x, hx, hlisten, -⟩ := h.receive s true rfl
        have hmoves := receive_moves hgood hx hlisten (h.batch.front rfl (by simp)) recv
        rw [hs] at hmoves
        exact hmoves
  | sweep =>
      simp only [State.step, Option.ite_none_right_eq_some, Option.some.injEq] at hs
      obtain ⟨rfl, hs⟩ := hs
      have hmoves := sweepRound_moves hgood
      rw [hs] at hmoves
      exact hmoves
  | ret accepted =>
      rcases pc with _ | _ | ⟨_, _⟩ | k | _ | s | _ | _ <;>
        simp only [State.step, Option.ite_none_right_eq_some, Option.some.injEq,
          reduceCtorEq] at hs
      obtain ⟨hall, hs⟩ := hs
      have hmoves := resume_moves h hall
      rw [hs] at hmoves
      exact hmoves
  | free =>
      rcases pc with _ | _ | ⟨_, _⟩ | k | _ | s | _ | _ <;>
        simp only [State.step, Option.some.injEq, reduceCtorEq] at hs
      have hgood' : Good A L s := hgood
      rcases hl : A.closed with - | ⟨t, l⟩
      · have hnone : s = none := by
          have hchain := hgood'.closed
          rw [hl] at hchain
          exact hchain
        subst hnone
        obtain ⟨rfl, rfl⟩ := Prod.mk.inj hs
        exact .freeDone hl
      · obtain ⟨rfl, -⟩ := hgood'.freed hl
        have hcl : t ∈ A.closed := by rw [hl]; exact List.mem_cons_self
        obtain ⟨x, hx, -⟩ := hgood'.of_mem_closed t hcl
        simp only [freeRound, us_poll_free, hx, Option.bind_eq_bind, Option.bind_some,
          State.enter] at hs
        obtain ⟨rfl, rfl⟩ := Prod.mk.inj hs
        exact .freed hl

end Inversion

end TestExamples.USockets
