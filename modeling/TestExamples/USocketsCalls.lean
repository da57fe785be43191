/-
TestExamples/USocketsCalls.lean

What the calls of the library leave, on a loop whose lists are in order.

`Good` is `Threads` with the account of the blocks that are there: each is closed
or in the list of a context, and `num_polls` is their number.  For each call there
is an equation for its outcome (`close_eq`, `adopt_eq` and so on), so that every
later fact about a call is one about a record, and a theorem that the outcome is
`Good` for the lists its events lead to.
-/
import TestExamples.USocketsLists

namespace TestExamples.USockets

/-! ### The bits of a poll -/

section Bits

variable (p : us_poll) (events : Events)

theorem bits_type : ∀ (b : BitVec 4) (r w : Bool),
    (b &&& 3 ||| (if r then 8 else 0) ||| (if w then 4 else 0)) &&& 3 = b &&& 3 := by
  decide

theorem bits_in : ∀ (b : BitVec 4) (r w : Bool),
    decide ((b &&& 3 ||| (if r then 8 else 0) ||| (if w then 4 else 0)) &&& 8 ≠ 0) = r := by
  decide

theorem bits_out : ∀ (b : BitVec 4) (r w : Bool),
    decide ((b &&& 3 ||| (if r then 8 else 0) ||| (if w then 4 else 0)) &&& 4 ≠ 0) = w := by
  decide

theorem bits_self : ∀ b : BitVec 4,
    (b &&& 3 ||| (if decide (b &&& 8 ≠ 0) then 8 else 0)
      ||| (if decide (b &&& 4 ≠ 0) then 4 else 0)) = b := by
  decide

theorem bits_strip : ∀ b : BitVec 4,
    (b &&& 3 &&& 3 ||| (if decide (b &&& 8 ≠ 0) then 8 else 0)
      ||| (if decide (b &&& 4 ≠ 0) then 4 else 0)) = b := by
  decide

theorem bits_stripped : ∀ b : BitVec 4,
    decide (b &&& 3 &&& 8 ≠ 0) = false ∧ decide (b &&& 3 &&& 4 ≠ 0) = false := by
  decide

theorem bits_set_type : ∀ b t : BitVec 4, t = 0 ∨ t = 1 →
    (t ||| b &&& 12) &&& 3 = t ∧ (t ||| b &&& 12) &&& 8 = b &&& 8 ∧
      (t ||| b &&& 12) &&& 4 = b &&& 4 := by
  decide

@[simp] theorem poll_type_withEvents :
    us_internal_poll_type (p.withEvents events) = us_internal_poll_type p :=
  bits_type p.poll_type events.readable events.writable

@[simp] theorem poll_events_withEvents : us_poll_events (p.withEvents events) = events :=
  congrArg₂ Events.mk (bits_in p.poll_type events.readable events.writable)
    (bits_out p.poll_type events.readable events.writable)

@[simp] theorem withEvents_poll_events : p.withEvents (us_poll_events p) = p :=
  congrArg (us_poll.mk p.fd) (bits_self p.poll_type)

/-- The events are put back where they have been stripped away. -/
theorem withEvents_strip :
    (us_poll.mk p.fd (us_internal_poll_type p)).withEvents (us_poll_events p) = p :=
  congrArg (us_poll.mk p.fd) (bits_strip p.poll_type)

theorem poll_events_strip :
    us_poll_events ⟨p.fd, us_internal_poll_type p⟩ = ⟨false, false⟩ :=
  congrArg₂ Events.mk (bits_stripped p.poll_type).1 (bits_stripped p.poll_type).2

@[simp] theorem withEvents_fd : (p.withEvents events).fd = p.fd := rfl

@[simp] theorem withType_fd (t : BitVec 4) : (p.withType t).fd = p.fd := rfl

theorem poll_type_semi (fd : Fd) :
    us_internal_poll_type ⟨fd, POLL_TYPE_SEMI_SOCKET⟩ = POLL_TYPE_SEMI_SOCKET := by
  show POLL_TYPE_SEMI_SOCKET &&& 3 = POLL_TYPE_SEMI_SOCKET
  decide

theorem poll_type_socket (fd : Fd) :
    us_internal_poll_type ⟨fd, POLL_TYPE_SOCKET⟩ ≠ POLL_TYPE_SEMI_SOCKET := by
  show POLL_TYPE_SOCKET &&& 3 ≠ POLL_TYPE_SEMI_SOCKET
  decide

/-- A socket or a shut down socket. -/
theorem poll_type_withType {t : BitVec 4}
    (ht : t = POLL_TYPE_SOCKET ∨ t = POLL_TYPE_SOCKET_SHUT_DOWN) :
    us_internal_poll_type (p.withType t) = t :=
  (bits_set_type p.poll_type t ht).1

theorem poll_events_withType {t : BitVec 4}
    (ht : t = POLL_TYPE_SOCKET ∨ t = POLL_TYPE_SOCKET_SHUT_DOWN) :
    us_poll_events (p.withType t) = us_poll_events p := by
  obtain ⟨-, hin, hout⟩ := bits_set_type p.poll_type t ht
  show (⟨decide ((t ||| p.poll_type &&& 12) &&& 8 ≠ 0), _⟩ : Events) = _
  rw [hin]
  show (⟨_, decide ((t ||| p.poll_type &&& 12) &&& 4 ≠ 0)⟩ : Events) = _
  rw [hout]
  rfl

end Bits

/-! ### What the functions of epoll.c leave -/

namespace us_loop

variable {L : us_loop} {c s s' : Addr} {x : us_socket} {ctx : us_socket_context}

/-- What `us_poll_change` leaves. -/
def changed (L : us_loop) (s : Addr) (x : us_socket) (events : Events) : us_loop :=
  { L with
    sockets := Function.update L.sockets s (some { x with p := x.p.withEvents events })
    epoll :=
      if us_poll_events x.p = events then L.epoll
      else epoll_ctl_mod L.epoll x.p.fd (events, s) }

theorem poll_change_eq (hx : L.sockets s = some x) (events : Events) :
    L.us_poll_change s events = some (L.changed s x events) := by
  simp only [us_poll_change, hx, Option.bind_eq_bind, Option.bind_some]
  by_cases he : us_poll_events x.p = events
  · have hself : Function.update L.sockets s (some x) = L.sockets := by
      rw [← hx, Function.update_eq_self]
    simp [changed, ← he, hself]
  · simp [changed, he, setSocket]

theorem poll_set_type_eq (hx : L.sockets s = some x) (t : BitVec 4) :
    L.us_internal_poll_set_type s t = some (L.setSocket s { x with p := x.p.withType t }) := by
  simp [us_internal_poll_set_type, hx]

/-- What `us_poll_resize` leaves. -/
def resized (L : us_loop) (p p' : Addr) (x : us_socket) : us_loop :=
  { L with
    sockets := Function.update (Function.update L.sockets p none) p' (some x)
    prev := Function.update L.prev p' (L.prev p)
    next := Function.update L.next p' (L.next p)
    epoll :=
      if p ≠ p' ∧ us_poll_events x.p ≠ ⟨false, false⟩ then
        epoll_ctl_mod L.epoll x.p.fd (us_poll_events x.p, p')
      else L.epoll
    ready_events :=
      if (L.ready_events.head?.bind Ready.ptr) ≠ some p then replacePtr p p' L.ready_events
      else L.ready_events }

theorem poll_resize_eq (hx : L.sockets s = some x) (s' : Addr) :
    L.us_poll_resize s s' = if L.Indexed then some (L.resized s s' x) else none := by
  have hstrip : us_poll_events ⟨x.p.fd, us_internal_poll_type x.p⟩ = ⟨false, false⟩ :=
    poll_events_strip x.p
  have hback : (us_poll.mk x.p.fd (us_internal_poll_type x.p)).withEvents (us_poll_events x.p)
      = x.p := withEvents_strip x.p
  simp only [us_poll_resize, hx, Option.bind_eq_bind, Option.bind_some]
  by_cases he : s ≠ s' ∧ us_poll_events x.p ≠ ⟨false, false⟩
  · have hne : ¬ (⟨false, false⟩ : Events) = us_poll_events x.p := fun h => he.2 h.symm
    rw [if_pos he, poll_change_eq (Function.update_self _ _ _)]
    simp only [Option.bind_some, resized, if_pos he]
    by_cases hindex : L.Indexed <;> simp only [Indexed] at hindex
    · simp only [changed, setSocket, Indexed, hindex, not_true_eq_false, if_true, if_false]
      split <;> simp_all
    · simp [changed, setSocket, Indexed, hindex]
  · rw [if_neg he]
    simp only [Option.bind_some, resized, if_neg he]
    by_cases hindex : L.Indexed <;> simp only [Indexed] at hindex
    · simp only [Indexed, hindex, not_true_eq_false, if_true, if_false]
      split <;> rfl
    · simp [Indexed, hindex]

/-! ### What the calls leave -/

/-- What `us_socket_close` leaves of a socket that is open. -/
def closing (L : us_loop) (s : Addr) (x : us_socket) (ctx : us_socket_context) : us_loop :=
  { L.unlinked x.context s ctx with
    epoll := Function.update L.epoll x.p.fd none
    next := Function.update (unlinkNext L.prev L.next s) s L.closed_head
    closed_head := some s
    prev := Function.update (unlinkPrev L.prev L.next s) s (some x.context) }

/-- What `us_listen_socket_close` leaves. -/
def listenClosing (L : us_loop) (s : Addr) (x : us_socket) (ctx : us_socket_context) :
    us_loop :=
  { L.unlinked x.context s ctx with
    epoll := Function.update L.epoll x.p.fd none
    sockets := Function.update L.sockets s none
    num_polls := L.num_polls - 1 }

/-- What a new context leaves. -/
def withContext (L : us_loop) (c : Addr) : us_loop :=
  { L with
    contexts := Function.update L.contexts c (some ⟨none, none⟩)
    context_prev := linkPrev L.context_prev L.head c
    context_next := linkNext L.context_next L.head c
    head := some c }

/-- What a new block leaves, put into the list of its context. -/
def opened (L : us_loop) (s : Addr) (x : us_socket) (events : Events)
    (ctx : us_socket_context) : us_loop :=
  (L.us_create_poll s x events).linked x.context s { x with p := x.p.withEvents events } ctx

/-- What `us_socket_context_adopt_socket` leaves; `ctx'` is the context adopting,
once the socket has left its own. -/
def adopting (L : us_loop) (c s s' : Addr) (x : us_socket) (ctx ctx' : us_socket_context) :
    us_loop :=
  ((L.unlinked x.context s ctx).resized s s' x).linked c s' x ctx'

end us_loop

/-- `Threads`, and the account of the blocks that are there. -/
structure Good (A : Lists) (L : us_loop) (q : Ptr) : Prop extends Threads A L q where
  mem_live : ∀ s, s ∈ A.live ↔ (L.sockets s).isSome
  live_nodup : A.live.Nodup
  num_polls : L.num_polls = A.live.length
  placed : ∀ s ∈ A.live, s ∈ A.closed ∨ ∃ c, s ∈ A.sockets c
  closed_plain : ∀ s ∈ A.closed, ∀ x, L.sockets s = some x → x.listen = false

namespace Good

open us_loop

variable {A : Lists} {L L' : us_loop} {q : Ptr} {c s s' : Addr} {x : us_socket}
  {ctx : us_socket_context}

/-- A block is closed, with the mark for it, or in the list of its context. -/
theorem open_or_closed (h : Good A L q) (hx : L.sockets s = some x) :
    (s ∈ A.closed ∧ L.prev s = some x.context) ∨
      (s ∈ A.sockets x.context ∧ L.prev s ≠ some x.context) := by
  have hlive : s ∈ A.live := (h.mem_live s).mpr (by rw [hx]; rfl)
  rcases h.placed s hlive with hcl | ⟨c, hs⟩
  · obtain ⟨y, hy, hp⟩ := h.of_mem_closed s hcl
    rw [hx] at hy
    obtain rfl := Option.some.inj hy
    exact Or.inl ⟨hcl, hp⟩
  · obtain ⟨-, y, hy, rfl⟩ := h.of_mem_sockets c s hs
    rw [hx] at hy
    obtain rfl := Option.some.inj hy
    exact Or.inr ⟨hs, h.prev_ne_of_mem hs⟩

/-- `us_socket_is_closed` tells the closed sockets from the open ones. -/
theorem is_closed_iff (h : Good A L q) (hx : L.sockets s = some x) :
    L.us_socket_is_closed s = some (decide (s ∈ A.closed)) := by
  have hdef : L.us_socket_is_closed s = some (decide (L.prev s = some x.context)) := by
    simp [us_socket_is_closed, hx]
  rw [hdef]
  rcases h.open_or_closed hx with ⟨hcl, hp⟩ | ⟨hs, hp⟩
  · simp [hcl, hp]
  · simp [h.not_mem_closed hs, hp]

/-- The record of the context of a block. -/
theorem context_of (h : Good A L q) (hx : L.sockets s = some x) :
    ∃ ctx, L.contexts x.context = some ctx :=
  Option.isSome_iff_exists.mp (h.context_live s x hx)

theorem unlink_eq (h : Good A L q) (hx : L.sockets s = some x)
    (hctx : L.contexts x.context = some ctx) (hs : s ∈ A.sockets x.context) :
    L.us_internal_socket_context_unlink x.context s = some (L.unlinked x.context s ctx) :=
  us_loop.unlink_eq hx hctx (h.sockets x.context ctx hctx) hs fun _ ha => h.live_of_mem ha

theorem close_eq (h : Good A L q) (hx : L.sockets s = some x)
    (hctx : L.contexts x.context = some ctx) (hs : s ∈ A.sockets x.context) :
    L.us_socket_close s
      = some (L.closing s x ctx, [.unlinked x.context s, .on_close s]) := by
  have hopen : L.us_socket_is_closed s = some false := by
    rw [h.is_closed_iff hx]
    simp [h.not_mem_closed hs]
  simp only [us_socket_close, hopen, hx, h.unlink_eq hx hctx hs, Option.bind_eq_bind,
    Option.bind_some, Bool.false_eq_true, if_false]
  simp [us_poll_stop, setNext, setPrev, hx, us_loop.closing, unlinked]

theorem close_eq_closed (h : Good A L q) (hx : L.sockets s = some x) (hs : s ∈ A.closed) :
    L.us_socket_close s = some (L, []) := by
  simp [us_socket_close, h.is_closed_iff hx, hs]

theorem listen_close_eq (h : Good A L q) (hx : L.sockets s = some x)
    (hctx : L.contexts x.context = some ctx) (hs : s ∈ A.sockets x.context) :
    L.us_listen_socket_close s
      = some (L.listenClosing s x ctx, [.unlinked x.context s, .freed s]) := by
  simp only [us_listen_socket_close, hx, h.unlink_eq hx hctx hs, Option.bind_eq_bind,
    Option.bind_some]
  simp [us_poll_stop, us_poll_free, hx, us_loop.listenClosing, unlinked]

/-! ### The calls keep the lists in order -/

/-- A loop that differs only in what the lists and the account do not depend on. -/
theorem congr (h : Good A L q) (hprev : L'.prev = L.prev) (hnext : L'.next = L.next)
    (hcontexts : L'.contexts = L.contexts) (hcprev : L'.context_prev = L.context_prev)
    (hcnext : L'.context_next = L.context_next) (hhead : L'.head = L.head)
    (hiterator : L'.iterator = L.iterator) (hnum : L'.num_polls = L.num_polls)
    (hsockets : ∀ s, (L'.sockets s).map (fun x => (x.context, x.listen))
      = (L.sockets s).map fun x => (x.context, x.listen)) : Good A L' q := by
  have hcontext : ∀ s, (L'.sockets s).map (·.context) = (L.sockets s).map (·.context) := by
    intro s
    have hmap := congrArg (Option.map Prod.fst) (hsockets s)
    rwa [Option.map_map, Option.map_map] at hmap
  refine ⟨h.toThreads.congr hprev hnext hcontexts hcprev hcnext hhead hiterator hcontext, ?_,
    h.live_nodup, hnum.trans h.num_polls, h.placed, ?_⟩
  · intro s
    have hmap := congrArg Option.isSome (hsockets s)
    rw [Option.isSome_map, Option.isSome_map] at hmap
    rw [hmap]
    exact h.mem_live s
  · intro s hs y hy
    have hmap := hsockets s
    rw [hy, Option.map_some] at hmap
    obtain ⟨x, hx, he⟩ := Option.map_eq_some_iff.mp hmap.symm
    rw [← (Prod.mk.inj he).2]
    exact h.closed_plain s hs x hx

/-- A socket gets another record with the same context. -/
theorem setSocket (h : Good A L q) (hx : L.sockets s = some x) {y : us_socket}
    (hcontext : y.context = x.context) (hlisten : y.listen = x.listen) :
    Good A (L.setSocket s y) q := by
  refine h.congr rfl rfl rfl rfl rfl rfl rfl rfl fun t => ?_
  show (Function.update L.sockets s (some y) t).map _ = _
  rcases eq_or_ne t s with rfl | hne
  · rw [Function.update_self, hx, Option.map_some, Option.map_some, hcontext, hlisten]
  · rw [Function.update_of_ne hne]

theorem changed (h : Good A L q) (hx : L.sockets s = some x) (events : Events) :
    Good A (L.changed s x events) q :=
  (h.setSocket hx (y := { x with p := x.p.withEvents events }) rfl rfl).congr rfl rfl rfl rfl rfl
    rfl rfl rfl fun _ => rfl

/-- The sweep goes on in a context. -/
theorem iterate (h : Good A L q) (hctx : L.contexts c = some ctx) (p : Ptr)
    (hp : ∀ s, p = some s → s ∈ A.sockets c) :
    Good A (L.setContext c { ctx with iterator := p }) q :=
  { h with toThreads := h.toThreads.iterate hctx p hp }

/-- The sweep goes on to a context. -/
theorem iterateContexts (h : Good A L q) (p : Ptr)
    (hp : ∀ c, p = some c → (L.contexts c).isSome) : Good A { L with iterator := p } q :=
  { h with toThreads := { h.toThreads with context_iterator := hp } }

theorem withContext (h : Good A L q) (hc : L.Fresh c) :
    Good (A.apply (.context c)) (L.withContext c) q :=
  { h with toThreads := h.toThreads.context hc }

/-- The blocks that are left when one is freed. -/
theorem mem_live_erase (h : Good A L q) (t : Addr) :
    t ∈ A.live.erase s ↔ (Function.update L.sockets s none t).isSome := by
  rcases eq_or_ne t s with rfl | hne
  · simp [h.live_nodup.not_mem_erase]
  · rw [List.mem_erase_of_ne hne, Function.update_of_ne hne]
    exact h.mem_live t

theorem num_polls_erase (h : Good A L q) (hs : s ∈ A.live) :
    L.num_polls - 1 = (A.live.erase s).length := by
  have hpos := List.length_pos_of_mem hs
  rw [h.num_polls, List.length_erase_of_mem hs]
  omega

/-- The head of the closed list is freed. -/
theorem freed {l : List Addr} (h : Good A L q) (hl : A.closed = s :: l) :
    q = some s ∧ Good (A.apply (.freed s))
      { L with sockets := Function.update L.sockets s none, num_polls := L.num_polls - 1 }
      (L.next s) := by
  obtain ⟨hq, hpop⟩ := h.toThreads.pop hl
  have hcl : s ∈ A.closed := by rw [hl]; exact List.mem_cons_self
  obtain ⟨x, hx, -⟩ := h.of_mem_closed s hcl
  have hlive : s ∈ A.live := (h.mem_live s).mpr (by rw [hx]; rfl)
  have hrest : A.closed.erase s = l := by rw [hl, List.erase_cons_head]
  have hnot : s ∉ l := by
    have hnodup := h.closed_nodup
    rw [hl] at hnodup
    exact (List.nodup_cons.mp hnodup).1
  have hloose : Lists.Loose { A with closed := l } s :=
    ⟨fun c hm => h.not_mem_closed hm hcl, hnot⟩
  refine ⟨hq, ?_, h.mem_live_erase, h.live_nodup.erase s, h.num_polls_erase hlive, ?_, ?_⟩
  · have herased := hpop.erase hloose (L.num_polls - 1) (A.live.erase s)
    rw [← hrest] at herased
    exact herased
  · intro t ht
    have hne : t ≠ s := by
      rintro rfl
      exact h.live_nodup.not_mem_erase ht
    rcases h.placed t (List.mem_of_mem_erase ht) with hcl' | hm
    · exact Or.inl ((List.mem_erase_of_ne hne).mpr hcl')
    · exact Or.inr hm
  · intro t ht y hy
    exact h.closed_plain t (List.mem_of_mem_erase ht) y (of_update_none hy).2

/-- Taking a socket out of its list leaves the others where they are. -/
theorem placed_unlinked (h : Good A L q) (c : Addr) {t : Addr} (ht : t ∈ A.live) (hne : t ≠ s) :
    t ∈ A.closed ∨ ∃ c', t ∈ (A.apply (.unlinked c s)).sockets c' := by
  rcases h.placed t ht with hcl | ⟨c', hm⟩
  · exact Or.inl hcl
  · refine Or.inr ⟨c', ?_⟩
    show t ∈ Function.update A.sockets c _ c'
    rcases eq_or_ne c' c with rfl | hc
    · rw [Function.update_self]
      exact (List.mem_erase_of_ne hne).mpr hm
    · rwa [Function.update_of_ne hc]

theorem closing (h : Good A L L.closed_head) (hx : L.sockets s = some x)
    (hctx : L.contexts x.context = some ctx) (hs : s ∈ A.sockets x.context)
    (hlisten : x.listen = false) :
    Good (A.applyAll [.unlinked x.context s, .on_close s]) (L.closing s x ctx) (some s) := by
  have hthreads := (h.toThreads.unlinked hctx hs).push (L := L.unlinked x.context s ctx) hx
    (h.loose_of_unlinked hs)
  refine ⟨hthreads.congr rfl rfl rfl rfl rfl rfl rfl fun _ => rfl, h.mem_live, h.live_nodup,
    h.num_polls, ?_, ?_⟩
  · intro t ht
    rcases eq_or_ne t s with rfl | hne
    · exact Or.inl List.mem_cons_self
    · rcases h.placed_unlinked x.context ht hne with hcl | hm
      · exact Or.inl (List.mem_cons_of_mem s hcl)
      · exact Or.inr hm
  · intro t ht y hy
    rcases List.mem_cons.mp ht with rfl | ht
    · obtain rfl : x = y := Option.some.inj (hx.symm.trans hy)
      exact hlisten
    · exact h.closed_plain t ht y hy

theorem listenClosing (h : Good A L q) (hx : L.sockets s = some x)
    (hctx : L.contexts x.context = some ctx) (hs : s ∈ A.sockets x.context) :
    Good (A.applyAll [.unlinked x.context s, .freed s]) (L.listenClosing s x ctx) q := by
  have hlive : s ∈ A.live := (h.mem_live s).mpr (by rw [hx]; rfl)
  have hncl := h.not_mem_closed hs
  have hthreads := (h.toThreads.unlinked hctx hs).erase (h.loose_of_unlinked hs)
    (L.num_polls - 1) (A.live.erase s)
  have hlists : A.applyAll [.unlinked x.context s, .freed s]
      = { A.apply (.unlinked x.context s) with live := A.live.erase s } := by
    simp [Lists.apply, List.erase_of_not_mem hncl]
  rw [hlists]
  refine ⟨hthreads.congr rfl rfl rfl rfl rfl rfl rfl fun _ => rfl, h.mem_live_erase,
    h.live_nodup.erase s, h.num_polls_erase hlive, ?_, ?_⟩
  · intro t ht
    have hne : t ≠ s := by
      rintro rfl
      exact h.live_nodup.not_mem_erase ht
    exact h.placed_unlinked x.context (List.mem_of_mem_erase ht) hne
  · intro t ht y hy
    exact h.closed_plain t ht y (of_update_none hy).2

/-- Putting a socket into a list leaves the others where they are. -/
theorem placed_linked {t : Addr} (ht : t ∈ A.closed ∨ ∃ c', t ∈ A.sockets c') (c s : Addr) :
    t ∈ (A.apply (.linked c s)).closed ∨ ∃ c', t ∈ (A.apply (.linked c s)).sockets c' := by
  rcases ht with hcl | ⟨c', hm⟩
  · exact Or.inl hcl
  · refine Or.inr ⟨c', ?_⟩
    show t ∈ Function.update A.sockets c _ c'
    rcases eq_or_ne c' c with rfl | hc
    · rw [Function.update_self]
      exact List.mem_cons_of_mem s hm
    · rwa [Function.update_of_ne hc]

theorem mem_linked (A : Lists) (c s : Addr) : s ∈ (A.apply (.linked c s)).sockets c := by
  simp [Lists.apply]

/-- A block that is not there is not counted. -/
theorem not_mem_live (h : Good A L q) (hs : L.sockets s = none) : s ∉ A.live := by
  intro hm
  have hlive := (h.mem_live s).mp hm
  rw [hs] at hlive
  cases hlive

/-- A new block that is put into the list of its context. -/
theorem opening (h : Good A L q) (hctx : L.contexts x.context = some ctx) (hs : L.Fresh s)
    (events : Events) :
    Good (A.applyAll [.opened s, .linked x.context s]) (L.opened s x events ctx) q := by
  have hnew : Threads A (L.us_create_poll s x events) q :=
    h.toThreads.new hs (x := { x with p := x.p.withEvents events }) (by rw [hctx]; rfl)
      (fun _ _ => rfl) (fun _ _ => rfl) rfl rfl rfl rfl rfl rfl
  have hthreads : Threads (A.apply (.opened s)) (L.us_create_poll s x events) q :=
    { hnew with }
  have hloose : (A.apply (.opened s)).Loose s :=
    ⟨(h.loose_of_dead hs.1).sockets, (h.loose_of_dead hs.1).closed⟩
  have hdead := h.not_mem_live hs.1
  have hx : (L.us_create_poll s x events).sockets s
      = some { x with p := x.p.withEvents events } := Function.update_self _ _ _
  refine ⟨hthreads.linked hx hctx hloose, ?_, List.nodup_cons.mpr ⟨hdead, h.live_nodup⟩, ?_, ?_,
    ?_⟩
  · intro t
    show t ∈ s :: A.live ↔ _
    rcases eq_or_ne t s with rfl | hne
    · simp [us_loop.opened, us_loop.linked]
    · simp [us_loop.opened, us_loop.linked, us_create_poll, us_loop.setSocket, hne, h.mem_live]
  · show L.num_polls + 1 = ((s :: A.live).length : Int)
    rw [h.num_polls]
    simp
  · intro t ht
    rcases List.mem_cons.mp ht with rfl | ht
    · exact Or.inr ⟨x.context, mem_linked _ _ _⟩
    · exact placed_linked (h.placed t ht) x.context s
  · intro t ht y hy
    have hne : t ≠ s := ne_of_mem_of_not_mem ht hloose.closed
    refine h.closed_plain t ht y (Eq.trans ?_ hy)
    simp [us_loop.opened, us_loop.linked, us_create_poll, us_loop.setSocket, hne]

/-- The place a socket that has left its list is moved to is in no list. -/
theorem loose_of_new (h : Good A L q) (hs : s ∈ A.sockets c) (hs' : s' = s ∨ L.Fresh s') :
    (A.apply (.unlinked c s)).Loose s' := by
  rcases hs' with rfl | hf
  · exact h.loose_of_unlinked hs
  · have hdead := h.loose_of_dead hf.1
    refine ⟨fun c' hm => ?_, hdead.closed⟩
    rcases eq_or_ne c' c with rfl | hne
    · rw [show (A.apply (.unlinked c' s)).sockets c' = _ from Function.update_self _ _ _] at hm
      exact hdead.sockets _ (List.mem_of_mem_erase hm)
    · rw [show (A.apply (.unlinked c s)).sockets c' = _ from Function.update_of_ne hne _ _] at hm
      exact hdead.sockets c' hm

/-- The block of an open socket is moved and the socket put into the list of
another context. -/
theorem adopting {ctx' : us_socket_context} (h : Good A L q) (hx : L.sockets s = some x)
    (hctx : L.contexts x.context = some ctx) (hs : s ∈ A.sockets x.context)
    (hctx' : (L.unlinked x.context s ctx).contexts c = some ctx') (hs' : s' = s ∨ L.Fresh s') :
    Threads ((A.apply (.unlinked x.context s)).apply (.moved s s'))
        ((L.unlinked x.context s ctx).resized s s' x) q ∧
      Good (A.applyAll [.unlinked x.context s, .moved s s', .linked c s'])
        (L.adopting c s s' x ctx ctx') q := by
  have hlive : s ∈ A.live := (h.mem_live s).mpr (by rw [hx]; rfl)
  have hunlinked := h.toThreads.unlinked hctx hs
  have herased := hunlinked.erase (h.loose_of_unlinked hs) L.num_polls (s' :: A.live.erase s)
  -- where the block has been, there is nothing; it goes to a place where there is nothing
  have hsc : L.contexts s = none := by
    rcases hc : L.contexts s with - | y
    · rfl
    · rw [h.apart s (by rw [hc]; rfl)] at hx
      cases hx
  have hxne : ∀ a, L.contexts a = none → (L.unlinked x.context s ctx).contexts a = none := by
    intro a ha
    have hne : a ≠ x.context := by
      rintro rfl
      rw [hctx] at ha
      cases ha
    exact (Function.update_of_ne hne _ _).trans ha
  have hfresh : ({ L.unlinked x.context s ctx with
      sockets := Function.update L.sockets s none, num_polls := L.num_polls } : us_loop).Fresh
        s' := by
    rcases hs' with rfl | hs'
    · exact ⟨Function.update_self _ _ _, hxne s' hsc⟩
    · refine ⟨?_, hxne s' hs'.2⟩
      show Function.update L.sockets s none s' = none
      rcases eq_or_ne s' s with rfl | hne
      · exact Function.update_self _ _ _
      · rw [Function.update_of_ne hne]
        exact hs'.1
  have hcontext : ((L.unlinked x.context s ctx).contexts x.context).isSome := by
    rw [show (L.unlinked x.context s ctx).contexts x.context = _ from Function.update_self _ _ _]
    rfl
  have hloose := herased.loose_of_dead hfresh.1
  have hmoved : Threads ((A.apply (.unlinked x.context s)).apply (.moved s s'))
      ((L.unlinked x.context s ctx).resized s s' x) q :=
    herased.new hfresh (x := x) hcontext
      (fun a ha => Function.update_of_ne ha _ _) (fun a ha => Function.update_of_ne ha _ _)
      rfl rfl rfl rfl rfl rfl
  have hx' : ((L.unlinked x.context s ctx).resized s s' x).sockets s' = some x :=
    Function.update_self _ _ _
  have hnot : s' ∉ A.live.erase s := by
    intro hm
    rcases hs' with rfl | hs'
    · exact h.live_nodup.not_mem_erase hm
    · exact h.not_mem_live hs'.1 (List.mem_of_mem_erase hm)
  refine ⟨hmoved, hmoved.linked hx' hctx' ⟨hloose.sockets, hloose.closed⟩, ?_,
    List.nodup_cons.mpr ⟨hnot, h.live_nodup.erase s⟩, ?_, ?_, ?_⟩
  · intro t
    show t ∈ s' :: A.live.erase s ↔ _
    rcases eq_or_ne t s' with rfl | hne
    · simp [us_loop.adopting, us_loop.linked]
    · have hmem := h.mem_live_erase (s := s) t
      simp only [us_loop.adopting, us_loop.linked, resized, us_loop.unlinked, List.mem_cons, hne,
        false_or, hmem, Function.update_of_ne, ne_eq, not_false_eq_true]
  · show L.num_polls = ((s' :: A.live.erase s).length : Int)
    have hcount := h.num_polls_erase hlive
    rw [List.length_cons]
    push_cast
    omega
  · intro t ht
    rcases List.mem_cons.mp ht with rfl | ht
    · exact Or.inr ⟨c, mem_linked _ _ _⟩
    · have hne : t ≠ s := by
        rintro rfl
        exact h.live_nodup.not_mem_erase ht
      exact placed_linked (h.placed_unlinked x.context (List.mem_of_mem_erase ht) hne) c s'
  · intro t ht y hy
    have hne : t ≠ s := fun he => h.not_mem_closed hs (he ▸ ht)
    have hne' : t ≠ s' := ne_of_mem_of_not_mem ht hloose.closed
    refine h.closed_plain t ht y (Eq.trans ?_ hy)
    simp [us_loop.adopting, us_loop.linked, resized, us_loop.unlinked, hne, hne']

theorem adopt_eq {ctx' : us_socket_context} (h : Good A L q) (hx : L.sockets s = some x)
    (hctx : L.contexts x.context = some ctx) (hs : s ∈ A.sockets x.context)
    (hctx' : (L.unlinked x.context s ctx).contexts c = some ctx') (hs' : s' = s ∨ L.Fresh s')
    (hindex : L.Indexed) :
    L.us_socket_context_adopt_socket c s s'
      = some (L.adopting c s s' x ctx ctx',
          [.unlinked x.context s, .moved s s', .linked c s']) := by
  have hopen : L.us_socket_is_closed s = some false := by
    rw [h.is_closed_iff hx]
    simp [h.not_mem_closed hs]
  obtain ⟨hmoved, -⟩ := h.adopting hx hctx hs hctx' hs'
  have hresize : (L.unlinked x.context s ctx).us_poll_resize s s'
      = some ((L.unlinked x.context s ctx).resized s s' x) :=
    (poll_resize_eq (L := L.unlinked x.context s ctx) hx s').trans (if_pos hindex)
  have hlink := us_loop.link_eq (L := (L.unlinked x.context s ctx).resized s s' x) (c := c)
    (s := s') (x := x) (Function.update_self _ _ _) hctx' (by
      intro a ha
      have hl := hmoved.sockets c ctx' hctx'
      refine hmoved.live_of_mem (c := c) ?_
      exact List.mem_of_head? (hl.head_eq.symm.trans ha))
  simp only [us_socket_context_adopt_socket, hopen, hx, h.unlink_eq hx hctx hs, hresize,
    Option.bind_eq_bind, Option.bind_some, Bool.false_eq_true, if_false, hlink]
  rfl

/-- The entry of `ready_events` is read where there is none. -/
theorem adopt_eq_none (h : Good A L q) (hx : L.sockets s = some x)
    (hctx : L.contexts x.context = some ctx) (hs : s ∈ A.sockets x.context)
    (hindex : ¬ L.Indexed) : L.us_socket_context_adopt_socket c s s' = none := by
  have hopen : L.us_socket_is_closed s = some false := by
    rw [h.is_closed_iff hx]
    simp [h.not_mem_closed hs]
  have hresize : (L.unlinked x.context s ctx).us_poll_resize s s' = none :=
    (poll_resize_eq (L := L.unlinked x.context s ctx) hx s').trans (if_neg hindex)
  simp [us_socket_context_adopt_socket, hopen, hx, h.unlink_eq hx hctx hs, hresize]

theorem adopt_eq_closed (h : Good A L q) (hx : L.sockets s = some x) (hs : s ∈ A.closed) :
    L.us_socket_context_adopt_socket c s s' = some (L, []) := by
  simp [us_socket_context_adopt_socket, h.is_closed_iff hx, hs]

end Good

end TestExamples.USockets
