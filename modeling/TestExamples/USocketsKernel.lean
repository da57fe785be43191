/-
TestExamples/USocketsKernel.lean

What the loop shares with the kernel: the interest list and the events reported.

The pointers the kernel hands back and those still waiting in `ready_events` are
not counted in any list, so the loop is only as safe as its callers are careful.
`Careful` is what has to be kept to:

* a listen socket is not closed while an event of the same batch is waiting for it
  or being dispatched, since its block is freed at once;
* a socket that polls for nothing is not moved to another address, since
  `us_poll_resize` then leaves the old pointer with the kernel, nor one whose block
  lies where the poll being dispatched has been moved away from;
* between two batches, `pre_cb` and `post_cb` move no socket where `fd_iterator` is no
  index of `ready_events`: before `us_loop_run` has set it, and after a batch of 1024;
* a descriptor handed out is not one for which an event is still waiting, behind the
  one being dispatched;
* a socket is not written to or shut down before it is open, since
  `us_internal_dispatch_ready_poll` tells a connecting socket by its events.

`safe_of_run`: then no step touches memory that is not there, and the kernel polls
for exactly the open sockets.  In a callback of a dispatch `fd_iterator` is always an
index (`indexed_of_run`).
-/
import TestExamples.USocketsOrder

namespace TestExamples.USockets

open us_loop

variable {A : Lists} {L L' : us_loop} {q : Ptr} {es : List Event} {call : Api} {s s' : Addr}
  {x y : us_socket} {rs : List Ready}

/-! ### The condition -/

/-- No event behind the one being dispatched is waiting for the descriptor. -/
def Unpending (L : us_loop) (fd : Fd) : Prop :=
  ∀ r ∈ L.ready_events.tail, ∀ p ∈ r.ptr, ∀ x ∈ L.sockets p, x.p.fd ≠ fd

instance (L : us_loop) (fd : Fd) : Decidable (Unpending L fd) :=
  inferInstanceAs (Decidable
    (∀ r ∈ L.ready_events.tail, ∀ p ∈ r.ptr, ∀ x ∈ L.sockets p, x.p.fd ≠ fd))

/-- The socket can be moved from `s` to `s'`. -/
def Movable (L : us_loop) (s s' : Addr) : Prop :=
  s' = s ∨ (∀ x ∈ L.sockets s, us_poll_events x.p ≠ ⟨false, false⟩) ∧
    (L.ready_events.head?.bind Ready.ptr = some s →
      some s ∉ L.ready_events.tail.map Ready.ptr)

instance (L : us_loop) (s s' : Addr) : Decidable (Movable L s s') :=
  inferInstanceAs (Decidable (_ ∨ _))

/-- The socket has been opened. -/
def IsOpened (L : us_loop) (s : Addr) : Prop :=
  ∀ x ∈ L.sockets s, us_internal_poll_type x.p ≠ POLL_TYPE_SEMI_SOCKET

instance (L : us_loop) (s : Addr) : Decidable (IsOpened L s) :=
  inferInstanceAs (Decidable (∀ x ∈ L.sockets s, _))

/-- What callers and the system keep to. -/
def Careful (σ : State) : Label → Prop
  | .api (.listen _ _ fd) => Unpending σ.loop fd
  | .api (.connect _ _ fd) => Unpending σ.loop fd
  | .api (.listen_socket_close s) => some s ∉ σ.loop.ready_events.map Ready.ptr
  | .api (.adopt_socket _ s s') => Movable σ.loop s s' ∧ (σ.pc = .idle → σ.loop.Indexed)
  | .api (.write s _ _) => IsOpened σ.loop s
  | .api (.shutdown s) => IsOpened σ.loop s
  | .next accepted => ∀ p ∈ accepted, Unpending σ.loop p.2
  | .ret accepted => ∀ p ∈ accepted, Unpending σ.loop p.2
  | _ => True

instance (σ : State) : (a : Label) → Decidable (Careful σ a)
  | .api (.listen _ _ fd) => inferInstanceAs (Decidable (Unpending σ.loop fd))
  | .api (.connect _ _ fd) => inferInstanceAs (Decidable (Unpending σ.loop fd))
  | .api (.listen_socket_close _) => inferInstanceAs (Decidable (¬ _))
  | .api (.adopt_socket _ s s') =>
      inferInstanceAs (Decidable (Movable σ.loop s s' ∧ (σ.pc = .idle → σ.loop.Indexed)))
  | .api (.write s _ _) => inferInstanceAs (Decidable (IsOpened σ.loop s))
  | .api (.shutdown s) => inferInstanceAs (Decidable (IsOpened σ.loop s))
  | .next accepted => inferInstanceAs (Decidable (∀ p ∈ accepted, Unpending σ.loop p.2))
  | .ret accepted => inferInstanceAs (Decidable (∀ p ∈ accepted, Unpending σ.loop p.2))
  | .api (.create_socket_context _) => inferInstanceAs (Decidable True)
  | .api (.close _) => inferInstanceAs (Decidable True)
  | .api (.timeout _ _) => inferInstanceAs (Decidable True)
  | .epoll_wait _ => inferInstanceAs (Decidable True)
  | .recv _ => inferInstanceAs (Decidable True)
  | .sweep => inferInstanceAs (Decidable True)
  | .free => inferInstanceAs (Decidable True)

/-! ### The interest list -/

/-- The kernel polls for each open socket, under its address, and for nothing
else; a socket that is connecting polls for `WRITABLE` alone. -/
structure Kernel (A : Lists) (L : us_loop) : Prop where
  registered : ∀ fd events s, L.epoll fd = some (events, s) →
    s ∉ A.closed ∧ ∃ x, L.sockets s = some x ∧ x.p.fd = fd ∧ us_poll_events x.p = events
  polled : ∀ s x, L.sockets s = some x → s ∉ A.closed →
    L.epoll x.p.fd = some (us_poll_events x.p, s)
  connecting : ∀ s x, L.sockets s = some x →
    us_internal_poll_type x.p = POLL_TYPE_SEMI_SOCKET → x.listen = false →
    us_poll_events x.p = LIBUS_SOCKET_WRITABLE

/-- The pointers of the events still to be dispatched: each once, each to a block
that is there, and the descriptor of a closed one not in use again. -/
structure Pending (A : Lists) (L : us_loop) (rs : List Ready) : Prop where
  nodup : (rs.filterMap Ready.ptr).Nodup
  live : ∀ p ∈ rs.filterMap Ready.ptr,
    ∃ x, L.sockets p = some x ∧ (p ∈ A.closed → L.epoll x.p.fd = none)

theorem epoll_ctl_mod_none {epoll : Fd → Option (Events × Addr)} {fd fd' : Fd}
    {event : Events × Addr} (h : epoll fd' = none) : epoll_ctl_mod epoll fd event fd' = none := by
  unfold epoll_ctl_mod
  rcases he : epoll fd with - | v
  · exact h
  · have hne : fd' ≠ fd := by
      rintro rfl
      rw [h] at he
      cases he
    exact (Function.update_of_ne hne _ _).trans h

theorem epoll_ctl_mod_some {epoll : Fd → Option (Events × Addr)} {fd : Fd} {v : Events × Addr}
    (h : epoll fd = some v) (event : Events × Addr) :
    epoll_ctl_mod epoll fd event = Function.update epoll fd (some event) := by
  unfold epoll_ctl_mod
  rw [h]

theorem epoll_ctl_mod_of_none {epoll : Fd → Option (Events × Addr)} {fd : Fd}
    (h : epoll fd = none) (event : Events × Addr) : epoll_ctl_mod epoll fd event = epoll := by
  unfold epoll_ctl_mod
  rw [h]

/-- The record of a socket is written, and the kernel told of its events where
they change. -/
structure Rewrites (L : us_loop) (s : Addr) (x y : us_socket) (L' : us_loop) : Prop where
  old : L.sockets s = some x
  fd : y.p.fd = x.p.fd
  sockets : L'.sockets = Function.update L.sockets s (some y)
  epoll : L'.epoll = if us_poll_events x.p = us_poll_events y.p then L.epoll
    else epoll_ctl_mod L.epoll x.p.fd (us_poll_events y.p, s)

theorem Rewrites.epoll_none (h : Rewrites L s x y L') {fd : Fd} (hfd : L.epoll fd = none) :
    L'.epoll fd = none := by
  rw [h.epoll]
  split
  · exact hfd
  · exact epoll_ctl_mod_none hfd

theorem Rewrites.changed (hx : L.sockets s = some x) (events : Events) :
    Rewrites L s x { x with p := x.p.withEvents events } (L.changed s x events) :=
  ⟨hx, rfl, rfl, by simp [us_loop.changed]⟩

/-- Descriptors tell open sockets apart. -/
theorem Kernel.fd_inj (h : Kernel A L) (hx : L.sockets s = some x) (hs : s ∉ A.closed)
    (hy : L.sockets s' = some y) (hs' : s' ∉ A.closed) (hfd : x.p.fd = y.p.fd) : s = s' := by
  have hpx := h.polled s x hx hs
  rw [hfd, h.polled s' y hy hs'] at hpx
  exact (Prod.mk.inj (Option.some.inj hpx)).2.symm

theorem Kernel.rewrite (h : Kernel A L) (hr : Rewrites L s x y L')
    (hs : s ∉ A.closed ∨ L.epoll x.p.fd = none ∨ us_poll_events x.p = us_poll_events y.p)
    (hsemi : us_internal_poll_type y.p = POLL_TYPE_SEMI_SOCKET → y.listen = false →
      us_poll_events y.p = LIBUS_SOCKET_WRITABLE) : Kernel A L' := by
  have hself : L'.sockets s = some y := by rw [hr.sockets, Function.update_self]
  have hother : ∀ t, t ≠ s → L'.sockets t = L.sockets t := fun t ht => by
    rw [hr.sockets, Function.update_of_ne ht]
  -- the entry of the descriptor after the change
  have hepoll : L'.epoll = L.epoll ∧ us_poll_events x.p = us_poll_events y.p ∨
      L'.epoll = L.epoll ∧ L.epoll x.p.fd = none ∨
      s ∉ A.closed ∧
        L'.epoll = Function.update L.epoll x.p.fd (some (us_poll_events y.p, s)) := by
    rw [hr.epoll]
    by_cases he : us_poll_events x.p = us_poll_events y.p
    · exact Or.inl ⟨if_pos he, he⟩
    · rw [if_neg he]
      rcases hn : L.epoll x.p.fd with - | v
      · exact Or.inr (Or.inl ⟨epoll_ctl_mod_of_none hn _, rfl⟩)
      · refine Or.inr (Or.inr ⟨?_, epoll_ctl_mod_some hn _⟩)
        rcases hs with hs | hs | hs
        · exact hs
        · rw [hn] at hs
          cases hs
        · exact absurd hs he
  constructor
  case registered =>
    intro fd events t ht
    rcases hepoll with ⟨he, hev⟩ | ⟨he, hnone⟩ | ⟨hopen, he⟩ <;> rw [he] at ht
    · obtain ⟨hcl, z, hz, hfd, hz'⟩ := h.registered fd events t ht
      refine ⟨hcl, ?_⟩
      rcases eq_or_ne t s with rfl | hne
      · obtain rfl : x = z := Option.some.inj (hr.old.symm.trans hz)
        exact ⟨y, hself, hr.fd.trans hfd, hev ▸ hz'⟩
      · exact ⟨z, (hother t hne).trans hz, hfd, hz'⟩
    · obtain ⟨hcl, z, hz, hfd, hz'⟩ := h.registered fd events t ht
      refine ⟨hcl, ?_⟩
      have hne : t ≠ s := by
        rintro rfl
        obtain rfl : x = z := Option.some.inj (hr.old.symm.trans hz)
        rw [hfd, ht] at hnone
        cases hnone
      exact ⟨z, (hother t hne).trans hz, hfd, hz'⟩
    · rcases update_eq ht with ⟨rfl, hv⟩ | ⟨hne, ht⟩
      · obtain ⟨rfl, rfl⟩ := Prod.mk.inj (Option.some.inj hv)
        exact ⟨hopen, y, hself, hr.fd, rfl⟩
      · obtain ⟨hcl, z, hz, hfd, hz'⟩ := h.registered fd events t ht
        have hts : t ≠ s := by
          rintro rfl
          obtain rfl : x = z := Option.some.inj (hr.old.symm.trans hz)
          exact hne hfd.symm
        exact ⟨hcl, z, (hother t hts).trans hz, hfd, hz'⟩
  case polled =>
    intro t z hz hcl
    rcases eq_or_ne t s with rfl | hne
    · obtain rfl : y = z := Option.some.inj (hself.symm.trans hz)
      have hold := h.polled t x hr.old hcl
      rcases hepoll with ⟨he, hev⟩ | ⟨he, hnone⟩ | ⟨hopen, he⟩
      · rw [he, hr.fd, hold, hev]
      · rw [hnone] at hold
        cases hold
      · rw [he, hr.fd, Function.update_self]
    · rw [hother t hne] at hz
      have hold := h.polled t z hz hcl
      rcases hepoll with ⟨he, hev⟩ | ⟨he, hnone⟩ | ⟨hopen, he⟩
      · rw [he, hold]
      · rw [he, hold]
      · have hfd : z.p.fd ≠ x.p.fd := fun hfd => hne (h.fd_inj hz hcl hr.old hopen hfd)
        rw [he, Function.update_of_ne hfd, hold]
  case connecting =>
    intro t z hz htype hlisten
    rcases eq_or_ne t s with rfl | hne
    · obtain rfl : y = z := Option.some.inj (hself.symm.trans hz)
      exact hsemi htype hlisten
    · rw [hother t hne] at hz
      exact h.connecting t z hz htype hlisten

theorem Pending.rewrite (h : Pending A L rs) (hr : Rewrites L s x y L') : Pending A L' rs := by
  refine ⟨h.nodup, fun p hp => ?_⟩
  obtain ⟨z, hz, hcl⟩ := h.live p hp
  rcases eq_or_ne p s with rfl | hne
  · obtain rfl : x = z := Option.some.inj (hr.old.symm.trans hz)
    refine ⟨y, by rw [hr.sockets, Function.update_self], fun hm => ?_⟩
    rw [hr.fd]
    exact hr.epoll_none (hcl hm)
  · refine ⟨z, by rw [hr.sockets, Function.update_of_ne hne, hz], fun hm => ?_⟩
    exact hr.epoll_none (hcl hm)

/-- A new block, under a descriptor that has not been in use. -/
theorem Kernel.opened (h : Kernel A L) (hcl : s ∉ A.closed) (hs : L.sockets s = none)
    (hfd : L.epoll x.p.fd = none) {events : Events}
    (hsemi : us_internal_poll_type x.p = POLL_TYPE_SEMI_SOCKET → x.listen = false →
      events = LIBUS_SOCKET_WRITABLE)
    (ctx : us_socket_context) : Kernel A (L.opened s x events ctx) := by
  have hsockets : (L.opened s x events ctx).sockets = Function.update L.sockets s
      (some { x with p := x.p.withEvents events, context := x.context, timeout := 0 }) :=
    Function.update_idem _ _ _
  have hself : (L.opened s x events ctx).sockets s
      = some { x with p := x.p.withEvents events, context := x.context, timeout := 0 } := by
    rw [hsockets, Function.update_self]
  have hother : ∀ t, t ≠ s → (L.opened s x events ctx).sockets t = L.sockets t := fun t ht => by
    rw [hsockets, Function.update_of_ne ht]
  have hlive : ∀ {t z}, L.sockets t = some z → t ≠ s := by
    rintro t z hz rfl
    rw [hs] at hz
    cases hz
  constructor
  case registered =>
    intro fd ev t ht
    rcases update_eq ht with ⟨rfl, hv⟩ | ⟨-, ht⟩
    · obtain ⟨rfl, rfl⟩ := Prod.mk.inj (Option.some.inj hv)
      exact ⟨hcl, _, hself, rfl, poll_events_withEvents _ _⟩
    · obtain ⟨hopen, z, hz, hzfd, hz'⟩ := h.registered fd ev t ht
      exact ⟨hopen, z, (hother t (hlive hz)).trans hz, hzfd, hz'⟩
  case polled =>
    intro t z hz hopen
    show Function.update L.epoll x.p.fd (some (events, s)) z.p.fd = _
    rcases eq_or_ne t s with rfl | hne
    · obtain rfl := Option.some.inj (hself.symm.trans hz)
      rw [poll_events_withEvents]
      exact Function.update_self _ _ _
    · rw [hother t hne] at hz
      have hold := h.polled t z hz hopen
      have hzfd : z.p.fd ≠ x.p.fd := by
        intro he
        rw [he, hfd] at hold
        cases hold
      rw [Function.update_of_ne hzfd, hold]
  case connecting =>
    intro t z hz htype hlisten
    rcases eq_or_ne t s with rfl | hne
    · obtain rfl := Option.some.inj (hself.symm.trans hz)
      rw [poll_events_withEvents]
      rw [poll_type_withEvents] at htype
      exact hsemi htype hlisten
    · rw [hother t hne] at hz
      exact h.connecting t z hz htype hlisten

theorem Pending.opened (h : Pending A L rs) (hs : L.sockets s = none)
    (hfd : ∀ p ∈ rs.filterMap Ready.ptr, ∀ z, L.sockets p = some z → z.p.fd ≠ x.p.fd)
    (events : Events) (ctx : us_socket_context) : Pending A (L.opened s x events ctx) rs := by
  refine ⟨h.nodup, fun p hp => ?_⟩
  obtain ⟨z, hz, hcl⟩ := h.live p hp
  have hne : p ≠ s := by
    rintro rfl
    rw [hs] at hz
    cases hz
  refine ⟨z, ?_, fun hm => ?_⟩
  · simp [us_loop.opened, us_loop.linked, us_create_poll, setSocket, hne, hz]
  · show Function.update L.epoll x.p.fd (some (events, s)) z.p.fd = none
    rw [Function.update_of_ne (hfd p hp z hz)]
    exact hcl hm

/-- An open socket goes out of the interest list when it is closed. -/
theorem Kernel.closing (h : Kernel A L) (hx : L.sockets s = some x) (hs : s ∉ A.closed)
    (ctx : us_socket_context) (es : List Event) (hes : (A.applyAll es).closed = s :: A.closed) :
    Kernel (A.applyAll es) (L.closing s x ctx) := by
  constructor
  case registered =>
    intro fd ev t ht
    rcases update_eq ht with ⟨-, hv⟩ | ⟨hne, ht⟩
    · cases hv
    · obtain ⟨hopen, z, hz, hzfd, hz'⟩ := h.registered fd ev t ht
      have hts : t ≠ s := by
        rintro rfl
        obtain rfl : x = z := Option.some.inj (hx.symm.trans hz)
        exact hne hzfd.symm
      rw [hes]
      exact ⟨by simp [hts, hopen], z, hz, hzfd, hz'⟩
  case polled =>
    intro t z hz hopen
    rw [hes] at hopen
    have hts : t ≠ s := fun he => hopen (by simp [he])
    have hopen : t ∉ A.closed := fun hm => hopen (List.mem_cons_of_mem s hm)
    have hzfd : z.p.fd ≠ x.p.fd := fun he => hts (h.fd_inj hz hopen hx hs he)
    exact (Function.update_of_ne hzfd _ _).trans (h.polled t z hz hopen)
  case connecting => exact h.connecting

theorem Pending.closing (h : Pending A L rs) (hx : L.sockets s = some x)
    (ctx : us_socket_context) (es : List Event) (hes : (A.applyAll es).closed = s :: A.closed) :
    Pending (A.applyAll es) (L.closing s x ctx) rs := by
  refine ⟨h.nodup, fun p hp => ?_⟩
  obtain ⟨z, hz, hcl⟩ := h.live p hp
  refine ⟨z, hz, fun hm => ?_⟩
  show Function.update L.epoll x.p.fd none z.p.fd = none
  rw [hes] at hm
  by_cases hfd : z.p.fd = x.p.fd
  · rw [hfd, Function.update_self]
  · rw [Function.update_of_ne hfd]
    rcases List.mem_cons.mp hm with rfl | hm
    · obtain rfl : x = z := Option.some.inj (hx.symm.trans hz)
      exact absurd rfl hfd
    · exact hcl hm

/-- So does a listen socket, which is freed with that. -/
theorem Kernel.listenClosing (h : Kernel A L) (hx : L.sockets s = some x) (hs : s ∉ A.closed)
    (ctx : us_socket_context) (es : List Event) (hes : (A.applyAll es).closed = A.closed) :
    Kernel (A.applyAll es) (L.listenClosing s x ctx) := by
  constructor
  case registered =>
    intro fd ev t ht
    rcases update_eq ht with ⟨-, hv⟩ | ⟨hne, ht⟩
    · cases hv
    · obtain ⟨hopen, z, hz, hzfd, hz'⟩ := h.registered fd ev t ht
      have hts : t ≠ s := by
        rintro rfl
        obtain rfl : x = z := Option.some.inj (hx.symm.trans hz)
        exact hne hzfd.symm
      rw [hes]
      exact ⟨hopen, z, (Function.update_of_ne hts _ _).trans hz, hzfd, hz'⟩
  case polled =>
    intro t z hz hopen
    rw [hes] at hopen
    obtain ⟨hts, hz⟩ := of_update_none hz
    have hzfd : z.p.fd ≠ x.p.fd := fun he => hts (h.fd_inj hz hopen hx hs he)
    exact (Function.update_of_ne hzfd _ _).trans (h.polled t z hz hopen)
  case connecting =>
    intro t z hz htype hlisten
    exact h.connecting t z (of_update_none hz).2 htype hlisten

theorem Pending.listenClosing (h : Pending A L rs) (hs : s ∉ rs.filterMap Ready.ptr)
    (ctx : us_socket_context) (es : List Event) (hes : (A.applyAll es).closed = A.closed) :
    Pending (A.applyAll es) (L.listenClosing s x ctx) rs := by
  refine ⟨h.nodup, fun p hp => ?_⟩
  obtain ⟨z, hz, hcl⟩ := h.live p hp
  have hne : p ≠ s := ne_of_mem_of_not_mem hp hs
  refine ⟨z, (Function.update_of_ne hne _ _).trans hz, fun hm => ?_⟩
  rw [hes] at hm
  show Function.update L.epoll x.p.fd none z.p.fd = none
  by_cases hfd : z.p.fd = x.p.fd
  · rw [hfd, Function.update_self]
  · rw [Function.update_of_ne hfd]
    exact hcl hm

/-- A socket that is moved is known to the kernel by its new address, if it polls
for anything. -/
theorem Kernel.adopting (h : Kernel A L) (hx : L.sockets s = some x) (hs : s ∉ A.closed)
    (hs' : s' = s ∨ L.sockets s' = none)
    (hmove : s' = s ∨ us_poll_events x.p ≠ ⟨false, false⟩) (hcl : s' ∉ A.closed) (c : Addr)
    (ctx ctx' : us_socket_context) (es : List Event)
    (hes : (A.applyAll es).closed = A.closed) :
    Kernel (A.applyAll es) (L.adopting c s s' x ctx ctx') := by
  have hold := h.polled s x hx hs
  have hsockets : (L.adopting c s s' x ctx ctx').sockets
      = Function.update (Function.update L.sockets s none) s'
        (some { x with context := c, timeout := 0 }) := Function.update_idem _ _ _
  have hself : (L.adopting c s s' x ctx ctx').sockets s'
      = some { x with context := c, timeout := 0 } := by
    rw [hsockets, Function.update_self]
  have hother : ∀ t, t ≠ s → t ≠ s' → (L.adopting c s s' x ctx ctx').sockets t = L.sockets t :=
    fun t hts hts' => by rw [hsockets, Function.update_of_ne hts', Function.update_of_ne hts]
  have hepoll : (L.adopting c s s' x ctx ctx').epoll
      = Function.update L.epoll x.p.fd (some (us_poll_events x.p, s')) := by
    show (if s ≠ s' ∧ us_poll_events x.p ≠ ⟨false, false⟩ then
      epoll_ctl_mod L.epoll x.p.fd (us_poll_events x.p, s') else L.epoll) = _
    rcases eq_or_ne s s' with rfl | hne
    · rw [if_neg (by simp), ← hold, Function.update_eq_self]
    · rw [if_pos ⟨hne, hmove.resolve_left hne.symm⟩, epoll_ctl_mod_some hold]
  have hlive : ∀ {t z}, L.sockets t = some z → t ≠ s → t ≠ s' := by
    rintro t z hz hne rfl
    rcases hs' with rfl | hdead
    · exact hne rfl
    · rw [hdead] at hz
      cases hz
  constructor
  case registered =>
    intro fd ev t ht
    rw [hes]
    rw [hepoll] at ht
    rcases update_eq ht with ⟨rfl, hv⟩ | ⟨hne, ht⟩
    · obtain ⟨rfl, rfl⟩ := Prod.mk.inj (Option.some.inj hv)
      exact ⟨hcl, _, hself, rfl, rfl⟩
    · obtain ⟨hopen, z, hz, hzfd, hz'⟩ := h.registered fd ev t ht
      have hts : t ≠ s := by
        rintro rfl
        obtain rfl : x = z := Option.some.inj (hx.symm.trans hz)
        exact hne hzfd.symm
      exact ⟨hopen, z, (hother t hts (hlive hz hts)).trans hz, hzfd, hz'⟩
  case polled =>
    intro t z hz hopen
    rw [hes] at hopen
    rw [hepoll]
    rcases eq_or_ne t s' with rfl | hts'
    · obtain rfl := Option.some.inj (hself.symm.trans hz)
      exact Function.update_self _ _ _
    · rw [hsockets, Function.update_of_ne hts'] at hz
      obtain ⟨hts, hz⟩ := of_update_none hz
      have hzfd : z.p.fd ≠ x.p.fd := fun he => hts (h.fd_inj hz hopen hx hs he)
      rw [Function.update_of_ne hzfd]
      exact h.polled t z hz hopen
  case connecting =>
    intro t z hz htype hlisten
    rcases eq_or_ne t s' with rfl | hts'
    · obtain rfl := Option.some.inj (hself.symm.trans hz)
      exact h.connecting s x hx htype hlisten
    · rw [hsockets, Function.update_of_ne hts'] at hz
      exact h.connecting t z (of_update_none hz).2 htype hlisten

/-- `replacePtr` on the pointers. -/
theorem ptrs_replacePtr (hnd : (rs.filterMap Ready.ptr).Nodup) :
    (replacePtr s s' rs).filterMap Ready.ptr
      = (rs.filterMap Ready.ptr).map fun p => if p = s then s' else p := by
  induction rs with
  | nil => rfl
  | cons r rs ih =>
      cases r with
      | timer => exact ih hnd
      | async => exact ih hnd
      | socket p error events =>
          obtain ⟨hp, hnd⟩ := List.nodup_cons.mp (show (p :: rs.filterMap Ready.ptr).Nodup from hnd)
          by_cases he : p = s
          · have hrest : (rs.filterMap Ready.ptr).map (fun p => if p = s then s' else p)
                = rs.filterMap Ready.ptr := by
              refine (List.map_congr_left fun t ht => ?_).trans (List.map_id _)
              exact if_neg (he ▸ ne_of_mem_of_not_mem ht hp)
            have hreplace : replacePtr s s' (.socket p error events :: rs)
                = .socket s' error events :: rs := if_pos he
            rw [hreplace]
            show s' :: rs.filterMap Ready.ptr = (if p = s then s' else p) :: _
            rw [hrest, if_pos he]
          · have hreplace : replacePtr s s' (.socket p error events :: rs)
                = .socket p error events :: replacePtr s s' rs := if_neg he
            rw [hreplace]
            show p :: (replacePtr s s' rs).filterMap Ready.ptr = (if p = s then s' else p) :: _
            rw [ih hnd, if_neg he]

theorem replacePtr_of_not_mem (h : some s ∉ rs.map Ready.ptr) : replacePtr s s' rs = rs := by
  induction rs with
  | nil => rfl
  | cons r rs ih =>
      obtain ⟨hr, hrs⟩ : some s ≠ r.ptr ∧ some s ∉ rs.map Ready.ptr := by
        simpa only [List.map_cons, List.mem_cons, not_or] using h
      cases r with
      | timer => exact congrArg _ (ih hrs)
      | async => exact congrArg _ (ih hrs)
      | socket p error events =>
          have hne : p ≠ s := fun he => hr (congrArg some he.symm)
          have hcons : replacePtr s s' (.socket p error events :: rs)
              = .socket p error events :: replacePtr s s' rs := if_neg hne
          rw [hcons, ih hrs]

theorem replacePtr_self (s : Addr) (rs : List Ready) : replacePtr s s rs = rs := by
  induction rs with
  | nil => rfl
  | cons r rs ih =>
      cases r with
      | timer => exact congrArg _ ih
      | async => exact congrArg _ ih
      | socket p error events =>
          unfold replacePtr
          split
          · next he => rw [he]
          · rw [ih]

/-- The events that are waiting follow the block that is moved. -/
theorem Pending.adopting (h : Pending A L rs) (hk : Kernel A L) (hx : L.sockets s = some x)
    (hs : s ∉ A.closed) (hs' : s' = s ∨ L.sockets s' = none) (hcl : s' ∉ A.closed) (c : Addr)
    (ctx ctx' : us_socket_context) (es : List Event)
    (hes : (A.applyAll es).closed = A.closed) :
    Pending (A.applyAll es) (L.adopting c s s' x ctx ctx') (replacePtr s s' rs) := by
  have hold := hk.polled s x hx hs
  have hne : ∀ p ∈ rs.filterMap Ready.ptr, p ≠ s → p ≠ s' := by
    rintro p hp hps rfl
    obtain ⟨z, hz, -⟩ := h.live p hp
    rcases hs' with rfl | hdead
    · exact hps rfl
    · rw [hdead] at hz
      cases hz
  refine ⟨?_, ?_⟩ <;> rw [ptrs_replacePtr h.nodup]
  · refine h.nodup.map_on fun p hp p' hp' he => ?_
    by_cases hps : p = s <;> by_cases hps' : p' = s
    · rw [hps, hps']
    · rw [if_pos hps, if_neg hps'] at he
      exact absurd he.symm (hne p' hp' hps')
    · rw [if_neg hps, if_pos hps'] at he
      exact absurd he (hne p hp hps)
    · rwa [if_neg hps, if_neg hps'] at he
  · intro t ht
    obtain ⟨p, hp, rfl⟩ := List.mem_map.mp ht
    rw [hes]
    by_cases hps : p = s
    · rw [if_pos hps]
      exact ⟨{ x with context := c, timeout := 0 }, Function.update_self _ _ _,
        fun hm => absurd hm hcl⟩
    · rw [if_neg hps]
      obtain ⟨z, hz, hclosed⟩ := h.live p hp
      have hsockets : (L.adopting c s s' x ctx ctx').sockets p = L.sockets p := by
        simp [us_loop.adopting, us_loop.linked, resized, us_loop.unlinked, hps, hne p hp hps]
      refine ⟨z, hsockets.trans hz, fun hm => ?_⟩
      show (if s ≠ s' ∧ us_poll_events x.p ≠ ⟨false, false⟩ then
        epoll_ctl_mod L.epoll x.p.fd (us_poll_events x.p, s') else L.epoll) z.p.fd = none
      split
      · exact epoll_ctl_mod_none (hclosed hm)
      · exact hclosed hm

/-! ### Calls -/

/-- The events still to be dispatched; the one in front is being dispatched. -/
def State.pending (σ : State) : List Ready :=
  match σ.pc with
  | .dispatch => σ.loop.ready_events
  | _ => σ.loop.ready_events.tail

/-- The loop and the kernel agree. -/
structure Watched (A : Lists) (σ : State) : Prop where
  kernel : Kernel A σ.loop
  pending : Pending A σ.loop σ.pending
  accept : ∀ l, σ.pc = .callback (.accept l) →
    (σ.loop.sockets l).any (·.listen) = true ∧
      σ.loop.ready_events.head?.bind Ready.ptr = some l
  receive : ∀ s readable, σ.pc = .receive s readable → s ∈ A.closed →
    ∀ x, σ.loop.sockets s = some x → σ.loop.epoll x.p.fd = none
  drained : ∀ s, σ.pc = .free s → σ.loop.ready_events = []

/-- The pointers waiting are in `ready_events`. -/
theorem mem_ptrs_tail {p : Addr} (h : p ∈ L.ready_events.tail.filterMap Ready.ptr) :
    some p ∈ L.ready_events.map Ready.ptr := by
  obtain ⟨r, hr, hp⟩ := List.mem_filterMap.mp h
  exact List.mem_map.mpr ⟨r, List.mem_of_mem_tail hr, hp⟩

theorem Unpending.ne {fd : Fd} (h : Unpending L fd) {p : Addr} {z : us_socket}
    (hp : p ∈ L.ready_events.tail.filterMap Ready.ptr) (hz : L.sockets p = some z) :
    z.p.fd ≠ fd := by
  obtain ⟨r, hr, he⟩ := List.mem_filterMap.mp hp
  exact h r hr p he z hz

/-- What opens a socket does so under the descriptor it is given. -/
theorem Api.opens.spec {events : Events} {σ : State} (h : Api.opens s x events call)
    (hcare : Careful σ (.api call)) :
    Unpending σ.loop x.p.fd ∧
      (us_internal_poll_type x.p = POLL_TYPE_SEMI_SOCKET → x.listen = false →
        events = LIBUS_SOCKET_WRITABLE) := by
  rcases h with ⟨fd, rfl, hx, rfl⟩ | ⟨fd, rfl, hx, rfl⟩
  · refine ⟨?_, fun _ hl => ?_⟩
    · rw [hx]
      exact hcare
    · rw [hx] at hl
      cases hl
  · refine ⟨?_, fun _ _ => rfl⟩
    rw [hx]
    exact hcare

/-- A write and a shutdown are those of a socket that has been opened. -/
theorem Rewrites.shutdown (hx : L.sockets s = some x) :
    Rewrites L s x
      { x with
        p := (x.p.withType POLL_TYPE_SOCKET_SHUT_DOWN).withEvents
          ⟨(us_poll_events x.p).readable, false⟩ }
      ((L.setSocket s { x with p := x.p.withType POLL_TYPE_SOCKET_SHUT_DOWN }).changed s
        { x with p := x.p.withType POLL_TYPE_SOCKET_SHUT_DOWN }
        ⟨(us_poll_events x.p).readable, false⟩) := by
  have hevents : us_poll_events (x.p.withType POLL_TYPE_SOCKET_SHUT_DOWN) = us_poll_events x.p :=
    poll_events_withType x.p (Or.inr rfl)
  refine ⟨hx, rfl, Function.update_idem _ _ _, ?_⟩
  simp only [us_loop.changed, hevents, poll_events_withEvents]
  rfl

/-- The interest list and the events waiting, after a call. -/
theorem Called.watched {pc : Pc} (hg : Good A L q) (hk : Kernel A L)
    (hp : Pending A L L.ready_events.tail) (hcare : Careful ⟨L, pc⟩ (.api call))
    (hc : Called A L call es L') :
    Kernel (A.applyAll es) L' ∧ Pending (A.applyAll es) L' L'.ready_events.tail := by
  cases hc with
  | context hc =>
      exact ⟨⟨hk.registered, hk.polled, hk.connecting⟩, hp.nodup, hp.live⟩
  | @opened call s x events ctx hcall hctx hs hfd =>
      obtain ⟨hpend, hsemi⟩ := hcall.spec hcare
      have hcl := (hg.loose_of_dead hs.1).closed
      have hk' := hk.opened hcl hs.1 hfd hsemi ctx
      have hp' := hp.opened hs.1 (x := x)
        (fun p hm z hz => hpend.ne hm hz) events ctx
      exact ⟨⟨hk'.registered, hk'.polled, hk'.connecting⟩, hp'.nodup, hp'.live⟩
  | @listenClosed s x ctx hx hctx hs hlisten =>
      have hcl := hg.not_mem_closed hs
      have hes : (A.applyAll [.unlinked x.context s, .freed s]).closed = A.closed :=
        List.erase_of_not_mem hcl
      exact ⟨hk.listenClosing hx hcl ctx _ hes,
        hp.listenClosing (fun hm => hcare (mem_ptrs_tail hm)) ctx _ hes⟩
  | closed hx hctx hs hlisten =>
      exact ⟨hk.closing hx (hg.not_mem_closed hs) _ _ rfl, hp.closing hx _ _ rfl⟩
  | @adopted c s s' x ctx ctx' hx hctx hs hlisten hctx' hs' =>
      have hopen := hg.not_mem_closed hs
      have hcl : s' ∉ A.closed := by
        rcases hs' with rfl | hf
        · exact hopen
        · exact (hg.loose_of_dead hf.1).closed
      have hdead : s' = s ∨ L.sockets s' = none := hs'.imp_right And.left
      obtain ⟨hmove, -⟩ := hcare
      refine ⟨hk.adopting hx hopen hdead (hmove.imp_right fun h => h.1 x hx) hcl c ctx ctx' _ rfl,
        ?_⟩
      have hp' := hp.adopting hk hx hopen hdead hcl c ctx ctx'
        [.unlinked x.context s, .moved s s', .linked c s'] rfl
      show Pending _ _ (if (L.ready_events.head?.bind Ready.ptr) ≠ some s then
        replacePtr s s' L.ready_events else L.ready_events).tail
      split
      · next hhead =>
        rcases hr : L.ready_events with - | ⟨r, rest⟩
        · rw [hr] at hp'
          exact hp'
        · rw [hr] at hp' hhead
          have hcons : replacePtr s s' (r :: rest) = r :: replacePtr s s' rest := by
            cases r with
            | timer => rfl
            | async => rfl
            | socket p error events => exact if_neg (fun he => hhead (congrArg some he))
          rw [hcons]
          exact hp'
      · next hhead =>
        rcases hmove with rfl | ⟨-, htail⟩
        · rwa [replacePtr_self] at hp'
        · have hnot : some s ∉ L.ready_events.tail.map Ready.ptr := htail (not_not.mp hhead)
          rwa [replacePtr_of_not_mem hnot] at hp'
  | adoptedClosed hx hs => exact ⟨hk, hp⟩
  | nothing hcall => exact ⟨hk, hp⟩
  | @short_write s x _ _ hx hs hlisten hshut =>
      have hr : Rewrites L s x { x with p := x.p.withEvents ⟨true, true⟩ }
          (({ L with last_write_failed := true } : us_loop).changed s x ⟨true, true⟩) :=
        ⟨hx, rfl, rfl, by simp [us_loop.changed]⟩
      refine ⟨hk.rewrite hr (Or.inl (hg.not_mem_closed hs)) fun htype _ => ?_, hp.rewrite hr⟩
      rw [poll_type_withEvents] at htype
      exact absurd htype (hcare x hx)
  | @shutdown s x hx hs hlisten hshut =>
      have hr := Rewrites.shutdown hx
      refine ⟨hk.rewrite hr (Or.inl (hg.not_mem_closed hs)) fun htype _ => ?_, hp.rewrite hr⟩
      rw [poll_type_withEvents, poll_type_withType x.p (Or.inr rfl)] at htype
      exact absurd htype (by decide)
  | @timeout s x _ hx hlisten n =>
      have hr : Rewrites L s x { x with timeout := n } (L.setSocket s { x with timeout := n }) :=
        ⟨hx, rfl, rfl, by simp [setSocket]⟩
      exact ⟨hk.rewrite hr (Or.inr (Or.inr rfl)) (hk.connecting s x hx), hp.rewrite hr⟩

/-- The listen socket whose connections are being accepted. -/
theorem Called.accept {l : Addr} (hc : Called A L call es L')
    (hl : (L.sockets l).any (·.listen) = true) (hne : call ≠ .listen_socket_close l)
    (hhead : L.ready_events.head?.bind Ready.ptr = some l) :
    (L'.sockets l).any (·.listen) = true ∧
      L'.ready_events.head?.bind Ready.ptr = some l := by
  have hold : ∀ {t y}, L.sockets t = some y → y.listen = false → l ≠ t := by
    rintro t y hy hlisten rfl
    rw [hy] at hl
    simp [hlisten] at hl
  have hupdate : ∀ {t y}, l ≠ t →
      ((Function.update L.sockets t y) l).any (·.listen) = true := fun hlt => by
    rw [Function.update_of_ne hlt]
    exact hl
  cases hc with
  | context hc => exact ⟨hl, hhead⟩
  | @opened call s x events ctx hcall hctx hs hfd =>
      have hls : l ≠ s := by
        rintro rfl
        rw [hs.1] at hl
        cases hl
      refine ⟨?_, hhead⟩
      simpa [us_loop.opened, us_loop.linked, us_create_poll, setSocket, hls] using hl
  | @listenClosed s x ctx hx hctx hs hlisten =>
      have hls : l ≠ s := by
        rintro rfl
        exact hne rfl
      exact ⟨hupdate hls, hhead⟩
  | closed hx hctx hs hlisten => exact ⟨hl, hhead⟩
  | @adopted c s s' x ctx ctx' hx hctx hs hlisten hctx' hs' =>
      have hls := hold hx hlisten
      have hls' : l ≠ s' := by
        rintro rfl
        rcases hs' with rfl | hf
        · exact hls rfl
        · rw [hf.1] at hl
          cases hl
      refine ⟨?_, ?_⟩
      · simpa [us_loop.adopting, us_loop.linked, resized, us_loop.unlinked, hls, hls'] using hl
      · show (if (L.ready_events.head?.bind Ready.ptr) ≠ some s then
          replacePtr s s' L.ready_events else L.ready_events).head?.bind Ready.ptr = some l
        rw [if_pos (by rw [hhead]; exact fun he => hls (Option.some.inj he))]
        rcases hr : L.ready_events with - | ⟨r, rest⟩
        · rw [hr] at hhead
          cases hhead
        · rw [hr] at hhead
          cases r with
          | timer => cases hhead
          | async => cases hhead
          | socket p error events =>
              obtain rfl : p = l := Option.some.inj hhead
              have hcons : replacePtr s s' (.socket p error events :: rest)
                  = .socket p error events :: replacePtr s s' rest := if_neg hls
              rw [hcons]
              rfl
  | adoptedClosed hx hs => exact ⟨hl, hhead⟩
  | nothing hcall => exact ⟨hl, hhead⟩
  | short_write hx hs hlisten hshut => exact ⟨hupdate (hold hx hlisten), hhead⟩
  | shutdown hx hs hlisten hshut =>
      refine ⟨?_, hhead⟩
      simpa [us_loop.changed, setSocket, hold hx hlisten] using hl
  | timeout hx hlisten n => exact ⟨hupdate (hold hx hlisten), hhead⟩

theorem Watched.called {pc : Pc} (h : Watched A ⟨L, pc⟩) (ho : Ordered A ⟨L, pc⟩)
    (hpc : pc.user = true) (hcare : Careful ⟨L, pc⟩ (.api call)) (hc : Called A L call es L') :
    Watched (A.applyAll es) ⟨L', pc.move L call⟩ := by
  have huser : (pc.move L call).user = true := by
    unfold Pc.move
    split
    · split <;> rfl
    · exact hpc
  have htail : ∀ {L : us_loop} {pc : Pc}, pc.user = true →
      State.pending ⟨L, pc⟩ = L.ready_events.tail := by
    intro L pc hpc
    cases pc <;> first | rfl | cases hpc
  have hpend : Pending A L L.ready_events.tail := by
    rw [← htail hpc]
    exact h.pending
  obtain ⟨hk, hp⟩ := hc.watched ho.good h.kernel hpend hcare
  refine ⟨hk, ?_, fun l hl => ?_, fun s r hr => ?_, fun s hs => ?_⟩
  · rw [htail huser]
    exact hp
  · have hold : pc = .callback (.accept l) := by
      unfold Pc.move at hl
      split at hl
      · split at hl <;> cases hl
      · exact hl
    obtain ⟨hlisten, hhead⟩ := h.accept l hold
    refine hc.accept hlisten ?_ hhead
    rintro rfl
    refine hcare ?_
    rcases hr : L.ready_events with - | ⟨r, rest⟩
    · rw [show (State.mk L pc).loop.ready_events = [] from hr] at hhead
      cases hhead
    · rw [show (State.mk L pc).loop.ready_events = r :: rest from hr] at hhead
      exact List.mem_cons.mpr (Or.inl hhead.symm)
  · have hold := receive_of_move hr
    subst hold
    cases hpc
  · rw [show pc.move L call = .free s from hs] at huser
    cases huser

/-! ### Steps -/

theorem Pending.sublist (h : Pending A L rs) {rs' : List Ready} (hsub : rs'.Sublist rs) :
    Pending A L rs' :=
  ⟨h.nodup.sublist (hsub.filterMap _), fun p hp => h.live p ((hsub.filterMap _).subset hp)⟩

/-- What is being dispatched is no longer waiting. -/
theorem Pending.tail (h : Pending A L rs) : Pending A L rs.tail :=
  h.sublist (List.tail_sublist rs)

theorem Pending.mono (h : Pending A L rs) (hsockets : L'.sockets = L.sockets)
    (hepoll : L'.epoll = L.epoll) : Pending A L' rs :=
  ⟨h.nodup, fun p hp => by rw [hsockets, hepoll]; exact h.live p hp⟩

theorem Kernel.mono (h : Kernel A L) (hsockets : L'.sockets = L.sockets)
    (hepoll : L'.epoll = L.epoll) : Kernel A L' := by
  constructor
  case registered => rw [hsockets, hepoll]; exact h.registered
  case polled => rw [hsockets, hepoll]; exact h.polled
  case connecting => rw [hsockets]; exact h.connecting

/-- A pointer that is reported is that of a descriptor reported on. -/
theorem polled_of_mem {events : List Wait} (hrs : events.mapM (State.ready L) = some rs)
    {p : Addr} (hp : p ∈ rs.filterMap Ready.ptr) :
    ∃ fd error ev ev', .polled fd error ev ∈ events ∧ L.epoll fd = some (ev', p) := by
  induction events generalizing rs with
  | nil =>
      obtain rfl : [] = rs := by simpa using hrs
      cases hp
  | cons w events ih =>
      simp only [List.mapM_cons, Option.pure_def, Option.bind_eq_bind, Option.bind_eq_some_iff,
        Option.some.injEq] at hrs
      obtain ⟨r, hr, rs', hrs', rfl⟩ := hrs
      have hrest : p ∈ rs'.filterMap Ready.ptr →
          ∃ fd error ev ev', .polled fd error ev ∈ w :: events ∧ L.epoll fd = some (ev', p) := by
        intro hp'
        obtain ⟨fd, error, ev, ev', hm, he⟩ := ih hrs' hp'
        exact ⟨fd, error, ev, ev', List.mem_cons_of_mem w hm, he⟩
      cases w with
      | timer =>
          obtain rfl : Ready.timer = r := Option.some.inj hr
          exact hrest hp
      | async =>
          obtain rfl : Ready.async = r := Option.some.inj hr
          exact hrest hp
      | polled fd error ev =>
          obtain ⟨⟨ev', t⟩, he, rfl⟩ := Option.map_eq_some_iff.mp hr
          rcases List.mem_cons.mp (show p ∈ t :: rs'.filterMap Ready.ptr from hp) with rfl | hp'
          · exact ⟨fd, error, ev, ev', List.mem_cons_self, he⟩
          · exact hrest hp'

/-- What `epoll_wait` reports are sockets that are open, each once. -/
theorem Kernel.pending (h : Kernel A L) {events : List Wait}
    (hnodup : (events.map Wait.source).Nodup)
    (hrs : events.mapM (State.ready L) = some rs) : Pending A L rs := by
  constructor
  case live =>
    intro p hp
    obtain ⟨fd, error, ev, ev', -, he⟩ := polled_of_mem hrs hp
    obtain ⟨hcl, x, hx, -⟩ := h.registered fd ev' p he
    exact ⟨x, hx, fun hm => absurd hm hcl⟩
  case nodup =>
    induction events generalizing rs with
    | nil =>
        obtain rfl : [] = rs := by simpa using hrs
        exact List.nodup_nil
    | cons w events ih =>
        simp only [List.mapM_cons, Option.pure_def, Option.bind_eq_bind, Option.bind_eq_some_iff,
          Option.some.injEq] at hrs
        obtain ⟨r, hr, rs', hrs', rfl⟩ := hrs
        obtain ⟨hw, hrest⟩ := List.nodup_cons.mp hnodup
        cases w with
        | timer =>
            obtain rfl : Ready.timer = r := Option.some.inj hr
            have hnd := ih hrest hrs'
            exact hnd
        | async =>
            obtain rfl : Ready.async = r := Option.some.inj hr
            have hnd := ih hrest hrs'
            exact hnd
        | polled fd error ev =>
            obtain ⟨⟨ev', t⟩, he, rfl⟩ := Option.map_eq_some_iff.mp hr
            refine List.nodup_cons.mpr ⟨fun hp => ?_, ih hrest hrs'⟩
            -- the block has one descriptor
            obtain ⟨fd', error', ev₁, ev₂, hm, he'⟩ := polled_of_mem hrs' hp
            obtain ⟨-, x, hx, hfd, -⟩ := h.registered fd ev' t he
            obtain ⟨-, y, hy, hfd', -⟩ := h.registered fd' ev₂ t he'
            obtain rfl : x = y := Option.some.inj (hx.symm.trans hy)
            obtain rfl : fd = fd' := hfd.symm.trans hfd'
            exact hw (List.mem_map.mpr ⟨_, hm, rfl⟩)

/-- The sweep and the rest of the loop leave the kernel alone. -/
theorem Watched.mono {pc pc' : Pc} (h : Watched A ⟨L, pc⟩) {es : List Event}
    (hes : (A.applyAll es).closed = A.closed) (hsockets : L'.sockets = L.sockets)
    (hepoll : L'.epoll = L.epoll)
    (hpend : State.pending ⟨L', pc'⟩ = State.pending ⟨L, pc⟩ ∨
      State.pending ⟨L', pc'⟩ = (State.pending ⟨L, pc⟩).tail)
    (haccept : ∀ l, pc' ≠ .callback (.accept l))
    (hreceive : ∀ s readable, pc' = .receive s readable → s ∈ A.closed →
      ∀ x, L.sockets s = some x → L.epoll x.p.fd = none)
    (hfree : ∀ s, pc' = .free s → L'.ready_events = []) :
    Watched (A.applyAll es) ⟨L', pc'⟩ := by
  have hk := h.kernel.mono hsockets hepoll
  have hp : Pending A L' (State.pending ⟨L', pc'⟩) := by
    rcases hpend with he | he <;> rw [he]
    · exact h.pending.mono hsockets hepoll
    · exact h.pending.tail.mono hsockets hepoll
  refine ⟨⟨?_, ?_, hk.connecting⟩, ⟨hp.nodup, ?_⟩, fun l hl => absurd hl (haccept l), ?_,
    hfree⟩
  · rw [hes]
    exact hk.registered
  · rw [hes]
    exact hk.polled
  · rw [hes]
    exact hp.live
  · rw [hes, show (State.mk L' pc').loop.sockets = L.sockets from hsockets,
      show (State.mk L' pc').loop.epoll = L.epoll from hepoll]
    exact hreceive

theorem Watched.rewrite {pc pc' : Pc} (h : Watched A ⟨L, pc⟩) {es : List Event}
    (hes : (A.applyAll es).closed = A.closed) (hr : Rewrites L s x y L')
    (hs : s ∉ A.closed ∨ L.epoll x.p.fd = none ∨ us_poll_events x.p = us_poll_events y.p)
    (hsemi : us_internal_poll_type y.p = POLL_TYPE_SEMI_SOCKET → y.listen = false →
      us_poll_events y.p = LIBUS_SOCKET_WRITABLE)
    (hpend : State.pending ⟨L', pc'⟩ = State.pending ⟨L, pc⟩ ∨
      State.pending ⟨L', pc'⟩ = (State.pending ⟨L, pc⟩).tail)
    (haccept : ∀ l, pc' ≠ .callback (.accept l))
    (hreceive : ∀ t readable, pc' = .receive t readable → t ∉ A.closed)
    (hfree : ∀ s, pc' ≠ .free s) : Watched (A.applyAll es) ⟨L', pc'⟩ := by
  have hk := h.kernel.rewrite hr hs hsemi
  have hp : Pending A L' (State.pending ⟨L', pc'⟩) := by
    rcases hpend with he | he <;> rw [he]
    · exact h.pending.rewrite hr
    · exact h.pending.tail.rewrite hr
  refine ⟨⟨?_, ?_, hk.connecting⟩, ⟨hp.nodup, ?_⟩, fun l hl => absurd hl (haccept l), ?_,
    fun s hs => absurd hs (hfree s)⟩
  · rw [hes]
    exact hk.registered
  · rw [hes]
    exact hk.polled
  · rw [hes]
    exact hp.live
  · intro t readable ht hm
    rw [hes] at hm
    exact absurd hm (hreceive t readable ht)

/-- The descriptor of a closed socket whose event is dispatched is not in use. -/
theorem Watched.front (h : Watched A ⟨L, .dispatch⟩) {p : Addr} {error : Bool} {events : Events}
    {rest : List Ready} (hr : L.ready_events = .socket p error events :: rest)
    (hx : L.sockets p = some x) (hcl : p ∈ A.closed) : L.epoll x.p.fd = none := by
  have hmem : p ∈ L.ready_events.filterMap Ready.ptr := by
    rw [hr]
    exact List.mem_cons_self
  obtain ⟨z, hz, hnone⟩ := h.pending.live p hmem
  obtain rfl : x = z := Option.some.inj (hx.symm.trans hz)
  exact hnone hcl

/-- **Every careful step keeps the loop and the kernel in agreement.** -/
theorem Watched.step {pc : Pc} {a : Label} {σ' : State} (h : Watched A ⟨L, pc⟩)
    (ho : Ordered A ⟨L, pc⟩) (hcare : Careful ⟨L, pc⟩ a) (hm : Moves A L pc a es σ') :
    Watched (A.applyAll es) σ' := by
  have hgood : Good A L (State.closedFrom ⟨L, pc⟩) := ho.good
  cases hm with
  | call hpc hall hcalled => exact h.called ho hpc hcare hcalled
  | misplaced hindex => exact absurd (hcare.2 rfl) hindex
  | wait hnum hnodup hlength hrs =>
      exact ⟨h.kernel.mono rfl rfl, (h.kernel.pending hnodup hrs).mono rfl rfl, by simp, by simp,
        by simp⟩
  | batchDone hr => exact h.mono rfl rfl rfl (Or.inr rfl) (by simp) (by simp) fun _ _ => hr
  | dangling htouch hdead =>
      cases htouch with
      | dispatch hr => exact h.mono rfl rfl rfl (Or.inr rfl) (by simp) (by simp) (by simp)
      | accept => exact h.mono rfl rfl rfl (Or.inl rfl) (by simp) (by simp) (by simp)
  | sweepBegin hr henter =>
      obtain ⟨hsockets, hepoll, hready⟩ := henter.same
      exact h.mono rfl hsockets hepoll (Or.inr (congrArg List.tail hready)) (by simp) (by simp)
        (by simp)
  | wakeup hr => exact h.mono rfl rfl rfl (Or.inr rfl) (by simp) (by simp) (by simp)
  | @connected _ p x _ _ _ hr hx hsemi hevents =>
      have htype := poll_type_withType (x.p.withEvents LIBUS_SOCKET_READABLE)
        (t := POLL_TYPE_SOCKET) (Or.inl rfl)
      have hnew := poll_events_withType (x.p.withEvents LIBUS_SOCKET_READABLE)
        (t := POLL_TYPE_SOCKET) (Or.inl rfl)
      have hrw : Rewrites L p x
          { x with p := (x.p.withEvents LIBUS_SOCKET_READABLE).withType POLL_TYPE_SOCKET }
          ((L.changed p x LIBUS_SOCKET_READABLE).setSocket p
            { x with p := (x.p.withEvents LIBUS_SOCKET_READABLE).withType POLL_TYPE_SOCKET }) := by
        refine ⟨hx, rfl, Function.update_idem _ _ _, ?_⟩
        rw [hnew, poll_events_withEvents]
        rfl
      have hopen : p ∉ A.closed ∨ L.epoll x.p.fd = none :=
        or_iff_not_imp_left.mpr fun hcl => h.front hr hx (not_not.mp hcl)
      refine h.rewrite rfl hrw (hopen.imp_right Or.inl) (fun hsemi' _ => ?_) (Or.inr rfl) (by simp)
        (by simp) (by simp)
      rw [htype] at hsemi'
      exact absurd hsemi' (by decide)
  | @accepted _ _ l s fd x ctx haccept hx hctx hs hfd =>
      have hcl := (hgood.loose_of_dead hs.1).closed
      have hk : Kernel A (L.opened s (newSocket x.context fd POLL_TYPE_SOCKET false)
          LIBUS_SOCKET_READABLE ctx) :=
        h.kernel.opened hcl hs.1 hfd (fun ht => absurd ht (poll_type_socket fd)) ctx
      have hls : l ≠ s := by
        rintro rfl
        rw [hs.1] at hx
        cases hx
      have hkeep : (L.opened s (newSocket x.context fd POLL_TYPE_SOCKET false)
          LIBUS_SOCKET_READABLE ctx).sockets l = some x := by
        simp [us_loop.opened, us_loop.linked, us_create_poll, setSocket, hls, hx]
      have hfront : Pending A L L.ready_events.tail ∧ x.listen = true ∧
          L.ready_events.head?.bind Ready.ptr = some l ∧ Unpending L fd := by
        cases haccept with
        | @first _ y _ _ _ hr hy hsemi hevents =>
            obtain rfl : x = y := Option.some.inj (hx.symm.trans hy)
            refine ⟨h.pending.tail, ?_, by rw [hr]; rfl, hcare _ rfl⟩
            rcases hl : x.listen with - | -
            · exact absurd (h.kernel.connecting l x hx hsemi hl) hevents
            · rfl
        | again =>
            obtain ⟨hl, hhead⟩ := h.accept l rfl
            refine ⟨h.pending, ?_, hhead, hcare _ rfl⟩
            rwa [show (State.mk L _).loop.sockets l = some x from hx] at hl
      obtain ⟨htail, hlisten, hhead, hunp⟩ := hfront
      have hp := htail.opened hs.1 (x := newSocket x.context fd POLL_TYPE_SOCKET false)
        (fun p hm z hz => hunp.ne hm hz) LIBUS_SOCKET_READABLE ctx
      refine ⟨⟨hk.registered, hk.polled, hk.connecting⟩, ⟨hp.nodup, hp.live⟩, ?_, by simp, by simp⟩
      rintro l' he
      cases he
      refine ⟨?_, hhead⟩
      rw [show (State.mk (L.opened s _ _ ctx) _).loop.sockets l = some x from hkeep]
      exact hlisten
  | @closedLast _ _ s x ctx hclose hx hctx hs hlisten =>
      have hopen := hgood.not_mem_closed hs
      have htail : Pending A L L.ready_events.tail := by
        cases hclose with
        | error hr => exact h.pending.tail
        | received hrecv => exact h.pending
      exact ⟨h.kernel.closing hx hopen ctx _ rfl, htail.closing hx ctx _ rfl, by simp, by simp,
        by simp⟩
  | finish hpc hne =>
      have hpend : L.ready_events.tail = State.pending ⟨L, pc⟩ ∨
          L.ready_events.tail = (State.pending ⟨L, pc⟩).tail := by
        rcases pc with _ | _ | ⟨_, _⟩ | _ | _ | _ | _ | _ <;>
          first | exact Or.inl rfl | exact Or.inr rfl
      exact h.mono rfl rfl rfl hpend (by simp) (by simp) (by simp)
  | onWritable hr hx hsemi =>
      exact h.mono rfl rfl rfl (Or.inr rfl) (by simp) (by simp) (by simp)
  | toReceive hr hx hsemi =>
      refine h.mono rfl rfl rfl (Or.inr rfl) (by simp) (fun s r he hcl x hx => ?_) (by simp)
      cases he
      exact h.front hr hx hcl
  | @unwritable _ s _ x hx hs hwritten =>
      obtain ⟨y, hy, hopened⟩ := ho.writable s _ rfl
      obtain rfl : x = y := Option.some.inj (hx.symm.trans hy)
      have hopen := hgood.not_mem_closed hs
      refine h.rewrite rfl (Rewrites.changed hx _) (Or.inl hopen) (fun hsemi' _ => ?_) (Or.inl rfl)
        (by simp) (fun t r he => ?_) (by simp)
      · rw [poll_type_withEvents] at hsemi'
        exact absurd hsemi' hopened.2
      · cases he
        exact hopen
  | @stillWritable _ s _ x hx hs =>
      have hopen := hgood.not_mem_closed hs
      refine h.mono rfl rfl rfl (Or.inl rfl) (by simp) (fun t r he hcl => ?_) (by simp)
      cases he
      exact absurd hcl hopen
  | data => exact h.mono rfl rfl rfl (Or.inl rfl) (by simp) (by simp) (by simp)
  | @ended s x hx hshut =>
      obtain ⟨y, hy, hopened⟩ := ho.receive s _ rfl
      obtain rfl : x = y := Option.some.inj (hx.symm.trans hy)
      have hopen : s ∉ A.closed ∨ L.epoll x.p.fd = none :=
        or_iff_not_imp_left.mpr fun hcl => h.receive s _ rfl (not_not.mp hcl) x hx
      refine h.rewrite rfl (Rewrites.changed hx _) (hopen.imp_right Or.inl) (fun hsemi' _ => ?_)
        (Or.inl rfl) (by simp) (by simp) (by simp)
      rw [poll_type_withEvents] at hsemi'
      exact absurd hsemi' hopened.2
  | timeoutPassed hctx hit => exact h.mono rfl rfl rfl (Or.inl rfl) (by simp) (by simp) (by simp)
  | timeoutLeft hctx hit => exact h.mono rfl rfl rfl (Or.inl rfl) (by simp) (by simp) (by simp)
  | sweepEnd hi => exact h.mono rfl rfl rfl (Or.inl rfl) (by simp) (by simp) (by simp)
  | nextContext hi hctx hit henter =>
      obtain ⟨hsockets, hepoll, hready⟩ := henter.same
      exact h.mono rfl hsockets hepoll (Or.inl (congrArg List.tail hready)) (by simp) (by simp)
        (by simp)
  | @timedOut c ctx s x hi hctx hit hx htimeout =>
      have hrw : Rewrites L s x { x with timeout := 0 } (L.setSocket s { x with timeout := 0 }) :=
        ⟨hx, rfl, rfl, by simp [setSocket]⟩
      exact h.rewrite rfl hrw (Or.inr (Or.inr rfl)) (h.kernel.connecting s x hx) (Or.inl rfl)
        (by simp) (by simp) (by simp)
  | @visited c ctx s x hi hctx hit hx htimeout =>
      have hrw : Rewrites L s x { x with timeout := x.timeout - 1 }
          ((L.setSocket s { x with timeout := x.timeout - 1 }).setContext c
            { ctx with iterator := L.next s }) :=
        ⟨hx, rfl, rfl, by simp [setSocket, setContext]⟩
      exact h.rewrite rfl hrw (Or.inr (Or.inr rfl)) (h.kernel.connecting s x hx) (Or.inl rfl)
        (by simp) (by simp) (by simp)
  | @freed s l hl =>
      have hcl : s ∈ A.closed := by rw [hl]; exact List.mem_cons_self
      have hrest : (A.applyAll [.freed s]).closed = l := by
        show A.closed.erase s = l
        rw [hl, List.erase_cons_head]
      have hready : L.ready_events = [] := h.drained _ rfl
      have hmem : ∀ t, t ∈ l → t ∈ A.closed := fun t ht => by
        rw [hl]
        exact List.mem_cons_of_mem s ht
      refine ⟨⟨?_, ?_, ?_⟩, ?_, by simp, by simp, fun _ _ => hready⟩
      · intro fd ev t ht
        obtain ⟨hopen, z, hz, hzfd, hz'⟩ := h.kernel.registered fd ev t ht
        have hts : t ≠ s := fun he => hopen (he ▸ hcl)
        rw [hrest]
        exact ⟨fun hm => hopen (hmem t hm), z, (Function.update_of_ne hts _ _).trans hz, hzfd, hz'⟩
      · intro t z hz hopen
        obtain ⟨hts, hz⟩ := of_update_none hz
        refine h.kernel.polled t z hz fun hm => hopen ?_
        rw [hrest]
        rw [hl] at hm
        exact List.mem_of_ne_of_mem hts hm
      · intro t z hz
        exact h.kernel.connecting t z (of_update_none hz).2
      · show Pending _ _ L.ready_events.tail
        rw [hready]
        exact ⟨List.nodup_nil, fun p hp => by cases hp⟩
  | freeDone hl => exact h.mono rfl rfl rfl (Or.inl rfl) (by simp) (by simp) (by simp)

/-! ### Runs -/

theorem watched_init : Watched Lists.empty State.init := by
  refine ⟨⟨?_, ?_, ?_⟩, ⟨List.nodup_nil, ?_⟩, ?_, ?_, ?_⟩
  · intro fd events s hs
    cases hs
  · intro s x hx
    cases hx
  · intro s x hx
    cases hx
  · intro p hp
    cases hp
  · intro l hl
    cases hl
  · intro s readable hs
    cases hs
  · intro s hs
    cases hs

/-- A careful step finds the memory it touches. -/
theorem Watched.alive {pc : Pc} {a : Label} {σ' : State} (h : Watched A ⟨L, pc⟩)
    (hcare : Careful ⟨L, pc⟩ a) (hm : Moves A L pc a es σ') :
    σ'.pc ≠ .crash ∧ σ'.pc ≠ .exited := by
  cases hm with
  | misplaced hindex => exact absurd (hcare.2 rfl) hindex
  | @call pc call es L' hpc hall hcalled =>
      have huser : (pc.move L call).user = true := by
        unfold Pc.move
        split
        · split <;> rfl
        · exact hpc
      constructor
      · intro he
        rw [show pc.move L call = .crash from he] at huser
        cases huser
      · intro he
        rw [show pc.move L call = .exited from he] at huser
        cases huser
  | @dangling _ _ p htouch hdead =>
      exfalso
      cases htouch with
      | dispatch hr =>
          have hmem : p ∈ (State.pending ⟨L, .dispatch⟩).filterMap Ready.ptr := by
            show p ∈ L.ready_events.filterMap Ready.ptr
            rw [hr]
            exact List.mem_cons_self
          obtain ⟨x, hx, -⟩ := h.pending.live p hmem
          rw [show L.sockets p = some x from hx] at hdead
          cases hdead
      | accept =>
          have hl := (h.accept p rfl).1
          rw [show (State.mk L _).loop.sockets p = none from hdead] at hl
          cases hl
  | _ => simp

/-- In every run `fd_iterator` is an index of `ready_events` in every callback. -/
theorem indexed_of_run {ok : State → Label → Prop} {tr : List Event} {σ : State}
    (h : machine.Run ok tr σ) {k : After} (hpc : σ.pc = .callback k) : σ.loop.Indexed := by
  have hbatch := (ordered_of_run h).batch
  rw [hpc] at hbatch
  exact hbatch.indexed rfl (by simp)

theorem watched_of_run {tr : List Event} {σ : State} (h : machine.Run Careful tr σ) :
    Watched (listsOf tr) σ ∧ σ.pc ≠ .crash ∧ σ.pc ≠ .exited := by
  have hinv := h.invariant
    (fun tr σ => Ordered (listsOf tr) σ ∧ Watched (listsOf tr) σ ∧ σ.pc ≠ .crash ∧ σ.pc ≠ .exited)
    ⟨ordered_init, watched_init, by simp [machine, State.init], by simp [machine, State.init]⟩ ?_
  · exact hinv.2
  · rintro tr ⟨L, pc⟩ a σ' es ⟨ho, hw, -⟩ hcare hs
    have hm := moves_of_step ho hs
    rw [listsOf_append]
    exact ⟨Ordered.step ho hm, hw.step ho hcare hm, hw.alive hcare hm⟩

/-- **The loop and the kernel.**  In every careful run no step touches memory that
is not there, and the sweep is never entered twice.  The kernel polls for exactly
the open sockets: each under its descriptor, with the events its poll asks for and
the address it has now; and every pointer still waiting in `ready_events` is that
of a block that is there. -/
theorem safe_of_run {tr : List Event} {σ : State} (h : machine.Run Careful tr σ) :
    σ.pc ≠ .crash ∧ σ.pc ≠ .exited ∧
    (∀ fd events s, σ.loop.epoll fd = some (events, s) ↔
      ∃ x, σ.loop.sockets s = some x ∧ σ.loop.us_socket_is_closed s = some false ∧
        x.p.fd = fd ∧ us_poll_events x.p = events) ∧
    ∀ p ∈ σ.pending.filterMap Ready.ptr, (σ.loop.sockets p).isSome := by
  obtain ⟨hw, hcrash, hexit⟩ := watched_of_run h
  have hgood := (ordered_of_run h).good
  refine ⟨hcrash, hexit, fun fd events s => ⟨fun he => ?_, ?_⟩, fun p hp => ?_⟩
  · obtain ⟨hopen, x, hx, hfd, hevents⟩ := hw.kernel.registered fd events s he
    exact ⟨x, hx, by rw [hgood.is_closed_iff hx]; simp [hopen], hfd, hevents⟩
  · rintro ⟨x, hx, hopen, rfl, rfl⟩
    rw [hgood.is_closed_iff hx] at hopen
    exact hw.kernel.polled s x hx (by simpa using hopen)
  · obtain ⟨x, hx, -⟩ := hw.pending.live p hp
    rw [hx]
    rfl

/-- The kernel polls for the socket that has been adopted under its new address. -/
theorem safe_of_run_session :
    ∃ tr σ, machine.Run Careful tr σ ∧ σ.pc ≠ .crash ∧
      ∃ x, σ.loop.sockets 12 = some x ∧ σ.loop.us_socket_is_closed 12 = some false ∧
        x.p.fd = 6 ∧ us_poll_events x.p = ⟨true, true⟩ := by
  obtain ⟨tr, σ, hrun, hp⟩ := Machine.run_of_exec machine Careful session
    (fun r => decide (r.1.loop.epoll 6 = some (⟨true, true⟩, 12))) (by decide)
  obtain ⟨hcrash, -, hkernel, -⟩ := safe_of_run hrun
  exact ⟨tr, σ, hrun, hcrash, (hkernel 6 ⟨true, true⟩ 12).mp (of_decide_eq_true hp)⟩

/-- A listen socket closed in the callback of a connection it has just accepted: the
loop over `bsd_accept_socket` goes on with a block that has been freed. -/
example : (machine.exec AnyStep State.init []
    [.api (.create_socket_context 1), .api (.listen 1 10 5),
      .epoll_wait [.polled 5 false ⟨true, false⟩], .next (some (11, 6)),
      .api (.listen_socket_close 10), .ret none]).any (·.1.pc = .crash) = true := by
  decide

/-- A socket moved before the first `us_loop_run`. -/
example : (machine.exec AnyStep State.init []
    [.api (.create_socket_context 1), .api (.connect 1 10 5), .api (.adopt_socket 1 10 11)]).any
      (·.1.pc = .crash) = true := by
  decide

end TestExamples.USockets
