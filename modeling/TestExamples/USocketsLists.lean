/-
TestExamples/USocketsLists.lean

The pointers of the sockets and contexts are the lists they stand for.

`Lists` is what the library is about: the contexts of the loop, the sockets of
each context, the closed sockets that have not been freed, and the blocks that
are there.  `Lists.apply` is what an event does to them, in terms of lists only.
`Threads` says that a loop spells these lists out with its pointers; each
function of context.c and socket.c keeps it, with the lists its events lead to.

`link_eq` and `unlink_eq` are the two functions the others are made of, on a loop
whose lists are in order: no access goes wrong, and what changes are the pointers
`linkPrev`, `linkNext`, `unlinkPrev`, `unlinkNext` and the head.
-/
import TestExamples.Lib.LinkedList
import TestExamples.USockets

namespace TestExamples.USockets

/-! ### The lists -/

structure Lists where
  contexts : List Addr
  sockets : Addr → List Addr
  closed : List Addr
  live : List Addr

namespace Lists

def empty : Lists := ⟨[], fun _ => [], [], []⟩

/-- New sockets and contexts are put in front. -/
def apply (A : Lists) : Event → Lists
  | .context c => { A with contexts := c :: A.contexts }
  | .opened s => { A with live := s :: A.live }
  | .moved s s' => { A with live := s' :: A.live.erase s }
  | .freed s => { A with live := A.live.erase s, closed := A.closed.erase s }
  | .linked c s => { A with sockets := Function.update A.sockets c (s :: A.sockets c) }
  | .unlinked c s => { A with sockets := Function.update A.sockets c ((A.sockets c).erase s) }
  | .on_close s => { A with closed := s :: A.closed }
  | _ => A

def applyAll (A : Lists) (es : List Event) : Lists := es.foldl apply A

@[simp] theorem applyAll_nil (A : Lists) : A.applyAll [] = A := rfl

@[simp] theorem applyAll_cons (A : Lists) (e : Event) (es : List Event) :
    A.applyAll (e :: es) = (A.apply e).applyAll es := rfl

theorem applyAll_append (A : Lists) (es es' : List Event) :
    A.applyAll (es ++ es') = (A.applyAll es).applyAll es' :=
  List.foldl_append

end Lists

/-- The lists a history leads to. -/
def listsOf (tr : List Event) : Lists := Lists.empty.applyAll tr

/-! ### What the pointers say -/

/-- The pointers of `L` spell out the lists `A`; `q` is where the list of the
closed sockets begins. -/
structure Threads (A : Lists) (L : us_loop) (q : Ptr) : Prop where
  contexts : Linked L.context_prev L.context_next L.head A.contexts
  mem_contexts : ∀ c, c ∈ A.contexts ↔ (L.contexts c).isSome
  sockets : ∀ c ctx, L.contexts c = some ctx → Linked L.prev L.next ctx.head (A.sockets c)
  of_mem_sockets : ∀ c s, s ∈ A.sockets c →
    (L.contexts c).isSome ∧ ∃ x, L.sockets s = some x ∧ x.context = c
  closed : Chain L.next q A.closed
  closed_nodup : A.closed.Nodup
  of_mem_closed : ∀ s ∈ A.closed, ∃ x, L.sockets s = some x ∧ L.prev s = some x.context
  context_live : ∀ s x, L.sockets s = some x → (L.contexts x.context).isSome
  apart : ∀ c, (L.contexts c).isSome → L.sockets c = none
  socket_iterator : ∀ c ctx s, L.contexts c = some ctx → ctx.iterator = some s →
    s ∈ A.sockets c
  context_iterator : ∀ c, L.iterator = some c → (L.contexts c).isSome

namespace Threads

variable {A : Lists} {L L' : us_loop} {q : Ptr} {c c' s s' : Addr} {x : us_socket}
  {ctx : us_socket_context}

/-- A socket in the list of a context has not been closed. -/
theorem prev_ne_of_mem (h : Threads A L q) (hs : s ∈ A.sockets c) : L.prev s ≠ some c := by
  obtain ⟨hc, -⟩ := h.of_mem_sockets c s hs
  obtain ⟨ctx, hctx⟩ := Option.isSome_iff_exists.mp hc
  intro hp
  obtain ⟨hm, -⟩ := (h.sockets c ctx hctx).prev_mem hs hp
  obtain ⟨-, x, hx, -⟩ := h.of_mem_sockets c c hm
  rw [h.apart c hc] at hx
  cases hx

/-- No socket is in the lists of two contexts. -/
theorem eq_of_mem (h : Threads A L q) (hs : s ∈ A.sockets c) (hs' : s ∈ A.sockets c') :
    c = c' := by
  obtain ⟨-, x, hx, rfl⟩ := h.of_mem_sockets c s hs
  obtain ⟨-, y, hy, rfl⟩ := h.of_mem_sockets c' s hs'
  rw [hx] at hy
  rw [Option.some.inj hy]

/-- No closed socket is in the list of a context. -/
theorem not_mem_closed (h : Threads A L q) (hs : s ∈ A.sockets c) : s ∉ A.closed := by
  intro hcl
  obtain ⟨x, hx, hp⟩ := h.of_mem_closed s hcl
  obtain ⟨-, y, hy, rfl⟩ := h.of_mem_sockets c s hs
  rw [hx] at hy
  obtain rfl := Option.some.inj hy
  exact h.prev_ne_of_mem hs hp

/-- A loop that differs only in what the lists do not depend on. -/
theorem congr (h : Threads A L q) (hprev : L'.prev = L.prev) (hnext : L'.next = L.next)
    (hcontexts : L'.contexts = L.contexts) (hcprev : L'.context_prev = L.context_prev)
    (hcnext : L'.context_next = L.context_next) (hhead : L'.head = L.head)
    (hiterator : L'.iterator = L.iterator)
    (hsockets : ∀ s, (L'.sockets s).map (·.context) = (L.sockets s).map (·.context)) :
    Threads A L' q := by
  have hsome : ∀ {s x}, L.sockets s = some x →
      ∃ y, L'.sockets s = some y ∧ y.context = x.context := by
    intro s x hx
    have hmap := hsockets s
    rw [hx, Option.map_some] at hmap
    exact Option.map_eq_some_iff.mp hmap
  have hsome' : ∀ {s x}, L'.sockets s = some x →
      ∃ y, L.sockets s = some y ∧ y.context = x.context := by
    intro s x hx
    have hmap := (hsockets s).symm
    rw [hx, Option.map_some] at hmap
    exact Option.map_eq_some_iff.mp hmap
  constructor
  case contexts => rw [hcprev, hcnext, hhead]; exact h.contexts
  case mem_contexts => rw [hcontexts]; exact h.mem_contexts
  case sockets => rw [hcontexts, hprev, hnext]; exact h.sockets
  case of_mem_sockets =>
    intro c s hs
    obtain ⟨hc, x, hx, rfl⟩ := h.of_mem_sockets c s hs
    rw [hcontexts]
    exact ⟨hc, hsome hx⟩
  case closed => rw [hnext]; exact h.closed
  case closed_nodup => exact h.closed_nodup
  case of_mem_closed =>
    intro s hs
    obtain ⟨x, hx, hp⟩ := h.of_mem_closed s hs
    obtain ⟨y, hy, he⟩ := hsome hx
    exact ⟨y, hy, by rw [hprev, hp, he]⟩
  case context_live =>
    intro s x hx
    obtain ⟨y, hy, he⟩ := hsome' hx
    rw [hcontexts, ← he]
    exact h.context_live s y hy
  case apart =>
    intro c hc
    rw [hcontexts] at hc
    rcases hx : L'.sockets c with - | x
    · rfl
    · obtain ⟨y, hy, -⟩ := hsome' hx
      rw [h.apart c hc] at hy
      cases hy
  case socket_iterator => rw [hcontexts]; exact h.socket_iterator
  case context_iterator => rw [hcontexts, hiterator]; exact h.context_iterator

end Threads

/-! ### Link and unlink -/

namespace us_loop

variable {L : us_loop} {c s : Addr} {x : us_socket} {ctx : us_socket_context}

/-- What `us_internal_socket_context_link` leaves. -/
def linked (L : us_loop) (c s : Addr) (x : us_socket) (ctx : us_socket_context) : us_loop :=
  { L with
    sockets := Function.update L.sockets s (some { x with context := c, timeout := 0 })
    prev := linkPrev L.prev ctx.head s
    next := linkNext L.next ctx.head s
    contexts := Function.update L.contexts c (some { ctx with head := some s }) }

/-- What `us_internal_socket_context_unlink` leaves. -/
def unlinked (L : us_loop) (c s : Addr) (ctx : us_socket_context) : us_loop :=
  { L with
    prev := unlinkPrev L.prev L.next s
    next := unlinkNext L.prev L.next s
    contexts := Function.update L.contexts c
      (some ⟨unlinkHead L.prev L.next ctx.head s,
        if ctx.iterator = some s then L.next s else ctx.iterator⟩) }

theorem link_eq (hx : L.sockets s = some x) (hctx : L.contexts c = some ctx)
    (hhead : ∀ h, ctx.head = some h → (L.sockets h).isSome) :
    L.us_internal_socket_context_link c s = some (L.linked c s x ctx) := by
  rcases hh : ctx.head with - | h
  · simp [us_internal_socket_context_link, linked, linkPrev, linkNext, setSocket, setNext,
      setPrev, setHead, setContext, hx, hctx, hh]
  · obtain ⟨y, hy⟩ := Option.isSome_iff_exists.mp (hhead h hh)
    have hy' : ∃ z, Function.update L.sockets s (some { x with context := c, timeout := 0 }) h
        = some z := by
      rcases eq_or_ne h s with rfl | hne
      · exact ⟨_, Function.update_self _ _ _⟩
      · exact ⟨y, by rw [Function.update_of_ne hne, hy]⟩
    obtain ⟨z, hz⟩ := hy'
    simp [us_internal_socket_context_link, linked, linkPrev, linkNext, setSocket, setNext,
      setPrev, setHead, setContext, hx, hctx, hh, hz]

theorem unlink_eq {l : List Addr} (hx : L.sockets s = some x) (hctx : L.contexts c = some ctx)
    (hl : Linked L.prev L.next ctx.head l) (hs : s ∈ l)
    (hlive : ∀ a ∈ l, (L.sockets a).isSome) :
    L.us_internal_socket_context_unlink c s = some (L.unlinked c s ctx) := by
  have hiter : (if ctx.iterator = some s then L.setIterator c (L.next s) else some L)
      = some (L.setContext c
          ⟨ctx.head, if ctx.iterator = some s then L.next s else ctx.iterator⟩) := by
    split
    · simp [setIterator, hctx]
    · have : Function.update L.contexts c (some ctx) = L.contexts := by
        rw [← hctx, Function.update_eq_self]
      simp [setContext, this]
  obtain ⟨l₁, l₂, rfl⟩ := List.append_of_mem hs
  unfold us_internal_socket_context_unlink
  simp only [hctx, hx, hiter, Option.bind_eq_bind, Option.bind_some]
  by_cases heq : L.prev s = L.next s
  · -- alone in the list
    obtain ⟨rfl, rfl⟩ := hl.prev_eq_next_iff.mp heq
    obtain ⟨hp, hn⟩ := hl.pointers
    simp only [List.getLast?_nil, List.head?_nil] at hp hn
    simp [setContext, setHead, unlinked, unlinkPrev, unlinkNext, unlinkHead, hp, hn]
  · have hmem : ∀ a, L.prev s = some a ∨ L.next s = some a → ∃ y, L.sockets a = some y := by
      intro a ha
      have hal : a ∈ l₁ ++ s :: l₂ := by
        rcases ha with hp | hn
        · exact (hl.prev_mem hs hp).1
        · exact (hl.next_mem hs hn).1
      exact Option.isSome_iff_exists.mp (hlive a hal)
    rw [if_neg (by exact heq)]
    rcases hp : L.prev s with - | p <;> rcases hn : L.next s with - | n
    · exact absurd (hp.trans hn.symm) heq
    · obtain ⟨y, hy⟩ := hmem n (Or.inr hn)
      simp [setContext, setHead, setPrev, unlinked, unlinkPrev, unlinkNext, unlinkHead, hp, hn,
        hy]
    · obtain ⟨y, hy⟩ := hmem p (Or.inl hp)
      have hne : s ≠ p := (hl.prev_mem hs hp).2.symm
      simp [setContext, setNext, unlinked, unlinkPrev, unlinkNext, unlinkHead, hp, hn, hy, hne]
    · obtain ⟨y, hy⟩ := hmem p (Or.inl hp)
      obtain ⟨z, hz⟩ := hmem n (Or.inr hn)
      have hne : s ≠ p := (hl.prev_mem hs hp).2.symm
      simp [setContext, setNext, setPrev, unlinked, unlinkPrev, unlinkNext, unlinkHead, hp, hn,
        hy, hz, hne]

end us_loop

/-! ### One change of the memory at a time -/

/-- A block that is in none of the lists. -/
structure Lists.Loose (A : Lists) (s : Addr) : Prop where
  sockets : ∀ c, s ∉ A.sockets c
  closed : s ∉ A.closed

/-- Changing a context does not make it come or go. -/
theorem isSome_update {β : Type*} {f : Addr → Option β} {a b : Addr} {y : β}
    (ha : (f a).isSome) : (Function.update f a (some y) b).isSome = (f b).isSome := by
  rcases eq_or_ne b a with rfl | hne
  · rw [Function.update_self, ha]
    rfl
  · rw [Function.update_of_ne hne]

namespace Threads

variable {A : Lists} {L L' : us_loop} {q : Ptr} {c s : Addr} {x : us_socket}
  {ctx : us_socket_context}

theorem live_of_mem (h : Threads A L q) (hs : s ∈ A.sockets c) : (L.sockets s).isSome := by
  obtain ⟨-, x, hx, -⟩ := h.of_mem_sockets c s hs
  rw [hx]
  rfl

/-- A block that is not there is in none of the lists. -/
theorem loose_of_dead (h : Threads A L q) (hs : L.sockets s = none) : A.Loose s := by
  constructor
  · intro c hm
    have hlive := h.live_of_mem hm
    rw [hs] at hlive
    cases hlive
  · intro hm
    obtain ⟨x, hx, -⟩ := h.of_mem_closed s hm
    rw [hs] at hx
    cases hx

theorem linked (h : Threads A L q) (hx : L.sockets s = some x) (hctx : L.contexts c = some ctx)
    (hs : A.Loose s) : Threads (A.apply (.linked c s)) (L.linked c s x ctx) q := by
  have hc : (L.contexts c).isSome := by rw [hctx]; rfl
  have hl := h.sockets c ctx hctx
  have hsome : ∀ c', ((L.linked c s x ctx).contexts c').isSome = (L.contexts c').isSome :=
    fun c' => isSome_update hc
  have hnext : ∀ a, a ≠ s → (L.linked c s x ctx).next a = L.next a := fun a ha =>
    Function.update_of_ne ha _ _
  have hold : ∀ c', c' ≠ c → (A.apply (.linked c s)).sockets c' = A.sockets c' := fun c' hne =>
    Function.update_of_ne hne _ _
  have hnew : (A.apply (.linked c s)).sockets c = s :: A.sockets c := Function.update_self _ _ _
  constructor
  case contexts => exact h.contexts
  case mem_contexts =>
    intro c'
    rw [hsome]
    exact h.mem_contexts c'
  case sockets =>
    intro c' ctx' hctx'
    rcases update_eq hctx' with ⟨rfl, he⟩ | ⟨hne, hctx'⟩
    · obtain rfl := Option.some.inj he
      rw [hnew]
      exact hl.link (hs.sockets c')
    · rw [hold c' hne]
      refine (h.sockets c' ctx' hctx').congr (fun a ha => ?_) fun a ha => ?_
      · have hne' : a ∉ A.sockets c := fun hm => hne (h.eq_of_mem ha hm)
        exact linkPrev_of_not_mem (ne_of_mem_of_not_mem ha (hs.sockets c')) hne' hl
      · exact hnext a (ne_of_mem_of_not_mem ha (hs.sockets c'))
  case of_mem_sockets =>
    intro c' a ha
    rw [hsome]
    rcases eq_or_ne c' c with rfl | hne
    · refine ⟨hc, ?_⟩
      rw [hnew] at ha
      rcases eq_or_ne a s with rfl | has
      · exact ⟨_, Function.update_self _ _ _, rfl⟩
      · obtain ⟨-, y, hy, he⟩ := h.of_mem_sockets c' a (List.mem_of_ne_of_mem has ha)
        exact ⟨y, by rw [← hy]; exact Function.update_of_ne has _ _, he⟩
    · rw [hold c' hne] at ha
      obtain ⟨hc', y, hy, he⟩ := h.of_mem_sockets c' a ha
      have has := ne_of_mem_of_not_mem ha (hs.sockets c')
      exact ⟨hc', y, by rw [← hy]; exact Function.update_of_ne has _ _, he⟩
  case closed =>
    exact h.closed.congr fun a ha => hnext a (ne_of_mem_of_not_mem ha hs.closed)
  case closed_nodup => exact h.closed_nodup
  case of_mem_closed =>
    intro a ha
    obtain ⟨y, hy, hp⟩ := h.of_mem_closed a ha
    have has := ne_of_mem_of_not_mem ha hs.closed
    refine ⟨y, by rw [← hy]; exact Function.update_of_ne has _ _, ?_⟩
    rw [← hp]
    exact linkPrev_of_not_mem has (fun hm => h.not_mem_closed hm ha) hl
  case context_live =>
    intro a y hy
    rw [hsome]
    rcases update_eq hy with ⟨rfl, he⟩ | ⟨-, hy⟩
    · obtain rfl := Option.some.inj he
      exact hc
    · exact h.context_live a y hy
  case apart =>
    intro c' hc'
    rw [hsome] at hc'
    have hne : c' ≠ s := by
      rintro rfl
      rw [h.apart c' hc'] at hx
      cases hx
    exact (Function.update_of_ne hne _ _).trans (h.apart c' hc')
  case socket_iterator =>
    intro c' ctx' a hctx' ha
    rcases update_eq hctx' with ⟨rfl, he⟩ | ⟨hne, hctx'⟩
    · obtain rfl := Option.some.inj he
      rw [hnew]
      exact List.mem_cons_of_mem s (h.socket_iterator c' ctx a hctx ha)
    · rw [hold c' hne]
      exact h.socket_iterator c' ctx' a hctx' ha
  case context_iterator =>
    intro c' hc'
    rw [hsome]
    exact h.context_iterator c' hc'

theorem unlinked (h : Threads A L q) (hctx : L.contexts c = some ctx) (hs : s ∈ A.sockets c) :
    Threads (A.apply (.unlinked c s)) (L.unlinked c s ctx) q := by
  have hc : (L.contexts c).isSome := by rw [hctx]; rfl
  have hl := h.sockets c ctx hctx
  have hsome : ∀ c', ((L.unlinked c s ctx).contexts c').isSome = (L.contexts c').isSome :=
    fun c' => isSome_update hc
  have hold : ∀ c', c' ≠ c → (A.apply (.unlinked c s)).sockets c' = A.sockets c' :=
    fun c' hne => Function.update_of_ne hne _ _
  have hnew : (A.apply (.unlinked c s)).sockets c = (A.sockets c).erase s :=
    Function.update_self _ _ _
  have hsub : ∀ c' a, a ∈ (A.apply (.unlinked c s)).sockets c' → a ∈ A.sockets c' := by
    intro c' a ha
    rcases eq_or_ne c' c with rfl | hne
    · rw [hnew] at ha
      exact List.mem_of_mem_erase ha
    · rwa [hold c' hne] at ha
  constructor
  case contexts => exact h.contexts
  case mem_contexts =>
    intro c'
    rw [hsome]
    exact h.mem_contexts c'
  case sockets =>
    intro c' ctx' hctx'
    rcases update_eq hctx' with ⟨rfl, he⟩ | ⟨hne, hctx'⟩
    · obtain rfl := Option.some.inj he
      rw [hnew]
      obtain ⟨l₁, l₂, hsplit⟩ := List.append_of_mem hs
      rw [hsplit] at hl ⊢
      have hnot : s ∉ l₁ := fun hm => (List.nodup_append.mp hl.nodup).2.2 s hm s (by simp) rfl
      rw [List.erase_append_right _ hnot, List.erase_cons_head]
      exact hl.unlink
    · rw [hold c' hne]
      refine (h.sockets c' ctx' hctx').congr (fun a ha => ?_) fun a ha => ?_
      · exact hl.unlinkPrev_of_not_mem hs fun hm => hne (h.eq_of_mem ha hm)
      · exact hl.unlinkNext_of_not_mem hs fun hm => hne (h.eq_of_mem ha hm)
  case of_mem_sockets =>
    intro c' a ha
    rw [hsome]
    exact h.of_mem_sockets c' a (hsub c' a ha)
  case closed =>
    exact h.closed.congr fun a ha =>
      hl.unlinkNext_of_not_mem hs fun hm => h.not_mem_closed hm ha
  case closed_nodup => exact h.closed_nodup
  case of_mem_closed =>
    intro a ha
    obtain ⟨y, hy, hp⟩ := h.of_mem_closed a ha
    refine ⟨y, hy, ?_⟩
    rw [← hp]
    exact hl.unlinkPrev_of_not_mem hs fun hm => h.not_mem_closed hm ha
  case context_live =>
    intro a y hy
    rw [hsome]
    exact h.context_live a y hy
  case apart =>
    intro c' hc'
    rw [hsome] at hc'
    exact h.apart c' hc'
  case socket_iterator =>
    intro c' ctx' a hctx' ha
    rcases update_eq hctx' with ⟨rfl, he⟩ | ⟨hne, hctx'⟩
    · obtain rfl := Option.some.inj he
      rw [hnew]
      change (if ctx.iterator = some s then L.next s else ctx.iterator) = some a at ha
      split at ha
      · obtain ⟨hm, has⟩ := hl.next_mem hs ha
        exact (List.mem_erase_of_ne has).mpr hm
      · rename_i hit
        have has : a ≠ s := by
          rintro rfl
          exact hit ha
        exact (List.mem_erase_of_ne has).mpr (h.socket_iterator c' ctx a hctx ha)
    · rw [hold c' hne]
      exact h.socket_iterator c' ctx' a hctx' ha
  case context_iterator =>
    intro c' hc'
    rw [hsome]
    exact h.context_iterator c' hc'

/-- After it has been taken out of its list, a socket is in no list. -/
theorem loose_of_unlinked (h : Threads A L q) (hs : s ∈ A.sockets c) :
    (A.apply (.unlinked c s)).Loose s := by
  constructor
  · intro c' hm
    rcases eq_or_ne c' c with rfl | hne
    · obtain ⟨hc, -⟩ := h.of_mem_sockets c' s hs
      obtain ⟨ctx, hctx⟩ := Option.isSome_iff_exists.mp hc
      have hm' : s ∈ (A.sockets c').erase s := by
        rwa [show (A.apply (.unlinked c' s)).sockets c' = (A.sockets c').erase s from
          Function.update_self _ _ _] at hm
      exact (h.sockets c' ctx hctx).nodup.not_mem_erase hm'
    · have hm' : s ∈ A.sockets c' := by
        rwa [show (A.apply (.unlinked c s)).sockets c' = A.sockets c' from
          Function.update_of_ne hne _ _] at hm
      exact hne (h.eq_of_mem hm' hs)
  · exact h.not_mem_closed hs

/-- The socket at the head of the closed list. -/
theorem push (h : Threads A L L.closed_head) (hx : L.sockets s = some x) (hs : A.Loose s) :
    Threads (A.apply (.on_close s))
      { L with
        next := Function.update L.next s L.closed_head
        closed_head := some s
        prev := Function.update L.prev s (some x.context) } (some s) := by
  have hne : ∀ c' a, a ∈ A.sockets c' → a ≠ s := fun c' a ha =>
    ne_of_mem_of_not_mem ha (hs.sockets c')
  have hnext : ∀ a ∈ A.closed, Function.update L.next s L.closed_head a = L.next a :=
    fun a ha => Function.update_of_ne (ne_of_mem_of_not_mem ha hs.closed) _ _
  constructor
  case contexts => exact h.contexts
  case mem_contexts => exact h.mem_contexts
  case sockets =>
    intro c' ctx' hctx'
    refine (h.sockets c' ctx' hctx').congr (fun a ha => ?_) fun a ha => ?_
    · exact Function.update_of_ne (hne c' a ha) _ _
    · exact Function.update_of_ne (hne c' a ha) _ _
  case of_mem_sockets => exact h.of_mem_sockets
  case closed =>
    have hself : Function.update L.next s L.closed_head s = L.closed_head :=
      Function.update_self _ _ _
    have hrest := h.closed.congr hnext
    rw [← hself] at hrest
    exact ⟨rfl, by simpa using hrest⟩
  case closed_nodup => exact List.nodup_cons.mpr ⟨hs.closed, h.closed_nodup⟩
  case of_mem_closed =>
    intro a ha
    rcases List.mem_cons.mp ha with rfl | ha
    · exact ⟨x, hx, Function.update_self _ _ _⟩
    · obtain ⟨y, hy, hp⟩ := h.of_mem_closed a ha
      refine ⟨y, hy, ?_⟩
      rw [← hp]
      exact Function.update_of_ne (ne_of_mem_of_not_mem ha hs.closed) _ _
  case context_live => exact h.context_live
  case apart => exact h.apart
  case socket_iterator => exact h.socket_iterator
  case context_iterator => exact h.context_iterator

/-- A block in no list is freed. -/
theorem erase (h : Threads A L q) (hs : A.Loose s) (n : Int) (live : List Addr) :
    Threads { A with live := live }
      { L with sockets := Function.update L.sockets s none, num_polls := n } q := by
  have hkeep : ∀ a, a ≠ s → Function.update L.sockets s none a = L.sockets a := fun a ha =>
    Function.update_of_ne ha _ _
  constructor
  case contexts => exact h.contexts
  case mem_contexts => exact h.mem_contexts
  case sockets => exact h.sockets
  case of_mem_sockets =>
    intro c' a ha
    obtain ⟨hc', y, hy, he⟩ := h.of_mem_sockets c' a ha
    exact ⟨hc', y, (hkeep a (ne_of_mem_of_not_mem ha (hs.sockets c'))).trans hy, he⟩
  case closed => exact h.closed
  case closed_nodup => exact h.closed_nodup
  case of_mem_closed =>
    intro a ha
    obtain ⟨y, hy, hp⟩ := h.of_mem_closed a ha
    exact ⟨y, (hkeep a (ne_of_mem_of_not_mem ha hs.closed)).trans hy, hp⟩
  case context_live =>
    intro a y hy
    exact h.context_live a y (of_update_none hy).2
  case apart =>
    intro c' hc'
    rcases eq_or_ne c' s with rfl | hne
    · exact Function.update_self _ _ _
    · exact (hkeep c' hne).trans (h.apart c' hc')
  case socket_iterator => exact h.socket_iterator
  case context_iterator => exact h.context_iterator

/-- The closed list without its head. -/
theorem pop {l : List Addr} (h : Threads A L q) (hl : A.closed = s :: l) :
    q = some s ∧ Threads { A with closed := l } L (L.next s) := by
  have hchain := h.closed
  have hnodup := h.closed_nodup
  rw [hl] at hchain hnodup
  refine ⟨hchain.1, ?_⟩
  exact { h with
    closed := hchain.2
    closed_nodup := (List.nodup_cons.mp hnodup).2
    of_mem_closed := fun a ha => h.of_mem_closed a (by rw [hl]; exact List.mem_cons_of_mem s ha) }

/-- A new block. -/
theorem new (h : Threads A L q) (hs : L.Fresh s) (hx : (L.contexts x.context).isSome)
    (hprev : ∀ a, a ≠ s → L'.prev a = L.prev a) (hnext : ∀ a, a ≠ s → L'.next a = L.next a)
    (hsockets : L'.sockets = Function.update L.sockets s (some x))
    (hcontexts : L'.contexts = L.contexts) (hcprev : L'.context_prev = L.context_prev)
    (hcnext : L'.context_next = L.context_next) (hhead : L'.head = L.head)
    (hiterator : L'.iterator = L.iterator) : Threads A L' q := by
  have hloose := h.loose_of_dead hs.1
  have hkeep : ∀ a, a ≠ s → L'.sockets a = L.sockets a := by
    intro a ha
    rw [hsockets]
    exact Function.update_of_ne ha _ _
  constructor
  case contexts => rw [hcprev, hcnext, hhead]; exact h.contexts
  case mem_contexts => rw [hcontexts]; exact h.mem_contexts
  case sockets =>
    intro c' ctx' hctx'
    rw [hcontexts] at hctx'
    refine (h.sockets c' ctx' hctx').congr (fun a ha => ?_) fun a ha => ?_
    · exact hprev a (ne_of_mem_of_not_mem ha (hloose.sockets c'))
    · exact hnext a (ne_of_mem_of_not_mem ha (hloose.sockets c'))
  case of_mem_sockets =>
    intro c' a ha
    obtain ⟨hc', y, hy, he⟩ := h.of_mem_sockets c' a ha
    rw [hcontexts]
    exact ⟨hc', y, (hkeep a (ne_of_mem_of_not_mem ha (hloose.sockets c'))).trans hy, he⟩
  case closed =>
    exact h.closed.congr fun a ha => hnext a (ne_of_mem_of_not_mem ha hloose.closed)
  case closed_nodup => exact h.closed_nodup
  case of_mem_closed =>
    intro a ha
    obtain ⟨y, hy, hp⟩ := h.of_mem_closed a ha
    have has := ne_of_mem_of_not_mem ha hloose.closed
    exact ⟨y, (hkeep a has).trans hy, (hprev a has).trans hp⟩
  case context_live =>
    intro a y hy
    rw [hcontexts]
    rw [hsockets] at hy
    rcases update_eq hy with ⟨-, he⟩ | ⟨-, hy⟩
    · obtain rfl := Option.some.inj he
      exact hx
    · exact h.context_live a y hy
  case apart =>
    intro c' hc'
    rw [hcontexts] at hc'
    have hne : c' ≠ s := by
      rintro rfl
      rw [hs.2] at hc'
      cases hc'
    exact (hkeep c' hne).trans (h.apart c' hc')
  case socket_iterator => rw [hcontexts]; exact h.socket_iterator
  case context_iterator => rw [hcontexts, hiterator]; exact h.context_iterator

/-- A new context. -/
theorem context (h : Threads A L q) (hc : L.Fresh c) :
    Threads (A.apply (.context c))
      { L with
        contexts := Function.update L.contexts c (some ⟨none, none⟩)
        context_prev := linkPrev L.context_prev L.head c
        context_next := linkNext L.context_next L.head c
        head := some c } q := by
  have hdead : ∀ c', (L.contexts c').isSome → c' ≠ c := by
    rintro c' hc' rfl
    rw [hc.2] at hc'
    cases hc'
  have hkeep : ∀ c', (L.contexts c').isSome →
      (Function.update L.contexts c (some ⟨none, none⟩) c').isSome := by
    intro c' hc'
    rw [Function.update_of_ne (hdead c' hc')]
    exact hc'
  have hempty : A.sockets c = [] := by
    refine List.eq_nil_iff_forall_not_mem.mpr fun s hs => ?_
    exact hdead c (h.of_mem_sockets c s hs).1 rfl
  constructor
  case contexts =>
    refine h.contexts.link fun hm => ?_
    exact hdead c ((h.mem_contexts c).mp hm) rfl
  case mem_contexts =>
    intro c'
    rcases eq_or_ne c' c with rfl | hne
    · simp [Lists.apply]
    · simp [Lists.apply, hne, h.mem_contexts]
  case sockets =>
    intro c' ctx' hctx'
    rcases update_eq hctx' with ⟨rfl, he⟩ | ⟨-, hctx'⟩
    · obtain rfl := Option.some.inj he
      show Linked L.prev L.next none (A.sockets c')
      rw [hempty]
      exact linked_nil
    · exact h.sockets c' ctx' hctx'
  case of_mem_sockets =>
    intro c' a ha
    obtain ⟨hc', hy⟩ := h.of_mem_sockets c' a ha
    exact ⟨hkeep c' hc', hy⟩
  case closed => exact h.closed
  case closed_nodup => exact h.closed_nodup
  case of_mem_closed => exact h.of_mem_closed
  case context_live =>
    intro a y hy
    exact hkeep y.context (h.context_live a y hy)
  case apart =>
    intro c' hc'
    rcases eq_or_ne c' c with rfl | hne
    · exact hc.1
    · have hold : Function.update L.contexts c (some ⟨none, none⟩) c' = L.contexts c' :=
        Function.update_of_ne hne _ _
      exact h.apart c' (hold ▸ hc')
  case socket_iterator =>
    intro c' ctx' a hctx' ha
    rcases update_eq hctx' with ⟨rfl, he⟩ | ⟨-, hctx'⟩
    · obtain rfl := Option.some.inj he
      cases ha
    · exact h.socket_iterator c' ctx' a hctx' ha
  case context_iterator =>
    intro c' hc'
    exact hkeep c' (h.context_iterator c' hc')

/-- The sweep goes on in a context. -/
theorem iterate (h : Threads A L q) (hctx : L.contexts c = some ctx) (p : Ptr)
    (hp : ∀ s, p = some s → s ∈ A.sockets c) :
    Threads A (L.setContext c { ctx with iterator := p }) q := by
  have hc : (L.contexts c).isSome := by rw [hctx]; rfl
  have hsome : ∀ c', ((L.setContext c { ctx with iterator := p }).contexts c').isSome
      = (L.contexts c').isSome := fun c' => isSome_update hc
  constructor
  case contexts => exact h.contexts
  case mem_contexts =>
    intro c'
    rw [hsome]
    exact h.mem_contexts c'
  case sockets =>
    intro c' ctx' hctx'
    rcases update_eq hctx' with ⟨rfl, he⟩ | ⟨-, hctx'⟩
    · obtain rfl := Option.some.inj he
      exact h.sockets c' ctx hctx
    · exact h.sockets c' ctx' hctx'
  case of_mem_sockets =>
    intro c' a ha
    rw [hsome]
    exact h.of_mem_sockets c' a ha
  case closed => exact h.closed
  case closed_nodup => exact h.closed_nodup
  case of_mem_closed => exact h.of_mem_closed
  case context_live =>
    intro a y hy
    rw [hsome]
    exact h.context_live a y hy
  case apart =>
    intro c' hc'
    rw [hsome] at hc'
    exact h.apart c' hc'
  case socket_iterator =>
    intro c' ctx' a hctx' ha
    rcases update_eq hctx' with ⟨rfl, he⟩ | ⟨-, hctx'⟩
    · obtain rfl := Option.some.inj he
      exact hp a ha
    · exact h.socket_iterator c' ctx' a hctx' ha
  case context_iterator =>
    intro c' hc'
    rw [hsome]
    exact h.context_iterator c' hc'

end Threads

end TestExamples.USockets
