/-
TestExamples/Lib/LinkedList.lean

Lists that are threaded through the nodes they hold.

The nodes are the elements of `α`; `prev` and `next` are the two pointers each
of them carries and `none` is the null pointer.  `Linked prev next head l` says
that the nodes of `l`, in this order, are what is found from `head` on.  Putting
a node in front and taking one out change at most three pointers, and the
functions `linkPrev`, `linkNext`, `unlinkPrev`, `unlinkNext` and `unlinkHead` are
these changes; `Linked.link` and `Linked.unlink` are what they do to `l`.

`Chain` is the list that is only threaded forwards.
-/
import Mathlib.Data.List.Nodup
import Mathlib.Logic.Function.Basic

namespace TestExamples

variable {α : Type*}

/-- `Span prev next p l q`: the nodes of `l` hang together, with the pointer `p`
in front of the first and the pointer `q` behind the last. -/
def Span (prev next : α → Option α) : Option α → List α → Option α → Prop
  | _, [], _ => True
  | p, a :: l, q => prev a = p ∧ next a = l.head?.or q ∧ Span prev next (some a) l q

/-- The list that begins at `head` has the nodes `l`. -/
structure Linked (prev next : α → Option α) (head : Option α) (l : List α) : Prop where
  head_eq : head = l.head?
  span : Span prev next none l none
  nodup : l.Nodup

/-- The list found from a pointer on by following `next`. -/
def Chain (next : α → Option α) : Option α → List α → Prop
  | p, [] => p = none
  | p, a :: l => p = some a ∧ Chain next (next a) l

/-! ### Spans -/

section Span

variable {prev next prev' next' : α → Option α} {p q : Option α} {l l₁ l₂ : List α} {a : α}

theorem span_append :
    Span prev next p (l₁ ++ l₂) q ↔
      Span prev next p l₁ (l₂.head?.or q) ∧ Span prev next (l₁.getLast?.or p) l₂ q := by
  induction l₁ generalizing p with
  | nil => simp [Span]
  | cons a l ih =>
      have hhead : (l ++ l₂).head?.or q = l.head?.or (l₂.head?.or q) := by
        cases l <;> rfl
      have hlast : l.getLast?.or (some a) = (a :: l).getLast?.or p := by
        cases l with
        | nil => rfl
        | cons b l => simp [List.getLast?_cons]
      simp only [List.cons_append, Span, ih, hhead, hlast, and_assoc]

/-- A span only speaks of the pointers of its own nodes. -/
theorem Span.congr (h : Span prev next p l q) (hprev : ∀ a ∈ l, prev' a = prev a)
    (hnext : ∀ a ∈ l, next' a = next a) : Span prev' next' p l q := by
  induction l generalizing p with
  | nil => trivial
  | cons a l ih =>
      obtain ⟨hp, hn, hl⟩ := h
      refine ⟨(hprev a (by simp)).trans hp, (hnext a (by simp)).trans hn, ?_⟩
      exact ih hl (fun b hb => hprev b (by simp [hb])) fun b hb => hnext b (by simp [hb])

/-- The pointers of a node in the middle. -/
theorem Span.middle (h : Span prev next p (l₁ ++ a :: l₂) q) :
    prev a = l₁.getLast?.or p ∧ next a = l₂.head?.or q := by
  obtain ⟨-, hp, hn, -⟩ := span_append.mp h
  exact ⟨hp, hn⟩

/-- The last node can be made to point elsewhere. -/
theorem Span.setNext [DecidableEq α] (h : Span prev next p (l ++ [a]) q) (ha : a ∉ l)
    (q' : Option α) : Span prev (Function.update next a q') p (l ++ [a]) q' := by
  obtain ⟨hl, hp, -, -⟩ := span_append.mp h
  refine span_append.mpr ⟨?_, hp, by simp, trivial⟩
  refine hl.congr (fun _ _ => rfl) fun b hb => ?_
  exact Function.update_of_ne (ne_of_mem_of_not_mem hb ha) _ _

/-- The first node can be made to point elsewhere. -/
theorem Span.setPrev [DecidableEq α] (h : Span prev next p (a :: l) q) (ha : a ∉ l)
    (p' : Option α) : Span (Function.update prev a p') next p' (a :: l) q := by
  obtain ⟨-, hn, hl⟩ := h
  refine ⟨by simp, hn, hl.congr (fun b hb => ?_) fun _ _ => rfl⟩
  exact Function.update_of_ne (ne_of_mem_of_not_mem hb ha) _ _

end Span

/-! ### Chains -/

section Chain

variable {next next' : α → Option α} {p : Option α} {l l' : List α} {a : α}

theorem Chain.congr (h : Chain next p l) (hnext : ∀ a ∈ l, next' a = next a) :
    Chain next' p l := by
  induction l generalizing p with
  | nil => exact h
  | cons a l ih =>
      obtain ⟨rfl, hl⟩ := h
      refine ⟨rfl, ?_⟩
      rw [hnext a (by simp)]
      exact ih hl fun b hb => hnext b (by simp [hb])

/-- The pointers leave no choice: what is found from a pointer on is one list. -/
theorem Chain.unique (h : Chain next p l) (h' : Chain next p l') : l = l' := by
  induction l generalizing p l' with
  | nil =>
      cases l' with
      | nil => rfl
      | cons b l' =>
          have hp : p = none := h
          rw [hp] at h'
          exact absurd h'.1 (by simp)
  | cons a l ih =>
      obtain ⟨rfl, hl⟩ := h
      cases l' with
      | nil => exact absurd (show some a = none from h') (by simp)
      | cons b l' =>
          obtain ⟨hb, hl'⟩ := h'
          obtain rfl := Option.some.inj hb
          rw [ih hl hl']

/-- A span that ends in the null pointer is found by following `next`. -/
theorem Span.chain {prev : α → Option α} {p : Option α} (h : Span prev next p l none) :
    Chain next l.head? l := by
  induction l generalizing p with
  | nil => rfl
  | cons a l ih =>
      obtain ⟨-, hn, hl⟩ := h
      refine ⟨rfl, ?_⟩
      rw [hn, Option.or_none]
      exact ih hl

theorem Linked.chain {prev : α → Option α} {head : Option α} (h : Linked prev next head l) :
    Chain next head l := by
  rw [h.head_eq]
  exact h.span.chain

end Chain

/-! ### Putting in and taking out -/

section Change

variable {prev next prev' next' : α → Option α} {head : Option α} {l l₁ l₂ : List α} {a s : α}

theorem Linked.congr (h : Linked prev next head l) (hprev : ∀ a ∈ l, prev' a = prev a)
    (hnext : ∀ a ∈ l, next' a = next a) : Linked prev' next' head l :=
  ⟨h.head_eq, h.span.congr hprev hnext, h.nodup⟩

theorem linked_nil : Linked prev next none ([] : List α) :=
  ⟨rfl, trivial, List.nodup_nil⟩

/-- The neighbours of a node, as its pointers give them. -/
theorem Linked.pointers (h : Linked prev next head (l₁ ++ s :: l₂)) :
    prev s = l₁.getLast? ∧ next s = l₂.head? := by
  obtain ⟨hp, hn⟩ := h.span.middle
  exact ⟨by rw [hp, Option.or_none], by rw [hn, Option.or_none]⟩

/-- The pointer back leads to another node of the list. -/
theorem Linked.prev_mem (h : Linked prev next head l) (hs : s ∈ l) (hp : prev s = some a) :
    a ∈ l ∧ a ≠ s := by
  obtain ⟨l₁, l₂, rfl⟩ := List.append_of_mem hs
  have ha : a ∈ l₁ := List.mem_of_getLast? (h.pointers.1.symm.trans hp)
  refine ⟨by simp [ha], fun he => ?_⟩
  exact (List.nodup_append.mp h.nodup).2.2 a ha s (by simp) he

/-- The pointer ahead leads to another node of the list. -/
theorem Linked.next_mem (h : Linked prev next head l) (hs : s ∈ l) (hn : next s = some a) :
    a ∈ l ∧ a ≠ s := by
  obtain ⟨l₁, l₂, rfl⟩ := List.append_of_mem hs
  have ha : a ∈ l₂ := List.mem_of_head? (h.pointers.2.symm.trans hn)
  refine ⟨by simp [ha], fun he => ?_⟩
  have hnd := (List.nodup_append.mp h.nodup).2.1
  exact (List.nodup_cons.mp hnd).1 (he ▸ ha)

/-- The two pointers of a node agree just when it is alone in its list. -/
theorem Linked.prev_eq_next_iff (h : Linked prev next head (l₁ ++ s :: l₂)) :
    prev s = next s ↔ l₁ = [] ∧ l₂ = [] := by
  obtain ⟨hp, hn⟩ := h.pointers
  constructor
  · intro he
    rcases hl : l₁.getLast? with - | a
    · refine ⟨List.getLast?_eq_none_iff.mp hl, ?_⟩
      rw [hp, hn, hl] at he
      exact List.head?_eq_none_iff.mp he.symm
    · have ha : a ∈ l₁ := List.mem_of_getLast? hl
      have ha' : a ∈ l₂ := List.mem_of_head? (by rw [← hn, ← he, hp, hl])
      exact absurd rfl ((List.nodup_append.mp h.nodup).2.2 a ha a (by simp [ha']))
  · rintro ⟨rfl, rfl⟩
    rw [hp, hn]
    rfl

variable [DecidableEq α]

/-- The pointers back, when `s` has been put in front. -/
def linkPrev (prev : α → Option α) (head : Option α) (s : α) : α → Option α :=
  match head with
  | some h => Function.update (Function.update prev s none) h (some s)
  | none => Function.update prev s none

/-- The pointers ahead, when `s` has been put in front. -/
def linkNext (next : α → Option α) (head : Option α) (s : α) : α → Option α :=
  Function.update next s head

/-- The pointers back, when `s` has been taken out. -/
def unlinkPrev (prev next : α → Option α) (s : α) : α → Option α :=
  match next s with
  | some n => Function.update prev n (prev s)
  | none => prev

/-- The pointers ahead, when `s` has been taken out. -/
def unlinkNext (prev next : α → Option α) (s : α) : α → Option α :=
  match prev s with
  | some p => Function.update next p (next s)
  | none => next

/-- The first node, when `s` has been taken out. -/
def unlinkHead (prev next : α → Option α) (head : Option α) (s : α) : Option α :=
  match prev s with
  | some _ => head
  | none => next s

theorem linkPrev_of_not_mem (hs : a ≠ s) (ha : a ∉ l) (h : Linked prev next head l) :
    linkPrev prev head s a = prev a := by
  rw [h.head_eq]
  cases l with
  | nil => exact Function.update_of_ne hs _ _
  | cons b l =>
      have hb : a ≠ b := fun he => ha (by simp [he])
      show Function.update (Function.update prev s none) b (some s) a = prev a
      rw [Function.update_of_ne hb, Function.update_of_ne hs]

/-- **A node put in front.** -/
theorem Linked.link (h : Linked prev next head l) (hs : s ∉ l) :
    Linked (linkPrev prev head s) (linkNext next head s) (some s) (s :: l) := by
  refine ⟨rfl, ?_, List.nodup_cons.mpr ⟨hs, h.nodup⟩⟩
  have hnext : ∀ a ∈ l, linkNext next head s a = next a := fun a ha =>
    Function.update_of_ne (ne_of_mem_of_not_mem ha hs) _ _
  have hself : linkNext next head s s = l.head?.or none := by
    simp [linkNext, h.head_eq]
  cases l with
  | nil =>
      refine ⟨?_, hself, trivial⟩
      rw [h.head_eq]
      exact Function.update_self _ _ _
  | cons b l =>
      have hb : s ≠ b := fun he => hs (by simp [he])
      have hlink : linkPrev prev head s
          = Function.update (Function.update prev s none) b (some s) := by
        rw [h.head_eq]
        rfl
      refine ⟨?_, hself, ?_⟩
      · rw [hlink, Function.update_of_ne hb, Function.update_self]
      · have hspan : Span (Function.update prev s none) (linkNext next head s) none (b :: l)
            none := by
          refine h.span.congr (fun a ha => ?_) hnext
          exact Function.update_of_ne (ne_of_mem_of_not_mem ha hs) _ _
        rw [hlink]
        exact hspan.setPrev (List.nodup_cons.mp h.nodup).1 (some s)

/-- **A node taken out.** -/
theorem Linked.unlink (h : Linked prev next head (l₁ ++ s :: l₂)) :
    Linked (unlinkPrev prev next s) (unlinkNext prev next s) (unlinkHead prev next head s)
      (l₁ ++ l₂) := by
  obtain ⟨hp, hn⟩ := h.pointers
  obtain ⟨hspan₁, -, -, hspan₂⟩ := span_append.mp h.span
  have hnd := List.nodup_append.mp h.nodup
  have hapart : ∀ a ∈ l₁, a ∉ l₂ := fun a ha hb => hnd.2.2 a ha a (by simp [hb]) rfl
  -- the part in front: its last node points past `s`
  have hfront : Span (unlinkPrev prev next s) (unlinkNext prev next s) none l₁ l₂.head? := by
    have hprev : ∀ a ∈ l₁, unlinkPrev prev next s a = prev a := by
      intro a ha
      unfold unlinkPrev
      rw [hn]
      cases l₂ with
      | nil => rfl
      | cons n l₂ => exact Function.update_of_ne (fun he => hapart a ha (by simp [he])) _ _
    rcases List.eq_nil_or_concat' l₁ with rfl | ⟨l, p, rfl⟩
    · trivial
    · have hlast : p ∉ l := fun hm => (List.nodup_append.mp hnd.1).2.2 p hm p (by simp) rfl
      have hset := (hspan₁.setNext hlast l₂.head?).congr hprev fun _ _ => rfl
      have hnext : unlinkNext prev next s = Function.update next p l₂.head? := by
        unfold unlinkNext
        rw [hp, hn, List.getLast?_concat]
      rw [hnext]
      exact hset
  -- the part behind: its first node points back past `s`
  have hback : Span (unlinkPrev prev next s) (unlinkNext prev next s) l₁.getLast? l₂ none := by
    have hnext : ∀ a ∈ l₂, unlinkNext prev next s a = next a := by
      intro a ha
      unfold unlinkNext
      rw [hp]
      rcases hl : l₁.getLast? with - | p
      · rfl
      · have hm : p ∈ l₁ := List.mem_of_getLast? hl
        exact Function.update_of_ne (ne_of_mem_of_not_mem ha (hapart p hm)) _ _
    cases l₂ with
    | nil => trivial
    | cons n l₂ =>
        have hfirst : n ∉ l₂ := (List.nodup_cons.mp (List.nodup_cons.mp hnd.2.1).2).1
        have hset := (hspan₂.setPrev hfirst l₁.getLast?).congr (fun _ _ => rfl) hnext
        have hprev : unlinkPrev prev next s = Function.update prev n l₁.getLast? := by
          unfold unlinkPrev
          rw [hn, hp]
          rfl
        rw [hprev]
        exact hset
  refine ⟨?_, span_append.mpr ⟨by rwa [Option.or_none], by rwa [Option.or_none]⟩, ?_⟩
  · unfold unlinkHead
    rw [hp, hn, h.head_eq]
    cases l₁ with
    | nil => rfl
    | cons b l₁ => simp [List.getLast?_cons]
  · exact h.nodup.sublist (List.Sublist.append_left (List.sublist_cons_self s l₂) l₁)

/-- Taking a node out leaves the pointers of the nodes of no concern to it. -/
theorem Linked.unlinkPrev_of_not_mem (h : Linked prev next head l) (hs : s ∈ l) (ha : a ∉ l) :
    unlinkPrev prev next s a = prev a := by
  unfold unlinkPrev
  rcases hn : next s with - | n
  · rfl
  · have hm := (h.next_mem hs hn).1
    exact Function.update_of_ne (ne_of_mem_of_not_mem hm ha).symm _ _

theorem Linked.unlinkNext_of_not_mem (h : Linked prev next head l) (hs : s ∈ l) (ha : a ∉ l) :
    unlinkNext prev next s a = next a := by
  unfold unlinkNext
  rcases hp : prev s with - | p
  · rfl
  · have hm := (h.prev_mem hs hp).1
    exact Function.update_of_ne (ne_of_mem_of_not_mem hm ha).symm _ _

end Change

end TestExamples
