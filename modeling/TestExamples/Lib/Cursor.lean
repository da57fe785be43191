/-
TestExamples/Lib/Cursor.lean

Going through a list that changes meanwhile.

A loop goes through a list with a pointer to the element it has come to.
`fromNode p l` is what it still has ahead: the part of `l` from `p` on, nothing
when the pointer is null.  Elements put in front of the list are not ahead
(`fromNode_cons`), and an element taken out does not change what else is ahead,
whether the pointer was at it and has been moved on (`Linked.mem_fromNode_unlink`)
or not (`mem_fromNode_erase`).  `Linked.fromNode_eq` is the step of the loop over
a list threaded through its nodes.
-/
import TestExamples.Lib.LinkedList

namespace TestExamples

variable {α : Type*} [DecidableEq α]

/-- The part of a list from a node on. -/
def fromNode : Option α → List α → List α
  | none, _ => []
  | some a, l => l.dropWhile (· ≠ a)

variable {p : Option α} {l l₁ l₂ : List α} {a s t : α}

@[simp] theorem fromNode_none : fromNode none l = [] := rfl

/-- What lies in front of the node does not matter. -/
theorem fromNode_append (h : ∀ a, p = some a → a ∉ l₁) :
    fromNode p (l₁ ++ l₂) = fromNode p l₂ := by
  rcases p with - | a
  · rfl
  · refine List.dropWhile_append_of_pos fun b hb => ?_
    have hne : b ≠ a := ne_of_mem_of_not_mem hb (h a rfl)
    simpa using hne

/-- From the first node on. -/
@[simp] theorem fromNode_head (l : List α) : fromNode l.head? l = l := by
  cases l with
  | nil => rfl
  | cons a l =>
      show (a :: l).dropWhile (· ≠ a) = a :: l
      rw [List.dropWhile_cons_of_neg (by simp)]

/-- A node put in front is not ahead. -/
theorem fromNode_cons (h : p ≠ some s) : fromNode p (s :: l) = fromNode p l := by
  have hs : ∀ a, p = some a → a ∉ [s] := fun a ha hm => h (by rw [ha, List.mem_singleton.mp hm])
  exact fromNode_append hs

/-- Taking out another node than the one the pointer is at. -/
theorem mem_fromNode_erase (h : p ≠ some s) (ht : t ≠ s) :
    t ∈ fromNode p (l.erase s) ↔ t ∈ fromNode p l := by
  rcases p with - | a
  · rfl
  · induction l with
    | nil => rfl
    | cons b l ih =>
        rcases eq_or_ne b s with rfl | hb
        · rw [List.erase_cons_head, fromNode_cons h]
        · rw [List.erase_cons_tail (by simpa using hb)]
          rcases eq_or_ne b a with rfl | hne
          · rw [show fromNode (some b) (b :: l.erase s) = b :: l.erase s from
                fromNode_head (b :: l.erase s),
              show fromNode (some b) (b :: l) = b :: l from fromNode_head (b :: l),
              List.mem_cons, List.mem_cons, List.mem_erase_of_ne ht]
          · have hp : (some a : Option α) ≠ some b := fun he => hne (Option.some.inj he).symm
            rw [fromNode_cons hp, fromNode_cons hp]
            exact ih

/-! ### Lists threaded through their nodes -/

section Linked

variable {prev next : α → Option α} {head : Option α}

/-- **A step through the list.**  The node the pointer is at is ahead, and then
what is ahead of the pointer moved on. -/
theorem Linked.fromNode_eq (h : Linked prev next head l) (hs : s ∈ l) :
    fromNode (some s) l = s :: fromNode (next s) l := by
  obtain ⟨l₁, l₂, rfl⟩ := List.append_of_mem hs
  have hnd := List.nodup_append.mp h.nodup
  have hs₁ : s ∉ l₁ := fun hm => hnd.2.2 s hm s (by simp) rfl
  have hs₂ : s ∉ l₂ := (List.nodup_cons.mp hnd.2.1).1
  have hhere : fromNode (some s) (l₁ ++ s :: l₂) = s :: l₂ := by
    rw [fromNode_append fun a ha => by cases ha; exact hs₁]
    exact fromNode_head (s :: l₂)
  have hahead : fromNode (next s) (l₁ ++ s :: l₂) = l₂ := by
    have hmem : ∀ a, l₂.head? = some a → a ∈ l₂ := fun a ha => List.mem_of_head? ha
    rw [h.pointers.2, fromNode_append fun a ha hm => ?_, fromNode_cons fun ha => ?_,
      fromNode_head]
    · exact hs₂ (hmem s ha)
    · exact hnd.2.2 a hm a (by simp [hmem a ha]) rfl
  rw [hhere, hahead]

/-- A node is not ahead of the one behind it. -/
theorem Linked.not_mem_fromNode_next (h : Linked prev next head l) (hs : s ∈ l) :
    s ∉ fromNode (next s) l := by
  have hnd : (fromNode (some s) l).Nodup := (List.dropWhile_sublist _).nodup h.nodup
  rw [h.fromNode_eq hs] at hnd
  exact (List.nodup_cons.mp hnd).1

/-- Taking out the node the pointer is at, and moving the pointer on. -/
theorem Linked.mem_fromNode_unlink (h : Linked prev next head l) (hs : s ∈ l) (ht : t ≠ s) :
    t ∈ fromNode (next s) (l.erase s) ↔ t ∈ fromNode (some s) l := by
  have hne : next s ≠ some s := fun hn => (h.next_mem hs hn).2 rfl
  rw [mem_fromNode_erase hne ht, h.fromNode_eq hs, List.mem_cons]
  exact ⟨Or.inr, fun hm => hm.resolve_left ht⟩

end Linked

end TestExamples
