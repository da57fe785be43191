/-
TestExamples/Lib/BubbleSort.lean

Bubble sort by adjacent exchanges.

A line is a function on indices.  `exchange le x j` swaps the elements at `j`
and `j + 1` unless they stand in the order `le`; `bubblePasses n` is the order
in which the two loops of bubble sort visit the first `n` elements.  A pass
takes a largest element to its end (`le_of_pass`), so the elements end up in
order (`ordered_bubbleSort`), and they are the same elements (`total_bubbleSort`).
`le` is any total and transitive relation: `≤` for ascending order, `≥` for
descending.
-/
import Mathlib.Logic.Function.Basic
import TestExamples.Lib.Threads

namespace TestExamples

variable {α : Type*}

/-- Put two neighbours in order. -/
def exchange (le : α → α → Prop) [DecidableRel le] (x : Nat → α) (j : Nat) : Nat → α :=
  if le (x j) (x (j + 1)) then x
  else Function.update (Function.update x j (x (j + 1))) (j + 1) (x j)

/-- The indices of the exchanges: the passes below `n - 1`, `n - 2`, ..., 1. -/
def bubblePasses (n : Nat) : List Nat := (List.range n).reverse.flatMap List.range

theorem bubblePasses_succ (n : Nat) : bubblePasses (n + 1) = List.range n ++ bubblePasses n := by
  unfold bubblePasses
  rw [List.range_succ, List.reverse_append, List.flatMap_append]
  simp

theorem succ_lt_of_mem_bubblePasses {n j : Nat} (h : j ∈ bubblePasses n) : j + 1 < n := by
  obtain ⟨i, hi, hj⟩ := List.mem_flatMap.mp h
  rw [List.mem_reverse, List.mem_range] at hi
  exact Nat.lt_of_le_of_lt (List.mem_range.mp hj) hi

section Exchange

variable {le : α → α → Prop} [DecidableRel le] {x : Nat → α} {n m i j : Nat}

theorem exchange_of_ne (hj : i ≠ j) (hj' : i ≠ j + 1) : exchange le x j i = x i := by
  unfold exchange
  split
  · rfl
  · rw [Function.update_of_ne hj', Function.update_of_ne hj]

/-- The two elements are the ones that were there. -/
theorem exchange_pair (le : α → α → Prop) [DecidableRel le] (x : Nat → α) (j : Nat) :
    le (x j) (x (j + 1)) ∧ exchange le x j j = x j ∧ exchange le x j (j + 1) = x (j + 1) ∨
      ¬ le (x j) (x (j + 1)) ∧ exchange le x j j = x (j + 1) ∧
        exchange le x j (j + 1) = x j := by
  unfold exchange
  split
  · next hle => exact .inl ⟨hle, rfl, rfl⟩
  · next hle =>
    refine .inr ⟨hle, ?_, Function.update_self ..⟩
    rw [Function.update_of_ne (Nat.ne_of_lt (Nat.lt_succ_self j)), Function.update_self]

/-- An exchange keeps the elements. -/
theorem total_exchange (f : α → Nat) (hj : j + 1 < n) :
    total n f (exchange le x j) = total n f x := by
  unfold exchange
  split
  · rfl
  · have h₁ := total_update (Nat.lt_of_succ_lt hj) f x (x (j + 1))
    have h₂ := total_update hj f (Function.update x j (x (j + 1))) (x j)
    have hne : j + 1 ≠ j := Nat.succ_ne_self j
    rw [Function.update_of_ne hne] at h₂
    omega

/-- Exchanges among the first `n` elements keep them, and the others. -/
theorem total_foldl_exchange (f : α → Nat) {js : List Nat} (hjs : ∀ j ∈ js, j + 1 < n) :
    total n f (js.foldl (exchange le) x) = total n f x := by
  induction js generalizing x with
  | nil => rfl
  | cons j js ih =>
      rw [List.foldl_cons, ih fun k hk => hjs k (List.mem_cons_of_mem _ hk)]
      exact total_exchange f (hjs j (List.mem_cons_self ..))

theorem foldl_exchange_of_ge {js : List Nat} (hjs : ∀ j ∈ js, j + 1 < n) (hi : n ≤ i) :
    js.foldl (exchange le) x i = x i := by
  induction js generalizing x with
  | nil => rfl
  | cons j js ih =>
      have hj := hjs j (List.mem_cons_self ..)
      rw [List.foldl_cons, ih fun k hk => hjs k (List.mem_cons_of_mem _ hk)]
      exact exchange_of_ne (by omega) (by omega)

end Exchange

/-! ### The sort -/

section Bubble

variable {le : α → α → Prop} [DecidableRel le] {n m : Nat} {x : Nat → α}

/-- Bubble sort of the first `n` elements. -/
def bubbleSort (le : α → α → Prop) [DecidableRel le] (n : Nat) (x : Nat → α) : Nat → α :=
  (bubblePasses n).foldl (exchange le) x

theorem bubbleSort_succ :
    bubbleSort le (n + 1) x = bubbleSort le n ((List.range n).foldl (exchange le) x) := by
  unfold bubbleSort
  rw [bubblePasses_succ, List.foldl_append]

theorem total_bubbleSort (f : α → Nat) : total n f (bubbleSort le n x) = total n f x :=
  total_foldl_exchange f fun _ => succ_lt_of_mem_bubblePasses

theorem bubbleSort_of_ge {i : Nat} (hi : n ≤ i) : bubbleSort le n x i = x i :=
  foldl_exchange_of_ge (fun _ => succ_lt_of_mem_bubblePasses) hi

variable (htotal : ∀ a b, le a b ∨ le b a) (htrans : ∀ {a b c}, le a b → le b c → le a c)

include htotal htrans in
/-- A pass takes a largest element to its end. -/
theorem le_of_pass (n : Nat) (x : Nat → α) :
    ∀ i, i < n → le ((List.range n).foldl (exchange le) x i)
      ((List.range n).foldl (exchange le) x n) := by
  induction n with
  | zero => exact fun i hi => absurd hi (Nat.not_lt_zero i)
  | succ n ih =>
      rw [List.range_succ, List.foldl_append, List.foldl_cons, List.foldl_nil]
      intro i hi
      have hpair := exchange_pair le ((List.range n).foldl (exchange le) x) n
      rcases Nat.lt_succ_iff_lt_or_eq.mp hi with hlt | rfl
      · rw [exchange_of_ne (Nat.ne_of_lt hlt) (Nat.ne_of_lt hi)]
        rcases hpair with ⟨hle, -, he⟩ | ⟨-, -, he⟩ <;> rw [he]
        · exact htrans (ih i hlt) hle
        · exact ih i hlt
      · rcases hpair with ⟨hle, he, he'⟩ | ⟨hle, he, he'⟩ <;> rw [he, he']
        · exact hle
        · exact (htotal _ _).resolve_left hle

include htotal htrans in
/-- **Bubble sort sorts.** -/
theorem ordered_bubbleSort (n : Nat) (x : Nat → α) :
    ∀ i j, i < j → j < n → le (bubbleSort le n x i) (bubbleSort le n x j) := by
  induction n generalizing x with
  | zero => exact fun i j _ hj => absurd hj (Nat.not_lt_zero j)
  | succ n ih =>
      rw [bubbleSort_succ]
      intro i j hij hj
      rcases Nat.lt_succ_iff_lt_or_eq.mp hj with hlt | rfl
      · exact ih _ i j hij hlt
      · -- the rest of the sort leaves the end of the pass in place, above the others
        rw [bubbleSort_of_ge (Nat.le_refl j)]
        refine forall_of_total (P := fun a => le a _) (fun f => ?_) (le_of_pass htotal htrans j x)
          i hij
        exact total_bubbleSort f

end Bubble

end TestExamples
