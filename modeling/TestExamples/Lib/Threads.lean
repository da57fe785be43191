/-
TestExamples/Lib/Threads.lean

Sums over the threads of a group.

The threads of a group are numbered below `n`; `f` says where each of them is.
`total n g f` is the sum of what `g` gives for these places: with a `g` that is
0 or 1 the number of threads at the places `g` selects.  One thread that moves
changes the sum by the difference at its place (`total_update`), and a sum of
zeros is zero everywhere (`total_eq_zero`).
-/
import Mathlib.Algebra.BigOperators.Group.Finset.Basic
import Mathlib.Algebra.Order.BigOperators.Group.Finset
import Mathlib.Data.Nat.Cast.Order.Basic

namespace TestExamples

open Finset

variable {π : Type*}

/-- The sum of `g` over the places of the first `n` threads. -/
def total (n : Nat) (g : π → Nat) (f : Nat → π) : Nat := ∑ i ∈ range n, g (f i)

section Total

variable {n : Nat} {g : π → Nat} {f f' : Nat → π}

/-- **One thread moves.** -/
theorem total_update {w : Nat} (hw : w < n) (g : π → Nat) (f : Nat → π) (q : π) :
    total n g (Function.update f w q) + g (f w) = total n g f + g q := by
  have hmem : w ∈ range n := mem_range.mpr hw
  unfold total
  rw [← add_sum_erase _ _ hmem, ← add_sum_erase (range n) (fun i => g (f i)) hmem,
    Function.update_self]
  have hrest : ∑ i ∈ (range n).erase w, g (Function.update f w q i) =
      ∑ i ∈ (range n).erase w, g (f i) := by
    apply sum_congr rfl
    intro i hi
    rw [Function.update_of_ne (ne_of_mem_erase hi)]
  rw [hrest]
  omega

theorem total_congr {π' : Type*} {g' : π' → Nat} {f' : Nat → π'}
    (h : ∀ i, i < n → g (f i) = g' (f' i)) : total n g f = total n g' f' := by
  apply sum_congr rfl
  intro i hi
  exact h i (mem_range.mp hi)

theorem total_le {π' : Type*} {g' : π' → Nat} {f' : Nat → π'}
    (h : ∀ i, i < n → g (f i) ≤ g' (f' i)) : total n g f ≤ total n g' f' := by
  apply sum_le_sum
  intro i hi
  exact h i (mem_range.mp hi)

theorem total_eq_zero : total n g f = 0 ↔ ∀ i, i < n → g (f i) = 0 := by
  unfold total
  rw [sum_eq_zero_iff]
  exact forall_congr' fun i => by rw [mem_range]

/-- A thread that moves to a place of the same weight. -/
theorem total_update_eq {w : Nat} (hw : w < n) {q : π} (h : g q = g (f w)) :
    total n g (Function.update f w q) = total n g f := by
  have hmove := total_update hw g f q
  omega

theorem le_total_of_le {m : Nat} (h : ∀ i, i < n → m ≤ g (f i)) : n * m ≤ total n g f := by
  have hle : ∑ _i ∈ range n, m ≤ total n g f :=
    sum_le_sum fun i hi => h i (mem_range.mp hi)
  rwa [sum_const_nat fun _ _ => rfl, card_range] at hle

theorem total_le_of_le {m : Nat} (h : ∀ i, i < n → g (f i) ≤ m) : total n g f ≤ n * m := by
  have hle : total n g f ≤ ∑ _i ∈ range n, m :=
    sum_le_sum fun i hi => h i (mem_range.mp hi)
  rwa [sum_const_nat fun _ _ => rfl, card_range] at hle

/-- A sum that reaches the bound in all places together reaches it in each. -/
theorem eq_of_total_ge {m : Nat} (hle : ∀ i, i < n → g (f i) ≤ m) (hge : n * m ≤ total n g f) :
    ∀ i, i < n → g (f i) = m := by
  intro i hi
  by_contra hne
  have hlt : total n g f < ∑ _j ∈ range n, m := by
    refine sum_lt_sum (fun j hj => hle j (mem_range.mp hj)) ⟨i, mem_range.mpr hi, ?_⟩
    exact Nat.lt_of_le_of_ne (hle i hi) hne
  rw [sum_const_nat fun _ _ => rfl, card_range] at hlt
  omega

/-- Some thread is where `g` counts. -/
theorem exists_of_total_pos (h : 0 < total n g f) : ∃ i, i < n ∧ 0 < g (f i) := by
  by_contra hno
  have hzero : total n g f = 0 := total_eq_zero.mpr fun i hi => by
    by_contra hne
    exact hno ⟨i, hi, Nat.pos_of_ne_zero hne⟩
  omega

theorem weight_le_total {w : Nat} (hw : w < n) : g (f w) ≤ total n g f :=
  single_le_sum (f := fun i => g (f i)) (fun _ _ => Nat.zero_le _) (mem_range.mpr hw)

/-- Only one thread is where `g` counts. -/
theorem total_single {w : Nat} (hw : w < n) (h : ∀ i, i < n → i ≠ w → g (f i) = 0) :
    total n g f = g (f w) :=
  sum_eq_single w (fun i hi hne => h i (mem_range.mp hi) hne)
    fun hno => absurd (mem_range.mpr hw) hno

/-- What holds in every place counted still does when the sums are the same. -/
theorem forall_of_total {P : π → Prop} (htotal : ∀ g : π → Nat, total n g f' = total n g f)
    (h : ∀ i, i < n → P (f i)) : ∀ i, i < n → P (f' i) := by
  classical
  have hzero : total n (fun a => if P a then 0 else 1) f' = 0 := by
    rw [htotal]
    exact total_eq_zero.mpr fun i hi => if_pos (h i hi)
  intro i hi
  by_contra hno
  exact absurd (total_eq_zero.mp hzero i hi) (by rw [if_neg hno]; exact Nat.one_ne_zero)

/-! ### Longer and nested sums -/

theorem total_zero : total 0 g f = 0 := rfl

theorem total_succ : total (n + 1) g f = total n g f + g (f n) := sum_range_succ _ n

theorem total_add (m : Nat) : total (n + m) g f = total n g f + total m g fun i => f (n + i) :=
  sum_range_add _ n m

theorem total_add_weights (n : Nat) (g g' : π → Nat) (f : Nat → π) :
    total n (fun x => g x + g' x) f = total n g f + total n g' f := sum_add_distrib

/-- The sum over a square, by rows and by columns. -/
theorem total_comm {α : Type*} (g : α → Nat) (f : Nat → Nat → α) :
    total n (total n g) f = total n (fun j => total n g fun i => f i j) id :=
  sum_comm

end Total

end TestExamples
