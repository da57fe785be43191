/-
TestExamples/ConcurrentSortRounds.lean

One phase, and one round, of the parallel sort.

The workers of a phase share the grid, but the loops of each stay on its row
or on its column.  Every interleaving of them leaves the grid that worker
`0`, `1`, ..., `size - 1` leave one behind the other, and in it every row, or
every column, is sorted (`phase_iff_inOrder`).

A phase of rows and one of columns behind it are a round.  It halves the rows
that are mixed at a threshold (`dirtyRows_of_round`).
-/
import Mathlib.Data.List.Sort
import TestExamples.ConcurrentSortShear

namespace TestExamples

namespace Grid

/-- The row at `id`. -/
def row (size : Nat) (arr : Grid) (id : Nat) : List Int := (List.range size).map (arr id)

/-- The column at `id`. -/
def col (size : Nat) (arr : Grid) (id : Nat) : List Int := (List.range size).map fun i => arr i id

end Grid

/-! ### A sorted line -/

section Line

variable {le : Int → Int → Prop} [DecidableRel le] {n : Nat} {x : Nat → Int}

/-- What bubble sort leaves is the sorted list of the line. -/
theorem map_bubbleSort [Std.Total le] [IsTrans Int le] [Std.Antisymm le] (n : Nat)
    (x : Nat → Int) :
    (List.range n).map (bubbleSort le n x) = ((List.range n).map x).insertionSort le := by
  have hperm : ((List.range n).map (bubbleSort le n x)).Perm ((List.range n).map x) := by
    rw [List.perm_iff_count]
    intro a
    rw [ConcurrentSort.count_map_range, ConcurrentSort.count_map_range]
    exact total_bubbleSort _
  have htotal : ∀ a b, le a b ∨ le b a := Std.Total.total
  have htrans : ∀ {a b c}, le a b → le b c → le a c := fun h h' => IsTrans.trans _ _ _ h h'
  have hsorted : ((List.range n).map (bubbleSort le n x)).Pairwise le := by
    rw [List.pairwise_iff_getElem]
    intro i j hi hj hij
    rw [List.length_map, List.length_range] at hj
    simp only [List.getElem_map, List.getElem_range]
    exact ordered_bubbleSort htotal htrans n x i j hij hj
  exact (hperm.trans (List.perm_insertionSort le _).symm).eq_of_pairwise' hsorted
    (List.pairwise_insertionSort le _)

end Line

namespace ConcurrentSort

/-- The loops of a phase, one worker behind the other. -/
def inOrder (size phase : Nat) (arr : Grid) : Grid :=
  (List.range size).foldl
    (fun arr id => (phaseLoop size id phase).foldl (fun arr c => c.run arr) arr) arr

/-- What a phase is for: `arr'` is `arr` with the rows, or the columns, sorted. -/
structure PhaseSorted (size phase : Nat) (arr arr' : Grid) : Prop where
  evenRows : phase % 2 = 1 → ∀ id, id < size → id % 2 = 0 →
    arr'.row size id = (arr.row size id).insertionSort (· ≤ ·)
  oddRows : phase % 2 = 1 → ∀ id, id < size → id % 2 = 1 →
    arr'.row size id = (arr.row size id).insertionSort (· ≥ ·)
  cols : phase % 2 = 0 → ∀ id, id < size →
    arr'.col size id = (arr.col size id).insertionSort (· ≤ ·)
  perm : (arr'.cells size).Perm (arr.cells size)

section Phase

variable {size phase id : Nat} {arr arr' : Grid}

theorem phase_inOrder (size phase : Nat) (arr : Grid) :
    Phase size phase arr (inOrder size phase arr) := by
  refine ⟨_, Interleaves.inOrder Cas.run _ arr size (Nat.le_refl size), fun id hid => ?_⟩
  exact if_pos hid

theorem row_of_ge (hodd : phase % 2 = 1) (h : Phase size phase arr arr') (hid : size ≤ id) :
    arr' id = arr id := by
  obtain ⟨rest, hi, -⟩ := h
  refine hi.keep (fun g => g id = arr id) rfl fun w c g hw hc hg => ?_
  obtain ⟨h₁, h₂, h₃⟩ := mem_phaseLoop_odd hodd hc
  rw [Cas.run_row h₁ h₂ h₃, Function.update_of_ne (by omega)]
  exact hg

theorem col_of_ge (heven : phase % 2 = 0) (h : Phase size phase arr arr') (hid : size ≤ id) :
    (fun i => arr' i id) = fun i => arr i id := by
  obtain ⟨rest, hi, -⟩ := h
  refine hi.keep (fun g => (fun i => g i id) = fun i => arr i id) rfl fun w c g hw hc hg => ?_
  obtain ⟨h₁, h₂, -⟩ := mem_phaseLoop_even heven hc
  rw [Cas.run_col_of_ne h₁ h₂ (by omega)]
  exact hg

/-- **A phase has one outcome.** -/
theorem phase_unique {arr₁ arr₂ : Grid} (h₁ : Phase size phase arr arr₁)
    (h₂ : Phase size phase arr arr₂) : arr₁ = arr₂ := by
  rcases Nat.mod_two_eq_zero_or_one phase with heven | hodd
  · -- column by column
    have hcol : ∀ j, (fun i => arr₁ i j) = fun i => arr₂ i j := by
      intro j
      rcases Nat.lt_or_ge j size with hj | hj
      · rw [col_of_phase heven h₁ hj, col_of_phase heven h₂ hj]
      · rw [col_of_ge heven h₁ hj, col_of_ge heven h₂ hj]
    funext i j
    exact congrFun (hcol j) i
  · funext i
    rcases Nat.lt_or_ge i size with hi | hi
    · rw [row_of_phase hodd h₁ hi, row_of_phase hodd h₂ hi]
    · rw [row_of_ge hodd h₁ hi, row_of_ge hodd h₂ hi]

theorem phaseSorted_of_phase (h : Phase size phase arr arr') : PhaseSorted size phase arr arr' where
  evenRows := fun hodd id hid he => by
    unfold Grid.row
    rw [row_of_phase hodd h hid, if_pos he]
    exact map_bubbleSort size (arr id)
  oddRows := fun hodd id hid ho => by
    unfold Grid.row
    rw [row_of_phase hodd h hid, if_neg (by rw [ho]; decide)]
    exact map_bubbleSort size (arr id)
  cols := fun heven id hid => by
    unfold Grid.col
    rw [col_of_phase heven h hid]
    exact map_bubbleSort size fun i => arr i id
  perm := by
    rw [List.perm_iff_count]
    intro a
    rw [count_cells, count_cells]
    rcases Nat.mod_two_eq_zero_or_one phase with heven | hodd
    · rw [total_comm, total_comm _ arr]
      exact total_congr fun j hj => (colsSorted_of_phase heven h).same j hj _
    · exact total_congr fun i hi => (rowsSorted_of_phase hodd h).same i hi _

/-- **A phase does not depend on the interleaving.**  Whatever the order of the
workers' steps, it leaves what worker `0`, `1`, ... leave one behind the other,
and that is the grid with its rows, or its columns, sorted. -/
theorem phase_iff_inOrder (size phase : Nat) (arr : Grid) :
    (∀ arr', Phase size phase arr arr' ↔ arr' = inOrder size phase arr) ∧
      PhaseSorted size phase arr (inOrder size phase arr) := by
  have hin := phase_inOrder size phase arr
  refine ⟨fun arr' => ⟨fun h => phase_unique h hin, ?_⟩, phaseSorted_of_phase hin⟩
  rintro rfl
  exact hin

example : (inOrder 2 1 fun i j => if i = 0 then 1 - j else 2 + j).cells 2 = [0, 1, 3, 2] := by
  decide

end Phase

/-! ### One round -/

section Round

variable {n p p' : Nat} {arr arr₁ arr₂ : Grid}

/-- **A round halves the dirty rows.**  Where the columns are in order, a phase
of rows and one of columns leave at most half of the dirty rows, rounded up;
from any grid they leave at most half of the rows. -/
theorem dirtyRows_of_round (hp : p % 2 = 1) (hp' : p' % 2 = 0) (h₁ : Phase n p arr arr₁)
    (h₂ : Phase n p' arr₁ arr₂) (t : Int) :
    ((∀ j, j < n → ∀ i i', i < i' → i' < n → arr i j ≤ arr i' j) →
      dirtyRows t n arr₂ ≤ (dirtyRows t n arr + 1) / 2) ∧ dirtyRows t n arr₂ ≤ (n + 1) / 2 := by
  have hr := rowsSorted_of_phase hp h₁
  have hc := colsSorted_of_phase hp' h₂
  exact ⟨fun hsorted => dirtyRows_halve hsorted hr hc t, dirtyRows_le_half hr hc t⟩

/-- A staircase of low elements: four rows of five are dirty. -/
theorem dirtyRows_of_round_five :
    ∃ arr arr₁ arr₂, Phase 5 1 arr arr₁ ∧ Phase 5 2 arr₁ arr₂ ∧ dirtyRows 1 5 arr = 4 ∧
      dirtyRows 1 5 arr₂ ≤ 2 := by
  let arr : Grid := fun i j => if i + j < 4 then 0 else 1
  obtain ⟨arr₁, h₁⟩ := exists_phase 5 1 arr
  obtain ⟨arr₂, h₂⟩ := exists_phase 5 2 arr₁
  have hdirty : dirtyRows 1 5 arr = 4 := by decide
  have hsorted : ∀ j, j < 5 → ∀ i i', i < i' → i' < 5 → arr i j ≤ arr i' j := by
    intro j _ i i' hii' _
    show (if i + j < 4 then (0 : Int) else 1) ≤ if i' + j < 4 then 0 else 1
    split_ifs <;> omega
  have hle := (dirtyRows_of_round rfl rfl h₁ h₂ 1).1 hsorted
  rw [hdirty] at hle
  exact ⟨arr, arr₁, arr₂, h₁, h₂, hdirty, hle⟩

end Round

end ConcurrentSort

end TestExamples
