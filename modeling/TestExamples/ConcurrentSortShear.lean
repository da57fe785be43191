/-
TestExamples/ConcurrentSortShear.lean

What the phases of the parallel sort do to the grid.

In a phase each worker runs the two loops of its row or of its column.  The
rows, or the columns, are parts of the grid of their own, so whatever the
interleaving each is bubble-sorted (`rowsSorted_of_phase`,
`colsSorted_of_phase`), and the phases of the program are those of shearsort
(`shear_of_phases`).

The number of phases is the logarithm of the number of elements, rounded down,
plus one.  For a side `2 ^ m` these are `2 * m + 1` phases, which suffice.  A
side strictly between `2 ^ m` and `2 ^ (m + 1)` gets `2 * m + 1` or `2 * m + 2`
phases, and neither suffices; a side above 46340 has more elements than an `int`
can count and is not read (`sorts_iff`).
-/
import Mathlib.Data.List.GetD
import Mathlib.Data.Nat.Log
import Mathlib.Data.Nat.Sqrt
import TestExamples.ConcurrentSort
import TestExamples.Lib.BubbleSort
import TestExamples.Lib.Interleave
import TestExamples.Lib.Shearsort

namespace TestExamples

/-! ### One comparison -/

section Cas

variable {id : Nat} {arr : Grid} {c : Cas}

theorem Grid.set_apply (arr : Grid) (row col : Nat) (x : Int) (i j : Nat) :
    arr.set row col x i j = if i = row ∧ j = col then x else arr i j := by
  unfold Grid.set
  by_cases hi : i = row
  · subst hi
    rw [Function.update_self]
    by_cases hj : j = col
    · subst hj
      rw [Function.update_self, if_pos ⟨rfl, rfl⟩]
    · rw [Function.update_of_ne hj, if_neg fun h => hj h.2]
  · rw [Function.update_of_ne hi, if_neg fun h => hi h.1]

/-- The test and the swap, seen on the line of the two cells. -/
def Cas.act (c : Cas) (j : Nat) (x : Nat → Int) : Nat → Int :=
  if c.ascending then exchange (· ≤ ·) x j else exchange (· ≥ ·) x j

theorem Cas.act_eq (c : Cas) (j : Nat) (x : Nat → Int) :
    c.act j x = if c.test (x j) (x (j + 1)) then
      Function.update (Function.update x j (x (j + 1))) (j + 1) (x j) else x := by
  unfold Cas.act exchange Cas.test
  cases c.ascending with
  | true =>
      by_cases hle : x j ≤ x (j + 1)
      · simp [hle]
      · simp [hle, Int.not_le.mp hle]
  | false =>
      by_cases hle : x (j + 1) ≤ x j
      · simp [hle]
      · simp [hle, Int.not_le.mp hle]

/-- Two neighbours in row `id`. -/
theorem Cas.run_row (hrow : c.row = id) (hrow' : c.row' = id) (hcol : c.col' = c.col + 1) :
    c.run arr = Function.update arr id (c.act c.col (arr id)) := by
  rw [Cas.act_eq]
  simp only [Cas.run, hrow, hrow', hcol]
  split
  · unfold Grid.set
    rw [Function.update_self, Function.update_idem]
  · rw [Function.update_eq_self]

/-- Two neighbours in column `id`. -/
theorem Cas.run_col (hcol : c.col = id) (hcol' : c.col' = id) (hrow : c.row' = c.row + 1) :
    (fun i => c.run arr i id) = c.act c.row fun i => arr i id := by
  rw [Cas.act_eq]
  simp only [Cas.run, hrow, hcol, hcol']
  split
  · funext i
    rw [Grid.set_apply, Grid.set_apply, Function.update_apply, Function.update_apply]
    simp only [and_true]
  · rfl

/-- The other columns stay as they are. -/
theorem Cas.run_col_of_ne {j : Nat} (hcol : c.col = id) (hcol' : c.col' = id) (hj : j ≠ id) :
    (fun i => c.run arr i j) = fun i => arr i j := by
  funext i
  unfold Cas.run
  rw [hcol, hcol']
  split
  · rw [Grid.set_apply, Grid.set_apply, if_neg fun h => hj h.2, if_neg fun h => hj h.2]
  · rfl

end Cas

namespace ConcurrentSort

/-- One phase of `thread_func`, the loops of the workers interleaved in some
order. -/
def Phase (size phase : Nat) (arr arr' : Grid) : Prop :=
  ∃ rest, Interleaves size Cas.run (fun id => phaseLoop size id phase) arr rest arr' ∧
    ∀ id, id < size → rest id = []

/-- The first phases, one after another. -/
inductive Phases (size : Nat) (arr : Grid) : Nat → Grid → Prop
  | start : Phases size arr 0 arr
  | phase {p a a'} : Phases size arr p a → Phase size (p + 1) a a' → Phases size arr (p + 1) a'

/-- `g_max_phase = log(elementNum) / log(2) + 1`. -/
def maxPhase (elementNum : Nat) : Nat := Nat.log 2 elementNum + 1

/-- **The program sorts squares of side `n`.**  The input is read as such a square,
the phases can be run, and whatever their interleavings they leave a permutation of
the input in snake order. -/
def Sorts (n : Nat) : Prop :=
  ∀ vals : List Int, vals.length = n * n → ∃ elementNum arr,
    initIntVals vals = some (elementNum, arr) ∧ Nat.sqrt elementNum = n ∧
    (∃ arr', Phases n arr (maxPhase elementNum) arr') ∧
    ∀ arr', Phases n arr (maxPhase elementNum) arr' →
      SnakeOrder n arr' ∧ (arr'.cells n).Perm vals

/-! ### One phase -/

section Phase

variable {size phase id : Nat} {arr arr' : Grid}

theorem exists_phase (size phase : Nat) (arr : Grid) : ∃ arr', Phase size phase arr arr' := by
  have hstart : Interleaves size Cas.run (fun id => phaseLoop size id phase) arr
      (fun id => phaseLoop size id phase) arr := .start
  obtain ⟨rest, arr', h, hrest⟩ := hstart.exists_complete
  exact ⟨arr', rest, h, hrest⟩

/-- In an odd phase a worker compares neighbours in its row. -/
theorem mem_phaseLoop_odd (hodd : phase % 2 = 1) {w : Nat} {c : Cas}
    (hc : c ∈ phaseLoop size w phase) : c.row = w ∧ c.row' = w ∧ c.col' = c.col + 1 := by
  unfold phaseLoop at hc
  rw [if_pos hodd] at hc
  obtain ⟨col, -, rfl⟩ := List.mem_map.mp hc
  exact ⟨rfl, rfl, rfl⟩

/-- In an even phase it compares neighbours in its column. -/
theorem mem_phaseLoop_even (heven : phase % 2 = 0) {w : Nat} {c : Cas}
    (hc : c ∈ phaseLoop size w phase) : c.col = w ∧ c.col' = w ∧ c.row' = c.row + 1 := by
  unfold phaseLoop at hc
  rw [if_neg (by rw [heven]; decide)] at hc
  obtain ⟨row, -, rfl⟩ := List.mem_map.mp hc
  exact ⟨rfl, rfl, rfl⟩

/-- In an odd phase the row of each worker is bubble-sorted. -/
theorem row_of_phase (hodd : phase % 2 = 1) (h : Phase size phase arr arr') (hid : id < size) :
    arr' id = if id % 2 = 0 then bubbleSort (· ≤ ·) size (arr id)
      else bubbleSort (· ≥ ·) size (arr id) := by
  obtain ⟨rest, hi, hrest⟩ := h
  have hloop : ∀ w, phaseLoop size w phase = (bubble size).map fun col =>
      { row := w, col := col, row' := w, col' := col + 1, ascending := w % 2 = 0 } := fun w =>
    if_pos hodd
  -- a comparison of worker `w` reads and writes row `w` only, whatever the others do between
  have hview := hi.view_eq (fun w g => g w) (fun c x => c.act c.col x)
    (fun w c g _ hc => by
      obtain ⟨h₁, h₂, h₃⟩ := mem_phaseLoop_odd hodd hc
      rw [Cas.run_row h₁ h₂ h₃, Function.update_self])
    (fun w c g _ hc w' hw' => by
      obtain ⟨h₁, h₂, h₃⟩ := mem_phaseLoop_odd hodd hc
      rw [Cas.run_row h₁ h₂ h₃, Function.update_of_ne hw']) id
  rw [hrest id hid, List.foldl_nil, hloop, List.foldl_map] at hview
  rw [hview]
  unfold Cas.act bubbleSort
  -- even rows ascend, odd rows descend
  split
  · next he => simp only [he, decide_true, if_true]; rfl
  · next he => simp only [he, decide_false, Bool.false_eq_true, if_false]; rfl

/-- In an even phase the column of each worker is bubble-sorted. -/
theorem col_of_phase (heven : phase % 2 = 0) (h : Phase size phase arr arr') (hid : id < size) :
    (fun i => arr' i id) = bubbleSort (· ≤ ·) size fun i => arr i id := by
  obtain ⟨rest, hi, hrest⟩ := h
  have hloop : ∀ w, phaseLoop size w phase = (bubble size).map fun row =>
      { row := row, col := w, row' := row + 1, col' := w, ascending := true } := fun w =>
    if_neg (by rw [heven]; decide)
  have hown : ∀ w c, c ∈ phaseLoop size w phase → c.col = w ∧ c.col' = w ∧ c.row' = c.row + 1 := by
    intro w c hc
    rw [hloop] at hc
    obtain ⟨col, -, rfl⟩ := List.mem_map.mp hc
    exact ⟨rfl, rfl, rfl⟩
  -- the same for column `w`
  have hview := hi.view_eq (fun w g i => g i w) (fun c x => c.act c.row x)
    (fun w c g _ hc => by
      obtain ⟨h₁, h₂, h₃⟩ := mem_phaseLoop_even heven hc
      exact Cas.run_col h₁ h₂ h₃)
    (fun w c g _ hc w' hw' => by
      obtain ⟨h₁, h₂, -⟩ := mem_phaseLoop_even heven hc
      exact Cas.run_col_of_ne h₁ h₂ hw') id
  rw [hrest id hid, List.foldl_nil, hloop, List.foldl_map] at hview
  exact hview

theorem rowsSorted_of_phase (hodd : phase % 2 = 1) (h : Phase size phase arr arr') :
    RowsSorted size arr arr' where
  same := fun i hi f => by
    rw [row_of_phase hodd h hi]
    split <;> exact total_bubbleSort f
  snaking :=
    { even := fun i hi he => by
        rw [row_of_phase hodd h hi, if_pos he]
        exact ordered_bubbleSort Int.le_total Int.le_trans size (arr i)
      odd := fun i hi ho => by
        rw [row_of_phase hodd h hi, if_neg (by rw [ho]; decide)]
        exact ordered_bubbleSort (fun a b => Int.le_total b a) (fun h h' => Int.le_trans h' h)
          size (arr i) }

theorem colsSorted_of_phase (heven : phase % 2 = 0) (h : Phase size phase arr arr') :
    ColsSorted size arr arr' where
  same := fun j hj f => by
    rw [col_of_phase heven h hj]
    exact total_bubbleSort f
  sorted := fun j hj i i' hii' hi' => by
    have hcol := col_of_phase heven h hj
    have hle := ordered_bubbleSort Int.le_total Int.le_trans size (fun i => arr i j) i i' hii' hi'
    rw [← hcol] at hle
    exact hle

/-- **The program is shearsort.** -/
theorem shear_of_phases {p : Nat} (h : Phases size arr p arr') : Shear size arr p arr' := by
  induction h with
  | start => exact .start
  | @phase p a a' _ hphase ih =>
      -- phases are counted from 1, so the first is one of rows
      rcases Nat.mod_two_eq_zero_or_one p with he | ho
      · exact ih.rows he (rowsSorted_of_phase (by omega) hphase)
      · exact ih.cols ho (colsSorted_of_phase (by omega) hphase)

theorem exists_phases (size : Nat) (arr : Grid) : ∀ p, ∃ arr', Phases size arr p arr' := by
  intro p
  induction p with
  | zero => exact ⟨arr, .start⟩
  | succ p ih =>
      obtain ⟨a, ha⟩ := ih
      obtain ⟨a', ha'⟩ := exists_phase size (p + 1) a
      exact ⟨a', ha.phase ha'⟩

end Phase

/-! ### The elements -/

section Cells

variable {n : Nat} {arr arr' : Grid} {vals : List Int}

theorem count_map_range (x : Nat → Int) (a : Int) (n : Nat) :
    ((List.range n).map x).count a = total n (fun b => if b = a then 1 else 0) x := by
  induction n with
  | zero => rfl
  | succ n ih =>
      rw [List.range_succ, List.map_append, List.count_append, ih, total_succ]
      simp [List.count_singleton]

theorem count_cells (arr : Grid) (a : Int) (n : Nat) :
    (arr.cells n).count a = total n (total n fun b => if b = a then 1 else 0) arr := by
  have hrows : ∀ m, ((List.range m).flatMap fun row => (List.range n).map (arr row)).count a =
      total m (total n fun b => if b = a then 1 else 0) arr := by
    intro m
    induction m with
    | zero => rfl
    | succ m ih =>
        rw [List.range_succ, List.flatMap_append, List.count_append, ih, total_succ,
          List.flatMap_singleton, count_map_range]
  exact hrows n

/-- The phases permute the elements. -/
theorem perm_of_phases {p : Nat} (h : Phases n arr p arr') :
    (arr'.cells n).Perm (arr.cells n) := by
  rw [List.perm_iff_count]
  intro a
  rw [count_cells, count_cells]
  exact (shear_of_phases h).total_eq _

/-- What `initIntVals` reads is the square. -/
theorem initIntVals_of_length (hn : n ≤ 46340) (hlen : vals.length = n * n) :
    initIntVals vals = some (n * n, fun i j => vals.getD (i * n + j) 0) := by
  have hsquare : n * n < 2 ^ 31 := Nat.lt_of_le_of_lt (Nat.mul_le_mul hn hn) (by decide)
  have hnum : toInt32 (vals.length % 2 ^ 32) = (n * n : Nat) := by
    rw [hlen, Nat.mod_eq_of_lt (hsquare.trans (by decide)), toInt32_of_lt hsquare]
  unfold initIntVals
  simp only [hnum, Int.toNat_natCast, Nat.sqrt_eq]
  rw [if_pos (Int.natCast_nonneg _), if_pos (by push_cast; rfl)]

/-- The square read has the elements in the order of the input. -/
theorem cells_of_length (hlen : vals.length = n * n) :
    Grid.cells n (fun i j => vals.getD (i * n + j) 0) = vals := by
  have hrow : ∀ m, m * n + n ≤ vals.length →
      (List.range n).map (fun j => vals.getD (m * n + j) 0) = (vals.drop (m * n)).take n := by
    intro m hm
    refine List.ext_getElem (by simp; omega) fun j hj hj' => ?_
    have hj : j < n := by simpa using hj
    rw [List.getElem_map, List.getElem_range, List.getElem_take, List.getElem_drop,
      List.getD_eq_getElem _ _ (by omega)]
  -- the first `m` rows are the first `m * n` elements
  have hrows : ∀ m, m * n ≤ vals.length →
      (List.range m).flatMap (fun i => (List.range n).map fun j => vals.getD (i * n + j) 0) =
        vals.take (m * n) := by
    intro m
    induction m with
    | zero =>
        intro _
        rw [Nat.zero_mul]
        rfl
    | succ m ih =>
        intro hm
        rw [Nat.succ_mul] at hm ⊢
        rw [List.range_succ, List.flatMap_append, ih (by omega), List.flatMap_singleton,
          hrow m hm, ← List.take_add]
  have hall := hrows n (Nat.le_of_eq hlen.symm)
  rw [List.take_of_length_le (Nat.le_of_eq hlen)] at hall
  exact hall

end Cells

/-! ### The number of phases -/

section Sorts

variable {n m k : Nat}

/-- The side of a square of `2 ^ m` by `2 ^ m` elements. -/
theorem maxPhase_of_pow (hn : n = 2 ^ m) : maxPhase (n * n) = 2 * m + 1 := by
  unfold maxPhase
  rw [hn, ← Nat.pow_add, Nat.log_pow Nat.one_lt_two, Nat.two_mul]

/-- A side between two powers. -/
theorem maxPhase_of_lt (hlo : 2 ^ k < n) (hhi : n < 2 ^ (k + 1)) :
    maxPhase (n * n) = 2 * k + 1 ∨ maxPhase (n * n) = 2 * k + 2 := by
  -- the square lies between the squares of the powers
  have hlog : 2 * k ≤ Nat.log 2 (n * n) ∧ Nat.log 2 (n * n) < 2 * k + 2 := by
    have hsq : 2 ^ (2 * k) ≤ n * n := by
      rw [Nat.two_mul, Nat.pow_add]
      exact Nat.mul_le_mul (Nat.le_of_lt hlo) (Nat.le_of_lt hlo)
    have hsq' : n * n < 2 ^ (2 * k + 2) := by
      have hpow : 2 ^ (2 * k + 2) = 2 ^ (k + 1) * 2 ^ (k + 1) := by
        rw [← Nat.pow_add]
        congr 1
        omega
      rw [hpow]
      exact Nat.mul_lt_mul'' hhi hhi
    have hne : n * n ≠ 0 := Nat.ne_of_gt (Nat.lt_of_lt_of_le (Nat.two_pow_pos _) hsq)
    exact ⟨Nat.le_log_of_pow_le Nat.one_lt_two hsq, Nat.log_lt_of_lt_pow hne hsq'⟩
  unfold maxPhase
  omega

theorem sorts_of_pow (hint : n ≤ 46340) (hn : n = 2 ^ m) : Sorts n := by
  intro vals hlen
  refine ⟨_, _, initIntVals_of_length hint hlen, Nat.sqrt_eq n, exists_phases _ _ _,
    fun arr' h => ?_⟩
  rw [maxPhase_of_pow hn] at h
  refine ⟨(shear_of_phases h).snakeOrder hn, ?_⟩
  have hperm := perm_of_phases h
  rw [cells_of_length hlen] at hperm
  exact hperm

/-- A square with a zero at the head of every other row and ones elsewhere, row
by row. -/
def fewZeros (n : Nat) : List Int :=
  (List.range (n * n)).map fun k => if k / n % 2 = 0 ∧ k % n = 0 then 0 else 1

example : fewZeros 3 = [0, 1, 1, 1, 1, 1, 0, 1, 1] := by decide

theorem length_fewZeros (n : Nat) : (fewZeros n).length = n * n := by
  unfold fewZeros
  rw [List.length_map, List.length_range]

theorem fewZeros_lt_one {i j : Nat} (hi : i < n) (hj : j < n) :
    (fewZeros n).getD (i * n + j) 0 < 1 ↔ i % 2 = 0 ∧ j = 0 := by
  have hlt : i * n + j < n * n :=
    calc i * n + j < i * n + n := Nat.add_lt_add_left hj _
      _ = (i + 1) * n := (Nat.succ_mul i n).symm
      _ ≤ n * n := Nat.mul_le_mul_right n hi
  have hdiv : (i * n + j) / n = i := by
    rw [Nat.mul_comm, Nat.mul_add_div (Nat.zero_lt_of_lt hj), Nat.div_eq_of_lt hj, Nat.add_zero]
  have hmod : (i * n + j) % n = j := by
    rw [Nat.mul_comm, Nat.mul_add_mod, Nat.mod_eq_of_lt hj]
  unfold fewZeros
  rw [List.getD_eq_getElem _ _ (by rw [List.length_map, List.length_range]; exact hlt),
    List.getElem_map, List.getElem_range, hdiv, hmod]
  split
  · next h => exact iff_of_true Int.zero_lt_one h
  · next h => exact iff_of_false (Int.lt_irrefl 1) h

/-- A square that is sorted has been read. -/
theorem Sorts.size_le (h : Sorts n) : n ≤ 46340 := by
  obtain ⟨elementNum, arr, hread, hsize, -⟩ := h (fewZeros n) (length_fewZeros n)
  rw [← hsize]
  exact size_le_of_initIntVals hread

/-- A side between two powers gets too few phases. -/
theorem not_sorts_of_lt (hlo : 2 ^ (k + 1) < n) (hhi : n < 2 ^ (k + 2)) : ¬ Sorts n := by
  intro hsorts
  obtain ⟨elementNum, arr, hread, -, ⟨arr', h⟩, hall⟩ := hsorts (fewZeros n) (length_fewZeros n)
  have hsnake := (hall arr' h).1
  rw [initIntVals_of_length hsorts.size_le (length_fewZeros n)] at hread
  obtain ⟨rfl, rfl⟩ := Prod.mk.inj (Option.some.inj hread)
  -- the cells below 1 stand at the head of the even rows
  have hlow : ∀ i j, i < n → j < n →
      ((fewZeros n).getD (i * n + j) 0 < 1 ↔ i % 2 = 0 ∧ j = 0) := fun i j hi hj =>
    fewZeros_lt_one hi hj
  have hshear := shear_of_phases h
  -- the last phase is one of rows or one of columns
  rcases maxPhase_of_lt hlo hhi with he | he <;> rw [he] at hshear
  · exact not_snakeOrder_of_rows hlow hlo hshear hsnake
  · exact not_snakeOrder_of_cols hlow hlo hshear hsnake

/-- **The parallel sort sorts exactly the squares whose side is a power of two**,
among those whose elements an `int` can count. -/
theorem sorts_iff (hn : 1 ≤ n) : Sorts n ↔ n ≤ 46340 ∧ ∃ m, n = 2 ^ m := by
  constructor
  · intro hsorts
    refine ⟨hsorts.size_le, ?_⟩
    have hne : n ≠ 0 := Nat.ne_of_gt hn
    have hlo : 2 ^ Nat.log 2 n ≤ n := Nat.pow_log_le_self 2 hne
    have hhi : n < 2 ^ (Nat.log 2 n + 1) := Nat.lt_pow_succ_log_self Nat.one_lt_two n
    rcases Nat.eq_or_lt_of_le hlo with he | hlt
    · exact ⟨_, he.symm⟩
    · -- no number lies between 1 and 2, so the logarithm is at least 1
      rcases hlog : Nat.log 2 n with - | k
      · rw [hlog] at hlt hhi
        omega
      · rw [hlog] at hlt hhi
        exact absurd hsorts (not_sorts_of_lt hlt hhi)
  · rintro ⟨hint, m, hm⟩
    exact sorts_of_pow hint hm

/-- The square of the repository's input has side 4. -/
theorem sorts_iff_four : Sorts 4 ∧ ∃ m, 4 = 2 ^ m :=
  ⟨(sorts_iff (by decide)).mpr ⟨by decide, 2, rfl⟩, 2, rfl⟩

/-- A square of side 3 gets four phases, the last one of columns. -/
theorem not_sorts : ¬ ∀ n, 1 ≤ n → Sorts n := fun h =>
  not_sorts_of_lt (k := 0) (n := 3) (by decide) (by decide) (h 3 (by decide))

end Sorts

end ConcurrentSort

end TestExamples
