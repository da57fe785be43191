/-
TestExamples/Lib/Shearsort.lean

Shearsort on a square.

A square of side `n` over a linear order is sorted in phases: the odd ones sort
the rows, the even rows ascending and the odd rows descending (`RowsSorted`),
the even ones sort the columns (`ColsSorted`).  `Shear n g₀ p g` says that `g`
is what `p` phases can make of `g₀`.

Everything is seen through a threshold `t`: an element is low when it is below
`t`, and a sorted line is its low elements on one side (`lt_iff_of_ascending`,
`lt_iff_of_descending`).  Two bounds on the low elements decide how many phases
are needed:

* the rows that are neither all low nor free of low elements lie in a band,
  and a phase of rows with the phase of columns behind it halves the band
  (`Banded.halve`), so `2 * m + 1` phases sort a square of side `2 ^ m`
  (`Shear.snakeOrder`); where the columns are sorted the rows of the band are
  the dirty ones (`banded_dirtyRows`), and half of them are left
  (`dirtyRows_halve`);
* the same two phases at most double the low elements of a row
  (`Thin.double`), so a square with few low elements in a row, and more in all,
  takes more phases to collect them (`not_snakeOrder_of_rows`,
  `not_snakeOrder_of_cols`).
-/
import Mathlib.Algebra.BigOperators.Group.Finset.Piecewise
import Mathlib.Order.Defs.LinearOrder
import Mathlib.Order.Interval.Finset.Nat
import Mathlib.Algebra.Order.Monoid.Unbundled.Pow
import TestExamples.Lib.Threads

namespace TestExamples

variable {α : Type*} [LinearOrder α]

/-- 1 for an element below the threshold. -/
def low (t a : α) : Nat := if a < t then 1 else 0

section Line

variable {t : α} {n : Nat} {x : Nat → α}

theorem low_le_one (t a : α) : low t a ≤ 1 := by
  unfold low
  split <;> decide

theorem low_pos {a : α} : 0 < low t a ↔ a < t := by
  unfold low
  split
  · next h => exact iff_of_true Nat.one_pos h
  · next h => exact iff_of_false (Nat.lt_irrefl 0) h

theorem low_eq_zero {a : α} : low t a = 0 ↔ ¬ a < t := by
  rw [← low_pos, Nat.not_lt, Nat.le_zero]

theorem low_eq_one {a : α} (h : a < t) : low t a = 1 := if_pos h

/-- The low elements of an ascending line come first. -/
theorem lt_iff_of_ascending (h : ∀ j j', j < j' → j' < n → x j ≤ x j') :
    ∀ j, j < n → (x j < t ↔ j < total n (low t) x) := by
  induction n with
  | zero => exact fun j hj => absurd hj (Nat.not_lt_zero j)
  | succ n ih =>
      have ih := ih fun j j' hjj' hj' => h j j' hjj' (Nat.lt_succ_of_lt hj')
      intro j hj
      rw [total_succ]
      by_cases hlast : x n < t
      · -- all of them are low
        have hall : ∀ i, i < n → 1 ≤ low t (x i) := fun i hi =>
          low_pos.mpr (lt_of_le_of_lt (h i n hi (Nat.lt_succ_self n)) hlast)
        have hge := le_total_of_le hall
        have hxj : x j < t := by
          rcases Nat.lt_succ_iff_lt_or_eq.mp hj with hlt | rfl
          · exact low_pos.mp (hall j hlt)
          · exact hlast
        rw [low_eq_one hlast]
        exact iff_of_true hxj (by omega)
      · rw [low_eq_zero.mpr hlast, Nat.add_zero]
        rcases Nat.lt_succ_iff_lt_or_eq.mp hj with hlt | rfl
        · exact ih j hlt
        · have hle := total_le_of_le (n := j) (f := x) fun i _ => low_le_one t (x i)
          exact iff_of_false hlast (by omega)

/-- The low elements of a descending line come last. -/
theorem lt_iff_of_descending (h : ∀ j j', j < j' → j' < n → x j' ≤ x j) :
    ∀ j, j < n → (x j < t ↔ n ≤ j + total n (low t) x) := by
  induction n with
  | zero => exact fun j hj => absurd hj (Nat.not_lt_zero j)
  | succ n ih =>
      have ih := ih fun j j' hjj' hj' => h j j' hjj' (Nat.lt_succ_of_lt hj')
      intro j hj
      rw [total_succ]
      by_cases hlast : x n < t
      · rw [low_eq_one hlast]
        rcases Nat.lt_succ_iff_lt_or_eq.mp hj with hlt | rfl
        · rw [ih j hlt]
          omega
        · exact iff_of_true hlast (by omega)
      · -- none of them is low
        have hnone : ∀ i, i < n → low t (x i) = 0 := fun i hi =>
          low_eq_zero.mpr (not_lt.mpr (le_trans (not_lt.mp hlast)
            (h i n hi (Nat.lt_succ_self n))))
        have hxj : ¬ x j < t := by
          rcases Nat.lt_succ_iff_lt_or_eq.mp hj with hlt | rfl
          · exact low_eq_zero.mp (hnone j hlt)
          · exact hlast
        rw [low_eq_zero.mpr hlast, total_eq_zero.mpr hnone]
        exact iff_of_false hxj (by omega)

end Line

/-! ### Phases -/

/-- The rows are ordered, in the directions of a snake. -/
structure Snaking (n : Nat) (g : Nat → Nat → α) : Prop where
  even : ∀ i, i < n → i % 2 = 0 → ∀ j j', j < j' → j' < n → g i j ≤ g i j'
  odd : ∀ i, i < n → i % 2 = 1 → ∀ j j', j < j' → j' < n → g i j' ≤ g i j

/-- `g'` is `g` with the rows sorted. -/
structure RowsSorted (n : Nat) (g g' : Nat → Nat → α) : Prop where
  same : ∀ i, i < n → ∀ f : α → Nat, total n f (g' i) = total n f (g i)
  snaking : Snaking n g'

/-- `g'` is `g` with the columns sorted. -/
structure ColsSorted (n : Nat) (g g' : Nat → Nat → α) : Prop where
  same : ∀ j, j < n → ∀ f : α → Nat, total n f (fun i => g' i j) = total n f fun i => g i j
  sorted : ∀ j, j < n → ∀ i i', i < i' → i' < n → g' i j ≤ g' i' j

/-- Phases of rows and columns in turn, rows first. -/
inductive Shear (n : Nat) (g₀ : Nat → Nat → α) : Nat → (Nat → Nat → α) → Prop
  | start : Shear n g₀ 0 g₀
  | rows {p g g'} : Shear n g₀ p g → p % 2 = 0 → RowsSorted n g g' → Shear n g₀ (p + 1) g'
  | cols {p g g'} : Shear n g₀ p g → p % 2 = 1 → ColsSorted n g g' → Shear n g₀ (p + 1) g'

/-- The rows are ordered in the directions of a snake, and each stands before
the next. -/
structure SnakeOrder (n : Nat) (g : Nat → Nat → α) : Prop where
  snaking : Snaking n g
  next : ∀ i, i + 1 < n → ∀ j j', j < n → j' < n → g i j ≤ g (i + 1) j'

section Phases

variable {t : α} {n a D r : Nat} {g₀ g g' g'' : Nat → Nat → α}

theorem Snaking.lt_iff_even (h : Snaking n g) {i : Nat} (hi : i < n) (he : i % 2 = 0) :
    ∀ j, j < n → (g i j < t ↔ j < total n (low t) (g i)) :=
  lt_iff_of_ascending (h.even i hi he)

theorem Snaking.lt_iff_odd (h : Snaking n g) {i : Nat} (hi : i < n) (ho : i % 2 = 1) :
    ∀ j, j < n → (g i j < t ↔ n ≤ j + total n (low t) (g i)) :=
  lt_iff_of_descending (h.odd i hi ho)

theorem ColsSorted.lt_iff (h : ColsSorted n g g') {i j : Nat} (hi : i < n) (hj : j < n) :
    g' i j < t ↔ i < total n (low t) fun i => g i j := by
  rw [← h.same j hj]
  exact lt_iff_of_ascending (h.sorted j hj) i hi

/-- The same elements as after any phases. -/
theorem Shear.total_eq {p : Nat} (h : Shear n g₀ p g) (f : α → Nat) :
    total n (total n f) g = total n (total n f) g₀ := by
  induction h with
  | start => rfl
  | rows _ _ hr ih => exact (total_congr fun i hi => hr.same i hi f).trans ih
  | cols _ _ hc ih =>
      rw [← ih, total_comm, total_comm]
      exact total_congr fun j hj => hc.same j hj f

theorem Shear.rows_of_odd {k : Nat} (h : Shear n g₀ (2 * k + 1) g') :
    ∃ g, Shear n g₀ (2 * k) g ∧ RowsSorted n g g' := by
  cases h with
  | rows hs _ hr => exact ⟨_, hs, hr⟩
  | cols _ hpar _ => omega

theorem Shear.cols_of_even {k : Nat} (h : Shear n g₀ (2 * k + 2) g') :
    ∃ g, Shear n g₀ (2 * k + 1) g ∧ ColsSorted n g g' := by
  cases h with
  | rows _ hpar _ => omega
  | cols hs _ hc => exact ⟨_, hs, hc⟩

/-! ### Bands

Sorting needs few phases. -/

/-- The rows before `a` are all low, and those from `a + D` on have no low
element. -/
structure Banded (t : α) (n : Nat) (g : Nat → Nat → α) (a D : Nat) : Prop where
  le : a + D ≤ n
  above : ∀ i, i < a → ∀ j, j < n → g i j < t
  below : ∀ i, a + D ≤ i → i < n → ∀ j, j < n → ¬ g i j < t

theorem RowsSorted.banded (h : RowsSorted n g g') (hb : Banded t n g a D) :
    Banded t n g' a D where
  le := hb.le
  above := fun i hi =>
    have hn : i < n := Nat.lt_of_lt_of_le hi (Nat.le_of_add_right_le hb.le)
    forall_of_total (P := fun x => x < t) (h.same i hn) (hb.above i hi)
  below := fun i hi hn =>
    forall_of_total (P := fun x => ¬ x < t) (h.same i hn) (hb.below i hi hn)

/-- Two rows next to each other run in opposite directions: either no column
has two low elements in them, or each column has one. -/
theorem Snaking.two_rows (h : Snaking n g) (t : α) {i : Nat} (hi : i + 1 < n) :
    ∃ q, q ≤ 1 ∧ ∀ j, j < n →
      q ≤ low t (g i j) + low t (g (i + 1) j) ∧ low t (g i j) + low t (g (i + 1) j) ≤ q + 1 := by
  have hi' : i < n := Nat.lt_of_succ_lt hi
  -- the columns of the low elements, whichever of the rows comes first
  have hsides : ∃ z z', ∀ j, j < n →
      (g i j < t ↔ j < z) ∧ (g (i + 1) j < t ↔ n ≤ j + z') ∨
        (g i j < t ↔ n ≤ j + z') ∧ (g (i + 1) j < t ↔ j < z) := by
    rcases Nat.mod_two_eq_zero_or_one i with he | ho
    · exact ⟨_, _, fun j hj => .inl
        ⟨h.lt_iff_even hi' he j hj, h.lt_iff_odd hi (by omega) j hj⟩⟩
    · exact ⟨_, _, fun j hj => .inr
        ⟨h.lt_iff_odd hi' ho j hj, h.lt_iff_even hi (by omega) j hj⟩⟩
  obtain ⟨z, z', hsides⟩ := hsides
  refine ⟨if z + z' ≤ n then 0 else 1, by split <;> omega, fun j hj => ?_⟩
  unfold low
  rcases hsides j hj with ⟨h₁, h₂⟩ | ⟨h₁, h₂⟩ <;> rw [if_congr h₁ rfl rfl, if_congr h₂ rfl rfl] <;>
    split_ifs <;> omega

/-- The low elements of the columns in `D` rows differ by at most the number of
pairs of rows. -/
theorem Snaking.band (h : Snaking n g) (t : α) (a : Nat) :
    ∀ D, a + D ≤ n → ∃ Q, Q ≤ D / 2 ∧ ∀ j, j < n →
      Q ≤ total D (low t) (fun i => g (a + i) j) ∧
        total D (low t) (fun i => g (a + i) j) ≤ Q + (D + 1) / 2
  | 0, _ => ⟨0, Nat.zero_le _, fun _ _ => ⟨Nat.zero_le _, Nat.le_refl 0⟩⟩
  | 1, _ => by
      refine ⟨0, Nat.zero_le _, fun j _ => ⟨Nat.zero_le _, ?_⟩⟩
      rw [total_succ, total_zero, Nat.zero_add]
      exact low_le_one t _
  | D + 2, hD => by
      obtain ⟨Q, hQ, hband⟩ := h.band t a D (by omega)
      obtain ⟨q, hq, hpair⟩ := h.two_rows t (i := a + D) (by omega)
      refine ⟨Q + q, by omega, fun j hj => ?_⟩
      have hold := hband j hj
      have hnew := hpair j hj
      rw [total_succ, total_succ, ← Nat.add_assoc a D 1]
      omega

/-- **A pair of phases halves the band.** -/
theorem Banded.halve (hb : Banded t n g a D) (hs : Snaking n g) (hc : ColsSorted n g g') :
    ∃ a', Banded t n g' a' ((D + 1) / 2) := by
  obtain ⟨Q, hQ, hband⟩ := hs.band t a D hb.le
  have hle := hb.le
  -- the rows before the band give all their elements to a column, those behind it none
  have hcount : ∀ j, j < n → total n (low t) (fun i => g i j) =
      a + total D (low t) fun i => g (a + i) j := by
    intro j hj
    have hsplit : n = a + (D + (n - (a + D))) := by omega
    have habove : total a (low t) (fun i => g i j) = a * 1 := by
      refine Nat.le_antisymm (total_le_of_le fun i _ => low_le_one t _) ?_
      exact le_total_of_le fun i hi => low_pos.mpr (hb.above i hi j hj)
    have hbelow : total (n - (a + D)) (low t) (fun i => g (a + (D + i)) j) = 0 :=
      total_eq_zero.mpr fun i hi => low_eq_zero.mpr (hb.below _ (by omega) (by omega) j hj)
    rw [hsplit, total_add, total_add, habove, hbelow, Nat.mul_one, Nat.add_zero]
  refine ⟨a + Q, by omega, fun i hi j hj => ?_, fun i hi hn j hj => ?_⟩
  · have := hband j hj
    rw [hc.lt_iff (by omega) hj, hcount j hj]
    omega
  · have := hband j hj
    rw [hc.lt_iff hn hj, hcount j hj]
    omega

/-- The whole square is a band. -/
theorem banded_whole (t : α) (n : Nat) (g : Nat → Nat → α) : Banded t n g 0 n where
  le := Nat.le_of_eq (Nat.zero_add n)
  above := fun i hi => absurd hi (Nat.not_lt_zero i)
  below := fun i hi hlt => absurd hlt (Nat.not_lt.mpr (by rwa [Nat.zero_add] at hi))

theorem Shear.banded {m : Nat} (hn : n = 2 ^ m) (t : α) :
    ∀ k, k ≤ m → ∀ g, Shear n g₀ (2 * k) g → ∃ a, Banded t n g a (2 ^ (m - k)) := by
  intro k
  induction k with
  | zero =>
      intro _ g _
      rw [Nat.sub_zero, ← hn]
      exact ⟨0, banded_whole t n g⟩
  | succ k ih =>
      intro hk g hs
      obtain ⟨g₂, hs₂, hc⟩ := Shear.cols_of_even hs
      obtain ⟨g₁, hs₁, hr⟩ := hs₂.rows_of_odd
      obtain ⟨a, hb⟩ := ih (Nat.le_of_succ_le hk) g₁ hs₁
      obtain ⟨a', hb'⟩ := (hr.banded hb).halve hr.snaking hc
      have hpow : (2 ^ (m - k) + 1) / 2 = 2 ^ (m - (k + 1)) := by
        have hstep : m - k = m - (k + 1) + 1 := by omega
        rw [hstep, Nat.pow_succ]
        omega
      exact ⟨a', hpow ▸ hb'⟩

/-- **Enough phases.**  A square of side `2 ^ m` is sorted by `2 * m + 1`
phases. -/
theorem Shear.snakeOrder {m : Nat} (hn : n = 2 ^ m) (h : Shear n g₀ (2 * m + 1) g) :
    SnakeOrder n g := by
  obtain ⟨g₁, hs, hr⟩ := h.rows_of_odd
  refine ⟨hr.snaking, fun i hi j j' hj hj' => ?_⟩
  by_contra hlt
  -- at the threshold `g i j` only one row is mixed, and these would be two
  obtain ⟨a, hb⟩ := Shear.banded hn (g i j) m (Nat.le_refl m) g₁ hs
  rw [Nat.sub_self] at hb
  have hb := hr.banded hb
  have hbelow : ¬ a + 1 ≤ i + 1 := fun hle => hb.below (i + 1) hle hi j' hj' (not_le.mp hlt)
  exact lt_irrefl _ (hb.above i (by omega) j hj)

/-! ### Dirty rows -/

/-- A row of low elements and others. -/
def Dirty (t : α) (n : Nat) (x : Nat → α) : Prop := (∃ j, j < n ∧ x j < t) ∧ ∃ j, j < n ∧ t ≤ x j

instance (t : α) (n : Nat) (x : Nat → α) : Decidable (Dirty t n x) :=
  inferInstanceAs (Decidable (_ ∧ _))

/-- The number of dirty rows. -/
def dirtyRows (t : α) (n : Nat) (g : Nat → Nat → α) : Nat :=
  ((Finset.range n).filter fun i => Dirty t n (g i)).card

/-- The dirty rows lie in the band. -/
theorem Banded.dirtyRows_le (hb : Banded t n g a D) : dirtyRows t n g ≤ D := by
  have hsub : ((Finset.range n).filter fun i => Dirty t n (g i)) ⊆ Finset.Ico a (a + D) := by
    intro i hi
    obtain ⟨hn, ⟨j, hj, hlow⟩, ⟨j', hj', hhigh⟩⟩ := Finset.mem_filter.mp hi
    rw [Finset.mem_range] at hn
    rw [Finset.mem_Ico]
    constructor
    · by_contra hlt
      exact absurd (hb.above i (Nat.not_le.mp hlt) j' hj') (not_lt.mpr hhigh)
    · by_contra hge
      exact hb.below i (Nat.not_lt.mp hge) hn j hj hlow
  have hcard := Finset.card_le_card hsub
  rw [Nat.card_Ico, Nat.add_sub_cancel_left] at hcard
  exact hcard

/-- 0 for a row of low elements, 1 for a dirty row, 2 for the others. -/
def rowClass (t : α) (n : Nat) (x : Nat → α) : Nat :=
  if ∀ j, j < n → x j < t then 0 else if ∃ j, j < n ∧ x j < t then 1 else 2

theorem rowClass_lt_one {x : Nat → α} : rowClass t n x < 1 ↔ ∀ j, j < n → x j < t := by
  unfold rowClass
  split_ifs <;> simp_all

theorem rowClass_lt_two {x : Nat → α} :
    rowClass t n x < 2 ↔ (∀ j, j < n → x j < t) ∨ ∃ j, j < n ∧ x j < t := by
  unfold rowClass
  split_ifs <;> simp_all

theorem low_one_add (c : Nat) : low 1 c + (if c < 2 ∧ ¬ c < 1 then 1 else 0) = low 2 c := by
  unfold low
  by_cases h₁ : c < 1
  · rw [if_pos h₁, if_neg fun h => h.2 h₁, if_pos (Nat.lt_succ_of_lt h₁)]
  · rw [if_neg h₁, Nat.zero_add]
    exact if_congr (and_iff_left h₁) rfl rfl

theorem dirty_iff {x : Nat → α} : Dirty t n x ↔ rowClass t n x < 2 ∧ ¬ rowClass t n x < 1 := by
  rw [rowClass_lt_one, rowClass_lt_two]
  constructor
  · rintro ⟨hlow, j, hj, hhigh⟩
    exact ⟨.inr hlow, fun hall => absurd (hall j hj) (not_lt.mpr hhigh)⟩
  · rintro ⟨hall | hlow, hnot⟩
    · exact absurd hall hnot
    · push Not at hnot
      exact ⟨hlow, hnot⟩

/-- **Sorted columns make a band of the dirty rows.** -/
theorem banded_dirtyRows (h : ∀ j, j < n → ∀ i i', i < i' → i' < n → g i j ≤ g i' j) (t : α) :
    ∃ a, Banded t n g a (dirtyRows t n g) := by
  -- the classes of the rows ascend
  have hclass : ∀ i i', i < i' → i' < n → rowClass t n (g i) ≤ rowClass t n (g i') := by
    intro i i' hii' hi'
    have hle : ∀ j, j < n → g i' j < t → g i j < t := fun j hj hlt =>
      lt_of_le_of_lt (h j hj i i' hii' hi') hlt
    have hone : rowClass t n (g i') < 1 → rowClass t n (g i) < 1 := by
      rw [rowClass_lt_one, rowClass_lt_one]
      exact fun hall j hj => hle j hj (hall j hj)
    have htwo : rowClass t n (g i') < 2 → rowClass t n (g i) < 2 := by
      rw [rowClass_lt_two, rowClass_lt_two]
      rintro (hall | ⟨j, hj, hlow⟩)
      · exact .inl fun j hj => hle j hj (hall j hj)
      · exact .inr ⟨j, hj, hle j hj hlow⟩
    have hmax : rowClass t n (g i) ≤ 2 := by
      unfold rowClass
      split_ifs <;> decide
    omega
  have hfirst := lt_iff_of_ascending (t := 1) hclass
  have hsecond := lt_iff_of_ascending (t := 2) hclass
  -- what lies between the first and the last class is dirty
  have hcount : total n (low 1) (fun i => rowClass t n (g i)) + dirtyRows t n g =
      total n (low 2) fun i => rowClass t n (g i) := by
    unfold dirtyRows
    rw [Finset.card_filter]
    unfold total
    rw [← Finset.sum_add_distrib]
    refine Finset.sum_congr rfl fun i _ => ?_
    rw [if_congr dirty_iff rfl rfl]
    exact low_one_add (rowClass t n (g i))
  have hle : total n (low 2) (fun i => rowClass t n (g i)) ≤ n * 1 :=
    total_le_of_le fun i _ => low_le_one 2 _
  refine ⟨total n (low 1) fun i => rowClass t n (g i), by omega, fun i hi => ?_, ?_⟩
  · exact rowClass_lt_one.mp ((hfirst i (by omega)).mpr hi)
  · intro i hi hn j hj hlow
    have hlt := (hsecond i hn).mp (rowClass_lt_two.mpr (.inr ⟨j, hj, hlow⟩))
    omega

/-- **A pair of phases halves the dirty rows** of a square with sorted
columns. -/
theorem dirtyRows_halve (h : ∀ j, j < n → ∀ i i', i < i' → i' < n → g i j ≤ g i' j)
    (hr : RowsSorted n g g') (hc : ColsSorted n g' g'') (t : α) :
    dirtyRows t n g'' ≤ (dirtyRows t n g + 1) / 2 := by
  obtain ⟨a, hb⟩ := banded_dirtyRows h t
  obtain ⟨a', hb'⟩ := (hr.banded hb).halve hr.snaking hc
  exact hb'.dirtyRows_le

/-- From any square half the rows are left. -/
theorem dirtyRows_le_half (hr : RowsSorted n g g') (hc : ColsSorted n g' g'') (t : α) :
    dirtyRows t n g'' ≤ (n + 1) / 2 := by
  obtain ⟨a', hb'⟩ := (hr.banded (banded_whole t n g)).halve hr.snaking hc
  exact hb'.dirtyRows_le

/-! ### Thin squares

Sorting needs so many phases. -/

/-- No row has more than `r` low elements. -/
def Thin (t : α) (n : Nat) (g : Nat → Nat → α) (r : Nat) : Prop :=
  ∀ i, i < n → total n (low t) (g i) ≤ r

theorem RowsSorted.thin (h : RowsSorted n g g') (ht : Thin t n g r) : Thin t n g' r := by
  intro i hi
  rw [h.same i hi]
  exact ht i hi

theorem total_lt_le (n r : Nat) : total n (fun j => if j < r then 1 else 0) id ≤ r := by
  have hle : ∀ m, total m (fun j => if j < r then 1 else 0) id ≤ min m r := by
    intro m
    induction m with
    | zero => exact Nat.zero_le _
    | succ m ih =>
        rw [total_succ]
        simp only [id_eq]
        split <;> omega
  exact Nat.le_trans (hle n) (Nat.min_le_right n r)

theorem total_ge_le (n r : Nat) : total n (fun j => if n ≤ j + r then 1 else 0) id ≤ r := by
  have hle : ∀ m, total m (fun j => if n ≤ j + r then 1 else 0) id ≤ m + r - n := by
    intro m
    induction m with
    | zero => exact Nat.zero_le _
    | succ m ih =>
        rw [total_succ]
        simp only [id_eq]
        split <;> omega
  exact Nat.le_trans (hle n) (by omega)

/-- A column that is low somewhere after its sort was low somewhere before. -/
theorem ColsSorted.exists_lt (h : ColsSorted n g g') {i j : Nat} (hi : i < n) (hj : j < n)
    (hlow : g' i j < t) : ∃ i', i' < n ∧ g i' j < t := by
  have hpos := Nat.zero_lt_of_lt ((h.lt_iff hi hj).mp hlow)
  obtain ⟨i', hi', hlow'⟩ := exists_of_total_pos hpos
  exact ⟨i', hi', low_pos.mp hlow'⟩

/-- **A pair of phases doubles the low elements of a row at most.** -/
theorem Thin.double (ht : Thin t n g r) (hs : Snaking n g) (hc : ColsSorted n g g') :
    Thin t n g' (2 * r) := by
  intro i hi
  have hcol : ∀ j, j < n → low t (g' i j) ≤
      (if j < r then 1 else 0) + (if n ≤ j + r then 1 else 0) := by
    intro j hj
    by_cases hlow : g' i j < t
    · obtain ⟨i', hi', hlow'⟩ := hc.exists_lt hi hj hlow
      have hr := ht i' hi'
      have hside : j < r ∨ n ≤ j + r := by
        rcases Nat.mod_two_eq_zero_or_one i' with he | ho
        · have := (hs.lt_iff_even hi' he j hj).mp hlow'
          omega
        · have := (hs.lt_iff_odd hi' ho j hj).mp hlow'
          omega
      rw [low_eq_one hlow]
      split_ifs <;> omega
    · rw [low_eq_zero.mpr hlow]
      exact Nat.zero_le _
  have hsum : total n (low t) (g' i) ≤
      total n (fun j => (if j < r then 1 else 0) + (if n ≤ j + r then 1 else 0)) id :=
    total_le hcol
  have hsplit : total n (fun j => (if j < r then 1 else 0) + (if n ≤ j + r then 1 else 0)) id =
      total n (fun j => if j < r then 1 else 0) id +
        total n (fun j => if n ≤ j + r then 1 else 0) id := total_add_weights ..
  have h₁ := total_lt_le n r
  have h₂ := total_ge_le n r
  omega

/-! ### Too few phases

A square with one low element in every other row takes as long. -/

section Few

variable {k : Nat} (hlow : ∀ i j, i < n → j < n → (g₀ i j < t ↔ i % 2 = 0 ∧ j = 0))

include hlow

theorem total_even_row {i : Nat} (hi : i < n) (he : i % 2 = 0) :
    total n (low t) (g₀ i) = 1 := by
  have h0 : 0 < n := Nat.zero_lt_of_lt hi
  rw [total_single h0 fun j hj hne => low_eq_zero.mpr fun hlt => hne ((hlow i j hi hj).mp hlt).2]
  exact low_eq_one ((hlow i 0 hi h0).mpr ⟨he, rfl⟩)

theorem total_odd_row {i : Nat} (hi : i < n) (ho : i % 2 = 1) : total n (low t) (g₀ i) = 0 := by
  refine total_eq_zero.mpr fun j hj => low_eq_zero.mpr fun hlt => ?_
  have he := ((hlow i j hi hj).mp hlt).1
  omega

theorem total_low : total n (total n (low t)) g₀ = (n + 1) / 2 := by
  have hrows : ∀ m, m ≤ n → total m (total n (low t)) g₀ = (m + 1) / 2 := by
    intro m
    induction m with
    | zero => exact fun _ => rfl
    | succ m ih =>
        intro hm
        rw [total_succ, ih (Nat.le_of_succ_le hm)]
        rcases Nat.mod_two_eq_zero_or_one m with he | ho
        · rw [total_even_row hlow hm he]
          omega
        · rw [total_odd_row hlow hm ho]
          omega
  exact hrows n (Nat.le_refl n)

/-- The first two phases leave the low elements in the first column. -/
theorem Shear.thin_first (h : Shear n g₀ 2 g) : Thin t n g 1 := by
  obtain ⟨g₁, hs₁, hc⟩ := Shear.cols_of_even (k := 0) h
  obtain ⟨g₂, hs₂, hr⟩ := hs₁.rows_of_odd
  cases hs₂
  intro i hi
  have hcol : ∀ j, j < n → j ≠ 0 → low t (g i j) = 0 := by
    intro j hj hne
    refine low_eq_zero.mpr fun hlt => hne ?_
    obtain ⟨i', hi', hlt'⟩ := hc.exists_lt hi hj hlt
    rcases Nat.mod_two_eq_zero_or_one i' with he | ho
    · rw [hr.snaking.lt_iff_even hi' he j hj, hr.same i' hi', total_even_row hlow hi' he] at hlt'
      exact Nat.lt_one_iff.mp hlt'
    · rw [hr.snaking.lt_iff_odd hi' ho j hj, hr.same i' hi', total_odd_row hlow hi' ho] at hlt'
      omega
  rw [total_single (Nat.zero_lt_of_lt hi) hcol]
  exact low_le_one t _

theorem Shear.thin : ∀ k g, Shear n g₀ (2 * (k + 1)) g → Thin t n g (2 ^ k) := by
  intro k
  induction k with
  | zero => exact fun g h => h.thin_first hlow
  | succ k ih =>
      intro g h
      obtain ⟨g₁, hs₁, hc⟩ := Shear.cols_of_even h
      obtain ⟨g₂, hs₂, hr⟩ := hs₁.rows_of_odd
      have hdouble := (hr.thin (ih g₂ hs₂)).double hr.snaking hc
      rw [Nat.pow_succ, Nat.mul_comm]
      exact hdouble

/-- After that many phases some low element is outside the first row. -/
theorem Shear.exists_outside (hk : 2 ^ (k + 1) < n) (h : Shear n g₀ (2 * (k + 1)) g) :
    ∃ i j, i < n ∧ j < n ∧ i ≠ 0 ∧ g i j < t := by
  by_contra hno
  push Not at hno
  have h0 : 0 < n := Nat.zero_lt_of_lt hk
  have hrest : ∀ i, i < n → i ≠ 0 → total n (low t) (g i) = 0 := fun i hi hne =>
    total_eq_zero.mpr fun j hj => low_eq_zero.mpr (not_lt.mpr (hno i j hi hj hne))
  have htotal := h.total_eq (low t)
  rw [total_low hlow, total_single h0 hrest] at htotal
  have hthin := Shear.thin hlow k g h 0 h0
  rw [Nat.pow_succ] at hk
  omega

omit hlow in
/-- A row of low elements only. -/
theorem le_total_of_row {i : Nat} (hi : i < n) (h : ∀ j, j < n → g i j < t) :
    n ≤ total n (total n (low t)) g := by
  have hrow : n * 1 ≤ total n (low t) (g i) := le_total_of_le fun j hj => low_pos.mpr (h j hj)
  have hle : total n (low t) (g i) ≤ total n (total n (low t)) g := weight_le_total hi
  omega

omit hlow in
/-- In snake order fewer low elements than a row are all in the first row. -/
theorem SnakeOrder.eq_zero_of_lt (h : SnakeOrder n g) (hfew : total n (total n (low t)) g < n)
    {i j : Nat} (hi : i < n) (hj : j < n) (hlt : g i j < t) : i = 0 := by
  rcases i with - | i
  · rfl
  · have hrow : ∀ j', j' < n → g i j' < t := fun j' hj' =>
      lt_of_le_of_lt (h.next i hi j' j hj' hj) hlt
    have hle := le_total_of_row (Nat.lt_of_succ_lt hi) hrow
    omega

/-- **Too few phases, the last one of rows.** -/
theorem not_snakeOrder_of_rows (hk : 2 ^ (k + 1) < n) (h : Shear n g₀ (2 * (k + 1) + 1) g) :
    ¬ SnakeOrder n g := by
  intro hsnake
  obtain ⟨g₁, hs, hr⟩ := h.rows_of_odd
  obtain ⟨i, j, hi, hj, hne, hlt⟩ := Shear.exists_outside hlow hk hs
  have hfew : total n (total n (low t)) g < n := by
    rw [h.total_eq, total_low hlow]
    have := Nat.one_le_two_pow (n := k)
    rw [Nat.pow_succ] at hk
    omega
  -- the row still has a low element after it has been sorted
  have hpos : 0 < total n (low t) (g i) := by
    rw [hr.same i hi]
    exact Nat.lt_of_lt_of_le (low_pos.mpr hlt) (weight_le_total hj)
  obtain ⟨j', hj', hlt'⟩ := exists_of_total_pos hpos
  exact hne (hsnake.eq_zero_of_lt hfew hi hj' (low_pos.mp hlt'))

/-- **Too few phases, the last one of columns.** -/
theorem not_snakeOrder_of_cols (hk : 2 ^ (k + 1) < n) (h : Shear n g₀ (2 * (k + 1) + 2) g) :
    ¬ SnakeOrder n g := by
  intro hsnake
  obtain ⟨g₁, hs₁, hc⟩ := h.cols_of_even
  obtain ⟨g₂, hs₂, hr⟩ := hs₁.rows_of_odd
  obtain ⟨g₃, -, hc₂⟩ := Shear.cols_of_even (k := k) hs₂
  obtain ⟨i, j, hi, hj, hne, hlt⟩ := Shear.exists_outside hlow hk hs₂
  have htwo := Nat.one_le_two_pow (n := k)
  rw [Nat.pow_succ] at hk
  have h1 : 1 < n := by omega
  -- the columns are sorted, so the second row has a low element
  have hlt₁ : g₂ 1 j < t := by
    rcases Nat.lt_or_ge 1 i with hgt | hle
    · exact lt_of_le_of_lt (hc₂.sorted j hj 1 i hgt hi) hlt
    · obtain rfl : i = 1 := by omega
      exact hlt
  have hpos : 0 < total n (low t) (g₁ 1) := by
    rw [hr.same 1 h1]
    exact Nat.lt_of_lt_of_le (low_pos.mpr hlt₁) (weight_le_total hj)
  -- the row of them takes it to its end, and the columns to the first row
  have hlast : g₁ 1 (n - 1) < t := by
    rw [hr.snaking.lt_iff_odd h1 rfl (n - 1) (by omega)]
    omega
  have hcorner : g 0 (n - 1) < t := by
    rw [hc.lt_iff (by omega) (by omega)]
    exact Nat.lt_of_lt_of_le (low_pos.mpr hlast)
      (weight_le_total (g := low t) (f := fun i => g₁ i (n - 1)) h1)
  have hrow : ∀ j', j' < n → g 0 j' < t := by
    intro j' hj'
    rcases Nat.lt_or_ge j' (n - 1) with hlt | hge
    · exact lt_of_le_of_lt (hsnake.snaking.even 0 (by omega) rfl j' (n - 1) hlt (by omega)) hcorner
    · obtain rfl : j' = n - 1 := by omega
      exact hcorner
  have hfull := le_total_of_row (by omega) hrow
  rw [h.total_eq, total_low hlow] at hfull
  omega

end Few

end Phases

end TestExamples
