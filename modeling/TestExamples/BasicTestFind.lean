/-
TestExamples/BasicTestFind.lean

`Find` of basic_test/main.cpp: a matrix with rows in order is searched for a
number.

A row that begins behind the target ends the search, a row that ends before it
is passed over, and in the others the elements are compared up to the first that
is larger.  None of the three loses the target where the rows ascend and begin in
ascending order (`Find_returns`).  But a row is compared up to its size as an
`int`: of a row with `2 ^ 31` elements or more the end is not looked at, and the
whole row where the size becomes negative (`findsExactly_iff`).

The first element of an empty row is read, so such a matrix has no result.
-/
import Mathlib.Data.Int.Notation
import TestExamples.Lib.Bytes
import TestExamples.Lib.Loop

namespace TestExamples

namespace BasicTest

/-- `int len = vec.size();` -/
def len (vec : List Int) : Int := toInt32 (vec.length % 2 ^ 32)

/-- One turn of the inner loop, which sets `bfind` or does not. -/
def rowTurn (target : Int) (vec : List Int) (i : Nat) : LoopTurn Nat Bool :=
  if (i : Int) < len vec then
    match vec[i]? with
    | some x =>
        if target < x then .exit false
        else if target = x then .exit true
        else .next (i + 1)
    | none => .undefined
  else .exit false

/-- The outer loop. -/
def findRows (target : Int) (bfind : Bool) : List (List Int) → Nat → Option Bool
  | [], _ => some bfind
  | vec :: array, fuel =>
      match vec.head?, vec.getLast? with
      | some first, some last =>
          if target < first then some bfind
          else if target > last then findRows target bfind array fuel
          else
            (whileLoop (rowTurn target vec) 0 fuel).bind fun found =>
              findRows target (bfind || found) array fuel
      | _, _ => none

def Find (target : Int) (array : List (List Int)) : Nat → Option Bool := findRows target false array

/-! ### What it is for -/

/-- Rows that are not empty and in order, and begin in order. -/
structure Ascending (array : List (List Int)) : Prop where
  ne_nil : ∀ vec ∈ array, vec ≠ []
  rows : ∀ vec ∈ array, vec.Pairwise (· ≤ ·)
  firsts : array.Pairwise fun vec vec' => ∀ x ∈ vec.head?, ∀ y ∈ vec'.head?, x ≤ y

/-- The target occurs in the matrix. -/
def Occurs (target : Int) (array : List (List Int)) : Prop := ∃ vec ∈ array, target ∈ vec

instance (target : Int) (array : List (List Int)) : Decidable (Occurs target array) :=
  inferInstanceAs (Decidable (∃ vec ∈ array, target ∈ vec))

/-- `Find` returns, and tells whether the target occurs. -/
def FindsExactly (target : Int) (array : List (List Int)) : Prop :=
  Returns (Find target array) (decide (Occurs target array))

/-- What is compared of a row: its first elements, as many as its size is as an
`int`. -/
def compared (vec : List Int) : List Int := vec.take (len vec).toNat

/-- The target occurs, but in no row where it would be compared. -/
def Hidden (target : Int) (array : List (List Int)) : Prop :=
  Occurs target array ∧ ¬ Occurs target (array.map compared)

instance (target : Int) (array : List (List Int)) : Decidable (Hidden target array) :=
  inferInstanceAs (Decidable (_ ∧ _))

section Find

variable {target x y : Int} {vec : List Int} {array : List (List Int)} {i : Nat}

/-! ### One row -/

theorem len_le (vec : List Int) : (len vec).toNat ≤ vec.length := by
  unfold len toInt32
  have hle := Nat.mod_le vec.length (2 ^ 32)
  split <;> omega

theorem compared_of_short (h : vec.length < 2 ^ 31) : compared vec = vec := by
  have hmod : vec.length % 2 ^ 32 = vec.length := Nat.mod_eq_of_lt (by omega)
  rw [compared, len, hmod, toInt32_of_lt h, Int.toNat_natCast]
  exact List.take_length

/-- Behind an element that is larger the target does not occur. -/
theorem not_mem_drop (hvec : vec.Pairwise (· ≤ ·)) (hx : vec[i]? = some x) (hlt : target < x) :
    target ∉ vec.drop i := by
  obtain ⟨hi, rfl⟩ := List.getElem?_eq_some_iff.mp hx
  rw [List.drop_eq_getElem_cons hi, List.mem_cons]
  rintro (rfl | hmem)
  · exact lt_irrefl _ hlt
  · have htail := hvec.sublist (List.drop_sublist i vec)
    rw [List.drop_eq_getElem_cons hi, List.pairwise_cons] at htail
    exact absurd (htail.1 target hmem) (Int.not_le.mpr hlt)

theorem not_mem_compared (hi : i ≤ (len vec).toNat) (hbefore : target ∉ vec.take i)
    (hbehind : target ∉ vec.drop i) : target ∉ compared vec := by
  intro hmem
  rw [compared, ← Nat.add_sub_cancel' hi, List.take_add, List.mem_append] at hmem
  rcases hmem with hmem | hmem
  · exact hbefore hmem
  · exact hbehind (List.mem_of_mem_take hmem)

/-- One turn: it goes on, or it leaves with the answer. -/
theorem rowTurn_spec (hvec : vec.Pairwise (· ≤ ·)) (hi : i ≤ (len vec).toNat)
    (hbefore : target ∉ vec.take i) :
    (rowTurn target vec i = .next (i + 1) ∧ i + 1 ≤ (len vec).toNat ∧
      target ∉ vec.take (i + 1)) ∨
      rowTurn target vec i = .exit (decide (target ∈ compared vec)) := by
  have hlen := len_le vec
  unfold rowTurn
  by_cases hlt : (i : Int) < len vec
  · have hread : i < vec.length := by omega
    rw [if_pos hlt, List.getElem?_eq_getElem hread]
    rcases Int.lt_trichotomy target vec[i] with hless | heq | hmore
    · -- the elements from here on are larger
      right
      have hnot := not_mem_compared hi hbefore
        (not_mem_drop hvec (List.getElem?_eq_getElem hread) hless)
      rw [decide_eq_false hnot]
      exact if_pos hless
    · right
      have hmem : target ∈ compared vec := by
        rw [heq, compared]
        exact List.mem_take_iff_getElem.mpr ⟨i, by omega, rfl⟩
      rw [decide_eq_true hmem]
      exact (if_neg (by omega)).trans (if_pos heq)
    · left
      refine ⟨(if_neg (by omega)).trans (if_neg (by omega)), by omega, ?_⟩
      rw [List.take_succ_eq_append_getElem hread, List.mem_append, List.mem_singleton]
      rintro (hmem | rfl)
      · exact hbefore hmem
      · omega
  · right
    have hend : i = (len vec).toNat := by omega
    rw [if_neg hlt, compared, ← hend, decide_eq_false hbefore]

/-- **The inner loop** finds the target among the elements compared. -/
theorem rowTurn_returns (target : Int) (hvec : vec.Pairwise (· ≤ ·)) :
    Returns (whileLoop (rowTurn target vec) 0) (decide (target ∈ compared vec)) := by
  have hturn : ∀ i, i ≤ (len vec).toNat ∧ target ∉ vec.take i →
      (∃ i', rowTurn target vec i = .next i' ∧ (i' ≤ (len vec).toNat ∧ target ∉ vec.take i') ∧
        (len vec).toNat - i' < (len vec).toNat - i) ∨
        ∃ r, rowTurn target vec i = .exit r ∧ r = decide (target ∈ compared vec) := by
    rintro i ⟨hi, hbefore⟩
    rcases rowTurn_spec hvec hi hbefore with ⟨hnext, hi', hbefore'⟩ | hexit
    · exact .inl ⟨i + 1, hnext, ⟨hi', hbefore'⟩, by omega⟩
    · exact .inr ⟨_, hexit, rfl⟩
  have hstart : 0 ≤ (len vec).toNat ∧ target ∉ vec.take 0 := ⟨Nat.zero_le _, List.not_mem_nil⟩
  obtain ⟨r, hr, rfl⟩ := returns_loop (fun i => i ≤ (len vec).toNat ∧ target ∉ vec.take i)
    (fun i => (len vec).toNat - i) (fun r => r = decide (target ∈ compared vec)) hstart hturn
  exact hr

/-! ### The matrix -/

theorem Ascending.tail (h : Ascending (vec :: array)) : Ascending array where
  ne_nil := fun vec' hmem => h.ne_nil vec' (List.mem_cons_of_mem vec hmem)
  rows := fun vec' hmem => h.rows vec' (List.mem_cons_of_mem vec hmem)
  firsts := h.firsts.of_cons

theorem Occurs.compared (h : Occurs target (array.map compared)) : Occurs target array := by
  obtain ⟨cut, hcut, hmem⟩ := h
  obtain ⟨vec, hvec, rfl⟩ := List.mem_map.mp hcut
  exact ⟨vec, hvec, List.mem_of_mem_take hmem⟩

theorem occurs_cons : Occurs target (vec :: array) ↔ target ∈ vec ∨ Occurs target array := by
  unfold Occurs
  rw [List.exists_mem_cons_iff]

/-- In front of the first element of a row the target does not occur. -/
theorem not_mem_of_lt_head (hvec : vec.Pairwise (· ≤ ·)) (hx : vec.head? = some x)
    (hlt : target < x) : target ∉ vec := by
  rw [← List.drop_zero (l := vec)]
  refine not_mem_drop hvec ?_ hlt
  rw [← hx, List.head?_eq_getElem?]

theorem not_mem_of_getLast_lt (hvec : vec.Pairwise (· ≤ ·)) (hx : vec.getLast? = some x)
    (hlt : x < target) : target ∉ vec := by
  obtain ⟨front, rfl⟩ := List.getLast?_eq_some_iff.mp hx
  rw [List.mem_append, List.mem_singleton]
  rintro (hmem | rfl)
  · have hle := (List.pairwise_append.mp hvec).2.2 target hmem x (List.mem_singleton_self x)
    omega
  · omega

/-- **The early break**: a row that begins behind the target ends the search. -/
theorem not_occurs_of_lt (h : Ascending (vec :: array)) (hx : vec.head? = some x)
    (hlt : target < x) : ¬ Occurs target (vec :: array) := by
  rintro ⟨row, hrow, hmem⟩
  have hle : ∀ y ∈ row.head?, x ≤ y := by
    rcases List.mem_cons.mp hrow with rfl | hrow
    · intro y hy
      obtain rfl := Option.some.inj (hx.symm.trans hy)
      exact Int.le_refl x
    · exact (List.pairwise_cons.mp h.firsts).1 row hrow x hx
  rcases hhead : row.head? with - | y
  · rw [List.head?_eq_none_iff] at hhead
    exact h.ne_nil row hrow hhead
  · have hxy := hle y hhead
    exact not_mem_of_lt_head (h.rows row hrow) hhead (by omega) hmem

theorem decide_occurs_cons : decide (Occurs target ((vec :: array).map compared)) =
    (decide (target ∈ compared vec) || decide (Occurs target (array.map compared))) := by
  rw [List.map_cons, ← Bool.decide_or]
  exact decide_eq_decide.mpr occurs_cons

theorem findRows_cons (target : Int) (bfind : Bool) (array : List (List Int))
    (hx : vec.head? = some x) (hy : vec.getLast? = some y) :
    findRows target bfind (vec :: array) = fun fuel =>
      if target < x then some bfind
      else if target > y then findRows target bfind array fuel
      else
        (whileLoop (rowTurn target vec) 0 fuel).bind fun found =>
          findRows target (bfind || found) array fuel := by
  funext fuel
  simp only [findRows, hx, hy]

/-- **The search** finds the target among the elements compared. -/
theorem findRows_returns (target : Int) (bfind : Bool) (h : Ascending array) :
    Returns (findRows target bfind array)
      (bfind || decide (Occurs target (array.map compared))) := by
  induction array generalizing bfind with
  | nil =>
      have hnot : ¬ Occurs target (List.map compared []) := by
        rintro ⟨vec, hvec, -⟩
        cases hvec
      rw [decide_eq_false hnot, Bool.or_false]
      exact returns_pure bfind
  | cons vec array ih =>
      have hmem := List.mem_cons_self (a := vec) (l := array)
      obtain ⟨first, hfirst⟩ := Option.ne_none_iff_exists'.mp
        (mt List.head?_eq_none_iff.mp (h.ne_nil vec hmem))
      obtain ⟨last, hlast⟩ := Option.ne_none_iff_exists'.mp
        (mt List.getLast?_eq_none_iff.mp (h.ne_nil vec hmem))
      rw [findRows_cons target bfind array hfirst hlast]
      by_cases hless : target < first
      · simp only [if_pos hless]
        have hnot := mt Occurs.compared (not_occurs_of_lt h hfirst hless)
        rw [decide_eq_false hnot, Bool.or_false]
        exact returns_pure bfind
      · rw [decide_occurs_cons]
        by_cases hmore : target > last
        · simp only [if_neg hless, if_pos hmore]
          have hnot : target ∉ compared vec := fun hin =>
            not_mem_of_getLast_lt (h.rows vec hmem) hlast hmore (List.mem_of_mem_take hin)
          rw [decide_eq_false hnot, Bool.false_or]
          exact ih bfind h.tail
        · simp only [if_neg hless, if_neg hmore]
          rw [← Bool.or_assoc]
          exact (rowTurn_returns target (h.rows vec hmem)).bind (ih _ h.tail)

theorem Find_returns (target : Int) (h : Ascending array) :
    Returns (Find target array) (decide (Occurs target (array.map compared))) :=
  findRows_returns target false h

/-- Where the sizes are below `2 ^ 31` nothing is lost. -/
theorem findsExactly_of_short (target : Int) (h : Ascending array)
    (hshort : ∀ vec ∈ array, vec.length < 2 ^ 31) : FindsExactly target array := by
  have hsame : array.map compared = array :=
    (List.map_congr_left fun vec hvec => compared_of_short (hshort vec hvec)).trans
      (List.map_id array)
  have hreturns := Find_returns target h
  rwa [hsame] at hreturns

/-- A target that is not compared is not found. -/
theorem not_findsExactly_of_hidden (h : Ascending array) (hhidden : Hidden target array) :
    ¬ FindsExactly target array := by
  intro hexact
  have heq := hexact.unique (Find_returns target h)
  rw [decide_eq_true hhidden.1, decide_eq_false hhidden.2] at heq
  cases heq

/-- **When the search is exact**: unless the target occurs where it is not
compared only. -/
theorem findsExactly_iff (target : Int) (h : Ascending array) :
    FindsExactly target array ↔ ¬ Hidden target array := by
  constructor
  · exact fun hexact hhidden => not_findsExactly_of_hidden h hhidden hexact
  · intro hvisible
    have hiff : Occurs target array ↔ Occurs target (array.map compared) :=
      ⟨fun hoccurs => by_contra fun hnot => hvisible ⟨hoccurs, hnot⟩, Occurs.compared⟩
    rw [FindsExactly, decide_eq_decide.mpr hiff]
    exact Find_returns target h

/-- The matrix of `test_46`. -/
theorem findsExactly_iff_three : FindsExactly 3 [[1, 2, 3], [2, 3, 4], [3, 4, 5]] := by
  refine (findsExactly_iff 3 ⟨?_, ?_, ?_⟩).mpr (by decide) <;> decide

/-! ### One row of one number -/

theorem ascending_replicate {n : Nat} (hn : n ≠ 0) (x : Int) :
    Ascending [List.replicate n x] := by
  refine ⟨fun vec hvec => ?_, fun vec hvec => ?_, List.pairwise_singleton _ _⟩
  · rw [List.mem_singleton.mp hvec]
    exact fun hnil => hn (List.replicate_eq_nil_iff x |>.mp hnil)
  · rw [List.mem_singleton.mp hvec]
    exact List.pairwise_replicate.mpr (.inr (Int.le_refl x))

/-- Nothing of it is compared if its size is not positive as an `int`. -/
theorem hidden_replicate {n : Nat} (hn : n ≠ 0) (hlen : toInt32 (n % 2 ^ 32) ≤ 0) (x : Int) :
    Hidden x [List.replicate n x] := by
  have hcompared : compared (List.replicate n x) = [] := by
    rw [compared, len, List.length_replicate, Int.toNat_of_nonpos hlen, List.take_zero]
  refine ⟨⟨_, List.mem_singleton_self _, List.mem_replicate.mpr ⟨hn, rfl⟩⟩, ?_⟩
  rintro ⟨vec, hvec, hmem⟩
  rw [List.map_singleton, hcompared, List.mem_singleton] at hvec
  rw [hvec] at hmem
  cases hmem

/-- A row of `2 ^ 31` zeros. -/
theorem not_findsExactly : ¬ ∀ (target : Int) (array : List (List Int)), Ascending array →
    FindsExactly target array := by
  intro h
  obtain ⟨n, hn⟩ : ∃ n, n = 2 ^ 31 := ⟨_, rfl⟩
  have hne : n ≠ 0 := by omega
  have hlen : toInt32 (n % 2 ^ 32) ≤ 0 := by
    rw [hn]
    decide
  have hascending := ascending_replicate hne 0
  exact not_findsExactly_of_hidden hascending (hidden_replicate hne hlen 0) (h 0 _ hascending)

end Find

end BasicTest

end TestExamples
