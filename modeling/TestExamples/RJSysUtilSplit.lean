/-
TestExamples/RJSysUtilSplit.lean

`SplitString` and `SplitIntString` of RJCommon/RJSysUtil.cpp and their copies
in CXXTest/concurrent_sort_test/main.cpp.

The loop carries the position behind the last separator.  It passes over an
empty piece where the next separator stands at that position, but it stores
what is behind the last separator without looking at it (`stored`).  So the
strings stored are the fields of the line unless the line ends in a separator,
which gives an empty string and the integer 0 at the end (`splitsFields_iff`).

A `size_t` position is a number: no string is as long as `npos`.  `RJTRUE` is
`true`.
-/
import TestExamples.Lib.CString
import TestExamples.Lib.Fields
import TestExamples.Lib.Loop

namespace TestExamples

/-! ### The functions -/

namespace RJSysUtil

/-- The variables of the loop of `SplitString`. -/
structure Splitting where
  posEnd : Nat
  stringVector : List (List Byte)
  deriving DecidableEq, Repr

/-- One turn of the loop.  Its test holds every time: `posEnd` is a position in
the string, or its end. -/
def splitTurn (spCharacter : Byte) (objString : List Byte) (s : Splitting) :
    LoopTurn Splitting (List (List Byte)) :=
  let posBegin := s.posEnd
  match find objString spCharacter posBegin with
  | some posEnd =>
      if posBegin = posEnd then .next { s with posEnd := posEnd + 1 }
      else
        match substr objString posBegin (posEnd - posBegin) with
        | some piece => .next ⟨posEnd + 1, s.stringVector ++ [piece]⟩
        | none => .undefined
  | none =>
      match substr objString posBegin (objString.length - posBegin) with
      | some piece => .exit (s.stringVector ++ [piece])
      | none => .undefined

def SplitString (spCharacter : Byte) (objString : List Byte) (stringVector : List (List Byte))
    (fuel : Nat) : Option (Bool × List (List Byte)) :=
  if objString.length = 0 then some (true, stringVector)
  else
    (whileLoop (splitTurn spCharacter objString) ⟨0, stringVector⟩ fuel).map fun stringVector =>
      (true, stringVector)

def SplitIntString (spCharacter : Byte) (objString : List Byte) (intVector : List Int)
    (fuel : Nat) : Option (Bool × List Int) :=
  (SplitString spCharacter objString [] fuel).map fun p => (true, intVector ++ p.2.map atoi)

end RJSysUtil

namespace ConcurrentSort

/-- The copy in concurrent_sort_test/main.cpp. -/
def splitString (spCharacter : Byte) (objString : List Byte) (stringVector : List (List Byte)) :
    Nat → Option (Bool × List (List Byte)) :=
  RJSysUtil.SplitString spCharacter objString stringVector

/-- The copy in concurrent_sort_test/main.cpp. -/
def splitIntString (spCharacter : Byte) (objString : List Byte) (intVector : List Int) :
    Nat → Option (Bool × List Int) :=
  RJSysUtil.SplitIntString spCharacter objString intVector

end ConcurrentSort

namespace RJSysUtil

/-- Splitting without empty fields, in both copies. -/
structure SplitsFields (spCharacter : Byte) (objString : List Byte) : Prop where
  SplitString : ∀ stringVector, Returns (SplitString spCharacter objString stringVector)
    (true, stringVector ++ fields spCharacter objString)
  SplitIntString : ∀ intVector, Returns (SplitIntString spCharacter objString intVector)
    (true, intVector ++ (fields spCharacter objString).map atoi)
  splitString : ∀ stringVector,
    Returns (ConcurrentSort.splitString spCharacter objString stringVector)
      (true, stringVector ++ fields spCharacter objString)
  splitIntString : ∀ intVector,
    Returns (ConcurrentSort.splitIntString spCharacter objString intVector)
      (true, intVector ++ (fields spCharacter objString).map atoi)

/-! ### What is stored -/

section Stored

variable {sep : Byte} {s rest xs ys : List Byte}

/-- The line ends in a separator. -/
def EndsIn (sep : Byte) (s : List Byte) : Prop := s.getLast? = some sep

instance (sep : Byte) (s : List Byte) : Decidable (EndsIn sep s) :=
  inferInstanceAs (Decidable (_ = _))

/-- What the loop stores of a line: its fields, and the last piece even where it
is empty. -/
def stored (sep : Byte) (s : List Byte) : List (List Byte) :=
  fields sep s ++ if s = [] ∨ EndsIn sep s then [[]] else []

theorem not_endsIn_of_not_mem (h : sep ∉ s) : ¬ EndsIn sep s := fun he =>
  h (List.mem_of_getLast? he)

theorem stored_of_not_mem (h : sep ∉ s) : stored sep s = [s] := by
  unfold stored
  rw [fields_of_not_mem h]
  by_cases hs : s = []
  · rw [if_pos hs, if_pos (Or.inl hs), hs]
    rfl
  · rw [if_neg hs, if_neg fun ho => ho.elim hs (not_endsIn_of_not_mem h)]
    rfl

theorem stored_cut (h : sep ∉ xs) (ys : List Byte) :
    stored sep (xs ++ sep :: ys) = (if xs = [] then [] else [xs]) ++ stored sep ys := by
  have hend : (xs ++ sep :: ys = [] ∨ EndsIn sep (xs ++ sep :: ys)) ↔
      (ys = [] ∨ EndsIn sep ys) := by
    unfold EndsIn
    rcases ys with - | ⟨y, ys⟩
    · simp
    · simp [List.getLast?_append, List.getLast?_cons_cons]
  unfold stored
  rw [fields_cut h, if_congr hend rfl rfl, List.append_assoc]

/-- The loop from a position on. -/
theorem splitTurn_returns (sep : Byte) (s : List Byte) :
    ∀ rest pos vec, pos ≤ s.length → s.drop pos = rest →
      Returns (whileLoop (splitTurn sep s) ⟨pos, vec⟩) (vec ++ stored sep rest) := by
  intro rest
  induction rest using field_induction sep with
  | last rest hnot =>
      intro pos vec hpos hrest
      refine returns_of_exit ?_
      have hpiece : substr s pos (s.length - pos) = some rest := by
        rw [substr, if_pos hpos, hrest, List.take_of_length_le (by rw [← hrest, List.length_drop])]
      simp only [splitTurn, find_of_not_mem (hrest ▸ hnot), hpiece]
      rw [stored_of_not_mem hnot]
  | cut xs ys hxs ih =>
      intro pos vec hpos hrest
      -- the turns go on behind the separator
      have hlen : xs.length + (ys.length + 1) = s.length - pos := by
        rw [← List.length_cons, ← List.length_append, ← hrest, List.length_drop]
      have hys : s.drop (xs.length + pos + 1) = ys := by
        rw [show xs.length + pos + 1 = pos + (xs.length + 1) by omega, ← List.drop_drop, hrest,
          ← List.drop_drop, List.drop_left, List.drop_one, List.tail_cons]
      have hfind := find_of_cut hrest hxs
      rw [stored_cut hxs]
      by_cases hnil : xs = []
      · subst hnil
        rw [if_pos rfl, List.nil_append]
        refine returns_of_next ?_ (ih _ vec (by omega) hys)
        simp only [splitTurn, hfind, List.length_nil, Nat.zero_add, if_true]
      · have hne : pos ≠ xs.length + pos := by
          have := List.length_pos_of_ne_nil hnil
          omega
        have hpiece : substr s pos (xs.length + pos - pos) = some xs := by
          rw [substr, if_pos hpos, hrest, Nat.add_sub_cancel, List.take_left]
        rw [if_neg hnil, ← List.append_assoc]
        refine returns_of_next ?_ (ih _ (vec ++ [xs]) (by omega) hys)
        simp only [splitTurn, hfind, if_neg hne, hpiece]

/-- **What `SplitString` appends**, for every line. -/
theorem SplitString_returns (sep : Byte) (s : List Byte) (vec : List (List Byte)) :
    Returns (SplitString sep s vec) (true, vec ++ if s = [] then [] else stored sep s) := by
  rcases s with - | ⟨b, s⟩
  · rw [if_pos rfl, List.append_nil]
    exact returns_pure _
  · rw [if_neg (List.cons_ne_nil b s)]
    exact (splitTurn_returns sep (b :: s) (b :: s) 0 vec (Nat.zero_le _) rfl).map

theorem SplitIntString_returns (sep : Byte) (s : List Byte) (vec : List Int) :
    Returns (SplitIntString sep s vec)
      (true, vec ++ (if s = [] then [] else stored sep s).map atoi) :=
  (SplitString_returns sep s []).map

theorem stored_eq_fields (hs : s ≠ []) : stored sep s = fields sep s ↔ ¬ EndsIn sep s := by
  unfold stored
  rw [List.append_right_eq_self]
  constructor
  · intro hnil he
    rw [if_pos (Or.inr he)] at hnil
    cases hnil
  · intro hnot
    exact if_neg fun ho => ho.elim hs hnot

/-- **The line is split into its fields unless it ends in a separator.** -/
theorem splitsFields_iff (spCharacter : Byte) (objString : List Byte) :
    SplitsFields spCharacter objString ↔ ¬ EndsIn spCharacter objString := by
  have hstrings := SplitString_returns spCharacter objString
  have hints := SplitIntString_returns spCharacter objString
  constructor
  · intro h he
    have hne : objString ≠ [] := by
      rintro rfl
      cases he
    have hboth := (h.SplitString []).unique (hstrings [])
    rw [if_neg hne] at hboth
    exact (stored_eq_fields hne).mp (Prod.mk.inj hboth).2.symm he
  · intro hnot
    have heq : (if objString = [] then [] else stored spCharacter objString) =
        fields spCharacter objString := by
      by_cases hs : objString = []
      · rw [if_pos hs, hs]
        rfl
      · rw [if_neg hs]
        exact (stored_eq_fields hs).mpr hnot
    rw [heq] at hstrings hints
    exact ⟨hstrings, hints, hstrings, hints⟩

/-- `"1,"` gives the strings `"1"` and `""`. -/
theorem not_splitsFields : ¬ ∀ spCharacter objString, SplitsFields spCharacter objString := by
  intro h
  have hcode : Returns (SplitString 44 [49, 44] []) (true, [[49], []]) :=
    SplitString_returns 44 [49, 44] []
  have hboth := ((h 44 [49, 44]).SplitString []).unique hcode
  exact absurd hboth (by decide +kernel)

end Stored

end RJSysUtil

end TestExamples
