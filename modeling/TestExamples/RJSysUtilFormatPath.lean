/-
TestExamples/RJSysUtilFormatPath.lean

`FormatPath` of RJCommon/RJSysUtil.cpp.

The loop looks for a backslash from the beginning of the path and overwrites it
with a slash, until there is none.  It ends with every backslash replaced
(`formatTurn_returns`).  Then one separator is taken off the end, so a path
that ends in two of them keeps one, and another call takes that one off too
(`normalises_iff`).
-/
import TestExamples.Lib.CString
import TestExamples.Lib.Loop

namespace TestExamples

namespace RJSysUtil

/-- `'/'`. -/
def slash : Byte := 47

/-- `'\\'`. -/
def backslash : Byte := 92

/-- One turn of the loop: `sPath.find("\\")` and `sPath.replace(i, 1, "/")`. -/
def formatTurn (sPath : List Byte) : LoopTurn (List Byte) (List Byte) :=
  match find sPath backslash 0 with
  | some i =>
      match replace sPath i 1 [slash] with
      | some sPath => .next sPath
      | none => .undefined
  | none => .exit sPath

/-- What is behind the loop: the last character is erased if it is a
separator. -/
def eraseLast (sPath : List Byte) : List Byte :=
  if sPath.getLast? = some slash ∨ sPath.getLast? = some backslash then sPath.dropLast else sPath

/-- `FormatPath`, on a buffer that holds a C string. -/
def FormatPath (path : List Byte) (fuel : Nat) : Option (List Byte) :=
  (whileLoop formatTurn (cstr path) fuel).map eraseLast

/-- A separator of either kind. -/
def IsSeparator (b : Byte) : Prop := b = slash ∨ b = backslash

/-- The result has no backslash and does not end in a separator, and formatting
it again changes nothing. -/
structure Normalised (path : List Byte) : Prop where
  no_backslash : backslash ∉ path
  no_end : ∀ b ∈ path.getLast?, ¬ IsSeparator b
  again : Returns (FormatPath path) path

/-- `FormatPath` makes such a path. -/
def Normalises (path : List Byte) : Prop := ∃ r, Returns (FormatPath path) r ∧ Normalised r

/-- The path ends in two separators. -/
def EndsInTwo (path : List Byte) : Prop :=
  ∃ front a b, path = front ++ [a, b] ∧ IsSeparator a ∧ IsSeparator b

section FormatPath

variable {path s : List Byte}

/-- A character as the loop leaves it. -/
def toSlash (b : Byte) : Byte := if b = backslash then slash else b

theorem toSlash_ne (b : Byte) : toSlash b ≠ backslash := by
  unfold toSlash
  split
  · decide
  · assumption

theorem toSlash_eq_slash {b : Byte} : toSlash b = slash ↔ IsSeparator b := by
  unfold toSlash IsSeparator
  split
  · next h => exact iff_of_true rfl (Or.inr h)
  · next h => exact (or_iff_left h).symm

theorem map_toSlash (h : backslash ∉ s) : s.map toSlash = s := by
  have hid : ∀ b ∈ s, toSlash b = b := by
    intro b hb
    refine if_neg ?_
    rintro rfl
    exact h hb
  rw [List.map_congr_left hid, List.map_id']

theorem backslash_not_mem_map (s : List Byte) : backslash ∉ s.map toSlash := by
  intro h
  obtain ⟨b, -, hb⟩ := List.mem_map.mp h
  exact toSlash_ne b hb

/-- **The loop ends**, with every backslash replaced. -/
theorem formatTurn_returns (s : List Byte) :
    Returns (whileLoop formatTurn s) (s.map toSlash) := by
  -- a turn takes one backslash away and nothing else
  have hturn : ∀ p : List Byte, p.map toSlash = s.map toSlash →
      (∃ p', formatTurn p = .next p' ∧ p'.map toSlash = s.map toSlash ∧
        p'.count backslash < p.count backslash) ∨
        ∃ r, formatTurn p = .exit r ∧ r = s.map toSlash := by
    intro p hp
    by_cases hmem : backslash ∈ p
    · left
      obtain ⟨xs, ys, rfl, hxs⟩ := List.eq_append_cons_of_mem hmem
      have hfind : find (xs ++ backslash :: ys) backslash 0 = some xs.length :=
        find_of_cut rfl hxs
      have hreplace : replace (xs ++ backslash :: ys) xs.length 1 [slash] =
          some (xs ++ slash :: ys) := 
        replace_middle rfl (show 1 = [backslash].length from rfl)
      refine ⟨xs ++ slash :: ys, ?_, ?_, ?_⟩
      · simp only [formatTurn, hfind, hreplace]
      · rw [← hp, List.map_append, List.map_append, List.map_cons, List.map_cons]
        rfl
      · rw [List.count_append, List.count_append, List.count_cons_self,
          List.count_cons_of_ne (by decide)]
        omega
    · right
      refine ⟨p, ?_, ?_⟩
      · have hfind : find p backslash 0 = none := find_of_not_mem hmem
        simp only [formatTurn, hfind]
      · rw [← hp, map_toSlash hmem]
  obtain ⟨r, hr, rfl⟩ := returns_loop (fun p : List Byte => p.map toSlash = s.map toSlash)
    (fun p => p.count backslash) (fun r => r = s.map toSlash) rfl hturn
  exact hr

theorem FormatPath_returns (path : List Byte) :
    Returns (FormatPath path) (eraseLast ((cstr path).map toSlash)) :=
  (formatTurn_returns (cstr path)).map

theorem eraseLast_of_end {front : List Byte} {b : Byte} (h : IsSeparator b) :
    eraseLast (front ++ [b]) = front := by
  unfold eraseLast
  rw [List.getLast?_concat, List.dropLast_concat, if_pos]
  exact h.imp (congrArg some) (congrArg some)

theorem eraseLast_of_not_end (h : ∀ b ∈ s.getLast?, ¬ IsSeparator b) : eraseLast s = s := by
  unfold eraseLast
  refine if_neg fun ho => ?_
  rcases ho with he | he
  · exact h slash he (Or.inl rfl)
  · exact h backslash he (Or.inr rfl)

theorem eraseLast_front (s : List Byte) : eraseLast s <+: s := by
  unfold eraseLast
  split
  · exact s.dropLast_prefix
  · exact List.prefix_rfl

/-- What `FormatPath` returns for a path it has returned. -/
theorem FormatPath_again (path : List Byte) :
    Returns (FormatPath (eraseLast ((cstr path).map toSlash)))
      (eraseLast (eraseLast ((cstr path).map toSlash))) := by
  have hmem : ∀ b ∈ eraseLast ((cstr path).map toSlash), b ∈ (cstr path).map toSlash := fun _ hb =>
    (eraseLast_front _).subset hb
  have hnul : ∀ b ∈ eraseLast ((cstr path).map toSlash), b ≠ 0 := by
    rintro b hb rfl
    obtain ⟨b, hb, hzero⟩ := List.mem_map.mp (hmem 0 hb)
    unfold toSlash at hzero
    split at hzero
    · cases hzero
    · exact no_nul_of_mem_cstr b hb hzero
  have hagain := FormatPath_returns (eraseLast ((cstr path).map toSlash))
  rw [cstr_of_no_nul hnul, map_toSlash fun hb => backslash_not_mem_map _ (hmem _ hb)] at hagain
  exact hagain

/-- One separator is left at the end exactly where there were two. -/
theorem ends_eraseLast_iff (s : List Byte) :
    (∃ b ∈ (eraseLast (s.map toSlash)).getLast?, IsSeparator b) ↔ EndsInTwo s := by
  -- a separator is one when its path has been through the loop
  have hsep : ∀ b, IsSeparator (toSlash b) ↔ IsSeparator b := by
    intro b
    rw [← toSlash_eq_slash (b := b)]
    exact or_iff_left (toSlash_ne b)
  rcases s.eq_nil_or_concat' with rfl | ⟨front, b, rfl⟩
  · constructor
    · rintro ⟨b, hb, -⟩
      cases hb
    · rintro ⟨front, a, b, h, -⟩
      exact absurd (congrArg List.length h) (by simp)
  · rw [List.map_append, List.map_singleton]
    by_cases hb : IsSeparator b
    · rw [eraseLast_of_end ((hsep b).mpr hb)]
      rcases front.eq_nil_or_concat' with rfl | ⟨front, a, rfl⟩
      · constructor
        · rintro ⟨b, hb, -⟩
          cases hb
        · rintro ⟨front, a, b, h, -⟩
          exact absurd (congrArg List.length h) (by simp)
      · rw [List.map_append, List.map_singleton, List.getLast?_concat]
        constructor
        · rintro ⟨c, hc, ha⟩
          obtain rfl := Option.some.inj hc
          exact ⟨front, a, b, by simp, (hsep a).mp ha, hb⟩
        · rintro ⟨front', a', b', h, ha', -⟩
          rw [List.append_assoc] at h
          obtain ⟨-, htwo⟩ := List.append_inj' h rfl
          obtain ⟨rfl, -⟩ := List.cons.inj htwo
          exact ⟨_, rfl, (hsep a).mpr ha'⟩
    · have hnot : ∀ c ∈ (front.map toSlash ++ [toSlash b]).getLast?, ¬ IsSeparator c := by
        rw [List.getLast?_concat]
        rintro c hc
        obtain rfl := Option.some.inj hc
        exact fun h => hb ((hsep b).mp h)
      rw [eraseLast_of_not_end hnot]
      constructor
      · rintro ⟨c, hc, h⟩
        exact absurd h (hnot c hc)
      · rintro ⟨front', a', b', h, -, hb'⟩
        have happend : front ++ [b] = (front' ++ [a']) ++ [b'] := by
          rw [h, List.append_assoc]
          rfl
        obtain ⟨-, hlast⟩ := List.append_inj' happend rfl
        obtain ⟨rfl, -⟩ := List.cons.inj hlast
        exact absurd hb' hb

/-- **A path is normalised unless it ends in two separators.** -/
theorem normalises_iff (path : List Byte) : Normalises path ↔ ¬ EndsInTwo (cstr path) := by
  have hcode := FormatPath_returns path
  have hagain := FormatPath_again path
  rw [← ends_eraseLast_iff]
  push Not
  constructor
  · rintro ⟨r, hr, hn⟩
    rw [← hr.unique hcode]
    exact hn.no_end
  · intro hend
    refine ⟨_, hcode, ?_, hend, ?_⟩
    · exact fun hb => backslash_not_mem_map _ ((eraseLast_front _).subset hb)
    · rw [eraseLast_of_not_end hend] at hagain
      exact hagain

/-- `"a//"` becomes `"a/"`. -/
theorem not_normalises : ¬ ∀ path, Normalises path := by
  intro h
  obtain ⟨r, hr, hn⟩ := h [97, 47, 47]
  have hcode : Returns (FormatPath [97, 47, 47]) [97, 47] := FormatPath_returns [97, 47, 47]
  obtain rfl := hr.unique hcode
  exact hn.no_end slash (by decide) (Or.inl rfl)

end FormatPath

end RJSysUtil

end TestExamples
