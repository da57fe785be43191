/-
TestExamples/RJSysUtilStrip.lean

`StrStrip` and `StringStrip` of RJCommon/RJSysUtil.cpp.

A pointer is an offset in the buffer, and a byte outside the buffer is neither
read nor written: a loop that came there would have no meaning.  `s` passes the
leading white space and stops at the terminator, `last` comes back from the
terminator over the trailing white space, and what is between them is moved to
the front.  A buffer that ends at the terminator is enough, and what is behind
the terminator stays (`StrStrip_returns`).

`isspace` gets a `char`, which may be negative: no such character is white space
in the C locale.  The results are of type `unsigned`, and so is the length that
`StringStrip` allocates and copies: a string of `2 ^ 32 - 1` characters or more
is not copied with its terminator (`strips_iff`).  A pointer passed is not null.

`trim p xs` is `xs` without the elements at its two ends that satisfy `p`.  It is
what is left between the two of them (`append_trim_append`), and trimming again
changes nothing (`trim_trim`).
-/
import Mathlib.Data.List.DropRight
import Mathlib.Data.List.TakeWhile
import TestExamples.Lib.CString
import TestExamples.Lib.Loop

namespace TestExamples

/-! ### Trimming a list -/

section Trim

variable {α : Type*} {p : α → Bool} {xs : List α}

/-- The list without the elements of `p` at its ends. -/
def trim (p : α → Bool) (xs : List α) : List α := (xs.dropWhile p).rdropWhile p

/-- The list is what is trimmed at its ends and what is left between. -/
theorem append_trim_append (p : α → Bool) (xs : List α) :
    xs.takeWhile p ++ (trim p xs ++ (xs.dropWhile p).rtakeWhile p) = xs := by
  unfold trim
  rw [List.rdropWhile_append_rtakeWhile, List.takeWhile_append_dropWhile]

theorem mem_of_mem_trim {a : α} (h : a ∈ trim p xs) : a ∈ xs :=
  (List.dropWhile_suffix p).subset ((List.rdropWhile_prefix p _).subset h)

/-- What is left does not begin with an element of `p`. -/
theorem dropWhile_trim (p : α → Bool) (xs : List α) : (trim p xs).dropWhile p = trim p xs := by
  rw [List.dropWhile_eq_self_iff]
  intro hl hp
  obtain ⟨ys, hys⟩ := List.rdropWhile_prefix p (xs.dropWhile p)
  have hys : trim p xs ++ ys = xs.dropWhile p := hys
  have hdrop : 0 < (xs.dropWhile p).length := by
    rw [← hys, List.length_append]
    exact Nat.add_pos_left hl _
  -- its first element is the first behind those that were dropped
  have hself := List.dropWhile_eq_self_iff.mp (List.dropWhile_idempotent (p := p) (l := xs)) hdrop
  apply hself
  have hhead : (xs.dropWhile p)[0] = (trim p xs)[0] := by
    simp only [← hys]
    exact List.getElem_append_left hl
  rw [hhead]
  exact hp

theorem rdropWhile_trim (p : α → Bool) (xs : List α) : (trim p xs).rdropWhile p = trim p xs :=
  List.rdropWhile_idempotent p _

/-- **Trimming again changes nothing.** -/
theorem trim_trim (p : α → Bool) (xs : List α) : trim p (trim p xs) = trim p xs := by
  rw [trim, dropWhile_trim, rdropWhile_trim]

end Trim

/-! ### The functions -/

namespace RJSysUtil

/-- `while (isspace((int)*s) && *s) s++;` -/
def skipTurn (buf : List Byte) (s : Nat) : LoopTurn Nat Nat :=
  match buf[s]? with
  | some b => if isSpace b ∧ b ≠ 0 then .next (s + 1) else .exit s
  | none => .undefined

/-- `while (last > s) { if (!isspace((int)*(last - 1))) break; last--; }` -/
def lastTurn (buf : List Byte) (s last : Nat) : LoopTurn Nat Nat :=
  if last > s then
    match buf[last - 1]? with
    | some b => if ¬ isSpace b then .exit last else .next (last - 1)
    | none => .undefined
  else .exit last

/-- `StrStrip`: the value returned and the buffer left. -/
def StrStrip (buf : List Byte) (fuel : Nat) : Option (Nat × List Byte) :=
  -- `last = s + strlen(s)`
  (find buf 0 0).bind fun last =>
  (whileLoop (skipTurn buf) 0 fuel).bind fun s =>
  (whileLoop (lastTurn buf s) last fuel).bind fun last =>
  (writeAt buf last [0]).bind fun buf =>
  (memmove buf 0 s (last - s + 1)).map fun buf => ((last - s) % 2 ^ 32, buf)

/-- `StringStrip`: the value returned and the string left. -/
def StringStrip (str : List Byte) (fuel : Nat) : Option (Nat × List Byte) :=
  let length := str.length % 2 ^ 32
  if length > 0 then
    -- `new char[length + 1]` is overwritten by `memcpy(temp, str.c_str(), length + 1)`
    let temp := (str ++ [0]).take ((length + 1) % 2 ^ 32)
    (StrStrip temp fuel).map fun p => ((cstr p.2).length % 2 ^ 32, cstr p.2)
  else some (length, str)

/-- The functions trim the string.  `StrStrip` needs nothing but the string and
its terminator, and leaves what is behind them. -/
structure Strips (str : List Byte) : Prop where
  StrStrip : ∀ rest, ∃ junk, junk.length = str.length - (trim isSpace str).length ∧
    Returns (StrStrip (str ++ 0 :: rest))
      ((trim isSpace str).length, trim isSpace str ++ 0 :: (junk ++ rest))
  again : ∀ rest n buf, Returns (RJSysUtil.StrStrip (str ++ 0 :: rest)) (n, buf) →
    Returns (RJSysUtil.StrStrip buf) (n, buf)
  StringStrip : Returns (StringStrip str) ((trim isSpace str).length, trim isSpace str)

section Strip

variable {buf lead xs ys tail rest str : List Byte} {pos : Nat}

/-- `s` stops behind the white space. -/
theorem skipTurn_returns (hbuf : buf = lead ++ (xs ++ 0 :: rest)) (hxs : ∀ b ∈ xs, b ≠ 0)
    (hpos : pos = lead.length) :
    Returns (whileLoop (skipTurn buf) pos) (pos + (xs.takeWhile isSpace).length) := by
  induction xs generalizing lead pos with
  | nil =>
      have hread : buf[pos]? = some 0 := by
        rw [hbuf, hpos, List.getElem?_append_right (Nat.le_refl _), Nat.sub_self]
        rfl
      exact returns_of_exit (by simp [skipTurn, hread])
  | cons b xs ih =>
      have hread : buf[pos]? = some b := by
        rw [hbuf, hpos, List.getElem?_append_right (Nat.le_refl _), Nat.sub_self]
        rfl
      have hb : b ≠ 0 := hxs b (List.mem_cons_self ..)
      cases hspace : isSpace b with
      | true =>
          have hbuf' : buf = lead ++ [b] ++ (xs ++ 0 :: rest) := by
            rw [hbuf]
            simp
          have hpos' : pos + 1 = (lead ++ [b]).length := by simp [hpos]
          have hgo := ih hbuf' (fun b hb => hxs b (List.mem_cons_of_mem _ hb)) hpos'
          rw [List.takeWhile_cons_of_pos hspace, List.length_cons, Nat.add_comm _ 1,
            ← Nat.add_assoc]
          exact returns_of_next (by simp [skipTurn, hread, hspace, hb]) hgo
      | false =>
          rw [List.takeWhile_cons_of_neg (by simp [hspace])]
          exact returns_of_exit (by simp [skipTurn, hread, hspace])

/-- `last` stops at the white space at the end. -/
theorem lastTurn_returns (hbuf : buf = lead ++ (ys ++ rest)) :
    Returns (whileLoop (lastTurn buf lead.length) (lead.length + ys.length))
      (lead.length + (ys.rdropWhile isSpace).length) := by
  induction ys using List.reverseRecOn generalizing rest with
  | nil => exact returns_of_exit (if_neg (Nat.lt_irrefl _))
  | append_singleton ys b ih =>
      have hlen : lead.length + (ys ++ [b]).length = lead.length + ys.length + 1 := by
        rw [List.length_append, List.length_singleton, Nat.add_assoc]
      have hread : buf[lead.length + ys.length]? = some b := by
        rw [hbuf, ← List.length_append, ← List.append_assoc, ← List.append_assoc, List.append_assoc,
          List.getElem?_append_right (Nat.le_refl _), Nat.sub_self]
        rfl
      have hgt : lead.length + ys.length + 1 > lead.length := by omega
      rw [hlen]
      cases hspace : isSpace b with
      | true =>
          rw [List.rdropWhile_concat_pos _ _ _ hspace]
          have hbuf' : buf = lead ++ (ys ++ b :: rest) := by
            rw [hbuf]
            simp
          refine returns_of_next ?_ (ih hbuf')
          rw [lastTurn, if_pos hgt, Nat.add_sub_cancel, hread]
          simp [hspace]
      | false =>
          rw [List.rdropWhile_concat_neg _ _ _ (by simp [hspace]), hlen]
          refine returns_of_exit ?_
          rw [lastTurn, if_pos hgt, Nat.add_sub_cancel, hread]
          simp [hspace]

/-- **What `StrStrip` leaves**, for a string of any length. -/
theorem StrStrip_returns (hstr : ∀ b ∈ str, b ≠ 0) (rest : List Byte) :
    ∃ junk, junk.length = str.length - (trim isSpace str).length ∧
      Returns (StrStrip (str ++ 0 :: rest))
        ((trim isSpace str).length % 2 ^ 32, trim isSpace str ++ 0 :: (junk ++ rest)) := by
  -- the string is white space, what is left, and white space
  obtain ⟨lead, hlead⟩ : ∃ lead, lead = str.takeWhile isSpace := ⟨_, rfl⟩
  obtain ⟨mid, hmid⟩ : ∃ mid, mid = trim isSpace str := ⟨_, rfl⟩
  obtain ⟨tail, htail⟩ : ∃ tail, tail = (str.dropWhile isSpace).rtakeWhile isSpace := ⟨_, rfl⟩
  have hsplit : str = lead ++ (mid ++ tail) := by
    rw [hlead, hmid, htail, append_trim_append]
  have hdrop : str.dropWhile isSpace = mid ++ tail := by
    rw [hmid, htail, trim, List.rdropWhile_append_rtakeWhile]
  have hbuf : str ++ 0 :: rest = lead ++ ((mid ++ tail) ++ 0 :: rest) := by
    rw [hsplit]
    simp
  have hs := skipTurn_returns (List.nil_append (str ++ 0 :: rest)).symm hstr
    (show 0 = ([] : List Byte).length from rfl)
  have hl := lastTurn_returns hbuf
  rw [← hlead, Nat.zero_add] at hs
  rw [← hdrop, ← trim, ← hmid, hdrop, ← List.length_append, ← hsplit] at hl
  -- the terminator goes where the white space at the end begins, or stays
  obtain ⟨c, cs, hcs⟩ := List.exists_cons_of_ne_nil (List.append_ne_nil_of_right_ne_nil tail
    (List.cons_ne_nil 0 []))
  have hcslen : cs.length = tail.length := by
    have := congrArg List.length hcs
    simpa using this.symm
  have hbuf : str ++ 0 :: rest = (lead ++ mid) ++ ([c] ++ (cs ++ rest)) := by
    rw [hsplit]
    calc lead ++ (mid ++ tail) ++ 0 :: rest = lead ++ mid ++ ((tail ++ [0]) ++ rest) := by simp
      _ = lead ++ mid ++ ([c] ++ (cs ++ rest)) := by rw [hcs]; rfl
  have hwrite : writeAt (str ++ 0 :: rest) (lead.length + mid.length) [0] =
      some ((lead ++ mid) ++ ([0] ++ (cs ++ rest))) := by
    rw [hbuf]
    exact writeAt_middle rfl (List.length_append ..).symm
  have hmove : memmove ((lead ++ mid) ++ ([0] ++ (cs ++ rest))) 0 lead.length
      (lead.length + mid.length - lead.length + 1) =
      some (mid ++ 0 :: ((lead ++ mid ++ 0 :: cs).drop (mid.length + 1) ++ rest)) := by
    have hfront := memmove_front lead (mid ++ [0]) (cs ++ rest)
    have hassoc : lead ++ ((mid ++ [0]) ++ (cs ++ rest)) =
        (lead ++ mid) ++ ([0] ++ (cs ++ rest)) := by simp
    have hrest : (lead ++ mid) ++ ([0] ++ (cs ++ rest)) = (lead ++ mid ++ 0 :: cs) ++ rest := by
      simp
    have hle : (mid ++ [0]).length ≤ (lead ++ mid ++ 0 :: cs).length := by
      simp only [List.length_append, List.length_cons, List.length_nil]
      omega
    rw [hassoc] at hfront
    rw [Nat.add_sub_cancel_left, show mid.length + 1 = (mid ++ [0]).length by simp, hfront]
    congr 1
    rw [hrest, List.drop_append_of_le_length hle]
    simp
  refine ⟨(lead ++ mid ++ 0 :: cs).drop (mid.length + 1), ?_, ?_⟩
  · rw [← hmid, hsplit]
    simp only [List.length_drop, List.length_append, List.length_cons, hcslen]
    omega
  · obtain ⟨b, hs⟩ := hs
    obtain ⟨b', hl⟩ := hl
    refine ⟨max b b', fun fuel hfuel => ?_⟩
    unfold StrStrip
    rw [find_nul hstr, Option.bind_some, hs fuel (by omega), Option.bind_some, hl fuel (by omega),
      Option.bind_some, hwrite, Option.bind_some, hmove, ← hmid]
    simp

/-- A buffer without a terminator is read past its end. -/
theorem StrStrip_of_no_nul (h : ∀ b ∈ buf, b ≠ 0) (fuel : Nat) : StrStrip buf fuel = none := by
  have hfind : find buf 0 0 = none := find_of_not_mem fun hmem => h 0 hmem rfl
  rw [StrStrip, hfind, Option.bind_none]

/-- `StrStrip` of its own result: nothing moves. -/
theorem StrStrip_again (hstr : ∀ b ∈ str, b ≠ 0) (rest : List Byte) {n : Nat}
    (h : Returns (StrStrip (str ++ 0 :: rest)) (n, buf)) : Returns (StrStrip buf) (n, buf) := by
  obtain ⟨junk, -, hr⟩ := StrStrip_returns hstr rest
  obtain ⟨rfl, rfl⟩ := Prod.mk.inj (h.unique hr)
  have htrim : ∀ b ∈ trim isSpace str, b ≠ 0 := fun b hb => hstr b (mem_of_mem_trim hb)
  obtain ⟨junk', hlen, hr'⟩ := StrStrip_returns htrim (junk ++ rest)
  rw [trim_trim, Nat.sub_self] at hlen
  obtain rfl := List.length_eq_zero_iff.mp hlen
  rw [trim_trim] at hr'
  exact hr'

theorem length_trim_le (str : List Byte) : (trim isSpace str).length ≤ str.length := by
  have h := congrArg List.length (append_trim_append isSpace str)
  rw [List.length_append, List.length_append] at h
  omega

theorem StringStrip_returns (hstr : ∀ b ∈ str, b ≠ 0) (hlen : str.length < 2 ^ 32 - 1) :
    Returns (StringStrip str) ((trim isSpace str).length, trim isSpace str) := by
  have hle := length_trim_le str
  have hmod : str.length % 2 ^ 32 = str.length := Nat.mod_eq_of_lt (by omega)
  unfold StringStrip
  by_cases hpos : str.length > 0
  · -- all of the string and its terminator are copied
    have htemp : (str ++ [0]).take ((str.length + 1) % 2 ^ 32) = str ++ 0 :: [] := by
      rw [Nat.mod_eq_of_lt (by omega)]
      exact List.take_of_length_le (by simp)
    obtain ⟨junk, -, hr⟩ := StrStrip_returns hstr []
    have hcstr : cstr (trim isSpace str ++ 0 :: (junk ++ [])) = trim isSpace str :=
      cstr_append_nul (fun b hb => hstr b (mem_of_mem_trim hb)) _
    have hmap := hr.map (F := fun p => ((cstr p.2).length % 2 ^ 32, cstr p.2))
    simp only [hmod, if_pos hpos, htemp]
    simp only [hcstr, Nat.mod_eq_of_lt (show (trim isSpace str).length < 2 ^ 32 by omega)] at hmap
    exact hmap
  · obtain rfl := List.length_eq_zero_iff.mp (Nat.eq_zero_of_not_pos hpos)
    exact returns_pure _

/-- A longer string is not trimmed: its length, or that of its copy, is cut. -/
theorem not_returns_StringStrip (hstr : ∀ b ∈ str, b ≠ 0) (hlen : 2 ^ 32 - 1 ≤ str.length) :
    ¬ Returns (StringStrip str) ((trim isSpace str).length, trim isSpace str) := by
  intro h
  have hfun : StringStrip str = fun fuel => if str.length % 2 ^ 32 > 0 then
      (StrStrip ((str ++ [0]).take ((str.length % 2 ^ 32 + 1) % 2 ^ 32)) fuel).map
        fun p => ((cstr p.2).length % 2 ^ 32, cstr p.2)
      else some (str.length % 2 ^ 32, str) := rfl
  rw [hfun] at h
  by_cases hpos : str.length % 2 ^ 32 > 0
  · -- the terminator is not copied
    simp only [if_pos hpos] at h
    have hle : (str.length % 2 ^ 32 + 1) % 2 ^ 32 ≤ str.length := by omega
    have htemp : ∀ b ∈ (str ++ [0]).take ((str.length % 2 ^ 32 + 1) % 2 ^ 32), b ≠ 0 := by
      rw [List.take_append_of_le_length hle]
      exact fun b hb => hstr b (List.mem_of_mem_take hb)
    obtain ⟨bound, h⟩ := h
    have hsome := h bound (Nat.le_refl bound)
    simp only [StrStrip_of_no_nul htemp, Option.map_none] at hsome
    cases hsome
  · simp only [if_neg hpos] at h
    obtain ⟨hn, hs⟩ := Prod.mk.inj (h.unique (returns_pure _))
    rw [hs] at hn
    omega

/-- **The functions trim exactly the strings of less than `2 ^ 32 - 1`
characters.** -/
theorem strips_iff (hstr : ∀ b ∈ str, b ≠ 0) : Strips str ↔ str.length < 2 ^ 32 - 1 := by
  constructor
  · intro h
    by_contra hlen
    exact not_returns_StringStrip hstr (Nat.not_lt.mp hlen) h.StringStrip
  · intro hlen
    have hle := length_trim_le str
    refine ⟨fun rest => ?_, fun rest n buf => StrStrip_again hstr rest,
      StringStrip_returns hstr hlen⟩
    have hr := StrStrip_returns hstr rest
    rw [Nat.mod_eq_of_lt (by omega)] at hr
    exact hr

/-- `" a b\t"`. -/
theorem strips_iff_two :
    Strips [32, 97, 32, 98, 9] ∧ trim isSpace [32, 97, 32, 98, 9] = [97, 32, 98] := by
  have hstr : ∀ b ∈ ([32, 97, 32, 98, 9] : List Byte), b ≠ 0 := by simp
  exact ⟨(strips_iff hstr).mpr (by decide), by decide⟩

/-- A string of `2 ^ 32 - 1` letters. -/
theorem not_strips : ¬ ∀ str : List Byte, (∀ b ∈ str, b ≠ 0) → Strips str := by
  intro h
  have hstr : ∀ b ∈ List.replicate (2 ^ 32 - 1) (97 : Byte), b ≠ 0 := by
    intro b hb
    rw [(List.mem_replicate.mp hb).2]
    decide
  refine not_returns_StringStrip hstr ?_ (h _ hstr).StringStrip
  rw [List.length_replicate]

end Strip

end RJSysUtil

end TestExamples
