/-
TestExamples/RJSysUtilToString.lean

The three `ToString` of RJCommon/RJSysUtil.cpp.

Each counts the digits of the value in one loop and writes them from the last
to the first in another.  The two with a sign have one body; what differs is
the type in which `-source` is taken, and that `int temp = source` cuts a
`long long`.  An `int` expression whose value leaves its range has no meaning
(`int`), an `unsigned int` wraps.

`signedString` is what the signed ones write: the sign of the source and the
digits of its value as an `int`.  Nothing is written for zero, and the smallest
`int` cannot be negated, so the two 32-bit functions print every other value
(`prints_iff`) and the 64-bit one the values of that range (`agrees_iff`).
-/
import TestExamples.Lib.CString
import TestExamples.Lib.Loop

namespace TestExamples

namespace RJSysUtil

/-! ### Arithmetic -/

/-- The value of an expression of type `int`. -/
def int (x : Int) : Option Int := if -2 ^ 31 ≤ x ∧ x < 2 ^ 31 then some x else none

/-- The value of an expression of type `long long int`. -/
def longLong (x : Int) : Option Int := if -2 ^ 63 ≤ x ∧ x < 2 ^ 63 then some x else none

/-- The value of an expression of type `unsigned int`. -/
def unsignedInt (x : Int) : Option Int := some (x % 2 ^ 32)

/-- The conversion of an integer to `int`. -/
def toInt (x : Int) : Int := x.bmod (2 ^ 32)

/-! ### The functions -/

/-- `while (temp > 0) { temp /= 10; length++; }`, with `temp` of the type of
`num`. -/
def countTurn (num : Int → Option Int) (s : Int × Int) : LoopTurn (Int × Int) Int :=
  if s.1 > 0 then
    match num (s.1.tdiv 10), int (s.2 + 1) with
    | some temp, some length => .next (temp, length)
    | _, _ => .undefined
  else .exit s.2

structure Filling where
  target : Block
  temp : Int
  length : Int

/-- `while (length > index)` `{ target[length - 1] = temp % 10 + '0'; temp /= 10; length--; }` -/
def fillTurn (num : Int → Option Int) (index : Int) (s : Filling) : LoopTurn Filling Block :=
  if s.length > index then
    match num (s.temp.tmod 10 + 48), num (s.temp.tdiv 10), int (s.length - 1) with
    | some c, some temp, some length =>
        .next ⟨Function.update s.target length.toNat (UInt8.ofInt c), temp, length⟩
    | _, _, _ => .undefined
  else .exit s.target

/-- The signed ones; `num` is the type of `source`. -/
def ToStringSigned (num : Int → Option Int) (source : Int) (target : Block) (fuel : Nat) :
    Option Block :=
  (if source < 0 then
    (int (-toInt source)).map fun temp => (temp, 1, 1, Function.update target 0 45)
  else some (toInt source, 0, 0, target)).bind fun (temp, length, index, target) =>
  (whileLoop (countTurn int) (temp, length) fuel).bind fun length =>
  (if source < 0 then num (-source) else some source).bind fun source =>
  whileLoop (fillTurn int index)
    ⟨Function.update target length.toNat 0, toInt source, length⟩ fuel

/-- `ToString(int, char *)`. -/
def ToStringInt (source : Int32) : Block → Nat → Option Block := ToStringSigned int source.toInt

/-- `ToString(long long int, char *)`. -/
def ToStringLongLong (source : Int64) : Block → Nat → Option Block :=
  ToStringSigned longLong source.toInt

/-- `ToString(unsigned int, char *)`. -/
def ToStringUnsigned (source : UInt32) (target : Block) (fuel : Nat) : Option Block :=
  (whileLoop (countTurn unsignedInt) (source.toNat, 0) fuel).bind fun length =>
  whileLoop (fillTurn unsignedInt 0)
    ⟨Function.update target length.toNat 0, source.toNat, length⟩ fuel

/-! ### What they write -/

/-- The function writes the C string `str` to the front of `target` and leaves
the rest. -/
def Writes (f : Block → Nat → Option Block) (str : List Byte) : Prop :=
  (∀ b ∈ str, b ≠ 0) ∧
    ∀ target, Returns (f target) (memcpy target 0 (blockOf (str ++ [0])) (str.length + 1))

/-- The function writes the decimal notation of `n`. -/
def Prints (n : Int) (f : Block → Nat → Option Block) : Prop :=
  ∃ str, Writes f str ∧ IsDecimal str ∧ integerOf str = n

/-- The 64-bit printer writes what is read as the value, and what the 32-bit
ones write of it. -/
structure Agrees (source : Int64) : Prop where
  parsed : ∃ str, Writes (ToStringLongLong source) str ∧ integerOf str = source.toInt
  int : ∀ source' : Int32, source'.toInt = source.toInt →
    ∃ str, Writes (ToStringLongLong source) str ∧ Writes (ToStringInt source') str
  unsigned : ∀ source' : UInt32, (source'.toNat : Int) = source.toInt →
    ∃ str, Writes (ToStringLongLong source) str ∧ Writes (ToStringUnsigned source') str

section Writes

variable {num : Int → Option Int} {f : Block → Nat → Option Block} {str str' : List Byte}
  {target : Block} {m k index : Nat}

/-- A function writes one string. -/
theorem Writes.unique (h : Writes f str) (h' : Writes f str') : str = str' := by
  have heq := (h.2 fun _ => 1).unique (h'.2 fun _ => 1)
  have hcstr : ∀ {s : List Byte}, (∀ b ∈ s, b ≠ 0) → ∀ n, s.length < n →
      cstr (span (memcpy (fun _ => 1) 0 (blockOf (s ++ [0])) (s.length + 1)) 0 n) = s := by
    intro s hs n hn
    obtain ⟨d, rfl⟩ := Nat.exists_eq_add_of_lt hn
    rw [show s.length + d + 1 = s.length + 1 + d by omega, span_add, span_memcpy,
      show s.length + 1 = (s ++ [0]).length by simp, span_blockOf, List.append_assoc]
    exact cstr_append_nul hs _
  rw [← hcstr h.1 (str.length + str'.length + 1) (by omega), heq,
    hcstr h'.1 (str.length + str'.length + 1) (by omega)]

theorem int_of_lt {x : Nat} (h : x < 2 ^ 31) : int x = some (x : Int) := by
  unfold int
  exact if_pos (by omega)

/-- A digit as a character. -/
theorem ofInt_digit (d : Nat) : UInt8.ofInt ((48 + d : Nat) : Int) = digitByte d := by
  apply UInt8.toNat_inj.mp
  unfold UInt8.ofInt digitByte
  rw [UInt8.toNat_ofNat', UInt8.toNat_ofNat']
  omega

theorem countTurn_next {temp length temp' length' : Int} (hpos : temp > 0)
    (htemp : num (temp.tdiv 10) = some temp') (hlength : int (length + 1) = some length') :
    countTurn num (temp, length) = .next (temp', length') := by
  unfold countTurn
  rw [if_pos hpos]
  simp only [htemp, hlength]

/-- The count of digits. -/
theorem countTurn_returns (hnum : ∀ x : Nat, x ≤ m → num x = some (x : Int))
    (hk : k + (digitBytes m).length < 2 ^ 31) :
    Returns (whileLoop (countTurn num) ((m : Int), (k : Int)))
      ((k + (digitBytes m).length : Nat) : Int) := by
  induction m using Nat.strong_induction_on generalizing k with
  | _ m ih =>
      rcases Nat.eq_zero_or_pos m with rfl | hpos
      · exact returns_of_exit (by simp [countTurn])
      · rw [digitBytes_of_pos hpos, List.length_append, List.length_singleton] at hk ⊢
        have hrest := ih (m / 10) (by omega) (k := k + 1) (fun x hx => hnum x (by omega)) (by omega)
        rw [show k + ((digitBytes (m / 10)).length + 1) = k + 1 + (digitBytes (m / 10)).length by
          omega]
        have hdiv : num ((m : Int).tdiv 10) = some ((m / 10 : Nat) : Int) :=
          (congrArg num (Int.ofNat_tdiv m 10).symm).trans (hnum (m / 10) (by omega))
        have hlen : int ((k : Int) + 1) = some ((k + 1 : Nat) : Int) := by
          rw [← Int.natCast_succ]
          exact int_of_lt (by omega)
        exact returns_of_next (countTurn_next (Int.natCast_pos.mpr hpos) hdiv hlen) hrest

/-- The digits are written behind `index`. -/
theorem fillTurn_returns (hnum : ∀ x : Nat, x ≤ m ∨ x < 58 → num x = some (x : Int))
    (hk : index + (digitBytes m).length < 2 ^ 31) :
    Returns (whileLoop (fillTurn num index)
        ⟨target, (m : Int), ((index + (digitBytes m).length : Nat) : Int)⟩)
      (memcpy target index (blockOf (digitBytes m)) (digitBytes m).length) := by
  induction m using Nat.strong_induction_on generalizing target with
  | _ m ih =>
      rcases Nat.eq_zero_or_pos m with rfl | hpos
      · rw [digitBytes_zero, List.length_nil, memcpy_zero]
        exact returns_of_exit (if_neg (by simp))
      · rw [digitBytes_of_pos hpos, List.length_append, List.length_singleton] at hk ⊢
        have hrest := @ih (m / 10) (by omega)
          (Function.update target (index + (digitBytes (m / 10)).length) (digitByte (m % 10)))
          (fun x hx => hnum x (by omega)) (by omega)
        rw [memcpy_concat] at hrest
        refine returns_of_next ?_ hrest
        have hmod : num ((m : Int).tmod 10 + 48) = some ((48 + m % 10 : Nat) : Int) := by
          have hval : (m : Int).tmod 10 + 48 = ((48 + m % 10 : Nat) : Int) := by
            rw [Nat.add_comm, Int.natCast_add]
            exact congrArg (· + 48) (Int.ofNat_tmod m 10).symm
          rw [hval]
          exact hnum (48 + m % 10) (by omega)
        have hdiv : num ((m : Int).tdiv 10) = some ((m / 10 : Nat) : Int) :=
          (congrArg num (Int.ofNat_tdiv m 10).symm).trans (hnum (m / 10) (by omega))
        have hlen : int (((index + ((digitBytes (m / 10)).length + 1) : Nat) : Int) - 1) =
            some ((index + (digitBytes (m / 10)).length : Nat) : Int) := by
          rw [show ((index + ((digitBytes (m / 10)).length + 1) : Nat) : Int) - 1 =
            ((index + (digitBytes (m / 10)).length : Nat) : Int) by omega]
          exact int_of_lt (by omega)
        rw [fillTurn, if_pos (by simp only; omega)]
        simp only [hmod, hdiv, hlen, ofInt_digit, Int.toNat_natCast]

/-- **The two loops** write the digits of `temp` and the terminator, from
`index` on.  Where `temp` is not positive nothing is counted, and whatever is in
`temp'` no digit is written. -/
theorem loops_return {temp temp' : Int} (htemp' : 0 < temp → temp' = temp)
    (hnum : ∀ x : Nat, x ≤ temp.toNat ∨ x < 58 → num x = some (x : Int))
    (hlt : temp < 2 ^ 32) (hindex : index ≤ 1) :
    Returns (fun fuel => (whileLoop (countTurn num) (temp, (index : Int)) fuel).bind fun length =>
        whileLoop (fillTurn num index)
          ⟨Function.update target length.toNat 0, temp', length⟩ fuel)
      (memcpy target index (blockOf (digitBytes temp.toNat ++ [0]))
        ((digitBytes temp.toNat).length + 1)) := by
  have hlen : (digitBytes temp.toNat).length ≤ 10 := digitBytes_length_le (by omega)
  rw [← memcpy_concat]
  by_cases hpos : 0 < temp
  · obtain ⟨m, rfl⟩ := Int.eq_ofNat_of_zero_le (Int.le_of_lt hpos)
    rw [htemp' hpos]
    rw [Int.toNat_natCast] at hnum hlen ⊢
    refine (countTurn_returns (fun x hx => hnum x (Or.inl hx)) (by omega)).bind ?_
    exact fillTurn_returns hnum (by omega)
  · rw [Int.toNat_of_nonpos (Int.not_lt.mp hpos), digitBytes_zero, List.length_nil, memcpy_zero]
    refine Returns.bind (r := (index : Int)) (returns_of_exit ?_) (returns_of_exit ?_)
    · exact if_neg hpos
    · exact if_neg (Int.lt_irrefl _)

theorem int_of_le {x n : Nat} (hn : n < 2 ^ 31) (h : x ≤ n ∨ x < 58) : int x = some (x : Int) :=
  int_of_lt (by omega)

/-- What the signed ones write of `source`. -/
def signedString (source : Int) : List Byte :=
  if source < 0 then 45 :: digitBytes (-toInt source).toNat else digitBytes (toInt source).toNat

theorem toInt_bounds (x : Int) : -2 ^ 31 ≤ toInt x ∧ toInt x < 2 ^ 31 := by
  unfold toInt Int.bmod
  dsimp only
  split <;> omega

theorem toInt_eq {x : Int} (h : -2 ^ 31 ≤ x) (h' : x < 2 ^ 31) : toInt x = x := by
  unfold toInt Int.bmod
  dsimp only
  split <;> omega

theorem toInt_neg {x : Int} (h : toInt x ≠ -2 ^ 31) : toInt (-x) = -toInt x := by
  unfold toInt Int.bmod at *
  dsimp only at *
  split at h <;> split <;> omega

theorem no_nul_signedString (source : Int) : ∀ b ∈ signedString source, b ≠ 0 := by
  have hdigits : ∀ n, ∀ b ∈ digitBytes n, b ≠ 0 := by
    rintro n b hb rfl
    cases isDigit_of_mem_digitBytes 0 hb
  unfold signedString
  split
  · intro b hb
    rcases List.mem_cons.mp hb with rfl | hmem
    · decide
    · exact hdigits _ b hmem
  · exact hdigits _

/-- **The signed printers**, where no negation overflows. -/
theorem ToStringSigned_writes {source : Int} (hnum : source < 0 → num (-source) = some (-source))
    (hmin : source < 0 → toInt source ≠ -2 ^ 31) :
    Writes (ToStringSigned num source) (signedString source) := by
  refine ⟨no_nul_signedString source, fun target => ?_⟩
  have hbounds := toInt_bounds source
  unfold signedString
  by_cases hsource : source < 0
  · have hneg : int (-toInt source) = some (-toInt source) := by
      have := hmin hsource
      exact if_pos (by omega)
    have hfun : ToStringSigned num source target = fun fuel =>
        (whileLoop (countTurn int) (-toInt source, ((1 : Nat) : Int)) fuel).bind fun length =>
          whileLoop (fillTurn int (1 : Nat)) ⟨Function.update (Function.update target 0 45)
            length.toNat 0, toInt (-source), length⟩ fuel := by
      funext fuel
      simp only [ToStringSigned, if_pos hsource, hneg, hnum hsource, Option.map_some,
        Option.bind_some]
      rfl
    have hcons := memcpy_cons target 0 45 (digitBytes (-toInt source).toNat ++ [0])
    rw [List.length_append, List.length_singleton] at hcons
    rw [if_pos hsource, hfun, List.cons_append, List.length_cons, ← hcons]
    exact loops_return (fun _ => toInt_neg (hmin hsource)) (fun x hx => int_of_le (by omega) hx)
      (by omega) (Nat.le_refl 1)
  · have hfun : ToStringSigned num source target = fun fuel =>
        (whileLoop (countTurn int) (toInt source, ((0 : Nat) : Int)) fuel).bind fun length =>
          whileLoop (fillTurn int (0 : Nat)) ⟨Function.update target length.toNat 0,
            toInt source, length⟩ fuel := by
      funext fuel
      simp only [ToStringSigned, if_neg hsource, Option.bind_some]
      rfl
    rw [if_neg hsource, hfun]
    exact loops_return (fun _ => rfl) (fun x hx => int_of_le (by omega) hx) (by omega)
      (Nat.zero_le 1)

/-- The unsigned printer. -/
theorem ToStringUnsigned_writes (source : UInt32) :
    Writes (ToStringUnsigned source) (digitBytes source.toNat) := by
  have hlt := source.toNat_lt
  refine ⟨?_, fun target => ?_⟩
  · rintro b hb rfl
    cases isDigit_of_mem_digitBytes 0 hb
  · have hnum : ∀ x : Nat, x ≤ (source.toNat : Int).toNat ∨ x < 58 →
        unsignedInt x = some (x : Int) := by
      intro x hx
      rw [Int.toNat_natCast] at hx
      unfold unsignedInt
      rw [Int.emod_eq_of_lt (by omega) (by omega)]
    have hloops := @loops_return unsignedInt target 0 source.toNat source.toNat
      (fun _ => rfl) hnum (by omega) (Nat.zero_le 1)
    rw [Int.toNat_natCast] at hloops
    exact hloops

/-- The smallest `int` cannot be negated. -/
theorem not_writes_min {source : Int} (hsource : source < 0) (hmin : toInt source = -2 ^ 31) :
    ¬ Writes (ToStringSigned num source) str := by
  intro h
  have hnone : ToStringSigned num source (fun _ => 0) = fun _ => none := by
    funext fuel
    have hneg : int (-toInt source) = none := by
      rw [hmin]
      decide
    simp only [ToStringSigned, if_pos hsource, hneg, Option.map_none, Option.bind_none]
  obtain ⟨bound, hr⟩ := h.2 fun _ => 0
  rw [hnone] at hr
  cases hr bound (Nat.le_refl bound)

/-- What is read from the string of a signed printer. -/
theorem integerOf_signedString (source : Int) :
    integerOf (signedString source) =
      if source < 0 then -((-toInt source).toNat : Int) else ((toInt source).toNat : Int) := by
  unfold signedString
  split
  · rw [integerOf_minus isDigit_of_mem_digitBytes, digitsValue_digitBytes]
  · have hnul : ∀ b ∈ digitBytes (toInt source).toNat, b ≠ 0 := by
      rintro b hb rfl
      cases isDigit_of_mem_digitBytes 0 hb
    rw [integerOf_of_digits (cstr_of_no_nul hnul) isDigit_of_mem_digitBytes, digitsValue_digitBytes]

theorem isDecimal_signedString {source : Int} (hne : source ≠ 0) (hlo : -2 ^ 31 < source)
    (hhi : source < 2 ^ 31) : IsDecimal (signedString source) := by
  have htoInt := toInt_eq (by omega) hhi
  unfold signedString
  rw [htoInt]
  split
  · exact ⟨[45], _, rfl, Or.inr rfl, digitBytes_ne_nil (by omega), isDigit_of_mem_digitBytes,
      fun h => absurd h (head?_digitBytes_ne _)⟩
  · exact ⟨[], _, rfl, Or.inl rfl, digitBytes_ne_nil (by omega), isDigit_of_mem_digitBytes,
      fun h => absurd h (head?_digitBytes_ne _)⟩

theorem not_isDecimal_nil : ¬ IsDecimal [] := by
  rintro ⟨sign, ds, hnil, -, hds, -⟩
  exact hds (List.append_eq_nil_iff.mp hnil.symm).2

/-- A printer that writes nothing prints no number. -/
theorem not_prints_of_writes_nil {n : Int} (h : Writes f []) : ¬ Prints n f := by
  rintro ⟨str, hstr, hdecimal, -⟩
  rw [hstr.unique h] at hdecimal
  exact not_isDecimal_nil hdecimal

/-- Between the smallest `int` and `2 ^ 31` the signed printers write the value. -/
theorem ToStringSigned_writes_of_int {source : Int}
    (hnum : -2 ^ 31 < source → source < 0 → num (-source) = some (-source))
    (hlo : -2 ^ 31 < source) (hhi : source < 2 ^ 31) :
    Writes (ToStringSigned num source) (signedString source) ∧
      integerOf (signedString source) = source := by
  have htoInt := toInt_eq (by omega) hhi
  refine ⟨ToStringSigned_writes (hnum hlo) fun _ => by rw [htoInt]; omega, ?_⟩
  rw [integerOf_signedString, htoInt]
  split <;> omega

theorem int_neg {x : Int} (hlo : -2 ^ 31 < x) (hneg : x < 0) : int (-x) = some (-x) :=
  if_pos (by omega)

theorem longLong_neg {x : Int} (hlo : -2 ^ 63 < x) (hneg : x < 0) :
    longLong (-x) = some (-x) := if_pos (by omega)

/-- **The 32-bit printers** print every value but zero, and but the smallest
`int`. -/
theorem prints_iff (source : Int32) (source' : UInt32) :
    (Prints source.toInt (ToStringInt source) ↔ source ≠ 0 ∧ source ≠ Int32.minValue) ∧
      (Prints source'.toNat (ToStringUnsigned source') ↔ source' ≠ 0) := by
  constructor
  · have hlo := source.le_toInt
    have hhi := source.toInt_lt
    constructor
    · intro h
      refine ⟨?_, ?_⟩
      · rintro rfl
        exact not_prints_of_writes_nil
          (ToStringSigned_writes (fun h => absurd h (by decide)) fun h => absurd h (by decide)) h
      · rintro rfl
        obtain ⟨str, hstr, -⟩ := h
        exact not_writes_min (by decide) (by decide) hstr
    · rintro ⟨hne, hmin⟩
      have hne' : source.toInt ≠ 0 := fun h => hne (Int32.toInt_inj.mp h)
      have hmin' : source.toInt ≠ -2 ^ 31 := fun h => hmin (Int32.toInt_inj.mp h)
      obtain ⟨hwrites, hvalue⟩ := @ToStringSigned_writes_of_int int _ int_neg
        (by omega : -2 ^ 31 < source.toInt) hhi
      exact ⟨_, hwrites, isDecimal_signedString hne' (by omega) hhi, hvalue⟩
  · constructor
    · rintro h rfl
      exact not_prints_of_writes_nil (ToStringUnsigned_writes 0) h
    · intro hne
      have hpos : 0 < source'.toNat := Nat.pos_of_ne_zero fun h =>
        hne (UInt32.toNat_inj.mp h)
      refine ⟨_, ToStringUnsigned_writes source', ?_, ?_⟩
      · exact ⟨[], _, rfl, Or.inl rfl, digitBytes_ne_nil hpos, isDigit_of_mem_digitBytes,
          fun h => absurd h (head?_digitBytes_ne _)⟩
      · rw [digitBytes_eq_decimal hpos]
        exact integerOf_decimal _

/-- Zero: no digit is written. -/
theorem not_prints : ¬ ((∀ source : Int32, Prints source.toInt (ToStringInt source)) ∧
    ∀ source : UInt32, Prints source.toNat (ToStringUnsigned source)) := by
  rintro ⟨-, h⟩
  exact not_prints_of_writes_nil (ToStringUnsigned_writes 0) (h 0)

/-- **The 64-bit printer** agrees with the value and with the other two between
the smallest `int` and `2 ^ 31`, and nowhere else. -/
theorem agrees_iff {source : Int64} (hne : source ≠ 0) (hmin : source ≠ Int64.minValue) :
    Agrees source ↔ -2 ^ 31 < source.toInt ∧ source.toInt < 2 ^ 31 := by
  have hlo := source.le_toInt
  have hmin' : source.toInt ≠ -2 ^ 63 := fun h => hmin (Int64.toInt_inj.mp h)
  have hne' : source.toInt ≠ 0 := fun h => hne (Int64.toInt_inj.mp h)
  constructor
  · rintro ⟨⟨str, hstr, hvalue⟩, -, -⟩
    have hbounds := toInt_bounds source.toInt
    have hdefined : source.toInt < 0 → toInt source.toInt ≠ -2 ^ 31 := fun hneg h =>
      not_writes_min hneg h hstr
    -- what is written has the value of an `int`
    rw [hstr.unique (ToStringSigned_writes (longLong_neg (by omega)) hdefined),
      integerOf_signedString] at hvalue
    split at hvalue
    · next hneg =>
      have := hdefined hneg
      omega
    · omega
  · rintro ⟨hlo', hhi'⟩
    obtain ⟨hwrites, hvalue⟩ := @ToStringSigned_writes_of_int longLong _
      (fun _ => longLong_neg (by omega)) hlo' hhi'
    refine ⟨⟨_, hwrites, hvalue⟩, fun source' h => ⟨_, hwrites, ?_⟩,
      fun source' h => ⟨_, hwrites, ?_⟩⟩
    · unfold ToStringInt
      rw [h]
      exact (ToStringSigned_writes_of_int int_neg hlo' hhi').1
    · have hstring : signedString source.toInt = digitBytes source'.toNat := by
        unfold signedString
        rw [if_neg (by omega), toInt_eq (by omega) hhi', ← h, Int.toNat_natCast]
      rw [hstring]
      exact ToStringUnsigned_writes source'

/-- `-45`, in both widths. -/
theorem agrees_iff_two : Agrees (-45) ∧ signedString (-45) = [45, 52, 53] :=
  ⟨(agrees_iff (by decide) (by decide)).mpr (by decide), by decide +kernel⟩

/-- `2 ^ 32 + 5` is written as `5`. -/
theorem printers_differ : ¬ ∀ source : Int64, source ≠ 0 → source ≠ Int64.minValue →
    Agrees source := by
  intro h
  obtain ⟨⟨str, hstr, hvalue⟩, -, -⟩ := h 4294967301 (by decide) (by decide)
  have hcode : Writes (ToStringLongLong 4294967301) (signedString 4294967301) :=
    ToStringSigned_writes (fun hneg => absurd hneg (by decide)) fun hneg =>
      absurd hneg (by decide)
  rw [hstr.unique hcode] at hvalue
  exact absurd hvalue (by decide +kernel)

end Writes

end RJSysUtil

end TestExamples
