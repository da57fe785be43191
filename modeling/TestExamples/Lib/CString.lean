/-
TestExamples/Lib/CString.lean

C strings in buffers of bytes, and decimal integers.

A C string is read up to its first NUL (`cstr`).  `writeAt` copies bytes into
a buffer of fixed size and fails where they do not fit; `strcpy` writes a C
string and its terminator that way.  `substr` is that of `std::string`, which
throws where the position is past the end.

`decimal` is the decimal notation of a natural number and `integerOf` what the
C library reads as an integer: white space, a sign, the longest run of digits.
What is read from a decimal followed by a NUL is the number
(`integerOf_decimal_nul`).  `atoi` has an `int` to put it in.
-/
import Mathlib.Data.List.TakeWhile
import Mathlib.Data.Nat.Digits.Defs
import Mathlib.Data.Nat.Digits.Lemmas
import TestExamples.Lib.Bytes

namespace TestExamples

/-! ### Strings in buffers -/

/-- The bytes up to the first NUL. -/
def cstr (xs : List Byte) : List Byte := xs.takeWhile (· ≠ 0)

theorem cstr_length_le (xs : List Byte) : (cstr xs).length ≤ xs.length :=
  (List.takeWhile_prefix _).length_le

theorem cstr_of_no_nul {xs : List Byte} (h : ∀ b ∈ xs, b ≠ 0) : cstr xs = xs := by
  rw [cstr, List.takeWhile_eq_self_iff]
  intro b hb
  simpa using h b hb

theorem cstr_append_nul {xs : List Byte} (h : ∀ b ∈ xs, b ≠ 0) (ys : List Byte) :
    cstr (xs ++ 0 :: ys) = xs := by
  rw [cstr, List.takeWhile_append_of_pos (by simpa using h)]
  simp

/-- What `cstr` returns holds no NUL. -/
theorem no_nul_of_mem_cstr {xs : List Byte} : ∀ b ∈ cstr xs, b ≠ 0 := by
  intro b hb
  simpa using List.mem_takeWhile_imp hb

/-- Copy `bytes` into a buffer at an offset, where they fit. -/
def writeAt (buf : List Byte) (pos : Nat) (bytes : List Byte) : Option (List Byte) :=
  if pos + bytes.length ≤ buf.length then
    some (buf.take pos ++ bytes ++ buf.drop (pos + bytes.length))
  else none

/-- `strcpy(buf + pos, s)`. -/
def strcpy (buf : List Byte) (pos : Nat) (s : List Byte) : Option (List Byte) :=
  writeAt buf pos (cstr s ++ [0])

/-- `memmove(buf + dest, buf + src, n)`, inside one buffer. -/
def memmove (buf : List Byte) (dest src n : Nat) : Option (List Byte) :=
  if src + n ≤ buf.length then writeAt buf dest ((buf.drop src).take n) else none

/-- `std::string::substr(pos, n)`; `none` where it throws `out_of_range`. -/
def substr (s : List Byte) (pos n : Nat) : Option (List Byte) :=
  if pos ≤ s.length then some ((s.drop pos).take n) else none

/-- `std::string::replace(pos, n, t)`; `none` where it throws `out_of_range`. -/
def replace (s : List Byte) (pos n : Nat) (t : List Byte) : Option (List Byte) :=
  if pos ≤ s.length then some (s.take pos ++ (t ++ s.drop (pos + n))) else none

/-- `std::string::find(c, pos)`; `none` is `npos`. -/
def find (s : List Byte) (c : Byte) (pos : Nat) : Option Nat :=
  ((s.drop pos).findIdx? (· == c)).map (· + pos)

/-- `strrchr(s, c)`, as an offset. -/
def strrchr (s : List Byte) (c : Byte) : Option Nat :=
  (s.reverse.findIdx? (· == c)).map fun i => s.length - 1 - i

section Find

variable {s xs ys : List Byte} {c : Byte} {pos : Nat}

theorem replace_middle {ys zs t : List Byte} {n : Nat} (hpos : pos = xs.length)
    (hn : n = ys.length) : replace (xs ++ (ys ++ zs)) pos n t = some (xs ++ (t ++ zs)) := by
  have hle : pos ≤ (xs ++ (ys ++ zs)).length := by
    rw [List.length_append]
    omega
  rw [replace, if_pos hle, hpos, hn, List.take_left, ← List.drop_drop, List.drop_left,
    List.drop_left]

theorem find_of_not_mem (h : c ∉ s.drop pos) : find s c pos = none := by
  rw [find, Option.map_eq_none_iff, List.findIdx?_eq_none_iff]
  intro b hb
  rw [beq_eq_false_iff_ne]
  rintro rfl
  exact h hb

/-- The first `c` behind the position. -/
theorem find_of_cut (h : s.drop pos = xs ++ c :: ys) (hxs : c ∉ xs) :
    find s c pos = some (xs.length + pos) := by
  have hnone : xs.findIdx? (· == c) = none := by
    rw [List.findIdx?_eq_none_iff]
    intro b hb
    rw [beq_eq_false_iff_ne]
    rintro rfl
    exact hxs hb
  rw [find, h, List.findIdx?_append, hnone, List.findIdx?_cons, beq_self_eq_true, if_pos rfl]
  simp

theorem strrchr_of_not_mem (h : c ∉ s) : strrchr s c = none := by
  rw [strrchr, Option.map_eq_none_iff, List.findIdx?_eq_none_iff]
  intro b hb
  rw [beq_eq_false_iff_ne]
  rintro rfl
  exact h (List.mem_reverse.mp hb)

/-- The last `c`. -/
theorem strrchr_of_cut (hys : c ∉ ys) : strrchr (xs ++ c :: ys) c = some xs.length := by
  have hnone : ys.reverse.findIdx? (· == c) = none := by
    rw [List.findIdx?_eq_none_iff]
    intro b hb
    rw [beq_eq_false_iff_ne]
    rintro rfl
    exact hys (List.mem_reverse.mp hb)
  rw [strrchr, List.reverse_append, List.reverse_cons, List.append_assoc, List.findIdx?_append,
    hnone, List.singleton_append, List.findIdx?_cons, beq_self_eq_true, if_pos rfl]
  simp

/-- The terminator of a C string. -/
theorem find_nul (h : ∀ b ∈ xs, b ≠ 0) (ys : List Byte) :
    find (xs ++ 0 :: ys) 0 0 = some xs.length :=
  find_of_cut rfl fun hmem => h 0 hmem rfl

end Find

section WriteAt

variable {buf out bytes : List Byte} {pos : Nat}

theorem exists_writeAt (h : pos + bytes.length ≤ buf.length) :
    ∃ out, writeAt buf pos bytes = some out := by
  unfold writeAt
  rw [if_pos h]
  exact ⟨_, rfl⟩

theorem writeAt_length (h : writeAt buf pos bytes = some out) : out.length = buf.length := by
  unfold writeAt at h
  split at h
  · rename_i hle
    obtain rfl := Option.some.inj h
    simp only [List.length_append, List.length_take, List.length_drop]
    omega
  · cases h

/-- Bytes before the offset are left alone. -/
theorem writeAt_take (h : writeAt buf pos bytes = some out) {n : Nat} (hn : n ≤ pos) :
    out.take n = buf.take n := by
  unfold writeAt at h
  split at h
  · rename_i hle
    obtain rfl := Option.some.inj h
    rw [List.append_assoc, List.take_append_of_le_length (by rw [List.length_take]; omega),
      List.take_take, min_eq_left hn]
  · cases h

/-- The bytes written stand at the offset. -/
theorem writeAt_drop (h : writeAt buf pos bytes = some out) :
    out.drop pos = bytes ++ buf.drop (pos + bytes.length) := by
  unfold writeAt at h
  split at h
  · rename_i hle
    obtain rfl := Option.some.inj h
    rw [List.append_assoc, List.drop_append_of_le_length (by rw [List.length_take]; omega),
      List.drop_eq_nil_of_le (by rw [List.length_take]; omega), List.nil_append]
  · cases h

/-- Bytes written over as many others. -/
theorem writeAt_middle {xs ys zs : List Byte} (hlen : ys.length = bytes.length)
    (hpos : pos = xs.length) :
    writeAt (xs ++ (ys ++ zs)) pos bytes = some (xs ++ (bytes ++ zs)) := by
  have hle : pos + bytes.length ≤ (xs ++ (ys ++ zs)).length := by
    rw [List.length_append, List.length_append]
    omega
  unfold writeAt
  rw [if_pos hle, hpos, List.take_left, ← hlen, ← List.drop_drop, List.drop_left, List.drop_left,
    List.append_assoc]

/-- A piece of a buffer moved to its front. -/
theorem memmove_front (xs bytes zs : List Byte) :
    memmove (xs ++ (bytes ++ zs)) 0 xs.length bytes.length =
      some (bytes ++ (xs ++ (bytes ++ zs)).drop bytes.length) := by
  have hle : xs.length + bytes.length ≤ (xs ++ (bytes ++ zs)).length := by
    rw [List.length_append, List.length_append]
    omega
  rw [memmove, if_pos hle, List.drop_left, List.take_left, writeAt, if_pos (by omega),
    List.take_zero, List.nil_append, Nat.zero_add]

end WriteAt

/-! ### Decimal notation -/

/-- The character of a digit. -/
def digitByte (d : Nat) : Byte := UInt8.ofNat (48 + d)

/-- The decimal notation of a natural number. -/
def decimal (n : Nat) : List Byte :=
  if n = 0 then [digitByte 0] else (Nat.digits 10 n).reverse.map digitByte

/-- `std::to_string(int)`. -/
def to_string (n : Int) : List Byte :=
  if n < 0 then 45 :: decimal n.natAbs else decimal n.natAbs

def isDigit (b : Byte) : Bool := 48 ≤ b.toNat && b.toNat ≤ 57

/-- `isspace` in the C locale. -/
def isSpace (b : Byte) : Bool := b.toNat = 32 || (9 ≤ b.toNat && b.toNat ≤ 13)

/-- The value of a run of digits. -/
def digitsValue (ds : List Byte) : Nat := ds.foldl (fun acc b => 10 * acc + (b.toNat - 48)) 0

/-- The integer at the head of the C string in a buffer. -/
def integerOf (s : List Byte) : Int :=
  match (cstr s).dropWhile isSpace with
  | [] => 0
  | b :: bs =>
      if b = 45 then -(digitsValue (bs.takeWhile isDigit) : Int)
      else if b = 43 then digitsValue (bs.takeWhile isDigit)
      else digitsValue ((b :: bs).takeWhile isDigit)

/-- `strtol(s, NULL, 10)`, with a `long` of 64 bits: out of its range the end of
the range. -/
def strtol (s : List Byte) : Int := max (-2 ^ 63) (min (integerOf s) (2 ^ 63 - 1))

/-- `atoi`, which is `(int)strtol(s, NULL, 10)`. -/
def atoi (s : List Byte) : Int := (strtol s).bmod (2 ^ 32)

example : atoi [51, 48, 48, 48, 48, 48, 48, 48, 48, 48] = -1294967296 := by decide

theorem digitByte_toNat {d : Nat} (h : d < 10) : (digitByte d).toNat = 48 + d := by
  rw [digitByte, UInt8.toNat_ofNat']
  omega

theorem isDigit_digitByte {d : Nat} (h : d < 10) : isDigit (digitByte d) = true := by
  rw [isDigit, digitByte_toNat h]
  simp
  omega

/-- A decimal is a non-empty run of digits. -/
theorem isDigit_of_mem_decimal {n : Nat} : ∀ b ∈ decimal n, isDigit b = true := by
  intro b hb
  unfold decimal at hb
  split at hb
  · obtain rfl := List.mem_singleton.mp hb
    exact isDigit_digitByte (by decide)
  · obtain ⟨d, hd, rfl⟩ := List.mem_map.mp hb
    exact isDigit_digitByte (Nat.digits_lt_base (by decide) (List.mem_reverse.mp hd))

theorem decimal_ne_nil (n : Nat) : decimal n ≠ [] := by
  unfold decimal
  split
  · simp
  · rename_i h
    simpa [Nat.digits_eq_nil_iff_eq_zero] using h

theorem decimal_no_nul {n : Nat} : ∀ b ∈ decimal n, b ≠ 0 := by
  rintro b hb rfl
  have h := isDigit_of_mem_decimal _ hb
  cases h

/-- How many characters a decimal takes. -/
theorem decimal_length_le {n k : Nat} (hk : 1 ≤ k) (h : n < 10 ^ k) : (decimal n).length ≤ k := by
  unfold decimal
  split
  · exact hk
  · rw [List.length_map, List.length_reverse]
    exact (Nat.digits_length_le_iff (by decide) n).mpr h

/-- The value of the characters of a list of digits, least significant
first. -/
theorem foldr_digitByte {ds : List Nat} (h : ∀ d ∈ ds, d < 10) :
    (ds.map digitByte).foldr (fun b acc => 10 * acc + (b.toNat - 48)) 0 = Nat.ofDigits 10 ds := by
  induction ds with
  | nil => rfl
  | cons d ds ih =>
      have hd : d < 10 := h d (by simp)
      have hds : ∀ d ∈ ds, d < 10 := fun d hd => h d (by simp [hd])
      rw [List.map_cons, List.foldr_cons, ih hds, digitByte_toNat hd, Nat.ofDigits_cons]
      simp
      omega

theorem digitsValue_decimal (n : Nat) : digitsValue (decimal n) = n := by
  unfold decimal
  split
  · rename_i h
    subst h
    rfl
  · rw [digitsValue, List.map_reverse, List.foldl_reverse,
      foldr_digitByte fun d hd => Nat.digits_lt_base (by decide) hd, Nat.ofDigits_digits]

/-- A digit is neither white space nor a sign. -/
theorem isDigit_not_space {b : Byte} (h : isDigit b = true) :
    isSpace b = false ∧ b ≠ 45 ∧ b ≠ 43 := by
  have hb : 48 ≤ b.toNat ∧ b.toNat ≤ 57 := by simpa [isDigit] using h
  refine ⟨?_, ?_, ?_⟩
  · simp only [isSpace, Bool.or_eq_false_iff, Bool.and_eq_false_iff, decide_eq_false_iff_not]
    omega
  · rintro rfl
    exact absurd hb.1 (by decide)
  · rintro rfl
    exact absurd hb.1 (by decide)

theorem integerOf_of_digits {s ds : List Byte} (h : cstr s = ds)
    (hall : ∀ b ∈ ds, isDigit b = true) : integerOf s = digitsValue ds := by
  unfold integerOf
  rw [h]
  rcases ds with - | ⟨b, bs⟩
  · rfl
  · obtain ⟨hspace, hminus, hplus⟩ := isDigit_not_space (hall b (by simp))
    have hrun : (b :: bs).takeWhile isDigit = b :: bs := List.takeWhile_eq_self_iff.mpr hall
    rw [List.dropWhile_cons_of_neg (by simp [hspace])]
    simp only [hminus, hplus, if_false, hrun]

/-- A buffer whose C string is a decimal. -/
theorem integerOf_of_cstr {s : List Byte} {n : Nat} (h : cstr s = decimal n) :
    integerOf s = n := by
  rw [integerOf_of_digits h isDigit_of_mem_decimal, digitsValue_decimal]

theorem integerOf_decimal (n : Nat) : integerOf (decimal n) = n :=
  integerOf_of_cstr (cstr_of_no_nul decimal_no_nul)

theorem integerOf_decimal_nul (n : Nat) (ys : List Byte) :
    integerOf (decimal n ++ 0 :: ys) = n :=
  integerOf_of_cstr (cstr_append_nul decimal_no_nul ys)

/-- In the range of an `int` nothing is cut off. -/
theorem atoi_of_int {s : List Byte} (hlo : -2 ^ 31 ≤ integerOf s) (hhi : integerOf s < 2 ^ 31) :
    atoi s = integerOf s := by
  have hlong : strtol s = integerOf s := by
    unfold strtol
    omega
  unfold atoi
  rw [hlong]
  exact Int.bmod_eq_of_le_mul_two (by omega) (by omega)

/-- A run of digits is worth less than the power of ten with as many zeros. -/
theorem digitsValue_lt {ds : List Byte} (h : ∀ b ∈ ds, isDigit b = true) :
    digitsValue ds < 10 ^ ds.length := by
  induction ds using List.reverseRecOn with
  | nil => exact Nat.one_pos
  | append_singleton ds b ih =>
      have hds := ih fun b hb => h b (List.mem_append_left _ hb)
      have hb : 48 ≤ b.toNat ∧ b.toNat ≤ 57 := by simpa [isDigit] using h b (by simp)
      rw [digitsValue, List.foldl_append, List.length_append]
      change 10 * digitsValue ds + (b.toNat - 48) < 10 ^ (ds.length + 1)
      rw [pow_succ]
      omega

theorem decimal_length_le_iff {n k : Nat} (hk : 1 ≤ k) : (decimal n).length ≤ k ↔ n < 10 ^ k := by
  refine ⟨fun h => ?_, decimal_length_le hk⟩
  calc n = digitsValue (decimal n) := (digitsValue_decimal n).symm
    _ < 10 ^ (decimal n).length := digitsValue_lt isDigit_of_mem_decimal
    _ ≤ 10 ^ k := Nat.pow_le_pow_right (by decide) h

/-- What is read from a field of `k` bytes takes at most `k` digits. -/
theorem natAbs_integerOf_lt {s : List Byte} {k : Nat} (h : s.length ≤ k) :
    (integerOf s).natAbs < 10 ^ k := by
  have hbound : ∀ ds : List Byte, ds.length ≤ s.length →
      digitsValue (ds.takeWhile isDigit) < 10 ^ k := by
    intro ds hds
    have hrun : (ds.takeWhile isDigit).length ≤ k :=
      ((List.takeWhile_prefix _).length_le.trans hds).trans h
    exact (digitsValue_lt fun b hb => List.mem_takeWhile_imp hb).trans_le
      (Nat.pow_le_pow_right (by decide) hrun)
  have hrest : ((cstr s).dropWhile isSpace).length ≤ s.length :=
    (List.dropWhile_suffix _).length_le.trans (List.takeWhile_prefix _).length_le
  unfold integerOf
  split
  · exact Nat.pow_pos (by decide)
  · rename_i b bs heq
    rw [heq] at hrest
    have hbs : bs.length ≤ s.length := (Nat.le_succ _).trans hrest
    split
    · rw [Int.natAbs_neg]
      exact hbound bs hbs
    · split
      · exact hbound bs hbs
      · exact hbound (b :: bs) hrest

/-- Nine digits fit an `int`. -/
theorem atoi_of_length {s : List Byte} (h : s.length ≤ 9) : atoi s = integerOf s := by
  have hnine := natAbs_integerOf_lt h
  exact atoi_of_int (by omega) (by omega)

theorem natAbs_atoi_lt {s : List Byte} {k : Nat} (hk : k ≤ 9) (h : s.length ≤ k) :
    (atoi s).natAbs < 10 ^ k := by
  rw [atoi_of_length (h.trans hk)]
  exact natAbs_integerOf_lt h

/-- **A decimal in a field.**  The first `k` bytes of a decimal with its
terminator are read as the number exactly when it has at most `k` digits. -/
theorem atoi_take_decimal_iff {n k : Nat} (hk : 1 ≤ k) (hk' : k ≤ 9) (ys : List Byte) :
    atoi ((decimal n ++ 0 :: ys).take k) = n ↔ n < 10 ^ k := by
  rw [atoi_of_length ((List.length_take_le ..).trans hk')]
  rcases Nat.lt_or_ge k (decimal n).length with hlt | hle
  · -- the field is full of digits, which are worth less than the number
    have hbig : 10 ^ k ≤ n := Nat.le_of_not_lt fun h => by
      have := decimal_length_le hk h
      omega
    have hdigits : ∀ b ∈ (decimal n).take k, isDigit b = true := fun b hb =>
      isDigit_of_mem_decimal b (List.mem_of_mem_take hb)
    have hfield : integerOf ((decimal n ++ 0 :: ys).take k) =
        digitsValue ((decimal n).take k) := by
      rw [List.take_append_of_le_length (Nat.le_of_lt hlt)]
      refine integerOf_of_digits (cstr_of_no_nul fun b hb => ?_) hdigits
      exact decimal_no_nul b (List.mem_of_mem_take hb)
    have hvalue : digitsValue ((decimal n).take k) < 10 ^ k := by
      have hlt' := digitsValue_lt hdigits
      rwa [List.length_take, Nat.min_eq_left (Nat.le_of_lt hlt)] at hlt'
    rw [hfield]
    omega
  · refine iff_of_true ?_ ((decimal_length_le_iff hk).mp hle)
    rcases Nat.eq_or_lt_of_le hle with heq | hlt
    · rw [← heq, List.take_left]
      exact integerOf_decimal n
    · obtain ⟨d, rfl⟩ := Nat.exists_eq_add_of_lt hlt
      rw [List.take_append, List.take_of_length_le (by omega),
        show (decimal n).length + d + 1 - (decimal n).length = d + 1 by omega, List.take_succ_cons]
      exact integerOf_decimal_nul n _

theorem to_string_length_le {n : Int} {k : Nat} (hk : 1 ≤ k) (h : n.natAbs < 10 ^ k) :
    (to_string n).length ≤ k + 1 := by
  have hlen := decimal_length_le hk h
  unfold to_string
  split
  · exact Nat.succ_le_succ hlen
  · exact hlen.trans (Nat.le_succ _)

theorem to_string_of_nonneg {n : Int} (h : 0 ≤ n) : to_string n = decimal n.toNat := by
  unfold to_string
  rw [if_neg (by omega)]
  congr 1
  omega

/-! ### The digits of a number -/

/-- The digits of a number, most significant first; none for zero. -/
def digitBytes (n : Nat) : List Byte := (Nat.digits 10 n).reverse.map digitByte

@[simp] theorem digitBytes_zero : digitBytes 0 = [] := rfl

theorem digitBytes_of_pos {n : Nat} (h : 0 < n) :
    digitBytes n = digitBytes (n / 10) ++ [digitByte (n % 10)] := by
  unfold digitBytes
  rw [Nat.digits_of_two_le_of_pos (by decide) h, List.reverse_cons, List.map_append]
  rfl

theorem digitBytes_eq_decimal {n : Nat} (h : 0 < n) : digitBytes n = decimal n :=
  (if_neg (Nat.ne_of_gt h)).symm

theorem digitBytes_ne_nil {n : Nat} (h : 0 < n) : digitBytes n ≠ [] := by
  rw [digitBytes_eq_decimal h]
  exact decimal_ne_nil n

theorem isDigit_of_mem_digitBytes {n : Nat} : ∀ b ∈ digitBytes n, isDigit b = true := by
  intro b hb
  rcases Nat.eq_zero_or_pos n with rfl | hpos
  · cases hb
  · rw [digitBytes_eq_decimal hpos] at hb
    exact isDigit_of_mem_decimal b hb

theorem digitsValue_digitBytes (n : Nat) : digitsValue (digitBytes n) = n := by
  rcases Nat.eq_zero_or_pos n with rfl | hpos
  · rfl
  · rw [digitBytes_eq_decimal hpos, digitsValue_decimal]

/-- The first digit is not zero. -/
theorem head?_digitBytes_ne (n : Nat) : (digitBytes n).head? ≠ some 48 := by
  induction n using Nat.strong_induction_on with
  | _ n ih =>
      rcases Nat.eq_zero_or_pos n with rfl | hpos
      · intro h
        cases h
      · rw [digitBytes_of_pos hpos]
        rcases Nat.eq_zero_or_pos (n / 10) with hzero | hdiv
        · rw [hzero, digitBytes_zero, List.nil_append, List.head?_cons]
          intro h
          have hval := digitByte_toNat (Nat.mod_lt n (by decide : 0 < 10))
          rw [Option.some.inj h] at hval
          have hval : 48 = 48 + n % 10 := hval
          omega
        · rw [List.head?_append_of_ne_nil _ (digitBytes_ne_nil hdiv)]
          exact ih _ (by omega)

theorem digitBytes_length_le {n k : Nat} (h : n < 10 ^ k) : (digitBytes n).length ≤ k := by
  unfold digitBytes
  rw [List.length_map, List.length_reverse]
  exact (Nat.digits_length_le_iff (by decide) n).mpr h

/-- A sign and digits. -/
theorem integerOf_minus {ds : List Byte} (h : ∀ b ∈ ds, isDigit b = true) :
    integerOf (45 :: ds) = -(digitsValue ds : Int) := by
  have hnul : ∀ b ∈ 45 :: ds, b ≠ 0 := by
    rintro b hb rfl
    rcases List.mem_cons.mp hb with he | hmem
    · cases he
    · cases h 0 hmem
  unfold integerOf
  rw [cstr_of_no_nul hnul, List.dropWhile_cons_of_neg (by decide)]
  simp only [if_true, List.takeWhile_eq_self_iff.mpr h]

/-- Canonical decimal notation: a minus sign or none, at least one digit, and a
leading zero only in `0` itself. -/
def IsDecimal (str : List Byte) : Prop :=
  ∃ sign ds, str = sign ++ ds ∧ (sign = [] ∨ sign = [45]) ∧ ds ≠ [] ∧
    (∀ b ∈ ds, isDigit b = true) ∧ (ds.head? = some 48 → str = [48])

end TestExamples
