/-
TestExamples/Lib/Bytes.lean

Bytes, blocks of memory and 32-bit words.

A block of memory is a function from offsets to bytes; how much of it is
allocated is kept by whoever owns it.  `memcpy` copies a range of one block
into another and leaves the rest alone, and `span` reads a range as a list.
The lemmas say what a span of a block is after a copy: the bytes copied when
it is the range copied to, the old ones when it avoids that range.

A 32-bit word is four bytes, most significant first in network order and
least significant first in the memory of a little-endian host.  `toInt32`
reads an unsigned word as a C `int`.
-/
import Mathlib.Data.List.Basic
import Mathlib.Data.List.GetD
import Mathlib.Tactic.NormNum

namespace TestExamples

abbrev Byte := UInt8

/-- Messages are compared byte by byte. -/
instance : LawfulBEq (List Byte) := inferInstance

/-! ### Blocks of memory -/

/-- A block of memory. -/
abbrev Block := Nat → Byte

/-- Copy `n` bytes of `src` to `dst`, at offset `pos`. -/
def memcpy (dst : Block) (pos : Nat) (src : Block) (n : Nat) : Block :=
  fun i => if pos ≤ i ∧ i < pos + n then src (i - pos) else dst i

/-- The block that starts at offset `k` of `b`. -/
def Block.shift (b : Block) (k : Nat) : Block := fun i => b (k + i)

/-- A list of bytes as a block. -/
def blockOf (xs : List Byte) : Block := fun i => xs.getD i 0

/-- The `n` bytes of `b` from offset `k` on. -/
def span (b : Block) (k n : Nat) : List Byte := (List.range n).map (b.shift k)

@[simp] theorem span_length (b : Block) (k n : Nat) : (span b k n).length = n := by
  simp [span]

@[simp] theorem span_zero (b : Block) (k : Nat) : span b k 0 = [] := rfl

theorem span_getElem {b : Block} {k n i : Nat} (h : i < (span b k n).length) :
    (span b k n)[i] = b (k + i) := by
  simp [span, Block.shift]

theorem span_getD {b : Block} {k n i : Nat} (h : i < n) : (span b k n).getD i 0 = b (k + i) := by
  rw [List.getD_eq_getElem _ _ (by simpa using h)]
  exact span_getElem _

/-- Two spans agree when the blocks agree on the range. -/
theorem span_congr {b c : Block} {k l n : Nat} (h : ∀ i, i < n → b (k + i) = c (l + i)) :
    span b k n = span c l n := by
  refine List.map_congr_left fun i hi => ?_
  exact h i (List.mem_range.mp hi)

theorem span_add (b : Block) (k m n : Nat) : span b k (m + n) = span b k m ++ span b (k + m) n := by
  simp only [span, List.range_add, List.map_append, List.map_map]
  congr 1
  refine List.map_congr_left fun i _ => ?_
  simp [Block.shift, Nat.add_assoc]

theorem span_drop (b : Block) (k m n : Nat) : (span b k n).drop m = span b (k + m) (n - m) := by
  refine List.ext_getElem (by simp) fun i h₁ h₂ => ?_
  simp only [List.getElem_drop, span_getElem, Nat.add_assoc]

theorem span_take {b : Block} {k m n : Nat} (h : m ≤ n) : (span b k n).take m = span b k m := by
  obtain ⟨d, rfl⟩ := Nat.exists_eq_add_of_le h
  rw [span_add, List.take_append_of_le_length (by simp), List.take_of_length_le (by simp)]

theorem span_blockOf (xs : List Byte) : span (blockOf xs) 0 xs.length = xs := by
  refine List.ext_getElem (by simp) fun i _ h => ?_
  rw [span_getElem]
  simp [blockOf, List.getElem?_eq_getElem h]

/-- The range copied to holds the bytes copied. -/
theorem span_memcpy (dst : Block) (pos : Nat) (src : Block) (n : Nat) :
    span (memcpy dst pos src n) pos n = span src 0 n := by
  refine span_congr fun i hi => ?_
  simp [memcpy, hi]

/-- A range before the one copied to is left alone. -/
theorem span_memcpy_before {dst : Block} {pos : Nat} {src : Block} {k m n : Nat}
    (h : k + m ≤ pos) : span (memcpy dst pos src n) k m = span dst k m := by
  refine span_congr fun i hi => ?_
  simp only [memcpy]
  rw [if_neg (by omega)]

theorem memcpy_zero (dst : Block) (pos : Nat) (src : Block) : memcpy dst pos src 0 = dst := by
  funext i
  exact if_neg (by omega)

/-- A list is copied byte by byte, the last byte first. -/
theorem memcpy_concat (dst : Block) (pos : Nat) (xs : List Byte) (b : Byte) :
    memcpy (Function.update dst (pos + xs.length) b) pos (blockOf xs) xs.length =
      memcpy dst pos (blockOf (xs ++ [b])) (xs.length + 1) := by
  funext i
  unfold memcpy blockOf
  rw [Function.update_apply]
  by_cases hin : pos ≤ i ∧ i < pos + xs.length
  · rw [if_pos hin, if_pos (by omega), List.getD_append _ _ _ _ (by omega)]
  · rw [if_neg hin]
    by_cases hlast : i = pos + xs.length
    · rw [if_pos hlast, if_pos (by omega), hlast, Nat.add_sub_cancel_left,
        List.getD_append_right _ _ _ _ (Nat.le_refl _), Nat.sub_self]
      rfl
    · rw [if_neg hlast, if_neg (by omega)]

/-- A list is copied byte by byte, the first byte first. -/
theorem memcpy_cons (dst : Block) (pos : Nat) (b : Byte) (xs : List Byte) :
    memcpy (Function.update dst pos b) (pos + 1) (blockOf xs) xs.length =
      memcpy dst pos (blockOf (b :: xs)) (xs.length + 1) := by
  funext i
  unfold memcpy blockOf
  rw [Function.update_apply]
  by_cases hin : pos + 1 ≤ i ∧ i < pos + 1 + xs.length
  · rw [if_pos hin, if_pos (by omega), show i - pos = i - (pos + 1) + 1 by omega,
      List.getD_cons_succ]
  · rw [if_neg hin]
    by_cases hfirst : i = pos
    · rw [if_pos hfirst, if_pos (by omega), hfirst, Nat.sub_self, List.getD_cons_zero]
    · rw [if_neg hfirst, if_neg (by omega)]

/-! ### Words -/

/-- The word with these bytes, most significant first. -/
def word32 (b₀ b₁ b₂ b₃ : Byte) : Nat :=
  2 ^ 24 * b₀.toNat + 2 ^ 16 * b₁.toNat + 2 ^ 8 * b₂.toNat + b₃.toNat

theorem word32_lt (b₀ b₁ b₂ b₃ : Byte) : word32 b₀ b₁ b₂ b₃ < 2 ^ 32 := by
  have h₀ := b₀.toNat_lt
  have h₁ := b₁.toNat_lt
  have h₂ := b₂.toNat_lt
  have h₃ := b₃.toNat_lt
  simp only [word32]
  omega

/-- Byte `k` of a word, counted from the least significant. -/
def wordByte (n k : Nat) : Byte := UInt8.ofNat (n / 256 ^ k)

theorem wordByte_toNat (n k : Nat) : (wordByte n k).toNat = n / 256 ^ k % 256 := by
  simp [wordByte]

/-- A word is the word of its four bytes. -/
theorem word32_wordByte (n : Nat) :
    word32 (wordByte n 3) (wordByte n 2) (wordByte n 1) (wordByte n 0) = n % 2 ^ 32 := by
  simp only [word32, wordByte_toNat]
  norm_num
  omega

/-- An unsigned word read as a C `int` (two's complement). -/
def toInt32 (n : Nat) : Int := if n < 2 ^ 31 then n else (n : Int) - 2 ^ 32

theorem toInt32_of_lt {n : Nat} (h : n < 2 ^ 31) : toInt32 n = n := if_pos h

theorem toInt32_bounds {n : Nat} (h : n < 2 ^ 32) :
    -(2 ^ 31) ≤ toInt32 n ∧ toInt32 n < 2 ^ 31 := by
  simp only [toInt32]
  split <;> omega

/-- The largest value of a C `int`. -/
def INT_MAX : Nat := 2 ^ 31 - 1

end TestExamples
