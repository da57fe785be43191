/-
TestExamples/LibUvHelperTermination.lean

When the loop of `BufferReader::SetBuffer` ends.

The size field is declared `uint32_t` in `PACKAGE_HEAD` and read back as
`int`.  For all but one of its 2^32 values an evaluation of the loop breaks or
consumes at least one byte: a sum that wraps in `size_t` is far above any
`m_index`, and the sizes -5..-1 still consume 1..5 bytes.  The size -6 makes
`PACKAGE_HEAD_SIZE + m_current_msg_size` zero: the test passes, nothing is
consumed, and the loop meets the same header again.

`Stalls` says of a byte string that the loop reaches such a header in it.
The loop ends exactly on the others (`loop_ends_iff`), in either data model.
-/
import TestExamples.LibUvHelperFrames

namespace TestExamples

open BufferReader

variable {D : DataModel} {r : BufferReader}

/-- The header whose size field is -6. -/
def stallHead : List Byte := proto_type ++ [0xFF, 0xFF, 0xFF, 0xFA]

/-- Taking packages off the front reaches a header with the size field -6. -/
inductive Stalls (D : DataModel) : List Byte → Prop
  | here (rest) : Stalls D (stallHead ++ rest)
  | later {xs c rest} : nextPackage D xs = .frame c rest → Stalls D rest → Stalls D xs

/-- At that header the rule finds a package and leaves everything in place. -/
theorem nextPackage_stallHead (D : DataModel) (rest : List Byte) :
    nextPackage D (stallHead ++ rest) = .frame ⟨some [], -6⟩ (stallHead ++ rest) := by
  have hsize : sizeField (blockOf (stallHead ++ rest)) = -6 := by
    show toInt32 (word32 0xFF 0xFF 0xFF 0xFA) = -6
    decide
  have hend : packageEnd D (-6) = 0 := by cases D <;> rfl
  have hlen : ¬ (stallHead ++ rest).length < PACKAGE_HEAD_SIZE := by
    rw [List.length_append]
    exact Nat.not_lt.mpr (Nat.le_add_right 6 _)
  unfold nextPackage
  rw [if_neg hlen]
  simp only [hsize, hend, Nat.zero_le, if_true, List.drop_zero]
  rfl

/-- Only a size of -6 makes the sum vanish. -/
theorem packageEnd_eq_zero {size : Int} (hlo : -(2 ^ 31) ≤ size) (hhi : size < 2 ^ 31)
    (h : packageEnd D size = 0) : size = -6 := by
  simp only [packageEnd, PACKAGE_HEAD_SIZE] at h
  cases D <;> simp only [DataModel.sizeT] at h <;> omega

/-- The bytes of a header with the size field -6. -/
theorem eq_stallHead {xs : List Byte} (hlen : ¬ xs.length < PACKAGE_HEAD_SIZE)
    (hmagic : ¬ (blockOf xs 0 ≠ 0x75 ∨ blockOf xs 1 ≠ 0x76))
    (hsize : sizeField (blockOf xs) = -6) : ∃ rest, xs = stallHead ++ rest := by
  obtain ⟨b₀, b₁, b₂, b₃, b₄, b₅, rest, rfl⟩ :
      ∃ b₀ b₁ b₂ b₃ b₄ b₅ rest, xs = b₀ :: b₁ :: b₂ :: b₃ :: b₄ :: b₅ :: rest := by
    rcases xs with - | ⟨b₀, - | ⟨b₁, - | ⟨b₂, - | ⟨b₃, - | ⟨b₄, - | ⟨b₅, rest⟩⟩⟩⟩⟩⟩
    case cons.cons.cons.cons.cons.cons => exact ⟨b₀, b₁, b₂, b₃, b₄, b₅, rest, rfl⟩
    all_goals simp [PACKAGE_HEAD_SIZE] at hlen
  obtain ⟨rfl, rfl⟩ : b₀ = 0x75 ∧ b₁ = 0x76 := by
    simpa [blockOf, not_or] using hmagic
  have hword : toInt32 (word32 b₂ b₃ b₄ b₅) = -6 := hsize
  have hlt := word32_lt b₂ b₃ b₄ b₅
  have h₂ := b₂.toNat_lt
  have h₃ := b₃.toNat_lt
  have h₄ := b₄.toNat_lt
  have h₅ := b₅.toNat_lt
  have hval : word32 b₂ b₃ b₄ b₅ = 2 ^ 32 - 6 := by
    unfold toInt32 at hword
    split at hword <;> omega
  unfold word32 at hval
  obtain rfl : b₂ = 0xFF := UInt8.toNat_inj.mp (show _ = 255 by omega)
  obtain rfl : b₃ = 0xFF := UInt8.toNat_inj.mp (show _ = 255 by omega)
  obtain rfl : b₄ = 0xFF := UInt8.toNat_inj.mp (show _ = 255 by omega)
  obtain rfl : b₅ = 0xFA := UInt8.toNat_inj.mp (show _ = 250 by omega)
  exact ⟨rest, rfl⟩

/-- **Progress.**  Every other package consumes at least one byte. -/
theorem nextPackage_progress {xs : List Byte} {c : OnMsgCall} {rest : List Byte}
    (h : nextPackage D xs = .frame c rest) :
    rest.length < xs.length ∨ ∃ ys, xs = stallHead ++ ys := by
  unfold nextPackage at h
  by_cases hlen : xs.length < PACKAGE_HEAD_SIZE
  · simp [hlen] at h
  rw [if_neg hlen] at h
  by_cases hmagic : blockOf xs 0 ≠ 0x75 ∨ blockOf xs 1 ≠ 0x76
  · simp [hmagic] at h
  simp only [hmagic, if_false] at h
  obtain ⟨hlo, hhi⟩ := sizeField_bounds (blockOf xs)
  by_cases hend : packageEnd D (sizeField (blockOf xs)) ≤ xs.length
  · rw [if_pos hend] at h
    obtain ⟨-, rfl⟩ := Verdict.frame.inj h
    rcases Nat.eq_zero_or_pos (packageEnd D (sizeField (blockOf xs))) with hz | hpos
    · exact .inr (eq_stallHead hlen hmagic (packageEnd_eq_zero hlo hhi hz))
    · have : 0 < xs.length := hpos.trans_le hend
      rw [List.length_drop]
      exact .inl (by omega)
  · rw [if_neg hend] at h
    cases h

/-- A stalling string has a package at its front and stalls behind it. -/
theorem Stalls.next {xs : List Byte} (h : Stalls D xs) :
    ∃ c rest, nextPackage D xs = .frame c rest ∧ Stalls D rest := by
  cases h with
  | here rest => exact ⟨_, _, nextPackage_stallHead D rest, .here rest⟩
  | later hf hrest => exact ⟨_, _, hf, hrest⟩

/-- On a stalling string no number of evaluations is enough. -/
theorem loop_of_stalls {xs : List Byte} (h : Stalls D xs) (hr : r.received = xs) (fuel : Nat) :
    loop D fuel r = none := by
  induction fuel generalizing r xs with
  | zero => rfl
  | succ fuel ih =>
      obtain ⟨c, rest, hf, hrest⟩ := h.next
      subst hr
      obtain ⟨r', hp, hrec, -⟩ := pass_of_frame hf
      rw [loop, hp]
      simp only [ih hrest hrec, Option.map_none]

/-- Where nothing stalls, taking packages off the front comes to an end. -/
theorem exists_drains {xs : List Byte} (h : ¬ Stalls D xs) :
    ∃ calls tail, (packageFraming D).Drains xs calls tail := by
  induction hn : xs.length using Nat.strong_induction_on generalizing xs with
  | _ n ih =>
      subst hn
      rcases hv : nextPackage D xs with - | - | ⟨c, rest⟩
      · exact ⟨[], xs, .stop fun v rest hf => by
          rw [show (packageFraming D).next xs = _ from hv] at hf
          cases hf⟩
      · exact ⟨[], xs, .stop fun v rest hf => by
          rw [show (packageFraming D).next xs = _ from hv] at hf
          cases hf⟩
      · rcases nextPackage_progress hv with hlt | ⟨ys, rfl⟩
        · obtain ⟨calls, tail, hd⟩ := ih rest.length hlt (fun hs => h (.later hv hs)) rfl
          exact ⟨c :: calls, tail, .frame hv hd⟩
        · exact absurd (.here ys) h

/-- **The loop ends exactly where no header with the size field -6 is
reached.** -/
theorem loop_ends_iff (D : DataModel) (r : BufferReader) :
    (∃ fuel out, loop D fuel r = some out) ↔ ¬ Stalls D r.received := by
  constructor
  · rintro ⟨fuel, out, h⟩ hs
    rw [loop_of_stalls hs rfl fuel] at h
    cases h
  · intro h
    obtain ⟨calls, tail, hd⟩ := exists_drains h
    obtain ⟨fuel, r', -, -, hmore, hbad⟩ := loop_of_drains hd rfl
    have hstop := hd.next_tail
    rcases hn : nextPackage D tail with - | - | ⟨c, rest⟩
    · exact ⟨fuel, _, hmore hn⟩
    · exact ⟨fuel, _, hbad hn⟩
    · exact absurd hn (hstop c rest)

/-- The states `SetBuffer` leads to from a fresh reader, on arbitrary
non-empty chunks. -/
inductive ReaderReachable (D : DataModel) : BufferReader → Prop
  | new : ReaderReachable D .new
  | step {r chunk fuel calls r'} : ReaderReachable D r → chunk ≠ [] →
      SetBuffer D fuel r chunk = some (calls, r') → ReaderReachable D r'

/-- **Termination of `SetBuffer`.**  In every state, reachable or not, and on
every chunk there is room for, the loop terminates if and only if it reaches
no header with the size field -6 in the bytes held and received. -/
theorem SetBuffer_ends_iff {D : DataModel} {r r' : BufferReader} {chunk : List Byte}
    (hrecv : r.receive chunk = some r') :
    (∃ fuel out, SetBuffer D fuel r chunk = some out) ↔ ¬ Stalls D (r.received ++ chunk) := by
  rw [← receive_received hrecv, ← loop_ends_iff]
  unfold SetBuffer
  rw [hrecv]

/-- A fresh reader and one package of one byte. -/
theorem SetBuffer_ends_iff_new :
    ∃ r', BufferReader.new.receive [0x75, 0x76, 0, 0, 0, 1, 0x61] = some r' ∧
      ((∃ fuel out, SetBuffer .lp64 fuel .new [0x75, 0x76, 0, 0, 0, 1, 0x61] = some out) ↔
        ¬ Stalls .lp64 (BufferReader.new.received ++ [0x75, 0x76, 0, 0, 0, 1, 0x61])) := by
  obtain ⟨r', hr', -⟩ := receive_roomy [0x75, 0x76, 0, 0, 0, 1, 0x61] roomy_new
    (by decide) (by decide)
  exact ⟨r', hr', SetBuffer_ends_iff hr'⟩

/-- The six bytes of the header with the size field -6 make a fresh reader
loop for ever, so `SetBuffer` does not terminate on every chunk. -/
theorem SetBuffer_hangs :
    ¬ ∀ (D : DataModel) (r : BufferReader), ReaderReachable D r → ∀ chunk, chunk ≠ [] →
      ∀ r', r.receive chunk = some r' → ∃ fuel out, loop D fuel r' = some out := by
  intro h
  obtain ⟨r', hr', -⟩ := receive_roomy stallHead roomy_new (by decide) (by decide)
  obtain ⟨fuel, out, hout⟩ := h .lp64 .new .new stallHead (by decide) r' hr'
  have hrec : r'.received = stallHead ++ [] := receive_received hr'
  rw [loop_of_stalls (.here []) hrec fuel] at hout
  cases hout

end TestExamples
