/-
TestExamples/LibUvHelperSpans.lean

What the reader of LibUvHelper.h hands over on arbitrary bytes.

The size field of a header is an unsigned word that the reader holds in an
`int` and adds to `PACKAGE_HEAD_SIZE` in `size_t`.  A size from 2^31 up to
2^32 - 7 comes out as a sum far above any `m_index`, so the reader waits.  The
six sizes above that wrap around: the sum is between 0 and 5, the callback
gets a negative size, and the next header is looked for inside this one.

`Feeds` is a fresh reader on arbitrary chunks, one evaluation of the loop at a
time; the evaluations of a loop that does not end are among them.  `Wraps` says
of the bytes received that taking packages off the front reaches one of the six
sizes.  Up to there, and no further, every span handed over is a package
(`spans_iff`).
-/
import TestExamples.LibUvHelperFrames

namespace TestExamples

open BufferReader

variable {D : DataModel} {r r' : BufferReader}

/-! ### Headers -/

/-- The six bytes of a header with the right magic are there. -/
def IsHeader (xs : List Byte) : Prop :=
  PACKAGE_HEAD_SIZE ≤ xs.length ∧ blockOf xs 0 = 0x75 ∧ blockOf xs 1 = 0x76

/-- The size field of a header, read as the `uint32_t` it is declared as. -/
def headerSize (xs : List Byte) : Nat :=
  word32 (blockOf xs 2) (blockOf xs 3) (blockOf xs 4) (blockOf xs 5)

/-- `PACKAGE_HEAD_SIZE + size` wraps around for these sizes. -/
def WrapHead (xs : List Byte) : Prop := IsHeader xs ∧ 2 ^ 32 - PACKAGE_HEAD_SIZE ≤ headerSize xs

theorem headerSize_lt (xs : List Byte) : headerSize xs < 2 ^ 32 := word32_lt _ _ _ _

theorem isHeader_Msg2Package (msg ys : List Byte) : IsHeader (Msg2Package msg ++ ys) := by
  refine ⟨?_, rfl, rfl⟩
  rw [List.length_append, Msg2Package_length]
  omega

theorem headerSize_Msg2Package {msg : List Byte} (h : msg.length < 2 ^ 32) (ys : List Byte) :
    headerSize (Msg2Package msg ++ ys) = msg.length := by
  rw [← Nat.mod_eq_of_lt h, ← word32_wordByte]
  rfl

/-- The bytes of a word, back from the word. -/
theorem htonl_word32 (b₀ b₁ b₂ b₃ : Byte) : htonl (word32 b₀ b₁ b₂ b₃) = [b₀, b₁, b₂, b₃] := by
  have h₀ := b₀.toNat_lt
  have h₁ := b₁.toNat_lt
  have h₂ := b₂.toNat_lt
  have h₃ := b₃.toNat_lt
  have key : ∀ (k : Nat) (b : Byte), word32 b₀ b₁ b₂ b₃ / 256 ^ k % 256 = b.toNat →
      wordByte (word32 b₀ b₁ b₂ b₃) k = b := fun k b hb =>
    UInt8.toNat_inj.mp (by rw [wordByte_toNat, hb])
  unfold htonl
  rw [key 3 b₀, key 2 b₁, key 1 b₂, key 0 b₃] <;> simp only [word32] <;> omega

/-- A header and as many bytes as its size field says are a package. -/
theorem IsHeader.eq_package {xs : List Byte} (h : IsHeader xs)
    (hlen : PACKAGE_HEAD_SIZE + headerSize xs ≤ xs.length) :
    xs = Msg2Package ((xs.drop PACKAGE_HEAD_SIZE).take (headerSize xs)) ++
      xs.drop (PACKAGE_HEAD_SIZE + headerSize xs) := by
  obtain ⟨hsix, hu, hv⟩ := h
  obtain ⟨b₀, b₁, b₂, b₃, b₄, b₅, rest, rfl⟩ :
      ∃ b₀ b₁ b₂ b₃ b₄ b₅ rest, xs = b₀ :: b₁ :: b₂ :: b₃ :: b₄ :: b₅ :: rest := by
    rcases xs with - | ⟨b₀, - | ⟨b₁, - | ⟨b₂, - | ⟨b₃, - | ⟨b₄, - | ⟨b₅, rest⟩⟩⟩⟩⟩⟩
    case cons.cons.cons.cons.cons.cons => exact ⟨b₀, b₁, b₂, b₃, b₄, b₅, rest, rfl⟩
    all_goals simp [PACKAGE_HEAD_SIZE] at hsix
  obtain rfl : b₀ = 0x75 := hu
  obtain rfl : b₁ = 0x76 := hv
  have hsize : headerSize (0x75 :: 0x76 :: b₂ :: b₃ :: b₄ :: b₅ :: rest) = word32 b₂ b₃ b₄ b₅ := rfl
  rw [hsize] at hlen ⊢
  have hrest : word32 b₂ b₃ b₄ b₅ ≤ rest.length := by
    simp only [List.length_cons, PACKAGE_HEAD_SIZE] at hlen
    omega
  have htake : (rest.take (word32 b₂ b₃ b₄ b₅)).length = word32 b₂ b₃ b₄ b₅ := by
    rw [List.length_take, Nat.min_eq_left hrest]
  show _ = proto_type ++ htonl (rest.take _).length ++ rest.take _ ++
    (0x75 :: 0x76 :: b₂ :: b₃ :: b₄ :: b₅ :: rest).drop _
  rw [htake, htonl_word32, ← List.drop_drop, List.append_assoc,
    show (0x75 :: 0x76 :: b₂ :: b₃ :: b₄ :: b₅ :: rest).drop PACKAGE_HEAD_SIZE = rest from rfl,
    List.take_append_drop]
  rfl

/-! ### One evaluation of the loop -/

/-- The span handed over is the payload of the package at the front of the
bytes received, and what is left begins right behind that package. -/
def Spans (r : BufferReader) (c : OnMsgCall) (r' : BufferReader) : Prop :=
  ∃ msg : List Byte, msg.length < 2 ^ 32 ∧ r.received = Msg2Package msg ++ r'.received ∧
    c = .deliver msg

/-- What the loop hands over is what the rule finds. -/
theorem nextPackage_of_pass {c : OnMsgCall} (h : pass D r = .next c r') :
    nextPackage D r.received = .frame c r'.received := by
  rcases hn : nextPackage D r.received with - | - | ⟨c', rest⟩
  · rcases pass_of_more hn with hp | hp <;> rw [h] at hp <;> cases hp
  · rw [pass_of_bad hn] at h
    cases h
  · obtain ⟨r'', hp, rfl, -⟩ := pass_of_frame hn
    rw [h] at hp
    cases hp
    rfl

/-- A package of the rule is one of the encoder, unless the sum wrapped. -/
theorem nextPackage_frame_iff {xs rest : List Byte} {c : OnMsgCall}
    (hlen : xs.length ≤ INT_MAX) (h : nextPackage D xs = .frame c rest) :
    (∃ msg : List Byte, msg.length < 2 ^ 32 ∧ xs = Msg2Package msg ++ rest ∧ c = .deliver msg) ↔
      ¬ WrapHead xs := by
  have hint : INT_MAX = 2 ^ 31 - 1 := rfl
  have hhead : PACKAGE_HEAD_SIZE = 6 := rfl
  constructor
  · rintro ⟨msg, hmsg, rfl, -⟩ ⟨-, hwrap⟩
    rw [headerSize_Msg2Package hmsg] at hwrap
    rw [List.length_append, Msg2Package_length] at hlen
    omega
  · intro hwrap
    unfold nextPackage at h
    by_cases hshort : xs.length < PACKAGE_HEAD_SIZE
    · rw [if_pos hshort] at h
      cases h
    rw [if_neg hshort] at h
    by_cases hmagic : blockOf xs 0 ≠ 0x75 ∨ blockOf xs 1 ≠ 0x76
    · simp [hmagic] at h
    simp only [hmagic, if_false] at h
    have hheader : IsHeader xs := by
      rw [not_or, not_not, not_not] at hmagic
      exact ⟨Nat.le_of_not_lt hshort, hmagic⟩
    by_cases hend : packageEnd D (sizeField (blockOf xs)) ≤ xs.length
    · rw [if_pos hend] at h
      obtain ⟨rfl, rfl⟩ := Verdict.frame.inj h
      -- a size of at least 2^31 has the sum wrap or come out too large
      have hsmall : headerSize xs < 2 ^ 31 := by
        refine Nat.lt_of_not_le fun hbig => hwrap ⟨hheader, ?_⟩
        have hfield : sizeField (blockOf xs) = (headerSize xs : Int) - 2 ^ 32 :=
          if_neg (Nat.not_lt.mpr hbig)
        have hlt := headerSize_lt xs
        have hsum := packageEnd_eq (sizeField_bounds _).1 (sizeField_bounds _).2 hlen hend
        omega
      have hfield : sizeField (blockOf xs) = headerSize xs := toInt32_of_lt hsmall
      have hsum : packageEnd D (sizeField (blockOf xs)) = PACKAGE_HEAD_SIZE + headerSize xs := by
        rw [hfield, packageEnd_of_nonneg (by omega) (by omega), Int.toNat_natCast]
      rw [hsum] at hend ⊢
      rw [hfield, Int.toNat_natCast]
      refine ⟨_, ?_, hheader.eq_package hend, ?_⟩
      · rw [List.length_take]
        omega
      · rw [OnMsgCall.deliver, List.length_take, List.length_drop, Nat.min_eq_left (by omega)]
    · rw [if_neg hend] at h
      cases h

/-- **One span.**  It is a package exactly when the sum did not wrap. -/
theorem spans_iff_of_pass {c : OnMsgCall} (h : pass D r = .next c r') :
    Spans r c r' ↔ ¬ WrapHead r.received := by
  refine nextPackage_frame_iff ?_ (nextPackage_of_pass h)
  rw [received_length]
  exact r.index_le.trans r.size_le

/-- A span that is a package has the size its header says, and the package has
been received. -/
theorem Spans.header {c : OnMsgCall} (h : Spans r c r') :
    IsHeader r.received ∧ c.size = headerSize r.received ∧
      PACKAGE_HEAD_SIZE + headerSize r.received ≤ r.m_index ∧
      r'.received = r.received.drop (PACKAGE_HEAD_SIZE + headerSize r.received) := by
  obtain ⟨msg, hmsg, hrec, rfl⟩ := h
  have hsize : headerSize r.received = msg.length := by
    rw [hrec, headerSize_Msg2Package hmsg]
  refine ⟨hrec ▸ isHeader_Msg2Package msg _, ?_, ?_, ?_⟩
  · rw [hsize]
    rfl
  · rw [hsize, ← Msg2Package_length, ← received_length, hrec, List.length_append]
    exact Nat.le_add_right _ _
  · rw [hsize, ← Msg2Package_length, hrec, List.drop_left]

/-- Where the sum wraps, the loop hands something over. -/
theorem exists_pass_of_wrapHead (D : DataModel) (h : WrapHead r.received) :
    ∃ c r', pass D r = .next c r' := by
  obtain ⟨⟨hsix, hu, hv⟩, hwrap⟩ := h
  have hhead : PACKAGE_HEAD_SIZE = 6 := rfl
  have hlt := headerSize_lt r.received
  have hfield : sizeField (blockOf r.received) = (headerSize r.received : Int) - 2 ^ 32 :=
    if_neg (by show ¬ headerSize r.received < _; omega)
  have hend : packageEnd D (sizeField (blockOf r.received)) ≤ r.received.length := by
    rw [hfield]
    unfold packageEnd
    cases D <;> simp only [DataModel.sizeT] <;> omega
  have hframe : ∃ c rest, nextPackage D r.received = .frame c rest := by
    unfold nextPackage
    rw [if_neg (Nat.not_lt.mpr hsix), hu, hv]
    simp only [ne_eq, not_true_eq_false, or_self, if_false]
    rw [if_pos hend]
    exact ⟨_, _, rfl⟩
  obtain ⟨c, rest, hf⟩ := hframe
  obtain ⟨r', hp, -⟩ := pass_of_frame hf
  exact ⟨c, r', hp⟩

/-! ### A fresh reader on arbitrary chunks -/

/-- The states a fresh reader goes through on non-empty chunks of arbitrary
bytes, one evaluation of the loop at a time: the chunks fed so far, and
whether `SetBuffer` is in its loop. -/
inductive Feeds (D : DataModel) : List (List Byte) → Bool → BufferReader → Prop
  | new : Feeds D [] false .new
  | receive {chunks r chunk r'} : Feeds D chunks false r → chunk ≠ [] →
      r.receive chunk = some r' → Feeds D (chunks ++ [chunk]) true r'
  | next {chunks r c r'} : Feeds D chunks true r → pass D r = .next c r' → Feeds D chunks true r'
  | exit {chunks r} : Feeds D chunks true r → pass D r = .exit → Feeds D chunks false r
  | stop {chunks r call r'} : Feeds D chunks true r → pass D r = .stop call r' →
      Feeds D chunks false r'

/-- Taking packages off the front reaches a size that wraps. -/
inductive Wraps : List Byte → Prop
  | here {xs} : WrapHead xs → Wraps xs
  | later {xs} (msg : List Byte) : msg.length < 2 ^ 31 → Wraps xs → Wraps (Msg2Package msg ++ xs)

/-- The bytes left behind packages that were taken off the front. -/
inductive Behind : List Byte → List Byte → Prop
  | refl (xs) : Behind xs xs
  | package {xs ys} (msg : List Byte) : msg.length < 2 ^ 31 → Behind xs (Msg2Package msg ++ ys) →
      Behind xs ys

theorem Behind.append {xs ys : List Byte} (h : Behind xs ys) (zs : List Byte) :
    Behind (xs ++ zs) (ys ++ zs) := by
  induction h with
  | refl => exact .refl _
  | package msg hmsg _ ih =>
      rw [List.append_assoc] at ih
      exact .package msg hmsg ih

/-- A package of that size is followed by what wraps, or nothing wraps. -/
theorem wraps_package_iff {msg xs : List Byte} (hmsg : msg.length < 2 ^ 31) :
    Wraps (Msg2Package msg ++ xs) ↔ Wraps xs := by
  refine ⟨fun h => ?_, .later msg hmsg⟩
  generalize hys : Msg2Package msg ++ xs = ys at h
  cases h with
  | here hwrap =>
      obtain ⟨-, hsize⟩ := hwrap
      rw [← hys, headerSize_Msg2Package (hmsg.trans (by decide)), PACKAGE_HEAD_SIZE] at hsize
      omega
  | @later zs msg' hmsg' hzs =>
      have hf := nextPackage_Msg2Package .lp64 hmsg xs
      rw [hys, nextPackage_Msg2Package .lp64 hmsg' zs] at hf
      obtain ⟨-, rfl⟩ := Verdict.frame.inj hf
      exact hzs

theorem Behind.wraps_iff {xs ys : List Byte} (h : Behind xs ys) : Wraps xs ↔ Wraps ys := by
  induction h with
  | refl => exact Iff.rfl
  | package msg hmsg _ ih => exact ih.trans (wraps_package_iff hmsg)

/-- A span that is a package leaves the reader behind it. -/
theorem Spans.behind {c : OnMsgCall} {xs : List Byte} (h : Spans r c r')
    (hb : Behind xs r.received) : Behind xs r'.received := by
  obtain ⟨msg, -, hrec, -⟩ := h
  have hle := r.index_le.trans r.size_le
  have hint : INT_MAX = 2 ^ 31 - 1 := rfl
  rw [← received_length, hrec, List.length_append, Msg2Package_length] at hle
  refine .package msg (by omega) ?_
  rw [← hrec]
  exact hb

/-- **The reader is behind packages** as long as each span was one. -/
theorem Feeds.behind {chunks : List (List Byte)} {b : Bool} (h : Feeds D chunks b r)
    (hspans : ∀ pre r c r', pre <+: chunks → Feeds D pre true r → Behind pre.flatten r.received →
      pass D r = .next c r' → Spans r c r') : Behind chunks.flatten r.received := by
  induction h with
  | new => exact .refl _
  | @receive chunks r chunk r' _ _ hrecv ih =>
      have hpre : ∀ {pre}, pre <+: chunks → pre <+: chunks ++ [chunk] := fun hp =>
        hp.trans (List.prefix_append ..)
      rw [List.flatten_append, List.flatten_singleton, receive_received hrecv]
      exact (ih fun pre r c r' hp => hspans pre r c r' (hpre hp)).append chunk
  | next h hp ih => exact (hspans _ _ _ _ List.prefix_rfl h (ih hspans) hp).behind (ih hspans)
  | exit _ _ ih => exact ih hspans
  | @stop chunks r call r' _ hp ih =>
      have hrec : r'.received = r.received := by
        rcases hn : nextPackage D r.received with - | - | ⟨c, rest⟩
        · rcases pass_of_more hn with he | he <;> rw [hp] at he <;> cases he
          rfl
        · rw [pass_of_bad hn] at hp
          cases hp
          rfl
        · obtain ⟨r'', he, -⟩ := pass_of_frame hn
          rw [hp] at he
          cases he
      rw [hrec]
      exact ih hspans

/-- From a state of the loop whose bytes wrap, some span is not a package. -/
theorem Feeds.exists_not_spans {chunks : List (List Byte)} {xs : List Byte} (hwraps : Wraps xs)
    (h : Feeds D chunks true r) (hr : r.received = xs) :
    ∃ r c r', Feeds D chunks true r ∧ pass D r = .next c r' ∧ ¬ Spans r c r' := by
  induction hwraps generalizing r with
  | here hwrap =>
      subst hr
      obtain ⟨c, r', hp⟩ := exists_pass_of_wrapHead D hwrap
      exact ⟨r, c, r', h, hp, fun hspan => (spans_iff_of_pass hp).mp hspan hwrap⟩
  | later msg hmsg _ ih =>
      have hf := nextPackage_Msg2Package D hmsg
      obtain ⟨r', hp, hrec, -⟩ := pass_of_frame (by rw [hr]; exact hf _)
      exact ih (h.next hp) hrec

/-- **Delivered spans.**  Feeding chunks of arbitrary bytes, each span handed
over is a package with its size, and the next one is looked for right behind
it, if and only if in no chunk that is taken in the bytes received reach a size
that wraps. -/
theorem spans_iff (D : DataModel) (chunks : List (List Byte)) :
    (∀ pre r c r', pre <+: chunks → Feeds D pre true r → pass D r = .next c r' → Spans r c r') ↔
      ∀ pre r, pre <+: chunks → Feeds D pre true r → ¬ Wraps pre.flatten := by
  constructor
  · intro hspans pre r hpre h hwraps
    have hb := h.behind fun p r c r' hp hf _ => hspans p r c r' (hp.trans hpre) hf
    obtain ⟨r₁, c, r', h₁, hp, hno⟩ := h.exists_not_spans (hb.wraps_iff.mp hwraps) rfl
    exact hno (hspans _ _ _ _ hpre h₁ hp)
  · intro hno
    have hstep : ∀ pre r c r', pre <+: chunks → Feeds D pre true r → Behind pre.flatten r.received →
        pass D r = .next c r' → Spans r c r' := by
      intro pre r c r' hpre h hb hp
      apply (spans_iff_of_pass hp).mpr
      intro hwrap
      exact hno pre r hpre h (hb.wraps_iff.mpr (.here hwrap))
    intro pre r c r' hpre h hp
    refine hstep pre r c r' hpre h ?_ hp
    exact h.behind fun p r c r' hp => hstep p r c r' (hp.trans hpre)

/-- A header alone, with the size field -1: it is handed over as a span of
size -1, and the reader goes on at its last byte. -/
theorem not_spans : ¬ ∀ (D : DataModel) (chunks : List (List Byte)), (∀ c ∈ chunks, c ≠ []) →
    ∀ pre r c r', pre <+: chunks → Feeds D pre true r → pass D r = .next c r' → Spans r c r' := by
  intro h
  let chunk : List Byte := proto_type ++ [0xFF, 0xFF, 0xFF, 0xFF]
  obtain ⟨r, hrecv, -⟩ := receive_roomy chunk roomy_new (by decide) (by decide)
  have hrec : r.received = chunk := receive_received hrecv
  have hfeeds : Feeds .lp64 [chunk] true r := Feeds.new.receive (by decide) hrecv
  have hwrap : WrapHead r.received := by
    rw [hrec]
    exact ⟨⟨by decide, rfl, rfl⟩, by decide⟩
  obtain ⟨c, r', hp⟩ := exists_pass_of_wrapHead .lp64 hwrap
  have hspan := h .lp64 [chunk] (by decide) _ r c r' List.prefix_rfl hfeeds hp
  exact (spans_iff_of_pass hp).mp hspan hwrap

end TestExamples
