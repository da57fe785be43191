/-
TestExamples/LibUvHelperCopies.lean

The arithmetic and the copies of the reader of LibUvHelper.h.

`receive` and `pass` have no result where an `int` overflows or a copy leaves
its block.  Here the numbers and the copies are written down one by one:
`receiveInts` and `receiveCopies` for the part of `SetBuffer` before its loop,
`passInts` and `passCopies` for one evaluation of the loop.  They stay in
bounds as long as 2^30 bytes hold what the reader has kept and the chunk that
arrives, and no longer (`inBounds_iff`): the block has at most 2^30 bytes, and
the next doubling is no `int`.

The compaction copies within one block, by `memcpy`.  Its two ranges are apart
when no more has been received behind the package delivered than this package
has bytes, so it depends on the sizes of the messages and on where the reads
end (`compactsApart_iff`).
-/
import TestExamples.LibUvHelperStreams

namespace TestExamples

/-- A call of `memcpy`: offsets into the two blocks, the number of bytes, and
the sizes of the blocks. -/
structure Copy where
  dst : Nat
  src : Nat
  n : Nat
  dstSize : Nat
  srcSize : Nat

/-- Neither range leaves its block. -/
def Copy.Inside (c : Copy) : Prop := c.dst + c.n ≤ c.dstSize ∧ c.src + c.n ≤ c.srcSize

/-- Within one block: no byte is read and written. -/
def Copy.Apart (c : Copy) : Prop :=
  ∀ i, c.src ≤ i ∧ i < c.src + c.n → ¬ (c.dst ≤ i ∧ i < c.dst + c.n)

namespace BufferReader

/-- `m_index + size`, and in `CheckBufferLength` `m_buffer_size * 2`. -/
def receiveInts (r : BufferReader) (size : Nat) : List Nat :=
  (r.m_index + size) ::
    if r.m_index + size > r.m_buffer_size then [r.m_buffer_size * 2] else []

/-- `m_buffer_size` after `CheckBufferLength(size)`. -/
def grownSize (r : BufferReader) (size : Nat) : Nat :=
  if size > r.m_buffer_size then r.m_buffer_size * 2 else r.m_buffer_size

/-- The copy of `CheckBufferLength` and the one that appends what arrived. -/
def receiveCopies (r : BufferReader) (size : Nat) : List Copy :=
  (if r.m_index + size > r.m_buffer_size then
    [⟨0, 0, r.m_buffer_size, r.m_buffer_size * 2, r.m_buffer_size⟩] else []) ++
    [⟨r.m_index, 0, size, r.grownSize (r.m_index + size), size⟩]

/-- The copy of the size field into `msg_size`. -/
def headCopy (r : BufferReader) : Copy := ⟨0, 2, 4, 4, r.m_buffer_size⟩

/-- The compaction. -/
def compaction (D : DataModel) (r : BufferReader) : Copy where
  dst := 0
  src := packageEnd D (sizeField r.m_msg_buffer)
  n := r.m_index - packageEnd D (sizeField r.m_msg_buffer)
  dstSize := r.m_buffer_size
  srcSize := r.m_buffer_size

/-- `m_index` after the compaction. -/
def passInts (D : DataModel) (r : BufferReader) : List Nat :=
  match pass D r with
  | .exit | .stop _ _ => []
  | .next _ r' => [r'.m_index]

def passCopies (D : DataModel) (r : BufferReader) : List Copy :=
  match pass D r with
  | .exit => []
  | .stop _ _ => [r.headCopy]
  | .next _ _ => [r.headCopy, r.compaction D]

end BufferReader

open BufferReader

/-- On a fresh reader fed with `chunks`: every `int` computed is one, every
copy stays inside, and the bytes received lie inside the block. -/
structure InBounds (D : DataModel) (chunks : List (List Byte)) : Prop where
  call : ∀ pre chunk r, pre ++ [chunk] <+: chunks → Feeds D pre false r →
    (∀ n ∈ r.receiveInts chunk.length, n ≤ INT_MAX) ∧
      ∀ c ∈ r.receiveCopies chunk.length, c.Inside
  pass : ∀ pre r, pre <+: chunks → Feeds D pre true r →
    (∀ n ∈ passInts D r, n ≤ INT_MAX) ∧ ∀ c ∈ passCopies D r, c.Inside
  after : ∀ pre r, pre <+: chunks → Feeds D pre false r → r.m_index ≤ r.m_buffer_size

variable {D : DataModel} {r r' : BufferReader}

/-! ### Room -/

/-- Where the loop stops it has read the size field and nothing else. -/
theorem eq_readSize_of_stop {call : Option OnMsgCall} (h : pass D r = .stop call r') :
    r' = r.readSize := by
  rcases hn : nextPackage D r.received with - | - | ⟨c, rest⟩
  · rcases pass_of_more hn with he | he <;> rw [h] at he <;> cases he
    rfl
  · rw [pass_of_bad hn] at h
    cases h
    rfl
  · obtain ⟨r'', he, -⟩ := pass_of_frame hn
    rw [h] at he
    cases he

theorem m_buffer_size_of_next {c : OnMsgCall} (h : pass D r = .next c r') :
    r'.m_buffer_size = r.m_buffer_size := by
  obtain ⟨r'', hp, -, hsize⟩ := pass_of_frame (nextPackage_of_pass h)
  rw [h] at hp
  cases hp
  exact hsize

/-- The block has between 2^20 and 2^30 bytes. -/
theorem Feeds.roomy {chunks : List (List Byte)} {b : Bool} (h : Feeds D chunks b r) : Roomy r := by
  induction h with
  | new => exact roomy_new
  | receive _ _ hrecv ih => exact roomy_of_receive ih hrecv
  | next _ hp ih =>
      obtain ⟨k, hlo, hhi, hk⟩ := ih
      exact ⟨k, hlo, hhi, (m_buffer_size_of_next hp).trans hk⟩
  | exit _ _ ih => exact ih
  | stop _ hp ih =>
      rw [eq_readSize_of_stop hp]
      exact ih

/-- **The numbers and copies of one call**, up to its loop. -/
theorem receive_inside_iff (h : Roomy r) {size : Nat} (hsize : size ≤ READ_SIZE) :
    ((∀ n ∈ r.receiveInts size, n ≤ INT_MAX) ∧ ∀ c ∈ r.receiveCopies size, c.Inside) ↔
      r.m_index + size ≤ 2 ^ 30 := by
  obtain ⟨k, hlo, hhi, hk⟩ := h
  have hidx := r.index_le
  have hint : INT_MAX = 2 ^ 31 - 1 := rfl
  have hread : READ_SIZE = 65536 := rfl
  have hbase : 2 ^ 20 ≤ r.m_buffer_size := hk ▸ Nat.pow_le_pow_right (by decide) hlo
  have hmax : r.m_buffer_size ≤ 2 ^ 30 := hk ▸ Nat.pow_le_pow_right (by decide) hhi
  unfold receiveInts receiveCopies grownSize
  by_cases hgrow : r.m_index + size > r.m_buffer_size
  · simp only [hgrow, if_true]
    constructor
    · rintro ⟨hints, hcopies⟩
      -- the doubling that is still an `int` ends at 2^30 or below
      have hdouble : r.m_buffer_size * 2 ≤ INT_MAX := hints _ (by simp)
      have hlt : 2 ^ (k + 1) < 2 ^ 31 := by
        rw [pow_succ, ← hk]
        omega
      have hk' : k + 1 ≤ 30 := by
        have := (Nat.pow_lt_pow_iff_right (by decide)).mp hlt
        omega
      have hle : r.m_buffer_size * 2 ≤ 2 ^ 30 := by
        rw [hk, ← pow_succ]
        exact Nat.pow_le_pow_right (by decide) hk'
      have hinside := (hcopies ⟨r.m_index, 0, size, r.m_buffer_size * 2, size⟩ (by simp)).1
      exact hinside.trans hle
    · intro hle
      have hlt : k < 30 := (Nat.pow_lt_pow_iff_right (by decide)).mp (hk ▸ hgrow.trans_le hle)
      have hdouble : r.m_buffer_size * 2 ≤ 2 ^ 30 := by
        rw [hk, ← pow_succ]
        exact Nat.pow_le_pow_right (by decide) hlt
      refine ⟨fun n hn => ?_, fun c hc => ?_⟩
      · rcases List.mem_cons.mp hn with rfl | hn
        · omega
        · rw [List.mem_singleton.mp hn]
          omega
      · rcases List.mem_cons.mp hc with rfl | hc
        · exact ⟨by dsimp only; omega, by dsimp only; omega⟩
        · rw [List.mem_singleton.mp hc]
          exact ⟨by dsimp only; omega, by dsimp only; omega⟩
  · simp only [hgrow, if_false]
    refine iff_of_true ⟨fun n hn => ?_, fun c hc => ?_⟩ (by omega)
    · rw [List.mem_singleton.mp hn]
      omega
    · rw [List.nil_append] at hc
      rw [List.mem_singleton.mp hc]
      exact ⟨by dsimp only; omega, by dsimp only; omega⟩

/-- An evaluation of the loop stays inside the block. -/
theorem pass_inside (D : DataModel) (r : BufferReader) :
    (∀ n ∈ passInts D r, n ≤ INT_MAX) ∧ ∀ c ∈ passCopies D r, c.Inside := by
  have hhead : pass D r ≠ .exit → r.headCopy.Inside := by
    intro hne
    have hsix : ¬ r.m_index < PACKAGE_HEAD_SIZE := fun hlt => hne (if_pos hlt)
    have hidx := r.index_le
    unfold PACKAGE_HEAD_SIZE at hsix
    exact ⟨Nat.le_refl _, by show 2 + 4 ≤ r.m_buffer_size; omega⟩
  unfold passInts passCopies
  rcases hp : pass D r with - | ⟨call, r'⟩ | ⟨call, r'⟩
  · exact ⟨nofun, nofun⟩
  · refine ⟨nofun, fun c hc => ?_⟩
    rw [List.mem_singleton.mp hc]
    exact hhead (by rw [hp]; nofun)
  · refine ⟨fun n hn => ?_, fun c hc => ?_⟩
    · rw [List.mem_singleton.mp hn]
      exact r'.index_le.trans r'.size_le
    · rcases List.mem_cons.mp hc with rfl | hc
      · exact hhead (by rw [hp]; nofun)
      · rw [List.mem_singleton.mp hc]
        -- the sum is not above `m_index` where the loop hands something over
        have hend : packageEnd D (sizeField r.m_msg_buffer) ≤ r.m_index := by
          have hn := nextPackage_of_pass hp
          rw [nextPackage_received] at hn
          split_ifs at hn with h₁ h₂ h₃
          exact h₃
        have hidx := r.index_le
        exact ⟨by simp only [compaction]; omega, by simp only [compaction]; omega⟩

/-- **Arithmetic and copies of the reader.**  On chunks of at most 65536 bytes
everything stays in bounds if and only if at each call what the reader holds and
the chunk come to at most 2^30 bytes. -/
theorem inBounds_iff (D : DataModel) {chunks : List (List Byte)}
    (hlen : ∀ c ∈ chunks, c ≠ [] ∧ c.length ≤ 65536) :
    InBounds D chunks ↔ ∀ pre chunk r, pre ++ [chunk] <+: chunks → Feeds D pre false r →
      r.m_index + chunk.length ≤ 2 ^ 30 := by
  have hcall : ∀ {pre chunk r}, pre ++ [chunk] <+: chunks → Feeds D pre false r →
      (((∀ n ∈ r.receiveInts chunk.length, n ≤ INT_MAX) ∧
        ∀ c ∈ r.receiveCopies chunk.length, c.Inside) ↔ r.m_index + chunk.length ≤ 2 ^ 30) := by
    intro pre chunk r hpre h
    refine receive_inside_iff h.roomy ?_
    exact (hlen chunk (hpre.subset (List.mem_append_right _ (List.mem_singleton_self _)))).2
  constructor
  · intro hin pre chunk r hpre h
    exact (hcall hpre h).mp (hin.call pre chunk r hpre h)
  · intro hroom
    refine ⟨fun pre chunk r hpre h => ?_, fun pre r _ _ => pass_inside D r,
      fun _ r _ _ => r.index_le⟩
    exact (hcall hpre h).mpr (hroom pre chunk r hpre h)

/-- A chunk that completes nothing is kept. -/
theorem Feeds.keep {chunks : List (List Byte)} {chunk : List Byte} (h : Feeds D chunks false r)
    (hne : chunk ≠ []) (hlen : chunk.length ≤ READ_SIZE) (hsum : r.m_index + chunk.length ≤ 2 ^ 30)
    (hmore : nextPackage D (r.received ++ chunk) = .more) :
    ∃ r', Feeds D (chunks ++ [chunk]) false r' ∧ r'.received = r.received ++ chunk := by
  obtain ⟨r₁, hrecv, -⟩ := receive_roomy chunk h.roomy hlen hsum
  have hrec := receive_received hrecv
  rw [← hrec] at hmore ⊢
  rcases pass_of_more hmore with hp | hp
  · exact ⟨r₁, (h.receive hne hrecv).exit hp, rfl⟩
  · exact ⟨r₁.readSize, (h.receive hne hrecv).stop hp, rfl⟩

/-- The header of a package of 2^31 - 1 bytes. -/
def largestHead : List Byte := proto_type ++ [0x7F, 0xFF, 0xFF, 0xFF]

theorem nextPackage_largestHead (D : DataModel) {ys : List Byte} (h : ys.length < INT_MAX) :
    nextPackage D (largestHead ++ ys) = .more := by
  have hlen : (largestHead ++ ys).length = PACKAGE_HEAD_SIZE + ys.length := by
    rw [List.length_append]
    rfl
  have hsize : sizeField (blockOf (largestHead ++ ys)) = INT_MAX := by
    show toInt32 (word32 0x7F 0xFF 0xFF 0xFF) = _
    decide
  have hend : packageEnd D INT_MAX = PACKAGE_HEAD_SIZE + INT_MAX := by
    rw [packageEnd_of_nonneg (by decide) (by decide), Int.toNat_natCast]
  unfold nextPackage
  rw [hlen, if_neg (by omega)]
  simp only [hsize, hend]
  rw [if_neg (by simp [largestHead, proto_type, blockOf]), if_neg (by omega)]

/-- A package is taken off the front. -/
theorem length_le_of_next {c : OnMsgCall} (h : pass D r = .next c r') : r'.m_index ≤ r.m_index := by
  have hn := nextPackage_of_pass h
  rw [nextPackage_received] at hn
  split_ifs at hn
  obtain ⟨-, hrest⟩ := Verdict.frame.inj hn
  rw [← received_length r', ← hrest, List.length_drop, received_length]
  exact Nat.sub_le ..

/-- The reader holds no more than it has been given. -/
theorem Feeds.m_index_le {chunks : List (List Byte)} {b : Bool} (h : Feeds D chunks b r) :
    r.m_index ≤ chunks.flatten.length := by
  induction h with
  | new => exact Nat.le_refl _
  | @receive chunks r chunk r' _ _ hrecv ih =>
      rw [← received_length r', receive_received hrecv, List.length_append, received_length,
        List.flatten_append, List.flatten_singleton, List.length_append]
      exact Nat.add_le_add_right ih _
  | next _ hp ih => exact (length_le_of_next hp).trans ih
  | exit _ _ ih => exact ih
  | stop _ hp ih =>
      rw [eq_readSize_of_stop hp]
      exact ih

/-- A package of one byte in two chunks. -/
theorem inBounds_iff_two : InBounds .lp64 [[0x75, 0x76, 0, 0], [0, 0, 1, 0x61]] := by
  refine (inBounds_iff .lp64 (by decide)).mpr fun pre chunk r hpre h => ?_
  obtain ⟨post, hpost⟩ := hpre
  have htotal := congrArg (fun cs => cs.flatten.length) hpost
  simp only [List.flatten_append, List.flatten_singleton, List.length_append] at htotal
  have hle := h.m_index_le
  change _ = 8 at htotal
  omega

/-- The header of a package of 2^31 - 1 bytes, and zeros behind it in chunks of
65536 bytes: the reader waits until 2^30 bytes are exceeded. -/
theorem not_inBounds :
    ¬ ∀ (D : DataModel) (chunks : List (List Byte)), (∀ c ∈ chunks, c ≠ [] ∧ c.length ≤ 65536) →
      InBounds D chunks := by
  intro h
  obtain ⟨k, hk⟩ : ∃ k, k = 65536 := ⟨_, rfl⟩
  have hint : INT_MAX = 2 ^ 31 - 1 := rfl
  have hread : READ_SIZE = k := hk.symm
  have hzeros : (List.replicate k (0 : Byte)).length = k := List.length_replicate
  have hne : List.replicate k (0 : Byte) ≠ [] := List.ne_nil_of_length_pos (by omega)
  have hsmall : ∀ n, ∀ c ∈ largestHead :: List.replicate n (List.replicate k (0 : Byte)),
      c ≠ [] ∧ c.length ≤ 65536 := by
    intro n c hc
    rcases List.mem_cons.mp hc with rfl | hc
    · exact ⟨by decide, by decide⟩
    · rw [List.eq_of_mem_replicate hc, hzeros]
      exact ⟨hne, hk.le⟩
  -- as long as 2^30 bytes are not exceeded, all is kept
  have hkept : ∀ n, 6 + n * k ≤ 2 ^ 30 → ∃ r,
      Feeds .lp64 (largestHead :: List.replicate n (List.replicate k 0)) false r ∧
        r.received = largestHead ++ List.replicate (n * k) 0 := by
    intro n
    induction n with
    | zero =>
        intro _
        have hmore := nextPackage_largestHead .lp64 (by decide : ([] : List Byte).length < INT_MAX)
        rw [Nat.zero_mul]
        exact @Feeds.keep _ _ [] largestHead .new (by decide) (by decide) (by decide) hmore
    | succ n ih =>
        intro hle
        rw [Nat.succ_mul] at hle
        obtain ⟨r, hfeeds, hrec⟩ := ih (by omega)
        have hlen : r.m_index = 6 + n * k := by
          rw [← received_length, hrec, List.length_append, List.length_replicate]
          rfl
        obtain ⟨r', hfeeds', hrec'⟩ := hfeeds.keep hne (by omega) (by omega) (by
          rw [hrec, List.append_assoc, ← List.replicate_add]
          refine nextPackage_largestHead .lp64 ?_
          rw [List.length_replicate]
          omega)
        refine ⟨r', ?_, ?_⟩
        · rwa [List.cons_append, ← List.replicate_succ'] at hfeeds'
        · rw [hrec', hrec, List.append_assoc, ← List.replicate_add, Nat.succ_mul]
  obtain ⟨n, hn⟩ : ∃ n, n = 2 ^ 14 - 1 := ⟨_, rfl⟩
  have hnk : n * k = 2 ^ 30 - 65536 := by
    rw [hn, hk]
    rfl
  obtain ⟨r, hfeeds, hrec⟩ := hkept n (by omega)
  have hlen : r.m_index = 6 + n * k := by
    rw [← received_length, hrec, List.length_append, List.length_replicate]
    rfl
  have hchunks : largestHead :: List.replicate n (List.replicate k 0) ++ [List.replicate k 0] =
      largestHead :: List.replicate (n + 1) (List.replicate k 0) := by
    rw [List.cons_append, ← List.replicate_succ']
  have hcall := (h .lp64 _ (hsmall (n + 1))).call
    (largestHead :: List.replicate n (List.replicate k 0)) (List.replicate k 0) r
    ⟨[], (List.append_nil _).trans hchunks⟩ hfeeds
  have hroom := (receive_inside_iff hfeeds.roomy (by omega)).mp hcall
  rw [hlen, hzeros] at hroom
  omega

/-! ### The compaction -/

/-- Each compaction made while the chunks are fed copies between ranges that are
apart. -/
def CompactsApart (D : DataModel) (chunks : List (List Byte)) : Prop :=
  ∀ pre r call r', pre <+: chunks → Feeds D pre true r → pass D r = .next call r' →
    (r.compaction D).Apart

/-- A chunk that is taken in and completes the package of `m` brings no more
behind it than this package has bytes. -/
def NoLongTail (D : DataModel) (msgs chunks : List (List Byte)) : Prop :=
  ∀ done m left pre chunk r, msgs = done ++ m :: left → pre ++ [chunk] <+: chunks →
    Feeds D (pre ++ [chunk]) true r →
    pre.flatten.length < ((done ++ [m]).flatMap Msg2Package).length →
    ((done ++ [m]).flatMap Msg2Package).length ≤ (pre ++ [chunk]).flatten.length →
    (pre ++ [chunk]).flatten.length ≤
      ((done ++ [m]).flatMap Msg2Package).length + (Msg2Package m).length

/-- The ranges `[k, n)` and `[0, n - k)`. -/
theorem compaction_apart_iff {D : DataModel} {r : BufferReader} {k : Nat}
    (hk : packageEnd D (sizeField r.m_msg_buffer) = k) (hle : k ≤ r.m_index) :
    (r.compaction D).Apart ↔ r.m_index ≤ k + k := by
  unfold Copy.Apart compaction
  simp only [hk]
  constructor
  · intro h
    by_contra hlt
    exact h k ⟨Nat.le_refl _, by omega⟩ ⟨Nat.zero_le _, by omega⟩
  · intro h i hsrc hdst
    omega

section Messages

variable {msgs chunks : List (List Byte)} {m : List Byte}

/-- The compaction behind a package. -/
theorem compaction_apart_of_package {rest : List Byte} (hm : m.length < 2 ^ 31)
    (hr : r.received = Msg2Package m ++ rest) :
    (r.compaction D).Apart ↔ rest.length ≤ (Msg2Package m).length := by
  have hidx : r.m_index = (Msg2Package m).length + rest.length := by
    rw [← received_length, hr, List.length_append]
  have hsix : ¬ r.m_index < PACKAGE_HEAD_SIZE := by
    rw [hidx, Msg2Package_length]
    omega
  have hsize : sizeField r.m_msg_buffer = m.length := by
    rw [← (header_received hsix).2.2, hr, (Msg2Package_header m rest).2.2,
      Nat.mod_eq_of_lt (by omega), toInt32_of_lt hm]
  have hend : packageEnd D (sizeField r.m_msg_buffer) = (Msg2Package m).length := by
    rw [hsize, packageEnd_of_nonneg (by omega) (by omega), Int.toNat_natCast, Msg2Package_length]
  rw [compaction_apart_iff hend (by omega), hidx]
  omega

/-- What is at the front of the bytes held, when `done` has been taken off. -/
theorem front_of_held {pre : List (List Byte)} {done left : List (List Byte)} {xs : List Byte}
    (hmsgs : ∀ m ∈ msgs, m.length < 2 ^ 31) (hcut : chunks.flatten = msgs.flatMap Msg2Package)
    (hpre : pre <+: chunks) (hsplit : msgs = done ++ left)
    (hxs : pre.flatten = done.flatMap Msg2Package ++ xs) :
    (nextPackage D xs = .more ∧ ∀ m ms, left = m :: ms → xs.length < (Msg2Package m).length) ∨
      ∃ m ms rest, left = m :: ms ∧ nextPackage D xs = .frame (.deliver m) rest ∧
        xs = Msg2Package m ++ rest := by
  obtain ⟨post, rfl⟩ := hpre
  subst hsplit
  rw [List.flatten_append, hxs, List.flatMap_append, List.append_assoc] at hcut
  have hleft : ∀ m ∈ left, m.length < 2 ^ 31 := fun m hm =>
    hmsgs m (List.mem_append_right _ hm)
  rcases (package_decodes D).next_of_append hleft (List.append_cancel_left hcut) with
    ⟨hmore, -, hlen⟩ | ⟨m, ms, rest, he, hf, hrest, -⟩
  · exact Or.inl ⟨hmore, hlen⟩
  · exact Or.inr ⟨m, ms, rest, he, hf, hrest⟩

/-- **What the reader holds** of a stream of packages: what has come behind those
taken off, and the next one was not complete before the chunk being read. -/
theorem Feeds.held {cs : List (List Byte)} {b : Bool} (hmsgs : ∀ m ∈ msgs, m.length < 2 ^ 31)
    (hcut : chunks.flatten = msgs.flatMap Msg2Package) (h : Feeds D cs b r)
    (hpre : cs <+: chunks) :
    ∃ done left, msgs = done ++ left ∧ cs.flatten = done.flatMap Msg2Package ++ r.received ∧
      ∀ m ms, left = m :: ms → (if b then cs.dropLast else cs).flatten.length <
        (done.flatMap Msg2Package).length + (Msg2Package m).length := by
  -- at the end of the loop the rule waits
  have hend : ∀ {cs : List (List Byte)} {r : BufferReader}, cs <+: chunks →
      (∀ c r', pass D r ≠ .next c r') →
      (∃ done left, msgs = done ++ left ∧ cs.flatten = done.flatMap Msg2Package ++ r.received) →
      ∃ done left, msgs = done ++ left ∧ cs.flatten = done.flatMap Msg2Package ++ r.received ∧
        ∀ m ms, left = m :: ms → cs.flatten.length <
          (done.flatMap Msg2Package).length + (Msg2Package m).length := by
    rintro cs r hpre hno ⟨done, left, hsplit, hxs⟩
    rcases front_of_held (D := D) hmsgs hcut hpre hsplit hxs with
      ⟨-, hlen⟩ | ⟨m, ms, rest, -, hf, -⟩
    · refine ⟨done, left, hsplit, hxs, fun m ms he => ?_⟩
      rw [hxs, List.length_append]
      exact Nat.add_lt_add_left (hlen m ms he) _
    · obtain ⟨r', hp, -⟩ := pass_of_frame hf
      exact absurd hp (hno _ r')
  induction h with
  | new =>
      refine ⟨[], msgs, rfl, rfl, fun m ms _ => ?_⟩
      have hsix : PACKAGE_HEAD_SIZE = 6 := rfl
      show 0 < 0 + (Msg2Package m).length
      rw [Msg2Package_length]
      omega
  | @receive cs r chunk r' _ _ hrecv ih =>
      obtain ⟨done, left, hsplit, hxs, hlt⟩ := ih ((List.prefix_append ..).trans hpre)
      refine ⟨done, left, hsplit, ?_, ?_⟩
      · rw [List.flatten_append, List.flatten_singleton, hxs, receive_received hrecv,
          List.append_assoc]
      · rw [if_pos rfl, List.dropLast_concat]
        exact hlt
  | next _ hp ih =>
      obtain ⟨done, left, hsplit, hxs, hlt⟩ := ih hpre
      have hn := nextPackage_of_pass hp
      rcases front_of_held (D := D) hmsgs hcut hpre hsplit hxs with
        ⟨hmore, -⟩ | ⟨m, ms, rest, rfl, hf, hrest⟩
      · rw [hmore] at hn
        cases hn
      · rw [hf] at hn
        obtain ⟨-, rfl⟩ := Verdict.frame.inj hn
        refine ⟨done ++ [m], ms, ?_, ?_, fun m' ms' _ => ?_⟩
        · rw [hsplit, List.append_assoc]
          rfl
        · rw [hxs, hrest, List.flatMap_append, List.append_assoc, List.flatMap_singleton]
        · rw [List.flatMap_append, List.flatMap_singleton, List.length_append]
          exact Nat.lt_add_right _ (hlt m ms rfl)
  | exit _ hp ih =>
      obtain ⟨done, left, hsplit, hxs, -⟩ := ih hpre
      refine hend hpre (fun c r' he => ?_) ⟨done, left, hsplit, hxs⟩
      rw [hp] at he
      cases he
  | stop _ hp ih =>
      obtain ⟨done, left, hsplit, hxs, -⟩ := ih hpre
      rw [eq_readSize_of_stop hp, readSize_received]
      refine hend hpre (fun c r' he => ?_) ⟨done, left, hsplit, hxs⟩
      rw [hp] at he
      cases he

/-- The loop takes packages off until it comes to the one wanted. -/
theorem Feeds.reach {pre : List (List Byte)} {ms : List (List Byte)} {rest : List Byte}
    (hms : ∀ m ∈ ms, m.length < 2 ^ 31) (h : Feeds D pre true r)
    (hr : r.received = ms.flatMap Msg2Package ++ rest) :
    ∃ r', Feeds D pre true r' ∧ r'.received = rest := by
  induction ms generalizing r with
  | nil => exact ⟨r, h, hr⟩
  | cons m ms ih =>
      rw [List.flatMap_cons, List.append_assoc] at hr
      have hf := nextPackage_Msg2Package D (hms m (List.mem_cons_self ..))
        (ms.flatMap Msg2Package ++ rest)
      obtain ⟨r₁, hp, hr₁, -⟩ := pass_of_frame (by rw [hr]; exact hf)
      exact ih (fun m hm => hms m (List.mem_cons_of_mem _ hm)) (h.next hp) hr₁

/-- In its loop, `SetBuffer` has taken in the last chunk. -/
theorem Feeds.receive_of_true {cs : List (List Byte)} (h : Feeds D cs true r) :
    ∃ pre chunk r₁ r₂, cs = pre ++ [chunk] ∧ Feeds D pre false r₁ ∧
      r₁.receive chunk = some r₂ ∧ Feeds D cs true r₂ := by
  generalize hb : true = b at h
  induction h with
  | receive h hne hrecv =>
      exact ⟨_, _, _, _, rfl, h, hrecv, hb ▸ h.receive hne hrecv⟩
  | next _ _ ih => exact ih hb
  | new | exit | stop => cases hb

/-- A chunk that brings more behind a package shows in the copy behind it. -/
theorem noLongTail_of_compactsApart {msgs chunks : List (List Byte)}
    (hmsgs : ∀ m ∈ msgs, m.length < 2 ^ 31) (hcut : chunks.flatten = msgs.flatMap Msg2Package)
    (hapart : CompactsApart D chunks) : NoLongTail D msgs chunks := by
  intro done m left pre chunk r hsplit hpre h hbefore hbehind
  obtain ⟨pre', chunk', r₁, r₂, he, h₁, hrecv, h₂⟩ := h.receive_of_true
  obtain ⟨rfl, hchunk⟩ := List.append_inj' he rfl
  obtain rfl := List.singleton_inj.mp hchunk
  obtain ⟨done₁, left₁, hsplit₁, hxs, -⟩ := h₁.held hmsgs hcut ((List.prefix_append ..).trans hpre)
  -- the packages taken off before the chunk are among those in front of `m`
  obtain ⟨ms, rfl, rfl⟩ : ∃ ms, done = done₁ ++ ms ∧ left₁ = ms ++ m :: left := by
    rw [hsplit₁, List.append_eq_append_iff] at hsplit
    rcases hsplit with ⟨ms, hms, hleft⟩ | ⟨ms, rfl, hms⟩
    · exact ⟨ms, hms, hleft⟩
    · rcases ms with - | ⟨m', ms⟩
      · exact ⟨[], by simp, by simpa using hms.symm⟩
      · obtain ⟨rfl, -⟩ := List.cons.inj hms
        simp only [hxs, List.flatMap_append, List.flatMap_cons, List.flatMap_nil,
          List.length_append, List.append_nil] at hbefore
        omega
  have hall : (pre ++ [chunk]).flatten = done₁.flatMap Msg2Package ++ r₂.received := by
    rw [List.flatten_append, List.flatten_singleton, hxs, receive_received hrecv,
      List.append_assoc]
  -- the chunk has brought all of `m`
  obtain ⟨rest, hrest⟩ : (ms ++ [m]).flatMap Msg2Package <+: r₂.received := by
    obtain ⟨post, rfl⟩ := hpre
    rw [List.flatten_append, hall, hsplit₁, List.flatMap_append, List.append_assoc] at hcut
    have hprefix : r₂.received <+: (ms ++ m :: left).flatMap Msg2Package :=
      ⟨_, List.append_cancel_left hcut⟩
    rw [List.append_cons, List.flatMap_append] at hprefix
    refine List.prefix_of_prefix_length_le (List.prefix_append ..) hprefix ?_
    rw [hall, List.append_assoc, List.flatMap_append, List.length_append,
      List.length_append] at hbehind
    omega
  have hms : ∀ q ∈ ms, q.length < 2 ^ 31 := fun q hq => hmsgs q (hsplit₁ ▸ by simp [hq])
  have hm : m.length < 2 ^ 31 := hmsgs m (hsplit₁ ▸ by simp)
  rw [List.flatMap_append, List.flatMap_singleton, List.append_assoc] at hrest
  obtain ⟨r₃, h₃, hr₃⟩ := h₂.reach hms hrest.symm
  obtain ⟨r₄, hp, -⟩ := pass_of_frame (D := D) (by
    rw [hr₃]
    exact nextPackage_Msg2Package D hm rest)
  have hle := (compaction_apart_of_package hm hr₃).mp (hapart _ r₃ _ r₄ hpre h₃ hp)
  rw [hall, ← hrest]
  simp only [List.flatMap_append, List.flatMap_singleton, List.length_append]
  omega

theorem compactsApart_of_noLongTail {msgs chunks : List (List Byte)}
    (hmsgs : ∀ m ∈ msgs, m.length < 2 ^ 31) (hcut : chunks.flatten = msgs.flatMap Msg2Package)
    (htail : NoLongTail D msgs chunks) : CompactsApart D chunks := by
  intro cs r call r' hpre h hp
  obtain ⟨pre, chunk, -, -, rfl, -⟩ := h.receive_of_true
  obtain ⟨done, left, hsplit, hxs, hlt⟩ := h.held hmsgs hcut hpre
  have hn := nextPackage_of_pass hp
  rcases front_of_held (D := D) hmsgs hcut hpre hsplit hxs with
    ⟨hmore, -⟩ | ⟨m, ms, rest, rfl, -, hrest⟩
  · rw [hmore] at hn
    cases hn
  · have hm : m.length < 2 ^ 31 := hmsgs m (hsplit ▸ by simp)
    have hbefore := hlt m ms rfl
    rw [if_pos rfl, List.dropLast_concat] at hbefore
    have hsum := htail done m ms pre chunk r hsplit hpre h
    rw [compaction_apart_of_package hm hrest]
    simp only [hxs, hrest, List.flatMap_append, List.flatMap_singleton,
      List.length_append] at hsum hbefore
    omega

/-- **The compaction of a stream of packages.**  All its copies are between
ranges that are apart if and only if no chunk brings more behind a package it
completes than this package has bytes. -/
theorem compactsApart_iff (D : DataModel) {msgs chunks : List (List Byte)}
    (hmsgs : ∀ m ∈ msgs, m.length < 2 ^ 31) (hcut : chunks.flatten = msgs.flatMap Msg2Package) :
    CompactsApart D chunks ↔ NoLongTail D msgs chunks :=
  ⟨noLongTail_of_compactsApart hmsgs hcut, compactsApart_of_noLongTail hmsgs hcut⟩

/-- Two packages of seven bytes in one chunk. -/
theorem compactsApart_iff_two :
    CompactsApart .lp64 [Msg2Package [0x61] ++ Msg2Package [0x62]] := by
  have hcut : [Msg2Package [0x61] ++ Msg2Package [0x62]].flatten =
      [[0x61], [0x62]].flatMap Msg2Package := rfl
  refine (compactsApart_iff .lp64 (by decide) hcut).mpr ?_
  rintro done m left pre chunk r hsplit ⟨post, hpre⟩ - - -
  have hm : (Msg2Package m).length = 7 := by
    have hmem : m ∈ [[0x61], [0x62]] := hsplit ▸ by simp
    rcases List.mem_pair.mp hmem with rfl | rfl <;> rfl
  have htotal : (pre ++ [chunk]).flatten.length ≤ 14 := by
    have hlen := congrArg (fun cs => cs.flatten.length) hpre
    rw [List.flatten_append, List.length_append] at hlen
    change _ = 14 at hlen
    omega
  rw [List.flatMap_append, List.flatMap_singleton, List.length_append]
  omega

/-- A package of seven bytes with one of eight bytes behind it, in one chunk. -/
theorem not_compactsApart :
    ¬ ∀ (D : DataModel) (msgs chunks : List (List Byte)),
      (∀ c ∈ chunks, c ≠ [] ∧ c.length ≤ 65536) →
      chunks.flatten = msgs.flatMap Msg2Package → CompactsApart D chunks := by
  intro h
  let chunk : List Byte := Msg2Package [0x61] ++ Msg2Package [0x62, 0x63]
  obtain ⟨r, hrecv, -⟩ := receive_roomy chunk roomy_new (by decide) (by decide)
  have hapart := h .lp64 [[0x61], [0x62, 0x63]] [chunk] (by decide) rfl
  have hcut : [chunk].flatten = [[0x61], [0x62, 0x63]].flatMap Msg2Package := rfl
  have htail := noLongTail_of_compactsApart (by decide) hcut hapart [] [0x61] [[0x62, 0x63]] []
    chunk r rfl List.prefix_rfl (Feeds.new.receive (by decide) hrecv) (by decide) (by decide)
  exact absurd htail (by decide)

end Messages

end TestExamples
