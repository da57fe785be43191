/-
TestExamples/LibUvHelperFrames.lean

The reader of LibUvHelper.h as a framing rule on lists of bytes.

`packageFraming` says what the loop of `SetBuffer` finds at the front of the
bytes received: too few, a bad header, or a package with its size field and
the bytes behind it.  Nothing is assumed of the size field, which the peer
chooses: a negative one is a package of the rule as it is one of the loop.

`pass_of_more`, `pass_of_bad` and `pass_of_frame` say that one evaluation of
the loop does what the rule says, so the loop drains the bytes received
(`loop_of_drains`).  On the encodings of `Msg2Package` the rule reads back the
messages (`package_decodes`).  The round trip follows: the reader keeps the
strict prefix of one encoding between two chunks, its block is large enough
for that and one more chunk, and what it has delivered is what the chunks so
far hold in whole packages.
-/
import TestExamples.Lib.Framing
import TestExamples.LibUvHelper

namespace TestExamples

open BufferReader

/-! ### The rule -/

/-- What is at the front of the bytes received. -/
def nextPackage (D : DataModel) (xs : List Byte) : Verdict Byte OnMsgCall :=
  if xs.length < PACKAGE_HEAD_SIZE then .more
  else
    let size := sizeField (blockOf xs)
    if blockOf xs 0 ≠ 0x75 ∨ blockOf xs 1 ≠ 0x76 then .bad
    else if packageEnd D size ≤ xs.length then
      .frame ⟨some ((xs.drop PACKAGE_HEAD_SIZE).take size.toNat), size⟩
        (xs.drop (packageEnd D size))
    else .more

theorem sizeField_bounds (b : Block) : -(2 ^ 31) ≤ sizeField b ∧ sizeField b < 2 ^ 31 :=
  toInt32_bounds (word32_lt _ _ _ _)

theorem sizeField_congr {b c : Block} (h : ∀ i < PACKAGE_HEAD_SIZE, b i = c i) :
    sizeField b = sizeField c := by
  have h₂ := h 2 (by decide)
  have h₃ := h 3 (by decide)
  have h₄ := h 4 (by decide)
  have h₅ := h 5 (by decide)
  rw [sizeField, sizeField, h₂, h₃, h₄, h₅]

theorem blockOf_append {xs ys : List Byte} {i : Nat} (h : i < xs.length) :
    blockOf (xs ++ ys) i = blockOf xs i := by
  rw [blockOf, blockOf, List.getD_append _ _ _ _ h]

/-- The payload of a package lies inside it. -/
theorem payload_le {D : DataModel} {size : Int} (hhi : size < 2 ^ 31) {n : Nat}
    (h : packageEnd D size ≤ n) : size ≤ 0 ∨ PACKAGE_HEAD_SIZE + size.toNat ≤ n := by
  rcases le_or_gt size 0 with hle | hgt
  · exact .inl hle
  · rw [packageEnd_of_nonneg hgt.le hhi] at h
    exact .inr h

theorem nextPackage_append (D : DataModel) {xs : List Byte} {c : OnMsgCall} {rest : List Byte}
    (ys : List Byte) (h : nextPackage D xs = .frame c rest) :
    nextPackage D (xs ++ ys) = .frame c (rest ++ ys) := by
  unfold nextPackage at h ⊢
  by_cases hlen : xs.length < PACKAGE_HEAD_SIZE
  · simp [hlen] at h
  have hhead : ∀ i < PACKAGE_HEAD_SIZE, blockOf (xs ++ ys) i = blockOf xs i := fun i hi =>
    blockOf_append (Nat.lt_of_lt_of_le hi (Nat.le_of_not_lt hlen))
  have hsize : sizeField (blockOf (xs ++ ys)) = sizeField (blockOf xs) := sizeField_congr hhead
  have hlen' : ¬ (xs ++ ys).length < PACKAGE_HEAD_SIZE := by
    rw [List.length_append]
    omega
  rw [if_neg hlen] at h
  rw [if_neg hlen', hsize, hhead 0 (by decide), hhead 1 (by decide)]
  by_cases hmagic : blockOf xs 0 ≠ 0x75 ∨ blockOf xs 1 ≠ 0x76
  · simp [hmagic] at h
  by_cases hend : packageEnd D (sizeField (blockOf xs)) ≤ xs.length
  · have hend' : packageEnd D (sizeField (blockOf xs)) ≤ (xs ++ ys).length :=
      hend.trans (by simp)
    simp only [hmagic, hend, if_true, if_false] at h
    simp only [hmagic, hend', if_true, if_false]
    obtain ⟨rfl, rfl⟩ := Verdict.frame.inj h
    rw [List.drop_append_of_le_length hend,
      List.drop_append_of_le_length (Nat.le_of_not_lt hlen)]
    congr 2
    rcases payload_le (sizeField_bounds (blockOf xs)).2 hend with hle | hle
    · rw [Int.toNat_of_nonpos hle]
      rfl
    · rw [List.take_append_of_le_length (by rw [List.length_drop]; omega)]
  · simp [hmagic, hend] at h

/-- The framing rule of `BufferReader`. -/
def packageFraming (D : DataModel) : Framing Byte OnMsgCall where
  next := nextPackage D
  next_nil := rfl
  next_append := nextPackage_append D

/-! ### One evaluation of the loop -/

variable {D : DataModel} {r : BufferReader}

theorem blockOf_received {i : Nat} (h : i < r.m_index) :
    blockOf r.received i = r.m_msg_buffer i := by
  rw [blockOf, received, span_getD h, Nat.zero_add]

/-- The header seen by the rule is the one in the block. -/
theorem header_received (h : ¬ r.m_index < PACKAGE_HEAD_SIZE) :
    blockOf r.received 0 = r.m_msg_buffer 0 ∧ blockOf r.received 1 = r.m_msg_buffer 1 ∧
      sizeField (blockOf r.received) = sizeField r.m_msg_buffer := by
  have hlt : ∀ i < PACKAGE_HEAD_SIZE, i < r.m_index := fun i hi =>
    Nat.lt_of_lt_of_le hi (Nat.le_of_not_lt h)
  exact ⟨blockOf_received (hlt 0 (by decide)), blockOf_received (hlt 1 (by decide)),
    sizeField_congr fun i hi => blockOf_received (hlt i hi)⟩

/-- The rule on the bytes received, read off the fields of the reader. -/
theorem nextPackage_received (D : DataModel) (r : BufferReader) :
    nextPackage D r.received =
      if r.m_index < PACKAGE_HEAD_SIZE then .more
      else if r.m_msg_buffer 0 ≠ 0x75 ∨ r.m_msg_buffer 1 ≠ 0x76 then .bad
      else if packageEnd D (sizeField r.m_msg_buffer) ≤ r.m_index then
        .frame ⟨some (span r.m_msg_buffer PACKAGE_HEAD_SIZE (sizeField r.m_msg_buffer).toNat),
          sizeField r.m_msg_buffer⟩ (r.received.drop (packageEnd D (sizeField r.m_msg_buffer)))
      else .more := by
  unfold nextPackage
  rw [received_length]
  by_cases hlen : r.m_index < PACKAGE_HEAD_SIZE
  · rw [if_pos hlen, if_pos hlen]
  obtain ⟨h₀, h₁, hsize⟩ := header_received hlen
  rw [if_neg hlen, if_neg hlen]
  simp only [h₀, h₁, hsize]
  by_cases hend : packageEnd D (sizeField r.m_msg_buffer) ≤ r.m_index
  · have hpay : (r.received.drop PACKAGE_HEAD_SIZE).take (sizeField r.m_msg_buffer).toNat =
        span r.m_msg_buffer PACKAGE_HEAD_SIZE (sizeField r.m_msg_buffer).toNat := by
      rcases payload_le (sizeField_bounds r.m_msg_buffer).2 hend with hle | hle
      · rw [Int.toNat_of_nonpos hle]
        rfl
      · rw [received, span_drop, Nat.zero_add, span_take (by omega)]
    rw [hpay]
  · simp only [hend, if_false]

/-- Where the rule waits, the loop stops and nothing is called. -/
theorem pass_of_more (h : nextPackage D r.received = .more) :
    pass D r = .exit ∨ pass D r = .stop none r.readSize := by
  rw [nextPackage_received] at h
  unfold BufferReader.pass
  by_cases hlen : r.m_index < PACKAGE_HEAD_SIZE
  · exact .inl (if_pos hlen)
  rw [if_neg hlen] at h ⊢
  by_cases hmagic : r.m_msg_buffer 0 ≠ 0x75 ∨ r.m_msg_buffer 1 ≠ 0x76
  · simp [hmagic] at h
  by_cases hend : packageEnd D (sizeField r.m_msg_buffer) ≤ r.m_index
  · simp [hmagic, hend] at h
  · simp only [readSize_m_msg_buffer, readSize_m_current_msg_size, readSize_m_index, hmagic, hend,
      if_false]
    exact .inr trivial

/-- Where the rule refuses, the loop reports it and stops. -/
theorem pass_of_bad (h : nextPackage D r.received = .bad) :
    pass D r = .stop (some .unpackageError) r.readSize := by
  rw [nextPackage_received] at h
  unfold BufferReader.pass
  by_cases hlen : r.m_index < PACKAGE_HEAD_SIZE
  · simp [hlen] at h
  rw [if_neg hlen] at h ⊢
  by_cases hmagic : r.m_msg_buffer 0 ≠ 0x75 ∨ r.m_msg_buffer 1 ≠ 0x76
  · simp only [readSize_m_msg_buffer, hmagic, if_true]
  · rw [if_neg hmagic] at h
    split at h <;> cases h

/-- Where the rule finds a package, the loop hands it over, consumes it and
goes round again. -/
theorem pass_of_frame {c : OnMsgCall} {rest : List Byte}
    (h : nextPackage D r.received = .frame c rest) :
    ∃ r', pass D r = .next c r' ∧ r'.received = rest ∧
      r'.m_buffer_size = r.m_buffer_size := by
  rw [nextPackage_received] at h
  unfold BufferReader.pass
  by_cases hlen : r.m_index < PACKAGE_HEAD_SIZE
  · simp [hlen] at h
  rw [if_neg hlen] at h ⊢
  by_cases hmagic : r.m_msg_buffer 0 ≠ 0x75 ∨ r.m_msg_buffer 1 ≠ 0x76
  · simp [hmagic] at h
  rw [if_neg hmagic] at h
  by_cases hend : packageEnd D (sizeField r.m_msg_buffer) ≤ r.m_index
  · rw [if_pos hend] at h
    obtain ⟨rfl, rfl⟩ := Verdict.frame.inj h
    refine ⟨r.readSize.compact (packageEnd D (sizeField r.m_msg_buffer)), ?_,
      compact_received _ _, rfl⟩
    simp only [readSize_m_msg_buffer, readSize_m_current_msg_size, readSize_m_index, hmagic, hend,
      if_true, if_false]
  · rw [if_neg hend] at h
    cases h

/-! ### The loop drains -/

/-- The loop on bytes that drain: the calls made are the packages drained,
and a final report where the rule refuses what is left. -/
theorem loop_of_drains {xs tail : List Byte} {calls : List OnMsgCall}
    (h : (packageFraming D).Drains xs calls tail) (hr : r.received = xs) :
    ∃ fuel r', r'.received = tail ∧ r'.m_buffer_size = r.m_buffer_size ∧
      (nextPackage D tail = .more → loop D fuel r = some (calls, r')) ∧
      (nextPackage D tail = .bad → loop D fuel r = some (calls ++ [.unpackageError], r')) := by
  induction h generalizing r with
  | stop hstop =>
      subst hr
      rcases hn : nextPackage D r.received with - | - | ⟨c, rest⟩
      · rcases pass_of_more hn with hp | hp
        · exact ⟨1, r, rfl, rfl, fun _ => by rw [loop, hp], by simp⟩
        · exact ⟨1, r.readSize, rfl, rfl, fun _ => by rw [loop, hp]; rfl, by simp⟩
      · have hp := pass_of_bad hn
        exact ⟨1, r.readSize, rfl, rfl, by simp, fun _ => by rw [loop, hp]; rfl⟩
      · exact absurd hn (hstop c rest)
  | frame hf _ ih =>
      subst hr
      obtain ⟨r₁, hp, hrec, hsize⟩ := pass_of_frame hf
      obtain ⟨fuel, r', hrec', hsize', hmore, hbad⟩ := ih hrec
      refine ⟨fuel + 1, r', hrec', hsize'.trans hsize, ?_, ?_⟩
      · intro ht
        rw [loop, hp]
        simp only [hmore ht, Option.map_some]
      · intro ht
        rw [loop, hp]
        simp only [hbad ht, Option.map_some, List.cons_append]

/-- More fuel does not change a result. -/
theorem loop_mono {fuel fuel' : Nat} (hle : fuel ≤ fuel') {out : List OnMsgCall × BufferReader}
    (h : loop D fuel r = some out) : loop D fuel' r = some out := by
  induction fuel generalizing r fuel' out with
  | zero => cases h
  | succ fuel ih =>
      obtain ⟨fuel', rfl⟩ : ∃ k, fuel' = k + 1 := ⟨fuel' - 1, by omega⟩
      unfold loop at h ⊢
      rcases hp : pass D r with - | ⟨c, r'⟩ | ⟨c, r'⟩
      · rw [hp] at h
        exact h
      · rw [hp] at h
        exact h
      · rw [hp] at h
        obtain ⟨p, hl, rfl⟩ := Option.map_eq_some_iff.mp h
        simp only [ih (Nat.le_of_succ_le_succ hle) hl, Option.map_some]

theorem SetBuffer_mono {fuel fuel' : Nat} (hle : fuel ≤ fuel') {msg : List Byte}
    {out : List OnMsgCall × BufferReader} (h : SetBuffer D fuel r msg = some out) :
    SetBuffer D fuel' r msg = some out := by
  unfold SetBuffer at h ⊢
  rcases hr : r.receive msg with - | r'
  · rw [hr] at h
    cases h
  · rw [hr] at h
    exact loop_mono hle h

theorem feed_mono {fuel fuel' : Nat} (hle : fuel ≤ fuel') {chunks : List (List Byte)}
    {out : List OnMsgCall × BufferReader} (h : feed D fuel r chunks = some out) :
    feed D fuel' r chunks = some out := by
  induction chunks generalizing r out with
  | nil => exact h
  | cons chunk chunks ih =>
      unfold feed at h ⊢
      rcases hs : SetBuffer D fuel r chunk with - | ⟨calls, r'⟩
      · rw [hs] at h
        cases h
      · rw [hs] at h
        obtain ⟨p, hf, rfl⟩ := Option.map_eq_some_iff.mp h
        simp only [SetBuffer_mono hle hs, ih hf, Option.map_some]

/-! ### The encodings of `Msg2Package` -/

theorem Msg2Package_header (msg ys : List Byte) :
    blockOf (Msg2Package msg ++ ys) 0 = 0x75 ∧ blockOf (Msg2Package msg ++ ys) 1 = 0x76 ∧
      sizeField (blockOf (Msg2Package msg ++ ys)) = toInt32 (msg.length % 2 ^ 32) := by
  refine ⟨rfl, rfl, ?_⟩
  rw [← word32_wordByte]
  rfl

/-- The rule reads a package back, whatever follows it. -/
theorem nextPackage_Msg2Package (D : DataModel) {msg : List Byte} (h : msg.length < 2 ^ 31)
    (ys : List Byte) :
    nextPackage D (Msg2Package msg ++ ys) = .frame (.deliver msg) ys := by
  obtain ⟨h₀, h₁, hsize⟩ := Msg2Package_header msg ys
  have hsize' : sizeField (blockOf (Msg2Package msg ++ ys)) = msg.length := by
    rw [hsize, Nat.mod_eq_of_lt (by omega), toInt32_of_lt h]
  have hend : packageEnd D (msg.length : Int) = PACKAGE_HEAD_SIZE + msg.length := by
    rw [packageEnd_of_nonneg (by omega) (by omega), Int.toNat_natCast]
  have hlen : (Msg2Package msg ++ ys).length = PACKAGE_HEAD_SIZE + msg.length + ys.length := by
    rw [List.length_append, Msg2Package_length]
  unfold nextPackage
  rw [if_neg (by omega)]
  simp only [hsize', h₀, h₁, hend, ne_eq, not_true_eq_false, or_self, if_false]
  rw [if_pos (by omega), Int.toNat_natCast]
  have hdrop : (Msg2Package msg ++ ys).drop PACKAGE_HEAD_SIZE = msg ++ ys := rfl
  rw [hdrop, ← List.drop_drop, hdrop, List.take_left, List.drop_left]
  rfl

/-- On a strict prefix of a package the rule waits. -/
theorem nextPackage_prefix (D : DataModel) {msg xs zs : List Byte} (h : msg.length < 2 ^ 31)
    (hne : zs ≠ []) (he : Msg2Package msg = xs ++ zs) : nextPackage D xs = .more := by
  have hpos : 0 < zs.length := List.length_pos_iff.mpr hne
  have hlen : xs.length + zs.length = PACKAGE_HEAD_SIZE + msg.length := by
    rw [← Msg2Package_length, he, List.length_append]
  unfold nextPackage
  by_cases hshort : xs.length < PACKAGE_HEAD_SIZE
  · exact if_pos hshort
  have hhead : ∀ i < PACKAGE_HEAD_SIZE, blockOf xs i = blockOf (Msg2Package msg ++ []) i := by
    intro i hi
    rw [List.append_nil, he, blockOf_append (by omega)]
  obtain ⟨h₀, h₁, hsize⟩ := Msg2Package_header msg []
  have hsize' : sizeField (blockOf xs) = msg.length := by
    rw [sizeField_congr hhead, hsize, Nat.mod_eq_of_lt (by omega), toInt32_of_lt h]
  have hend : packageEnd D (msg.length : Int) = PACKAGE_HEAD_SIZE + msg.length := by
    rw [packageEnd_of_nonneg (by omega) (by omega), Int.toNat_natCast]
  rw [if_neg hshort]
  simp only [hsize', hhead 0 (by decide), hhead 1 (by decide), h₀, h₁, hend, ne_eq,
    not_true_eq_false, or_self, if_false]
  exact if_neg (by omega)

/-- **The rule decodes `Msg2Package`.** -/
theorem package_decodes (D : DataModel) :
    (packageFraming D).Decodes Msg2Package .deliver fun msg => msg.length < 2 ^ 31 where
  next_enc ys h := nextPackage_Msg2Package D h ys
  next_prefix h hne he := nextPackage_prefix D h hne he

/-- **One evaluation of the loop on a stream of packages.**  Either the reader
keeps what it holds and waits, or it delivers the first message and goes
on. -/
theorem pass_of_stream {msgs : List (List Byte)} (hlen : ∀ m ∈ msgs, m.length < 2 ^ 31)
    {zs : List Byte} (h : r.received ++ zs = msgs.flatMap Msg2Package) :
    ((pass D r = .exit ∨ pass D r = .stop none r.readSize) ∧ nextPackage D r.received = .more) ∨
      ∃ m ms r', msgs = m :: ms ∧ pass D r = .next (.deliver m) r' ∧
        r'.received ++ zs = ms.flatMap Msg2Package ∧ r'.m_buffer_size = r.m_buffer_size := by
  rcases (package_decodes D).next_of_append hlen h with
    ⟨hmore, -⟩ | ⟨m, ms, rest, rfl, hf, -, hrest⟩
  · exact Or.inl ⟨pass_of_more hmore, hmore⟩
  · obtain ⟨r', hp, rfl, hsize⟩ := pass_of_frame hf
    exact Or.inr ⟨m, ms, r', rfl, hp, hrest, hsize⟩

/-! ### Room for the next chunk -/

/-- The largest read libuv asks a buffer for. -/
def READ_SIZE : Nat := 65536

/-- The block has doubled from 2^20 to at most 2^30 bytes. -/
def Roomy (r : BufferReader) : Prop := ∃ k, 20 ≤ k ∧ k ≤ 30 ∧ r.m_buffer_size = 2 ^ k

theorem roomy_new : Roomy .new := ⟨20, by decide, by decide, rfl⟩

/-- One doubling is room enough for one read, as long as 2^30 bytes hold what
is kept and what arrives. -/
theorem receive_roomy (msg : List Byte) (h : Roomy r) (hlen : msg.length ≤ READ_SIZE)
    (hsum : r.m_index + msg.length ≤ 2 ^ 30) :
    ∃ r', r.receive msg = some r' ∧ Roomy r' := by
  obtain ⟨k, hlo, hhi, hk⟩ := h
  have hidx := r.index_le
  have hmax : 2 ^ 30 ≤ INT_MAX := by decide
  have hbase : 2 ^ 20 ≤ r.m_buffer_size := hk ▸ Nat.pow_le_pow_right (by decide) hlo
  have hread : READ_SIZE ≤ 2 ^ 20 := by decide
  unfold receive CheckBufferLength
  rw [if_pos (hsum.trans hmax)]
  by_cases hgrow : r.m_index + msg.length > r.m_buffer_size
  · -- the block doubles: it was smaller than 2^30
    have hlt : k < 30 := (Nat.pow_lt_pow_iff_right (by decide)).mp (hk ▸ hgrow.trans_le hsum)
    have hdouble : r.m_buffer_size * 2 = 2 ^ (k + 1) := by rw [hk, pow_succ]
    have hle : 2 ^ (k + 1) ≤ 2 ^ 30 := Nat.pow_le_pow_right (by decide) hlt
    simp only [if_pos hgrow, dif_pos (show r.m_buffer_size * 2 ≤ INT_MAX by omega)]
    rw [dif_pos (by omega)]
    exact ⟨_, rfl, k + 1, by omega, by omega, hdouble⟩
  · simp only [if_neg hgrow]
    rw [dif_pos (by omega)]
    exact ⟨_, rfl, k, hlo, hhi, hk⟩

/-! ### The round trip -/

/-- The messages a package can carry while the block stays within 2^30 bytes. -/
def Fits (msg : List Byte) : Prop := msg.length + PACKAGE_HEAD_SIZE + READ_SIZE ≤ 2 ^ 30

theorem Fits.lt {msg : List Byte} (h : Fits msg) : msg.length < 2 ^ 31 := by
  unfold Fits READ_SIZE at h
  omega

/-- From a reader that holds a strict prefix of the next package: the chunks
that complete the packages of `left` deliver the messages of `left`. -/
theorem feed_left (D : DataModel) {chunks : List (List Byte)} {left : List (List Byte)}
    (hfits : ∀ m ∈ left, Fits m) (hchunks : ∀ c ∈ chunks, c.length ≤ READ_SIZE)
    (hroom : Roomy r) (hcut : r.received ++ chunks.flatten = left.flatMap Msg2Package)
    (hnil : left = [] → r.received = [])
    (hlen : ∀ m ms, left = m :: ms → r.received.length < (Msg2Package m).length) :
    ∃ fuel r', feed D fuel r chunks = some (left.map .deliver, r') ∧ r'.m_index = 0 := by
  induction chunks generalizing r left with
  | nil =>
      rw [List.flatten_nil, List.append_nil] at hcut
      rcases left with - | ⟨m, ms⟩
      · have h0 := congrArg List.length (hnil rfl)
        exact ⟨0, r, rfl, by simpa using h0⟩
      · have := hlen m ms rfl
        rw [hcut, List.flatMap_cons, List.length_append] at this
        omega
  | cons c chunks ih =>
      have hc : c.length ≤ READ_SIZE := hchunks c (by simp)
      have hsum : r.m_index + c.length ≤ 2 ^ 30 := by
        rcases left with - | ⟨m, ms⟩
        · have h0 := congrArg List.length (hnil rfl)
          rw [received_length, List.length_nil] at h0
          unfold READ_SIZE at hc
          omega
        · have h := hlen m ms rfl
          have hf : Fits m := hfits m (by simp)
          rw [received_length, Msg2Package_length] at h
          unfold Fits at hf
          omega
      obtain ⟨r₁, hrecv, hroom₁⟩ := receive_roomy c hroom hc hsum
      have hrec₁ := receive_received hrecv
      have hcut₁ : r₁.received ++ chunks.flatten = left.flatMap Msg2Package := by
        rw [hrec₁, List.append_assoc, ← List.flatten_cons, hcut]
      obtain ⟨done, left', tail, rfl, hdrain, htail, hmore, hnil', hlen'⟩ :=
        (package_decodes D).drains_of_append (fun m hm => (hfits m hm).lt) hcut₁
      obtain ⟨fuel₁, r₂, hrec₂, hsize₂, hloop, -⟩ := loop_of_drains hdrain rfl
      obtain ⟨k, hlo, hhi, hk⟩ := hroom₁
      have hfits' : ∀ m ∈ left', Fits m := fun m hm => hfits m (by simp [hm])
      obtain ⟨fuel₂, r', hfeed, hidx⟩ := ih hfits' (fun c hc => hchunks c (by simp [hc]))
        ⟨k, hlo, hhi, hsize₂.trans hk⟩ (by rw [hrec₂, htail]) (fun h => by rw [hrec₂, hnil' h])
        (fun m ms h => by rw [hrec₂]; exact hlen' m ms h)
      refine ⟨max fuel₁ fuel₂, r', ?_, hidx⟩
      have hset : SetBuffer D fuel₁ r c = some (done.map .deliver, r₂) := by
        unfold SetBuffer
        rw [hrecv]
        exact hloop hmore
      unfold feed
      simp only [SetBuffer_mono (Nat.le_max_left _ _) hset, feed_mono (Nat.le_max_right _ _) hfeed,
        Option.map_some, List.map_append]

/-- **Framing round trip.**  Whatever way the concatenated packages of a list
of messages are cut into reads, a fresh reader calls back once for each
message, with exactly its bytes and its size, in order and for nothing else,
and is left empty. -/
theorem feed_packages (D : DataModel) (msgs chunks : List (List Byte))
    (hfits : ∀ m ∈ msgs, m.length + PACKAGE_HEAD_SIZE + 65536 ≤ 2 ^ 30)
    (hchunks : ∀ c ∈ chunks, c.length ≤ 65536)
    (hcut : chunks.flatten = msgs.flatMap Msg2Package) :
    ∃ fuel r', feed D fuel .new chunks = some (msgs.map .deliver, r') ∧ r'.m_index = 0 := by
  refine feed_left D hfits hchunks roomy_new ?_ (fun _ => received_new) ?_
  · rw [received_new, List.nil_append, hcut]
  · intro m ms _
    rw [received_new, Msg2Package_length, List.length_nil]
    unfold PACKAGE_HEAD_SIZE
    omega

/-- Two messages, cut inside the first magic, inside the first length and
across the two packages. -/
theorem feed_packages_two :
    ∃ fuel r', feed .lp64 fuel .new
      [[0x75], [0x76, 0, 0], [0, 1, 0x61, 0x75, 0x76, 0, 0, 0, 2, 0x62], [0x63]] =
        some ([.deliver [0x61], .deliver [0x62, 0x63]], r') ∧ r'.m_index = 0 :=
  feed_packages .lp64 [[0x61], [0x62, 0x63]] _ (by decide) (by decide) (by decide)

end TestExamples
