/-
TestExamples/LibUvHelperStreams.lean

The reader of LibUvHelper.h on streams that need not be well framed.

`Front` says what the stream holds: the longest run of complete packages at
its front, and a tail.  The reader delivers that run, whatever way the stream
is cut.  When the tail cannot begin a package (`Garbage`) it reports this once
in the chunk that shows it and once in each later chunk, and it keeps all that
arrives: nothing resets it, so its block doubles until `m_buffer_size * 2` is
no `int` any more.  That happens exactly when the tail exceeds 2^30 bytes, and
is the one way in which the reader fails (`parsed_iff`).
-/
import TestExamples.LibUvHelperSpans

namespace TestExamples

open BufferReader

/-! ### The stream -/

/-- The longest run of complete packages at the front of `xs`: the packages of
`msgs`, with `tail` behind them. -/
structure Front (xs : List Byte) (msgs : List (List Byte)) (tail : List Byte) : Prop where
  eq : xs = msgs.flatMap Msg2Package ++ tail
  lt : ∀ m ∈ msgs, m.length < 2 ^ 32
  stop : ∀ m ys, m.length < 2 ^ 32 → tail ≠ Msg2Package m ++ ys

/-- Each header reached by taking packages off the front has a size of at most
2^29. -/
def SmallHeaders (xs : List Byte) : Prop :=
  ∀ (msgs : List (List Byte)) ys, xs = msgs.flatMap Msg2Package ++ ys →
    (∀ m ∈ msgs, m.length < 2 ^ 32) → IsHeader ys → headerSize ys ≤ 2 ^ 29

/-- Six bytes of the tail are there and the first two are not the magic. -/
def Garbage (tail : List Byte) : Prop :=
  PACKAGE_HEAD_SIZE ≤ tail.length ∧ ¬ (blockOf tail 0 = 0x75 ∧ blockOf tail 1 = 0x76)

instance (tail : List Byte) : Decidable (Garbage tail) :=
  inferInstanceAs (Decidable (_ ∧ _))

/-! ### What the reader should make of it -/

/-- The calls made on the chunks of a stream, chunk by chunk. -/
structure Parsed (callss : List (List OnMsgCall)) (msgs : List (List Byte)) (tail : List Byte) :
    Prop where
  /-- the payloads delivered are the messages, in order -/
  payloads : callss.flatten.filter (·.msg.isSome) = msgs.map .deliver
  /-- a null pointer comes with the size -1 -/
  nullptr : ∀ c ∈ callss.flatten, c.msg = none → c = .unpackageError
  /-- one is passed if and only if the tail is garbage -/
  error : (∃ c ∈ callss.flatten, c.msg = none) ↔ Garbage tail
  /-- and from then on once for each chunk, and nothing else -/
  after : ∀ pre calls post, callss = pre ++ calls :: post →
    (∃ c ∈ pre.flatten, c.msg = none) → calls = [.unpackageError]

/-- `SetBuffer` on one chunk after another, the calls of each chunk apart. -/
def feedEach (D : DataModel) (fuel : Nat) :
    BufferReader → List (List Byte) → Option (List (List OnMsgCall) × BufferReader)
  | r, [] => some ([], r)
  | r, chunk :: chunks =>
      match SetBuffer D fuel r chunk with
      | some (calls, r') => (feedEach D fuel r' chunks).map fun p => (calls :: p.1, p.2)
      | none => none

variable {D : DataModel} {r r' : BufferReader} {xs zs chunk tail : List Byte}
  {msgs : List (List Byte)}

/-- `feed` forgets which chunk a call belongs to. -/
theorem feed_eq_feedEach (fuel : Nat) (chunks : List (List Byte)) :
    feed D fuel r chunks = (feedEach D fuel r chunks).map fun p => (p.1.flatten, p.2) := by
  induction chunks generalizing r with
  | nil => rfl
  | cons chunk chunks ih =>
      unfold feed feedEach
      rcases SetBuffer D fuel r chunk with - | ⟨calls, r'⟩
      · rfl
      · simp only [ih, Option.map_map]
        rfl

theorem feedEach_mono {fuel fuel' : Nat} (hle : fuel ≤ fuel') {chunks : List (List Byte)}
    {out : List (List OnMsgCall) × BufferReader} (h : feedEach D fuel r chunks = some out) :
    feedEach D fuel' r chunks = some out := by
  induction chunks generalizing r out with
  | nil => exact h
  | cons chunk chunks ih =>
      unfold feedEach at h ⊢
      rcases hs : SetBuffer D fuel r chunk with - | ⟨calls, r'⟩
      · rw [hs] at h
        cases h
      · rw [hs] at h
        obtain ⟨p, hf, rfl⟩ := Option.map_eq_some_iff.mp h
        simp only [SetBuffer_mono hle hs, ih hf, Option.map_some]

/-! ### The rule on such a stream -/

theorem nextPackage_bad_iff : nextPackage D xs = .bad ↔ Garbage xs := by
  unfold nextPackage Garbage
  by_cases hshort : xs.length < PACKAGE_HEAD_SIZE
  · rw [if_pos hshort]
    exact iff_of_false nofun fun h => absurd hshort (Nat.not_lt.mpr h.1)
  rw [if_neg hshort]
  by_cases hmagic : blockOf xs 0 ≠ 0x75 ∨ blockOf xs 1 ≠ 0x76
  · simp only [hmagic, if_true]
    exact iff_of_true trivial ⟨Nat.le_of_not_lt hshort, not_and_or.mpr hmagic⟩
  · simp only [hmagic, if_false]
    refine iff_of_false ?_ fun h => hmagic (not_and_or.mp h.2)
    split <;> nofun

theorem Garbage.append (h : Garbage xs) (ys : List Byte) : Garbage (xs ++ ys) := by
  obtain ⟨hlen, hmagic⟩ := h
  have hsix : PACKAGE_HEAD_SIZE = 6 := rfl
  refine ⟨?_, ?_⟩
  · rw [List.length_append]
    omega
  · rwa [blockOf_append (by omega), blockOf_append (by omega)]

theorem IsHeader.append (h : IsHeader xs) (ys : List Byte) :
    IsHeader (xs ++ ys) ∧ headerSize (xs ++ ys) = headerSize xs := by
  obtain ⟨hlen, hu, hv⟩ := h
  have hsix : PACKAGE_HEAD_SIZE = 6 := rfl
  have hbyte : ∀ i < 6, blockOf (xs ++ ys) i = blockOf xs i := fun i hi =>
    blockOf_append (by omega)
  refine ⟨⟨?_, (hbyte 0 (by decide)).trans hu, (hbyte 1 (by decide)).trans hv⟩, ?_⟩
  · rw [List.length_append]
    omega
  · unfold headerSize
    rw [hbyte 2 (by decide), hbyte 3 (by decide), hbyte 4 (by decide), hbyte 5 (by decide)]

theorem SmallHeaders.behind (h : SmallHeaders (msgs.flatMap Msg2Package ++ xs))
    (hlt : ∀ m ∈ msgs, m.length < 2 ^ 32) : SmallHeaders xs := by
  intro msgs' ys hxs hlt' hhead
  refine h (msgs ++ msgs') ys ?_ (fun m hm => ?_) hhead
  · rw [hxs, List.flatMap_append, List.append_assoc]
  · exact (List.mem_append.mp hm).elim (hlt m) (hlt' m)

/-- The packages of the run are small. -/
theorem Front.small (h : Front xs msgs tail) (hs : SmallHeaders xs) :
    ∀ m ∈ msgs, m.length ≤ 2 ^ 29 := by
  intro m hm
  obtain ⟨pre, post, rfl⟩ := List.append_of_mem hm
  have hlt := h.lt m hm
  have hsize := hs pre (Msg2Package m ++ (post.flatMap Msg2Package ++ tail)) ?_
    (fun m hm => h.lt m (List.mem_append_left _ hm)) (isHeader_Msg2Package m _)
  · rwa [headerSize_Msg2Package hlt] at hsize
  · rw [h.eq, List.flatMap_append, List.flatMap_cons, List.append_assoc, List.append_assoc]

/-- A small header is followed by its package, or there is too little of it. -/
theorem IsHeader.nextPackage (h : IsHeader xs) (hsize : headerSize xs ≤ 2 ^ 29) :
    (nextPackage D xs = .more ∧ xs.length < PACKAGE_HEAD_SIZE + headerSize xs) ∨
      ∃ m ys, m.length < 2 ^ 32 ∧ xs = Msg2Package m ++ ys := by
  by_cases hlen : PACKAGE_HEAD_SIZE + headerSize xs ≤ xs.length
  · refine .inr ⟨_, _, ?_, h.eq_package hlen⟩
    rw [List.length_take]
    omega
  · refine .inl ⟨?_, Nat.lt_of_not_le hlen⟩
    obtain ⟨hsix, hu, hv⟩ := h
    have hfield : sizeField (blockOf xs) = headerSize xs := toInt32_of_lt (by
      show headerSize xs < 2 ^ 31
      omega)
    have hend : packageEnd D (sizeField (blockOf xs)) = PACKAGE_HEAD_SIZE + headerSize xs := by
      rw [hfield, packageEnd_of_nonneg (by omega) (by omega), Int.toNat_natCast]
    unfold TestExamples.nextPackage
    rw [if_neg (Nat.not_lt.mpr hsix), hu, hv]
    simp only [ne_eq, not_true_eq_false, or_self, if_false]
    rw [hend]
    exact if_neg hlen

theorem Msg2Package_append_inj {m m' ys ys' : List Byte} (hm : m.length < 2 ^ 32)
    (hm' : m'.length < 2 ^ 32) (h : Msg2Package m ++ ys = Msg2Package m' ++ ys') :
    m = m' ∧ ys = ys' := by
  have hlen : m.length = m'.length := by
    rw [← headerSize_Msg2Package hm ys, h, headerSize_Msg2Package hm']
  have hboth := List.append_inj h (by rw [Msg2Package_length, Msg2Package_length, hlen])
  refine ⟨?_, hboth.2⟩
  have hpay := congrArg (List.drop PACKAGE_HEAD_SIZE) hboth.1
  exact hpay

/-- A run of small packages and a tail that begins with no large header. -/
theorem Front.smallHeaders (h : Front xs msgs tail) (hmsgs : ∀ m ∈ msgs, m.length ≤ 2 ^ 29)
    (htail : IsHeader tail → headerSize tail ≤ 2 ^ 29) : SmallHeaders xs := by
  induction msgs generalizing xs with
  | nil =>
      rintro (- | ⟨m, ms⟩) ys hxs hlt hhead
      · obtain rfl : tail = ys := h.eq.symm.trans hxs
        exact htail hhead
      · refine absurd ?_ (h.stop m (ms.flatMap Msg2Package ++ ys) (hlt m (List.mem_cons_self ..)))
        rw [← List.append_assoc, ← List.flatMap_cons, ← hxs, h.eq]
        rfl
  | cons m ms ih =>
      have heq := h.eq
      rw [List.flatMap_cons, List.append_assoc] at heq
      have hm := h.lt m (List.mem_cons_self ..)
      rintro (- | ⟨m', ms'⟩) ys hxs hlt hhead
      · obtain rfl : xs = ys := hxs
        rw [heq, headerSize_Msg2Package hm]
        exact hmsgs m (List.mem_cons_self ..)
      · rw [List.flatMap_cons, List.append_assoc, heq] at hxs
        obtain ⟨-, hrest⟩ := Msg2Package_append_inj hm (hlt m' (List.mem_cons_self ..)) hxs
        exact ih ⟨rfl, fun m hm => h.lt m (List.mem_cons_of_mem _ hm), h.stop⟩
          (fun m hm => hmsgs m (List.mem_cons_of_mem _ hm)) ms' ys hrest
          (fun m hm => hlt m (List.mem_cons_of_mem _ hm)) hhead

/-- A tail that does not begin with the magic is one. -/
theorem front_of_garbage (hlt : ∀ m ∈ msgs, m.length < 2 ^ 32) (hg : Garbage tail) :
    Front (msgs.flatMap Msg2Package ++ tail) msgs tail := by
  refine ⟨rfl, hlt, ?_⟩
  rintro m ys - rfl
  exact hg.2 ⟨rfl, rfl⟩

/-- In front of the tail the rule finds nothing. -/
theorem Front.next_tail (h : Front xs msgs tail) (hs : SmallHeaders xs) :
    ∀ c rest, nextPackage D tail ≠ .frame c rest := by
  intro c rest hf
  have hsmall : SmallHeaders tail := by
    rw [h.eq] at hs
    exact hs.behind h.lt
  by_cases hhead : IsHeader tail
  · have hsize := hsmall [] tail rfl (by simp) hhead
    rcases @IsHeader.nextPackage D _ hhead hsize with ⟨hmore, -⟩ | ⟨m, ys, hm, he⟩
    · rw [hmore] at hf
      cases hf
    · exact h.stop m ys hm he
  · unfold nextPackage at hf
    by_cases hshort : tail.length < PACKAGE_HEAD_SIZE
    · rw [if_pos hshort] at hf
      cases hf
    · rw [if_neg hshort] at hf
      by_cases hmagic : blockOf tail 0 ≠ 0x75 ∨ blockOf tail 1 ≠ 0x76
      · simp [hmagic] at hf
      · rw [not_or, not_not, not_not] at hmagic
        exact hhead ⟨Nat.le_of_not_lt hshort, hmagic⟩

/-! ### One chunk -/

/-- The reader between two chunks, with `zs` still to come. -/
structure Pending (D : DataModel) (r : BufferReader) (zs : List Byte) (msgs : List (List Byte))
    (tail : List Byte) : Prop where
  roomy : Roomy r
  front : Front (r.received ++ zs) msgs tail
  small : SmallHeaders (r.received ++ zs)
  stop : ∀ c rest, nextPackage D r.received ≠ .frame c rest

theorem roomy_of_receive (h : Roomy r) (hr : r.receive chunk = some r') :
    Roomy r' := by
  obtain ⟨k, hlo, hhi, hk⟩ := h
  unfold receive CheckBufferLength at hr
  split at hr
  · split at hr
    · rename_i r₁ hr₁
      have hsize : r'.m_buffer_size = r₁.m_buffer_size := by
        split at hr
        · obtain rfl := Option.some.inj hr
          rfl
        · cases hr
      split at hr₁
      · split at hr₁
        · -- a doubling that is still an `int` ends at 2^30 or below
          rename_i hle
          obtain rfl := Option.some.inj hr₁
          have hdouble : r.m_buffer_size * 2 = 2 ^ (k + 1) := by rw [hk, pow_succ]
          have hlt : 2 ^ (k + 1) < 2 ^ 31 := by
            rw [← hdouble]
            exact Nat.lt_succ_of_le hle
          have hk' := (Nat.pow_lt_pow_iff_right (by decide)).mp hlt
          exact ⟨k + 1, by omega, by omega, hsize.trans hdouble⟩
        · cases hr₁
      · obtain rfl := Option.some.inj hr₁
        exact ⟨k, hlo, hhi, hsize.trans hk⟩
    · cases hr
  · cases hr

namespace Pending

theorem init (h : Front zs msgs tail) (hs : SmallHeaders zs) : Pending D .new zs msgs tail := by
  refine ⟨roomy_new, ?_, ?_, nofun⟩
  · rwa [received_new, List.nil_append]
  · rwa [received_new, List.nil_append]

/-- Once the bytes held are garbage there is no further message, and they are
the front part of the tail. -/
theorem of_garbage (h : Pending D r zs msgs tail) (hg : Garbage r.received) :
    msgs = [] ∧ r.received ++ zs = tail := by
  have hbad := nextPackage_bad_iff (D := D) |>.mpr (hg.append zs)
  have hfront := h.front.eq
  rcases msgs with - | ⟨m, ms⟩
  · exact ⟨rfl, hfront⟩
  · have hm := h.front.small h.small m (List.mem_cons_self ..)
    rw [hfront, List.flatMap_cons, List.append_assoc, nextPackage_Msg2Package D (by omega)] at hbad
    cases hbad

/-- There is room for a chunk while the garbage held fits in 2^30 bytes. -/
theorem room (h : Pending D r (chunk ++ zs) msgs tail) (hlen : chunk.length ≤ READ_SIZE)
    (htail : Garbage tail → tail.length ≤ 2 ^ 30) : r.m_index + chunk.length ≤ 2 ^ 30 := by
  have hread : READ_SIZE = 65536 := rfl
  have hsix : PACKAGE_HEAD_SIZE = 6 := rfl
  rw [← received_length]
  by_cases hshort : r.received.length < PACKAGE_HEAD_SIZE
  · omega
  by_cases hg : Garbage r.received
  · obtain ⟨-, he⟩ := h.of_garbage hg
    have hle := htail (he ▸ hg.append _)
    rw [← he, List.length_append, List.length_append] at hle
    omega
  · -- a header that waits for its payload
    have hhead : IsHeader r.received :=
      ⟨Nat.le_of_not_lt hshort, not_not.mp fun hn => hg ⟨Nat.le_of_not_lt hshort, hn⟩⟩
    obtain ⟨hhead', hsame⟩ := hhead.append (chunk ++ zs)
    have hsize := h.small [] _ (List.nil_append _).symm (by simp) hhead'
    rw [hsame] at hsize
    rcases @IsHeader.nextPackage D _ hhead hsize with ⟨-, hlt⟩ | ⟨m, ys, hm, he⟩
    · omega
    · have hbound : m.length < 2 ^ 31 := by
        rw [he, headerSize_Msg2Package hm] at hsize
        omega
      exact absurd (he ▸ nextPackage_Msg2Package D hbound ys) (h.stop _ _)

/-- **One chunk.**  It completes some of the messages, and is reported when
what is left is garbage. -/
theorem step (h : Pending D r (chunk ++ zs) msgs tail) {r₁ : BufferReader}
    (hr : r.receive chunk = some r₁) :
    ∃ fuel r' done left, msgs = done ++ left ∧ Pending D r' zs left tail ∧
      r.received ++ chunk = done.flatMap Msg2Package ++ r'.received ∧
      SetBuffer D fuel r chunk = some (done.map .deliver ++
        (if Garbage r'.received then [OnMsgCall.unpackageError] else []), r') := by
  have hgood : ∀ m ∈ msgs, m.length < 2 ^ 31 := fun m hm =>
    (h.front.small h.small m hm).trans_lt (by decide)
  have hrec := receive_received hr
  have hcut : r₁.received ++ zs = msgs.flatMap Msg2Package ++ tail := by
    rw [hrec, List.append_assoc]
    exact h.front.eq
  obtain ⟨done, left, mid, rfl, hdrain, hmid, htail⟩ :=
    (package_decodes D).drains_of_tail hgood (h.front.next_tail h.small) hcut
  obtain ⟨fuel, r', hrec', hsize, hmore, hbad⟩ := loop_of_drains hdrain rfl
  subst hrec'
  refine ⟨fuel, r', done, left, rfl, ⟨?_, ⟨htail, ?_, h.front.stop⟩, ?_, hdrain.next_tail⟩, ?_, ?_⟩
  · obtain ⟨k, hlo, hhi, hk⟩ := roomy_of_receive h.roomy hr
    exact ⟨k, hlo, hhi, hsize.trans hk⟩
  · exact fun m hm => h.front.lt m (List.mem_append_right _ hm)
  · have hsmall := h.small
    rw [← List.append_assoc, ← hrec, hmid, List.append_assoc] at hsmall
    exact hsmall.behind fun m hm => h.front.lt m (List.mem_append_left _ hm)
  · rw [← hrec, hmid]
  · unfold SetBuffer
    rw [hr]
    rcases hn : nextPackage D r'.received with - | - | ⟨c, rest⟩
    · have hng : ¬ Garbage r'.received := fun hg => by
        rw [nextPackage_bad_iff.mpr hg] at hn
        cases hn
      rw [if_neg hng, List.append_nil]
      exact hmore hn
    · rw [if_pos (nextPackage_bad_iff.mp hn)]
      exact hbad hn
    · exact absurd hn (hdrain.next_tail c rest)

/-- At the end of the stream the tail is what is held. -/
theorem finished (h : Pending D r [] msgs tail) : msgs = [] ∧ r.received = tail := by
  have hfront := h.front.eq
  rw [List.append_nil] at hfront
  rcases msgs with - | ⟨m, ms⟩
  · exact ⟨rfl, hfront⟩
  · have hm := h.front.small h.small m (List.mem_cons_self ..)
    refine absurd ?_ (h.stop (.deliver m) (ms.flatMap Msg2Package ++ tail))
    rw [hfront, List.flatMap_cons, List.append_assoc]
    exact nextPackage_Msg2Package D (by omega) _

end Pending

/-! ### A run -/

section Parsed

variable {callss : List (List OnMsgCall)} {done left : List (List Byte)}

theorem deliver_msg_ne {c : OnMsgCall} (h : c ∈ done.map OnMsgCall.deliver) : c.msg ≠ none := by
  obtain ⟨m, -, rfl⟩ := List.mem_map.mp h
  nofun

theorem filter_deliver (done : List (List Byte)) :
    (done.map OnMsgCall.deliver).filter (·.msg.isSome) = done.map .deliver := by
  apply List.filter_eq_self.mpr
  intro c hc
  exact Option.isSome_iff_ne_none.mpr (deliver_msg_ne hc)

/-- A chunk that is not reported. -/
theorem Parsed.cons (h : Parsed callss left tail) :
    Parsed (done.map .deliver :: callss) (done ++ left) tail where
  payloads := by
    rw [List.flatten_cons, List.filter_append, filter_deliver, h.payloads, List.map_append]
  nullptr := fun c hc hnone => by
    rw [List.flatten_cons, List.mem_append] at hc
    exact h.nullptr c (hc.resolve_left fun hc => deliver_msg_ne hc hnone) hnone
  error := by
    rw [← h.error]
    constructor
    · rintro ⟨c, hc, hnone⟩
      rw [List.flatten_cons, List.mem_append] at hc
      exact ⟨c, hc.resolve_left fun hc => deliver_msg_ne hc hnone, hnone⟩
    · rintro ⟨c, hc, hnone⟩
      exact ⟨c, List.mem_append_right _ hc, hnone⟩
  after := by
    rintro (- | ⟨x, pre⟩) calls post he ⟨c, hc, hnone⟩
    · cases hc
    · obtain ⟨rfl, he'⟩ := List.cons.inj he
      rw [List.flatten_cons, List.mem_append] at hc
      exact h.after pre calls post he'
        ⟨c, hc.resolve_left fun hc => deliver_msg_ne hc hnone, hnone⟩

/-- The chunk that shows the garbage, and `n` more. -/
theorem Parsed.garbage (h : Garbage tail) (n : Nat) :
    Parsed ((done.map .deliver ++ [.unpackageError]) :: List.replicate n [.unpackageError]) done
      tail where
  payloads := by
    rw [List.flatten_cons, List.filter_append, List.filter_append, filter_deliver,
      List.append_assoc, List.append_right_eq_self]
    induction n with
    | zero => rfl
    | succ n ih => exact ih
  nullptr := fun c hc hnone => by
    rw [List.flatten_cons, List.mem_append, List.mem_append] at hc
    rcases hc with (hc | hc) | hc
    · exact absurd hnone (deliver_msg_ne hc)
    · exact List.mem_singleton.mp hc
    · obtain ⟨calls, hcalls, hc⟩ := List.mem_flatten.mp hc
      rw [List.eq_of_mem_replicate hcalls] at hc
      exact List.mem_singleton.mp hc
  error := iff_of_true ⟨.unpackageError, by simp, rfl⟩ h
  after := by
    rintro (- | ⟨x, pre⟩) calls post he ⟨c, hc, -⟩
    · cases hc
    · obtain ⟨-, he⟩ := List.cons.inj he
      have hmem : calls ∈ List.replicate n [OnMsgCall.unpackageError] := by
        rw [he]
        exact List.mem_append_right _ (List.mem_cons_self ..)
      exact List.eq_of_mem_replicate hmem

end Parsed

variable {chunks : List (List Byte)}

/-- With garbage in front every chunk is reported. -/
theorem feedEach_of_garbage (hlen : ∀ c ∈ chunks, c.length ≤ READ_SIZE)
    (htail : tail.length ≤ 2 ^ 30) (h : Pending D r chunks.flatten msgs tail)
    (hg : Garbage r.received) :
    ∃ fuel r', feedEach D fuel r chunks =
      some (List.replicate chunks.length [OnMsgCall.unpackageError], r') := by
  induction chunks generalizing r msgs with
  | nil => exact ⟨0, r, rfl⟩
  | cons chunk chunks ih =>
      rw [List.flatten_cons] at h
      have hchunk := hlen chunk (List.mem_cons_self ..)
      obtain ⟨r₁, hr, -⟩ := receive_roomy chunk h.roomy hchunk (h.room hchunk fun _ => htail)
      obtain ⟨fuel₁, r₂, done, left, hmsgs, h₂, hrec, hset⟩ := h.step hr
      obtain ⟨rfl, -⟩ := h.of_garbage hg
      obtain ⟨rfl, rfl⟩ := List.append_eq_nil_iff.mp hmsgs.symm
      have hg₂ : Garbage r₂.received := by
        rw [List.flatMap_nil, List.nil_append] at hrec
        exact hrec ▸ hg.append chunk
      rw [if_pos hg₂] at hset
      obtain ⟨fuel₂, r', hfeed⟩ := ih (fun c hc => hlen c (List.mem_cons_of_mem _ hc)) h₂ hg₂
      refine ⟨max fuel₁ fuel₂, r', ?_⟩
      unfold feedEach
      simp only [SetBuffer_mono (Nat.le_max_left ..) hset,
        feedEach_mono (Nat.le_max_right ..) hfeed, Option.map_some]
      rfl

/-- The chunks up to the garbage deliver the messages. -/
theorem feedEach_parsed (hlen : ∀ c ∈ chunks, c.length ≤ READ_SIZE)
    (htail : Garbage tail → tail.length ≤ 2 ^ 30) (h : Pending D r chunks.flatten msgs tail)
    (hg : ¬ Garbage r.received) :
    ∃ fuel callss r', feedEach D fuel r chunks = some (callss, r') ∧ Parsed callss msgs tail := by
  induction chunks generalizing r msgs with
  | nil =>
      obtain ⟨rfl, rfl⟩ := h.finished
      exact ⟨0, [], r, rfl, rfl, nofun, iff_of_false nofun hg, by simp⟩
  | cons chunk chunks ih =>
      rw [List.flatten_cons] at h
      have hchunk := hlen chunk (List.mem_cons_self ..)
      have hlen' : ∀ c ∈ chunks, c.length ≤ READ_SIZE := fun c hc =>
        hlen c (List.mem_cons_of_mem _ hc)
      obtain ⟨r₁, hr, -⟩ := receive_roomy chunk h.roomy hchunk (h.room hchunk htail)
      obtain ⟨fuel₁, r₂, done, left, rfl, h₂, -, hset⟩ := h.step hr
      by_cases hg₂ : Garbage r₂.received
      · obtain ⟨rfl, he⟩ := h₂.of_garbage hg₂
        have hgt : Garbage tail := he ▸ hg₂.append _
        rw [if_pos hg₂] at hset
        obtain ⟨fuel₂, r', hfeed⟩ := feedEach_of_garbage hlen' (htail hgt) h₂ hg₂
        rw [List.append_nil]
        refine ⟨max fuel₁ fuel₂, _, r', ?_, Parsed.garbage hgt chunks.length⟩
        unfold feedEach
        simp only [SetBuffer_mono (Nat.le_max_left ..) hset,
          feedEach_mono (Nat.le_max_right ..) hfeed, Option.map_some]
      · rw [if_neg hg₂, List.append_nil] at hset
        obtain ⟨fuel₂, callss, r', hfeed, hparsed⟩ := ih hlen' h₂ hg₂
        refine ⟨max fuel₁ fuel₂, _, r', ?_, hparsed.cons⟩
        unfold feedEach
        simp only [SetBuffer_mono (Nat.le_max_left ..) hset,
          feedEach_mono (Nat.le_max_right ..) hfeed, Option.map_some]

/-- A run that gets through all chunks holds the tail in its block. -/
theorem tail_length_of_feedEach {fuel : Nat} {out : List (List OnMsgCall) × BufferReader}
    (h : Pending D r chunks.flatten msgs tail) (hf : feedEach D fuel r chunks = some out) :
    tail.length ≤ 2 ^ 30 := by
  induction chunks generalizing r msgs out with
  | nil =>
      obtain ⟨-, rfl⟩ := h.finished
      obtain ⟨k, -, hhi, hk⟩ := h.roomy
      rw [received_length]
      exact (r.index_le.trans hk.le).trans (Nat.pow_le_pow_right (by decide) hhi)
  | cons chunk chunks ih =>
      rw [List.flatten_cons] at h
      unfold feedEach at hf
      rcases hs : SetBuffer D fuel r chunk with - | ⟨calls, r₃⟩
      · rw [hs] at hf
        cases hf
      rw [hs] at hf
      obtain ⟨p, hf, -⟩ := Option.map_eq_some_iff.mp hf
      rcases hr : r.receive chunk with - | r₁
      · unfold SetBuffer at hs
        rw [hr] at hs
        cases hs
      obtain ⟨fuel₁, r₂, done, left, -, h₂, -, hset⟩ := h.step hr
      -- the fuel does not matter
      have hs' := SetBuffer_mono (Nat.le_max_left fuel fuel₁) hs
      rw [SetBuffer_mono (Nat.le_max_right fuel fuel₁) hset] at hs'
      obtain ⟨-, rfl⟩ := Prod.mk.inj (Option.some.inj hs')
      exact ih h₂ hf

/-- **Parsing of arbitrary streams.**  A fresh reader makes of every cut of the
stream what it should, if and only if the stream does not end in more than
2^30 bytes of garbage. -/
theorem parsed_iff (D : DataModel) (hfront : Front xs msgs tail) (hsmall : SmallHeaders xs)
    (hlen : ∀ c ∈ chunks, c.length ≤ 65536) (hcut : chunks.flatten = xs) :
    (∃ fuel callss r', feedEach D fuel .new chunks = some (callss, r') ∧ Parsed callss msgs tail) ↔
      (Garbage tail → tail.length ≤ 2 ^ 30) := by
  subst hcut
  have h : Pending D .new chunks.flatten msgs tail := .init hfront hsmall
  constructor
  · rintro ⟨fuel, callss, r', hfeed, -⟩ -
    exact tail_length_of_feedEach h hfeed
  · intro htail
    refine feedEach_parsed hlen htail h ?_
    rw [received_new]
    decide

/-- A package of one byte, an empty one, and garbage that begins in the middle
of a chunk. -/
theorem parsed_iff_two :
    ∃ fuel callss r', feedEach .lp64 fuel .new
      [[0x75, 0x76, 0, 0], [0, 1, 0x61, 0x75, 0x76, 0, 0, 0, 0, 1, 2, 3], [4, 5, 6], [7]] =
        some (callss, r') ∧ Parsed callss [[0x61], []] [1, 2, 3, 4, 5, 6, 7] := by
  have hfront : Front _ [[0x61], []] [1, 2, 3, 4, 5, 6, 7] :=
    front_of_garbage (by decide) (by decide)
  have hsmall : SmallHeaders _ :=
    hfront.smallHeaders (by decide) fun h => absurd h.2 (by decide)
  exact (parsed_iff .lp64 hfront hsmall (by decide) (by decide)).mpr fun _ => by decide

/-- Zeros, in chunks of 65536 bytes, until 2^30 of them are exceeded. -/
theorem not_parsed :
    ¬ ∀ (D : DataModel) (xs : List Byte) (msgs : List (List Byte)) (tail : List Byte)
      (chunks : List (List Byte)), Front xs msgs tail → SmallHeaders xs →
      (∀ c ∈ chunks, c ≠ [] ∧ c.length ≤ 65536) → chunks.flatten = xs →
      ∃ fuel callss r', feedEach D fuel .new chunks = some (callss, r') ∧
        Parsed callss msgs tail := by
  intro h
  have hg : ∀ n, 6 ≤ n → Garbage (List.replicate n (0 : Byte)) := by
    intro n hn
    obtain ⟨k, rfl⟩ := Nat.exists_eq_add_of_le' hn
    refine ⟨?_, fun hmagic => ?_⟩
    · rw [List.length_replicate]
      exact hn
    · exact absurd hmagic.1 (by show (0 : Byte) ≠ 0x75; decide)
  obtain ⟨k, hk⟩ : ∃ k, k = 65536 := ⟨_, rfl⟩
  obtain ⟨n, hn⟩ : ∃ n, n = 2 ^ 14 + 1 := ⟨_, rfl⟩
  have hgarbage := hg (n * k) (by rw [hn, hk]; decide)
  have hfront : Front (List.replicate (n * k) (0 : Byte)) [] (List.replicate (n * k) 0) :=
    front_of_garbage (List.forall_mem_nil _) hgarbage
  have hsmall := hfront.smallHeaders (by simp) fun hhead => absurd hhead.2 hgarbage.2
  have hcut : (List.replicate n (List.replicate k (0 : Byte))).flatten = List.replicate (n * k) 0 :=
    List.flatten_replicate_replicate
  obtain ⟨fuel, callss, r', hfeed, -⟩ := h .lp64 _ _ _ (List.replicate n (List.replicate k 0))
    hfront hsmall (fun c hc => by
      rw [List.eq_of_mem_replicate hc, List.length_replicate]
      exact ⟨List.ne_nil_of_length_pos (by rw [List.length_replicate]; omega), hk.le⟩) hcut
  rw [← hcut] at hfront hsmall
  have hle := tail_length_of_feedEach (Pending.init hfront hsmall) hfeed
  rw [hcut, List.length_replicate, hk, hn] at hle
  exact absurd hle (by decide)

end TestExamples
