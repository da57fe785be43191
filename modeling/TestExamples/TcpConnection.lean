/-
TestExamples/TcpConnection.lean

The connection class of SocketExams/Uvpp/TcpConnection.cpp: its reader `input`
next to `BufferReader`, and its output queue.

`input` keeps what it receives twice, in the string `m_input_buff` and in the
block `m_msg_buffer`.  The string is never shortened, and `m_index` never goes
up.  The loop tests the length of the string and has no exit for one that holds
no more than a header.  The size field is copied from
`(void*)(m_input_buff[2])`, which is the third character made a pointer: not
its place in the string, but an address that depends on its value alone.  What
can be read there is not the program's business, so it is a parameter
(`CharMemory`); where nothing can, `input` has no result, and neither has a
copy that would leave the block.

`inputPass` is one evaluation of the loop and `inputLoop` repeats it as long as
the fuel lasts.  The two readers agree on a stream only when neither delivers
anything (`agree_iff`).

The callback is set, and the output on the console is left out.
-/
import TestExamples.LibUvHelperStreams

namespace TestExamples

/-- The fields of `TcpConnection`.  `m_index` is an `int`. -/
structure TcpConnection where
  m_input_buff : List Byte
  m_output_buff : List (List Byte)
  m_write_in_progress : Bool
  m_index : Nat
  m_msg_buffer : Block

/-- What can be read at the address a `char` makes, for each `char`. -/
abbrev CharMemory := Byte → Option Block

namespace TcpConnection

open BufferReader

/-- The constructor. -/
def new : TcpConnection where
  m_input_buff := []
  m_output_buff := []
  m_write_in_progress := false
  m_index := 0
  m_msg_buffer := fun _ => 0

/-- The constructor sets it and nothing changes it. -/
def m_buffer_size : Nat := 1024 * 1024

/-! ### The reader -/

/-- What one evaluation of the loop does. -/
inductive InputPass
  | stop (call : Option OnMsgCall) (c : TcpConnection)  -- `break`
  | next (call : Option OnMsgCall) (c : TcpConnection)  -- round again
  | undefined

/-- `ntohl` of the word copied to `msg_size`, read as `int`. -/
def wildSize (b : Block) : Int := toInt32 (word32 (b 0) (b 1) (b 2) (b 3))

/-- `m_index - PACKAGE_HEAD_SIZE - m_current_msg_size`, a `size_t`. -/
def restSize (D : DataModel) (c : TcpConnection) (size : Int) : Nat :=
  (((c.m_index : Int) - PACKAGE_HEAD_SIZE - size) % (D.sizeT : Int)).toNat

/-- The branch that delivers. -/
def deliver (D : DataModel) (c : TcpConnection) (size : Int) : InputPass :=
  let n := c.restSize D size
  -- the copy reads from `PACKAGE_HEAD_SIZE + size` on
  if packageEnd D size + n ≤ m_buffer_size then
    .next (some ⟨some (span c.m_msg_buffer PACKAGE_HEAD_SIZE size.toNat), size⟩)
      { c with
        m_msg_buffer := memcpy c.m_msg_buffer 0 (c.m_msg_buffer.shift (packageEnd D size)) n
        m_index := n }
  else .undefined

/-- The loop of `input`. -/
def inputPass (D : DataModel) (memory : CharMemory) (c : TcpConnection) : InputPass :=
  let buf := blockOf c.m_input_buff
  if c.m_input_buff.length > PACKAGE_HEAD_SIZE then
    match memory (buf 2) with
    | some b =>
        if buf 0 ≠ 0x75 ∨ buf 1 ≠ 0x76 then .stop (some .unpackageError) c
        else if packageEnd D (wildSize b) ≤ c.m_input_buff.length then c.deliver D (wildSize b)
        else .stop none c
    | none => .undefined
  else .next none c  -- no branch, and no `break`

/-- The loop with a bound on its evaluations. -/
def inputLoop (D : DataModel) (memory : CharMemory) :
    Nat → TcpConnection → Option (List OnMsgCall × TcpConnection)
  | 0, _ => none
  | fuel + 1, c =>
      match inputPass D memory c with
      | .stop call c' => some (call.toList, c')
      | .next call c' => (inputLoop D memory fuel c').map fun p => (call.toList ++ p.1, p.2)
      | .undefined => none

/-- `input`. -/
def input (D : DataModel) (memory : CharMemory) (fuel : Nat) (c : TcpConnection)
    (data : List Byte) : Option (List OnMsgCall × TcpConnection) :=
  if c.m_index + data.length ≤ m_buffer_size then
    inputLoop D memory fuel { c with
      m_input_buff := c.m_input_buff ++ data
      m_msg_buffer := memcpy c.m_msg_buffer c.m_index (blockOf data) data.length }
  else none

/-- `input` on one chunk after another. -/
def feedInput (D : DataModel) (memory : CharMemory) (fuel : Nat) :
    TcpConnection → List (List Byte) → Option (List OnMsgCall × TcpConnection)
  | c, [] => some ([], c)
  | c, chunk :: chunks =>
      match input D memory fuel c chunk with
      | some (calls, c') =>
          (feedInput D memory fuel c' chunks).map fun p => (calls ++ p.1, p.2)
      | none => none

/-! ### The output queue -/

/-- `write_next_buff`: the buffer passed to `m_do_write`.  The message at the
front is looked at and not used. -/
def write_next_buff (c : TcpConnection) : Option (List Byte × TcpConnection) :=
  if c.m_write_in_progress then none  -- `assert`
  else
    match c.m_output_buff with
    | [] => none  -- `assert`
    | _ :: _ =>
        some (['a', 'b', 'c', 'd'].map Char.toUInt8, { c with m_write_in_progress := true })

/-- `send_msg`: the buffers passed to `m_do_write`. -/
def send_msg (c : TcpConnection) (msg : List Byte) : Option (List (List Byte) × TcpConnection) :=
  let c' := { c with m_output_buff := c.m_output_buff ++ [msg] }
  if c.m_output_buff = [] then c'.write_next_buff.map fun p => ([p.1], p.2)
  else some ([], c')

/-- `on_write_finished`. -/
def on_write_finished (c : TcpConnection) : Option (List (List Byte) × TcpConnection) :=
  match c.m_output_buff with
  | [] => none  -- `assert`
  | _ :: rest =>
      let c' := { c with m_output_buff := rest, m_write_in_progress := false }
      if rest = [] then some ([], c')
      else c'.write_next_buff.map fun p => ([p.1], p.2)

end TcpConnection

open TcpConnection
open BufferReader hiding m_buffer_size

/-! ### The two readers -/

/-- On a fresh connection and a fresh `BufferReader`: both end, and the calls
are the same. -/
def Agree (D : DataModel) (memory : CharMemory) (chunks : List (List Byte)) : Prop :=
  ∃ fuel calls c' r', feedInput D memory fuel .new chunks = some (calls, c') ∧
    feed D fuel .new chunks = some (calls, r')

/-- Each header reached by taking packages off the front has a size of at most
`n`. -/
def HeadersUpTo (n : Nat) (xs : List Byte) : Prop :=
  ∀ (msgs : List (List Byte)) ys, xs = msgs.flatMap Msg2Package ++ ys →
    (∀ m ∈ msgs, m.length < 2 ^ 32) → IsHeader ys → headerSize ys ≤ n

/-- What `input` answers with `xs` in its string, when it does. -/
def Answers (D : DataModel) (memory : CharMemory) (xs : List Byte) (call : Option OnMsgCall) :
    Prop :=
  PACKAGE_HEAD_SIZE < xs.length ∧ ∃ b, memory (blockOf xs 2) = some b ∧
    ((Garbage xs ∧ call = some .unpackageError) ∨
      (¬ Garbage xs ∧ xs.length < packageEnd D (wildSize b) ∧ call = none))

variable {D : DataModel} {memory : CharMemory} {c c' : TcpConnection} {chunk xs : List Byte}

theorem garbage_iff (h : PACKAGE_HEAD_SIZE < xs.length) :
    Garbage xs ↔ blockOf xs 0 ≠ 0x75 ∨ blockOf xs 1 ≠ 0x76 :=
  (and_iff_right h.le).trans not_and_or

/-- Six bytes show whether it is garbage. -/
theorem garbage_append_iff (h : PACKAGE_HEAD_SIZE ≤ xs.length) (ys : List Byte) :
    Garbage (xs ++ ys) ↔ Garbage xs := by
  have hsix : PACKAGE_HEAD_SIZE = 6 := rfl
  refine ⟨fun hg => ⟨h, ?_⟩, fun hg => hg.append ys⟩
  have hmagic := hg.2
  rwa [blockOf_append (by omega), blockOf_append (by omega)] at hmagic

/-- Nothing leaves the string, so the loop finds what it found before. -/
theorem inputLoop_of_next (hshort : ¬ PACKAGE_HEAD_SIZE < c.m_input_buff.length) (fuel : Nat) :
    inputLoop D memory fuel c = none := by
  induction fuel with
  | zero => rfl
  | succ fuel ih =>
      have hp : inputPass D memory c = .next none c := if_neg hshort
      simp only [inputLoop, hp, ih, Option.map_none]

/-- `m_index` is 0, so no size gives a copy inside the block but -6, and that
is one of no bytes. -/
theorem deliver_of_zero (h : c.m_index = 0) (size : Int) :
    c.deliver D size = .undefined ∨ ∃ call c', c.deliver D size = .next call c' ∧
      c'.m_index = 0 ∧ c'.m_input_buff = c.m_input_buff := by
  unfold deliver
  by_cases hin : packageEnd D size + c.restSize D size ≤ m_buffer_size
  · refine .inr ⟨_, _, if_pos hin, ?_, rfl⟩
    show c.restSize D size = 0
    have hbuf : m_buffer_size = 1048576 := rfl
    have hsix : PACKAGE_HEAD_SIZE = 6 := rfl
    unfold restSize packageEnd at hin
    unfold restSize
    rw [h] at hin ⊢
    cases D <;> simp only [DataModel.sizeT] at hin ⊢ <;> omega
  · exact .inl (if_neg hin)

/-- The branch that delivers is taken again and again, until a copy leaves the
block. -/
theorem inputLoop_of_deliver {b : Block} (hidx : c.m_index = 0)
    (hlen : PACKAGE_HEAD_SIZE < c.m_input_buff.length)
    (hmem : memory (blockOf c.m_input_buff 2) = some b) (hg : ¬ Garbage c.m_input_buff)
    (hend : packageEnd D (wildSize b) ≤ c.m_input_buff.length) (fuel : Nat) :
    inputLoop D memory fuel c = none := by
  induction fuel generalizing c with
  | zero => rfl
  | succ fuel ih =>
      have hp : inputPass D memory c = c.deliver D (wildSize b) := by
        unfold inputPass
        rw [garbage_iff hlen] at hg
        simp only [hlen, hmem, hg, hend, if_true, if_false]
      rcases deliver_of_zero (D := D) hidx (wildSize b) with hd | ⟨call, c', hd, hidx', hbuff⟩
      · simp only [inputLoop, hp, hd]
      · have hnone := @ih c' hidx' (by rwa [hbuff]) (by rwa [hbuff]) (by rwa [hbuff])
          (by rwa [hbuff])
        simp only [inputLoop, hp, hd, hnone, Option.map_none]

/-- **The loop of `input`** ends in its first evaluation or never. -/
theorem inputLoop_eq_some_iff (hidx : c.m_index = 0) (fuel : Nat)
    (out : List OnMsgCall × TcpConnection) :
    inputLoop D memory (fuel + 1) c = some out ↔
      ∃ call, Answers D memory c.m_input_buff call ∧ out = (call.toList, c) := by
  unfold Answers
  by_cases hlen : PACKAGE_HEAD_SIZE < c.m_input_buff.length
  swap
  · rw [inputLoop_of_next hlen]
    exact iff_of_false nofun fun ⟨_, ⟨hlen', _⟩, _⟩ => hlen hlen'
  rcases hmem : memory (blockOf c.m_input_buff 2) with - | b
  · have hp : inputPass D memory c = .undefined := by
      unfold inputPass
      simp only [hlen, hmem, if_true]
    simp only [inputLoop, hp]
    exact iff_of_false nofun fun ⟨_, ⟨_, _, h, _⟩, _⟩ => nomatch h
  by_cases hg : Garbage c.m_input_buff
  · have hp : inputPass D memory c = .stop (some .unpackageError) c := by
      unfold inputPass
      rw [garbage_iff hlen] at hg
      simp only [hlen, hmem, hg, if_true]
    simp only [inputLoop, hp, Option.some.injEq]
    constructor
    · rintro rfl
      exact ⟨_, ⟨hlen, b, rfl, .inl ⟨hg, rfl⟩⟩, rfl⟩
    · rintro ⟨call, ⟨-, -, -, ⟨-, rfl⟩ | ⟨hng, -⟩⟩, rfl⟩
      · rfl
      · exact absurd hg hng
  by_cases hend : packageEnd D (wildSize b) ≤ c.m_input_buff.length
  · rw [inputLoop_of_deliver hidx hlen hmem hg hend]
    refine iff_of_false nofun ?_
    rintro ⟨call, ⟨-, b', hb', ⟨hg', -⟩ | ⟨-, hlt, -⟩⟩, -⟩
    · exact hg hg'
    · obtain rfl := Option.some.inj hb'
      exact absurd hend (Nat.not_le.mpr hlt)
  · have hp : inputPass D memory c = .stop none c := by
      unfold inputPass
      rw [garbage_iff hlen] at hg
      simp only [hlen, hmem, hg, hend, if_true, if_false]
    simp only [inputLoop, hp, Option.some.injEq]
    constructor
    · rintro rfl
      exact ⟨_, ⟨hlen, b, rfl, .inr ⟨hg, Nat.lt_of_not_le hend, rfl⟩⟩, rfl⟩
    · rintro ⟨call, ⟨-, -, -, ⟨hg', -⟩ | ⟨-, -, rfl⟩⟩, rfl⟩
      · exact absurd hg' hg
      · rfl

/-- A call of `input` that ends. -/
theorem answers_of_input {fuel : Nat} {calls : List OnMsgCall} (hidx : c.m_index = 0)
    (h : input D memory fuel c chunk = some (calls, c')) :
    ∃ call, Answers D memory (c.m_input_buff ++ chunk) call ∧ calls = call.toList ∧
      c'.m_index = 0 ∧ c'.m_input_buff = c.m_input_buff ++ chunk := by
  unfold input at h
  split at h
  · rcases fuel with - | fuel
    · cases h
    · obtain ⟨call, hans, hout⟩ := (inputLoop_eq_some_iff (by exact hidx) fuel _).mp h
      obtain ⟨rfl, rfl⟩ := Prod.mk.inj hout
      exact ⟨call, hans, rfl, hidx, rfl⟩
  · cases h

theorem input_of_answers {call : Option OnMsgCall} (hidx : c.m_index = 0)
    (hlen : chunk.length ≤ READ_SIZE) (h : Answers D memory (c.m_input_buff ++ chunk) call) :
    ∃ c', input D memory 1 c chunk = some (call.toList, c') ∧ c'.m_index = 0 ∧
      c'.m_input_buff = c.m_input_buff ++ chunk := by
  have hread : READ_SIZE = 65536 := rfl
  have hbuf : m_buffer_size = 1048576 := rfl
  unfold input
  rw [if_pos (by omega)]
  exact ⟨_, (inputLoop_eq_some_iff (by exact hidx) 0 _).mpr ⟨call, h, rfl⟩, hidx, rfl⟩

variable {r : BufferReader} {chunks : List (List Byte)}

/-- What `input` needs to get through the whole stream: enough in the first
chunk, a word at the address it makes, and garbage or no end of a package. -/
theorem of_feedInput {fuel : Nat} {calls : List OnMsgCall} (hidx : c.m_index = 0)
    (h : feedInput D memory fuel c (chunk :: chunks) = some (calls, c')) :
    (∀ call ∈ calls, call.msg = none) ∧ PACKAGE_HEAD_SIZE < (c.m_input_buff ++ chunk).length ∧
      ∃ b, memory (blockOf (c.m_input_buff ++ chunk) 2) = some b ∧
        (Garbage (c.m_input_buff ++ (chunk :: chunks).flatten) ∨
          (c.m_input_buff ++ (chunk :: chunks).flatten).length < packageEnd D (wildSize b)) := by
  induction chunks generalizing c chunk calls with
  | nil =>
      unfold feedInput at h
      rcases hin : input D memory fuel c chunk with - | ⟨calls₁, c₁⟩
      · rw [hin] at h
        cases h
      rw [hin] at h
      obtain ⟨call, ⟨hlen, b, hb, hcall⟩, rfl, -, -⟩ := answers_of_input hidx hin
      obtain ⟨rfl, -⟩ := Prod.mk.inj (Option.some.inj h)
      rw [List.flatten_singleton, List.append_nil]
      rcases hcall with ⟨hg, rfl⟩ | ⟨-, hlt, rfl⟩
      · exact ⟨fun call hc => List.mem_singleton.mp hc ▸ rfl, hlen, b, hb, .inl hg⟩
      · exact ⟨nofun, hlen, b, hb, .inr hlt⟩
  | cons chunk' chunks ih =>
      unfold feedInput at h
      rcases hin : input D memory fuel c chunk with - | ⟨calls₁, c₁⟩
      · rw [hin] at h
        cases h
      rw [hin] at h
      obtain ⟨call, ⟨hlen, b, hb, hcall⟩, rfl, hidx₁, hbuff⟩ := answers_of_input hidx hin
      obtain ⟨p, hp, hout⟩ := Option.map_eq_some_iff.mp h
      obtain ⟨rfl, rfl⟩ := Prod.mk.inj hout
      obtain ⟨hnone, -, b', hb', hrest⟩ := ih hidx₁ hp
      -- the third byte is that of the first chunk
      have hsix : PACKAGE_HEAD_SIZE = 6 := rfl
      rw [hbuff, blockOf_append (by omega), hb] at hb'
      obtain rfl := Option.some.inj hb'
      rw [hbuff, List.append_assoc, ← List.flatten_cons] at hrest
      refine ⟨fun call' hc => ?_, hlen, b, hb, hrest⟩
      rcases List.mem_append.mp hc with hc | hc
      · rcases hcall with ⟨-, rfl⟩ | ⟨-, -, rfl⟩
        · exact List.mem_singleton.mp hc ▸ rfl
        · cases hc
      · exact hnone call' hc

/-- A loop that hands over nothing has found no package. -/
theorem of_loop {fuel : Nat} {calls : List OnMsgCall} {r' : BufferReader} (hr : Roomy r)
    (h : loop D fuel r = some (calls, r')) (hnone : ∀ call ∈ calls, call.msg = none) :
    r'.received = r.received ∧ Roomy r' ∧ ∀ f rest, nextPackage D r.received ≠ .frame f rest := by
  rcases fuel with - | fuel
  · cases h
  unfold loop at h
  rcases hn : nextPackage D r.received with - | - | ⟨f, rest⟩
  · rcases pass_of_more hn with hq | hq <;> rw [hq] at h <;>
      obtain ⟨-, rfl⟩ := Prod.mk.inj (Option.some.inj h)
    · exact ⟨rfl, hr, fun _ _ hf => by cases hf⟩
    · exact ⟨rfl, hr, fun _ _ hf => by cases hf⟩
  · rw [pass_of_bad hn] at h
    obtain ⟨-, rfl⟩ := Prod.mk.inj (Option.some.inj h)
    exact ⟨rfl, hr, fun _ _ hf => by cases hf⟩
  · obtain ⟨r₁, hq, -⟩ := pass_of_frame hn
    rw [hq] at h
    obtain ⟨q, -, hq'⟩ := Option.map_eq_some_iff.mp h
    obtain ⟨rfl, -⟩ := Prod.mk.inj hq'
    have hf := hnone f (List.mem_cons_self ..)
    rw [nextPackage_received] at hn
    split_ifs at hn
    obtain ⟨rfl, -⟩ := Verdict.frame.inj hn
    cases hf

/-- What `SetBuffer` has found when it hands over nothing. -/
theorem of_feed {fuel : Nat} {calls : List OnMsgCall} {r' : BufferReader} (hr : Roomy r)
    (hstop : ∀ f rest, nextPackage D r.received ≠ .frame f rest)
    (h : feed D fuel r chunks = some (calls, r')) (hnone : ∀ call ∈ calls, call.msg = none) :
    (r.received ++ chunks.flatten).length ≤ 2 ^ 30 ∧
      ∀ f rest, nextPackage D (r.received ++ chunks.flatten) ≠ .frame f rest := by
  induction chunks generalizing r calls with
  | nil =>
      rw [List.flatten_nil, List.append_nil, received_length]
      obtain ⟨k, -, hhi, hk⟩ := hr
      exact ⟨(r.index_le.trans hk.le).trans (Nat.pow_le_pow_right (by decide) hhi), hstop⟩
  | cons chunk chunks ih =>
      unfold feed at h
      rcases hset : SetBuffer D fuel r chunk with - | ⟨calls₁, r₁⟩
      · rw [hset] at h
        cases h
      rw [hset] at h
      obtain ⟨p, hp, hout⟩ := Option.map_eq_some_iff.mp h
      obtain ⟨rfl, rfl⟩ := Prod.mk.inj hout
      unfold SetBuffer at hset
      split at hset
      · rename_i r₂ hrecv
        obtain ⟨hsame, hroomy, hstop₁⟩ := of_loop (roomy_of_receive hr hrecv) hset
          fun call hc => hnone call (List.mem_append_left _ hc)
        rw [List.flatten_cons, ← List.append_assoc, ← receive_received hrecv, ← hsame]
        rw [← hsame] at hstop₁
        exact ih hroomy hstop₁ hp fun call hc => hnone call (List.mem_append_right _ hc)
      · cases hset

/-- A chunk that completes nothing, read by both. -/
theorem both_of_answers {call : Option OnMsgCall} (hidx : c.m_index = 0)
    (hbuff : c.m_input_buff = r.received) (hr : Roomy r) (hlen : chunk.length ≤ READ_SIZE)
    (hroom : (r.received ++ chunk).length ≤ 2 ^ 30)
    (hans : Answers D memory (r.received ++ chunk) call)
    (hstop : ∀ f rest, nextPackage D (r.received ++ chunk) ≠ .frame f rest) :
    ∃ c' r', input D memory 1 c chunk = some (call.toList, c') ∧
      SetBuffer D 1 r chunk = some (call.toList, r') ∧ c'.m_index = 0 ∧
      c'.m_input_buff = r'.received ∧ Roomy r' ∧ r'.received = r.received ++ chunk := by
  obtain ⟨c', hin, hidx', hbuff'⟩ := input_of_answers hidx hlen (hbuff ▸ hans)
  obtain ⟨r₁, hrecv, hroomy⟩ := receive_roomy chunk hr hlen (by
    rwa [List.length_append, received_length] at hroom)
  have hrec := receive_received hrecv
  have hset : ∃ r', SetBuffer D 1 r chunk = some (call.toList, r') ∧ Roomy r' ∧
      r'.received = r₁.received := by
    unfold SetBuffer
    rw [hrecv]
    obtain ⟨-, b, -, ⟨hg, rfl⟩ | ⟨hg, -, rfl⟩⟩ := hans
    · rw [← hrec, ← nextPackage_bad_iff (D := D)] at hg
      exact ⟨r₁.readSize, by simp only [loop, pass_of_bad hg], hroomy, rfl⟩
    · rw [← hrec] at hg hstop
      rcases hn : nextPackage D r₁.received with - | - | ⟨f, rest⟩
      · rcases pass_of_more hn with hq | hq
        · exact ⟨r₁, by simp only [loop, hq]; rfl, hroomy, rfl⟩
        · exact ⟨r₁.readSize, by simp only [loop, hq], hroomy, rfl⟩
      · exact absurd (nextPackage_bad_iff.mp hn) hg
      · exact absurd hn (hstop f rest)
  obtain ⟨r', hset, hroomy', hrec'⟩ := hset
  exact ⟨c', r', hin, hset, hidx', by rw [hbuff', hrec', hrec, hbuff], hroomy', hrec'.trans hrec⟩

/-- What the stream is in the end, it is from the seventh byte on. -/
theorem answers_of_quiet {b : Block} {ys : List Byte} (hlen : PACKAGE_HEAD_SIZE < xs.length)
    (hmem : memory (blockOf xs 2) = some b)
    (h : Garbage (xs ++ ys) ∨
      (nextPackage D (xs ++ ys) = .more ∧ (xs ++ ys).length < packageEnd D (wildSize b))) :
    (∃ call, Answers D memory xs call) ∧ ∀ f rest, nextPackage D xs ≠ .frame f rest := by
  rcases h with hg | ⟨hmore, hlt⟩
  · rw [garbage_append_iff hlen.le] at hg
    refine ⟨⟨_, hlen, b, hmem, .inl ⟨hg, rfl⟩⟩, fun f rest hf => ?_⟩
    rw [nextPackage_bad_iff.mpr hg] at hf
    cases hf
  · have hng : ¬ Garbage xs := by
      rw [← garbage_append_iff hlen.le ys, ← nextPackage_bad_iff (D := D), hmore]
      nofun
    have hle : xs.length ≤ (xs ++ ys).length := List.length_append ▸ Nat.le_add_right ..
    refine ⟨⟨_, hlen, b, hmem, .inr ⟨hng, hle.trans_lt hlt, rfl⟩⟩, fun f rest hf => ?_⟩
    rw [nextPackage_append D ys hf] at hmore
    cases hmore

/-- Both get through the whole stream. -/
theorem both_of_quiet {b : Block} (hidx : c.m_index = 0) (hbuff : c.m_input_buff = r.received)
    (hr : Roomy r) (hlen : ∀ chunk ∈ chunks, chunk.length ≤ READ_SIZE)
    (hfirst : ∀ chunk ∈ chunks.head?, PACKAGE_HEAD_SIZE < (r.received ++ chunk).length ∧
      memory (blockOf (r.received ++ chunk) 2) = some b)
    (hroom : (r.received ++ chunks.flatten).length ≤ 2 ^ 30)
    (hquiet : Garbage (r.received ++ chunks.flatten) ∨
      (nextPackage D (r.received ++ chunks.flatten) = .more ∧
        (r.received ++ chunks.flatten).length < packageEnd D (wildSize b))) :
    ∃ calls c' r', feedInput D memory 1 c chunks = some (calls, c') ∧
      feed D 1 r chunks = some (calls, r') := by
  induction chunks generalizing c r with
  | nil => exact ⟨[], c, r, rfl, rfl⟩
  | cons chunk chunks ih =>
      have hsix : PACKAGE_HEAD_SIZE = 6 := rfl
      rw [List.flatten_cons, ← List.append_assoc] at hroom hquiet
      obtain ⟨hseven, hmem⟩ := hfirst chunk rfl
      obtain ⟨⟨call, hans⟩, hstop⟩ := answers_of_quiet hseven hmem hquiet
      have hfit : (r.received ++ chunk).length ≤ 2 ^ 30 := by
        rw [List.length_append] at hroom
        omega
      obtain ⟨c₁, r₁, hin, hset, hidx₁, hbuff₁, hroomy₁, hrec₁⟩ :=
        both_of_answers hidx hbuff hr (hlen chunk (List.mem_cons_self ..)) hfit hans hstop
      rw [← hrec₁] at hseven hmem hroom hquiet
      obtain ⟨calls, c', r', hfi, hfe⟩ := ih hidx₁ hbuff₁ hroomy₁
        (fun x hx => hlen x (List.mem_cons_of_mem _ hx)) (fun x _ => ⟨by
          rw [List.length_append]
          omega, by rw [blockOf_append (by omega), hmem]⟩) hroom hquiet
      refine ⟨call.toList ++ calls, c', r', ?_, ?_⟩
      · simp only [feedInput, hin, hfi, Option.map_some]
      · simp only [feed, hset, hfe, Option.map_some]

/-- **The two readers on one stream.**  They agree if and only if no chunk
arrives, or the first has seven bytes, its third character makes an address
that can be read, and neither reader ever hands over a message: the stream is
garbage, or holds no package whole and ends before the number read there does. -/
theorem agree_iff (D : DataModel) (memory : CharMemory) {chunks : List (List Byte)}
    (hlen : ∀ chunk ∈ chunks, chunk ≠ [] ∧ chunk.length ≤ 65536) :
    Agree D memory chunks ↔ chunks = [] ∨ ∃ chunk rest b, chunks = chunk :: rest ∧
      PACKAGE_HEAD_SIZE < chunk.length ∧ memory (blockOf chunk 2) = some b ∧
      chunks.flatten.length ≤ 2 ^ 30 ∧
      (Garbage chunks.flatten ∨ (nextPackage D chunks.flatten = .more ∧
        chunks.flatten.length < packageEnd D (wildSize b))) := by
  constructor
  · rintro ⟨fuel, calls, c', r', hin, hfeed⟩
    rcases chunks with - | ⟨chunk, rest⟩
    · exact .inl rfl
    obtain ⟨hnone, hseven, b, hmem, hquiet⟩ := of_feedInput (c := .new) rfl hin
    obtain ⟨hroom, hstop⟩ := of_feed roomy_new nofun hfeed hnone
    rw [received_new, List.nil_append] at hroom hstop
    refine .inr ⟨chunk, rest, b, rfl, hseven, hmem, hroom, ?_⟩
    by_cases hg : Garbage (chunk :: rest).flatten
    · exact .inl hg
    · refine .inr ⟨?_, hquiet.resolve_left hg⟩
      rcases hn : nextPackage D (chunk :: rest).flatten with - | - | ⟨f, xs⟩
      · rfl
      · exact absurd (nextPackage_bad_iff.mp hn) hg
      · exact absurd hn (hstop f xs)
  · rintro (rfl | ⟨chunk, rest, b, rfl, hseven, hmem, hroom, hquiet⟩)
    · exact ⟨0, [], .new, .new, rfl, rfl⟩
    · obtain ⟨calls, c', r', hin, hfeed⟩ := both_of_quiet (c := .new) (r := .new) rfl rfl roomy_new
        (fun x hx => (hlen x hx).2) (fun x hx => by
          obtain rfl := Option.mem_some.mp hx
          exact ⟨hseven, hmem⟩) hroom hquiet
      exact ⟨1, calls, c', r', hin, hfeed⟩

/-- A header that promises five bytes and three of these, in chunks of seven
and two bytes; the address holds the same number. -/
theorem agree_iff_two : Agree .lp64 (fun _ => some (blockOf [0, 0, 0, 5]))
    [[0x75, 0x76, 0, 0, 0, 5, 0x61], [0x62, 0x63]] := by
  refine (agree_iff .lp64 _ (by decide)).mpr (.inr ⟨_, _, _, rfl, by decide, rfl, by decide, ?_⟩)
  exact .inr ⟨rfl, by decide⟩

theorem headersUpTo_Msg2Package {n : Nat} {msg : List Byte} (h : msg.length ≤ n)
    (hlt : msg.length < 2 ^ 32) : HeadersUpTo n (Msg2Package msg) := by
  rintro (- | ⟨m, ms⟩) ys he hms hhead
  · obtain rfl : Msg2Package msg = ys := he
    have hsize := headerSize_Msg2Package hlt []
    rw [List.append_nil] at hsize
    exact hsize.trans_le h
  · rw [List.flatMap_cons, List.append_assoc, ← List.append_nil (Msg2Package msg)] at he
    obtain ⟨-, hnil⟩ := Msg2Package_append_inj hlt (hms m (List.mem_cons_self ..)) he
    obtain ⟨-, rfl⟩ := List.append_eq_nil_iff.mp hnil.symm
    exact absurd hhead.1 (by decide)

/-- A package of one byte, whose first three bytes arrive alone: the loop of
`input` does not end, even if each address held the size. -/
theorem not_agree :
    ¬ ∀ (D : DataModel) (memory : CharMemory) (chunks : List (List Byte)),
      (∀ chunk ∈ chunks, chunk ≠ [] ∧ chunk.length ≤ 65536) →
      HeadersUpTo (2 ^ 20 - 65542) chunks.flatten → Agree D memory chunks := by
  intro h
  obtain ⟨fuel, calls, c', r', hin, -⟩ := h .lp64 (fun _ => some (blockOf [0, 0, 0, 1]))
    [[0x75, 0x76, 0], [0, 0, 1, 0x61]] (by decide)
    (headersUpTo_Msg2Package (show ([0x61] : List Byte).length ≤ _ by decide) (by decide))
  obtain ⟨-, hseven, -⟩ := of_feedInput (c := .new) rfl hin
  exact absurd hseven (by decide)

end TestExamples
