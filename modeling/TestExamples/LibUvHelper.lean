/-
TestExamples/LibUvHelper.lean

The length-prefixed framing of SocketExams/RJCommon/LibUvHelper.h: the header
`PACKAGE_HEAD`, the encoder `Msg2Package` and the stream reader
`BufferReader`.

Machine integers.  `m_index` and `m_buffer_size` are `int`s that never leave
0..INT_MAX, which is kept as a field of `BufferReader`; a step that would
overflow one of them, or write past the block, has no result.  The size field
is read as a signed `int`, and the sum `PACKAGE_HEAD_SIZE +
m_current_msg_size` is taken in `size_t`, whose width is that of the data
model.

The block `m_msg_buffer` is addressed by offset.  What lies at or after
`m_index` is never read before it is written, so fresh memory may hold
anything; it is zero here.  A copy within the block is taken to move the bytes
as they were before it.

`pass` is one evaluation of the loop of `SetBuffer`, test and body.  `loop`
repeats it as long as the fuel lasts: the loop of the source has no bound of
its own.
-/
import TestExamples.Lib.Bytes

namespace TestExamples

/-! ### The encoder -/

/-- `PACKAGE_HEAD::proto_type`: the characters `u` and `v`. -/
def proto_type : List Byte := [0x75, 0x76]

/-- `sizeof(PACKAGE_HEAD)`, packed: two characters and a `uint32_t`. -/
def PACKAGE_HEAD_SIZE : Nat := 6

/-- The four bytes of `htonl(n)` in memory. -/
def htonl (n : Nat) : List Byte := [wordByte n 3, wordByte n 2, wordByte n 1, wordByte n 0]

/-- `Msg2Package`: the header with the size in network order, then the
message. -/
def Msg2Package (msg : List Byte) : List Byte :=
  proto_type ++ htonl msg.length ++ msg

@[simp] theorem Msg2Package_length (msg : List Byte) :
    (Msg2Package msg).length = PACKAGE_HEAD_SIZE + msg.length := by
  simp [Msg2Package, proto_type, htonl, PACKAGE_HEAD_SIZE]
  omega

/-! ### The reader -/

/-- The data model of the platform: how wide `size_t` is. -/
inductive DataModel
  | ilp32
  | lp64
  deriving DecidableEq, Repr

/-- The number of values of `size_t`. -/
def DataModel.sizeT : DataModel → Nat
  | .ilp32 => 2 ^ 32
  | .lp64 => 2 ^ 64

/-- The fields of `BufferReader` that framing uses. -/
structure BufferReader where
  m_current_msg_size : Int
  m_index : Nat
  m_buffer_size : Nat
  m_msg_buffer : Block
  /-- the bytes received lie inside the block -/
  index_le : m_index ≤ m_buffer_size
  /-- and its size is an `int` -/
  size_le : m_buffer_size ≤ INT_MAX

/-- A call of the read callback: the bytes the pointer designates, `none` for
a null pointer, and the size argument.  A negative size designates no
bytes. -/
structure OnMsgCall where
  msg : Option (List Byte)
  size : Int
  deriving DecidableEq, Repr

/-- The call that hands over a message. -/
def OnMsgCall.deliver (msg : List Byte) : OnMsgCall := ⟨some msg, msg.length⟩

/-- The call that reports a bad header: `OnMsg(nullptr, -1)`. -/
def OnMsgCall.unpackageError : OnMsgCall := ⟨none, -1⟩

namespace BufferReader

/-- The constructor. -/
def new : BufferReader where
  m_current_msg_size := 0
  m_index := 0
  m_buffer_size := 1024 * 1024
  m_msg_buffer := fun _ => 0
  index_le := by decide
  size_le := by decide

/-- `CheckBufferLength`: double the block once when `size` exceeds it. -/
def CheckBufferLength (r : BufferReader) (size : Nat) : Option BufferReader :=
  if size > r.m_buffer_size then
    if h : r.m_buffer_size * 2 ≤ INT_MAX then
      some { r with
        m_buffer_size := r.m_buffer_size * 2
        m_msg_buffer := memcpy (fun _ => 0) 0 r.m_msg_buffer r.m_buffer_size
        index_le := by have := r.index_le; omega
        size_le := h }
    else none  -- `m_buffer_size * 2` overflows
  else some r

/-- `SetBuffer` before its loop: make room and append the bytes received. -/
def receive (r : BufferReader) (msg : List Byte) : Option BufferReader :=
  if r.m_index + msg.length ≤ INT_MAX then
    match r.CheckBufferLength (r.m_index + msg.length) with
    | some r' =>
        if h : r'.m_index + msg.length ≤ r'.m_buffer_size then
          some { r' with
            m_msg_buffer := memcpy r'.m_msg_buffer r'.m_index (blockOf msg) msg.length
            m_index := r'.m_index + msg.length
            index_le := h }
        else none  -- the copy would leave the block
    | none => none
  else none  -- `m_index + size` overflows

/-- `ntohl` of the word at offset 2, read as `int`. -/
def sizeField (b : Block) : Int := toInt32 (word32 (b 2) (b 3) (b 4) (b 5))

/-- `PACKAGE_HEAD_SIZE + m_current_msg_size`, a `size_t`. -/
def packageEnd (D : DataModel) (size : Int) : Nat :=
  (((PACKAGE_HEAD_SIZE : Int) + size) % (D.sizeT : Int)).toNat

/-- The loop body up to its first test: read the size field of the header. -/
def readSize (r : BufferReader) : BufferReader :=
  { r with m_current_msg_size := sizeField r.m_msg_buffer }

/-- The compaction: the bytes from `n` on move to the front. -/
def compact (r : BufferReader) (n : Nat) : BufferReader where
  m_current_msg_size := r.m_current_msg_size
  m_index := r.m_index - n
  m_buffer_size := r.m_buffer_size
  m_msg_buffer := memcpy r.m_msg_buffer 0 (r.m_msg_buffer.shift n) (r.m_index - n)
  index_le := (Nat.sub_le _ _).trans r.index_le
  size_le := r.size_le

/-- What one evaluation of the loop does. -/
inductive Pass
  | exit                                              -- the loop test fails
  | stop (call : Option OnMsgCall) (r : BufferReader) -- `break`
  | next (call : OnMsgCall) (r : BufferReader)        -- round again

/-- The loop of `SetBuffer`: its test and, when that holds, its body.  In the
branch that delivers, `m_index - PACKAGE_HEAD_SIZE - m_current_msg_size` is
the difference `compact` takes (`sub_packageEnd`). -/
def pass (D : DataModel) (r : BufferReader) : Pass :=
  if r.m_index < PACKAGE_HEAD_SIZE then .exit
  else
    -- the size field is read before the header is looked at
    let r := r.readSize
    if r.m_msg_buffer 0 ≠ 0x75 ∨ r.m_msg_buffer 1 ≠ 0x76 then
      -- nothing is dropped, so the bad header is found again at the next chunk
      .stop (some .unpackageError) r
    else if packageEnd D r.m_current_msg_size ≤ r.m_index then
      -- the callback gets the `int`, whatever its sign
      .next ⟨some (span r.m_msg_buffer PACKAGE_HEAD_SIZE r.m_current_msg_size.toNat),
          r.m_current_msg_size⟩
        (r.compact (packageEnd D r.m_current_msg_size))
    else .stop none r

/-- The loop of `SetBuffer` with a bound on its evaluations: the calls made
and the reader left. -/
def loop (D : DataModel) : Nat → BufferReader → Option (List OnMsgCall × BufferReader)
  | 0, _ => none
  | fuel + 1, r =>
      match pass D r with
      | .exit => some ([], r)
      | .stop call r' => some (call.toList, r')
      | .next call r' => (loop D fuel r').map fun p => (call :: p.1, p.2)

/-- `SetBuffer`. -/
def SetBuffer (D : DataModel) (fuel : Nat) (r : BufferReader) (msg : List Byte) :
    Option (List OnMsgCall × BufferReader) :=
  match r.receive msg with
  | some r' => loop D fuel r'
  | none => none

/-- `SetBuffer` on one chunk after another. -/
def feed (D : DataModel) (fuel : Nat) :
    BufferReader → List (List Byte) → Option (List OnMsgCall × BufferReader)
  | r, [] => some ([], r)
  | r, chunk :: chunks =>
      match SetBuffer D fuel r chunk with
      | some (calls, r') => (feed D fuel r' chunks).map fun p => (calls ++ p.1, p.2)
      | none => none

/-- The bytes received and not consumed. -/
def received (r : BufferReader) : List Byte := span r.m_msg_buffer 0 r.m_index

@[simp] theorem received_length (r : BufferReader) : r.received.length = r.m_index := by
  simp [received]

theorem received_new : new.received = [] := rfl

@[simp] theorem readSize_m_index (r : BufferReader) : r.readSize.m_index = r.m_index := rfl

@[simp] theorem readSize_m_msg_buffer (r : BufferReader) :
    r.readSize.m_msg_buffer = r.m_msg_buffer := rfl

@[simp] theorem readSize_m_current_msg_size (r : BufferReader) :
    r.readSize.m_current_msg_size = sizeField r.m_msg_buffer := rfl

@[simp] theorem readSize_m_buffer_size (r : BufferReader) :
    r.readSize.m_buffer_size = r.m_buffer_size := rfl

@[simp] theorem compact_m_buffer_size (r : BufferReader) (n : Nat) :
    (r.compact n).m_buffer_size = r.m_buffer_size := rfl

@[simp] theorem compact_m_index (r : BufferReader) (n : Nat) :
    (r.compact n).m_index = r.m_index - n := rfl

/-- Reading the size field moves no byte. -/
@[simp] theorem readSize_received (r : BufferReader) : r.readSize.received = r.received := rfl

/-- The compaction drops the first `n` bytes received. -/
theorem compact_received (r : BufferReader) (n : Nat) :
    (r.compact n).received = r.received.drop n := by
  show span (memcpy _ 0 _ _) 0 (r.m_index - n) = _
  rw [span_memcpy, received, span_drop]
  exact span_congr fun i _ => by rw [Block.shift, Nat.zero_add, Nat.zero_add]

/-! ### Arithmetic of the delivering branch -/

/-- The `size_t` sum does not wrap when it comes out as a buffer position. -/
theorem packageEnd_eq {D : DataModel} {size : Int} (hlo : -(2 ^ 31) ≤ size) (hhi : size < 2 ^ 31)
    {n : Nat} (hn : n ≤ INT_MAX) (h : packageEnd D size ≤ n) :
    (packageEnd D size : Int) = PACKAGE_HEAD_SIZE + size := by
  simp only [packageEnd, PACKAGE_HEAD_SIZE, INT_MAX] at *
  cases D <;> simp only [DataModel.sizeT] at * <;> omega

/-- The sum of a non-negative size does not wrap. -/
theorem packageEnd_of_nonneg {D : DataModel} {size : Int} (hlo : 0 ≤ size) (hhi : size < 2 ^ 31) :
    packageEnd D size = PACKAGE_HEAD_SIZE + size.toNat := by
  simp only [packageEnd, PACKAGE_HEAD_SIZE] at *
  cases D <;> simp only [DataModel.sizeT] <;> omega

/-- The difference the source computes in `size_t` is the one of `pass`. -/
theorem sub_packageEnd {D : DataModel} {size : Int} (hlo : -(2 ^ 31) ≤ size) (hhi : size < 2 ^ 31)
    {n : Nat} (hn : n ≤ INT_MAX) (h : packageEnd D size ≤ n) :
    (((n : Int) - PACKAGE_HEAD_SIZE - size) % (D.sizeT : Int)).toNat = n - packageEnd D size := by
  have he := packageEnd_eq hlo hhi hn h
  simp only [INT_MAX] at hn
  cases D <;> simp only [DataModel.sizeT] <;> omega

/-! ### What the operations do to the bytes received -/

/-- Growing the block keeps the bytes received. -/
theorem CheckBufferLength_received {r r' : BufferReader} {size : Nat}
    (h : r.CheckBufferLength size = some r') :
    r'.received = r.received ∧ r'.m_index = r.m_index := by
  unfold CheckBufferLength at h
  split at h
  · split at h
    · obtain rfl := Option.some.inj h
      refine ⟨span_congr fun i hi => ?_, rfl⟩
      have : i < r.m_buffer_size := Nat.lt_of_lt_of_le hi r.index_le
      simp [memcpy, this]
    · cases h
  · obtain rfl := Option.some.inj h
    exact ⟨rfl, rfl⟩

/-- `SetBuffer` appends what it is given. -/
theorem receive_received {r r' : BufferReader} {msg : List Byte} (h : r.receive msg = some r') :
    r'.received = r.received ++ msg := by
  unfold receive at h
  split at h
  · split at h
    · rename_i r₁ hr₁
      obtain ⟨hrec, -⟩ := CheckBufferLength_received hr₁
      split at h
      · obtain rfl := Option.some.inj h
        simp only [received] at hrec ⊢
        rw [span_add, span_memcpy_before (by omega), hrec, Nat.zero_add, span_memcpy,
          span_blockOf]
      · cases h
    · cases h
  · cases h

end BufferReader

end TestExamples
