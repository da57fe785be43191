/-
TestExamples/WebsocketRecords.lean

The records in the send buffers of websock_net/WebsocketServer.cpp.

The producer appends a record to a string, a `MsgHead` and `LWS_PRE` bytes of
padding before the payload; the consumer finds it again by pointer arithmetic.
`MsgHead` is copied from memory and read in place: two `int`s of four bytes,
the least significant byte first.

`appendRecord` is the writing as `MetaSend` does it, a `resize` and two copies
into the string; `appendRecord_eq` says what it comes to, and `typeAt_record`
and its companions that the consumer finds what was written.
-/
import TestExamples.Lib.CString

namespace TestExamples

def LWS_PRE : Nat := 16

/-- `sizeof(MsgHead)`. -/
def SIZEOF_MsgHead : Nat := 8

def SERVRE_CACHE_MAX : Nat := 16 * 1024 * 1024

/-- `MsgHead::Type`. -/
inductive MsgType
  | Text
  | Binary
  | Ping
  | Close
  deriving DecidableEq, Repr

def MsgType.code : MsgType → Nat
  | .Text => 0
  | .Binary => 1
  | .Ping => 2
  | .Close => 3

structure MsgHead where
  type_ : MsgType
  len_ : Nat

/-- What is sent: the kind of a message and its payload. -/
structure Record where
  type_ : MsgType
  payload : List Byte
  deriving DecidableEq, Repr

/-! ### Writing -/

/-- An `int` in memory. -/
def intBytes (n : Nat) : List Byte := [wordByte n 0, wordByte n 1, wordByte n 2, wordByte n 3]

def MsgHead.bytes (head : MsgHead) : List Byte := intBytes head.type_.code ++ intBytes head.len_

/-- `std::string::resize`. -/
def resize (s : List Byte) (n : Nat) : List Byte := s.take n ++ List.replicate (n - s.length) 0

/-- The part of `MetaSend` that writes a record behind what is in the buffer. -/
def appendRecord (sendBuf : List Byte) (type : MsgType) (message : List Byte) :
    Option (List Byte) :=
  let head : MsgHead := ⟨type, LWS_PRE + message.length⟩
  let oldLen := sendBuf.length
  (writeAt (resize sendBuf (oldLen + SIZEOF_MsgHead + head.len_)) oldLen head.bytes).bind
    fun sendBuf =>
      if message.length > 0 then writeAt sendBuf (oldLen + SIZEOF_MsgHead + LWS_PRE) message
      else some sendBuf

/-- The bytes of a record. -/
def Record.bytes (r : Record) : List Byte :=
  (MsgHead.mk r.type_ (LWS_PRE + r.payload.length)).bytes ++ List.replicate LWS_PRE 0 ++ r.payload

/-- The bytes of records one after the other. -/
def recordBytes (rs : List Record) : List Byte := rs.flatMap Record.bytes

theorem MsgHead.bytes_length (head : MsgHead) : head.bytes.length = SIZEOF_MsgHead := rfl

theorem Record.bytes_length (r : Record) :
    r.bytes.length = SIZEOF_MsgHead + (LWS_PRE + r.payload.length) := by
  simp only [Record.bytes, List.length_append, MsgHead.bytes_length, List.length_replicate,
    Nat.add_assoc]

theorem recordBytes_append (rs qs : List Record) :
    recordBytes (rs ++ qs) = recordBytes rs ++ recordBytes qs :=
  List.flatMap_append

theorem recordBytes_cons (r : Record) (rs : List Record) :
    recordBytes (r :: rs) = r.bytes ++ recordBytes rs := rfl

theorem recordBytes_concat (rs : List Record) (r : Record) :
    recordBytes (rs ++ [r]) = recordBytes rs ++ r.bytes := by
  rw [recordBytes_append, recordBytes_cons]
  exact congrArg (recordBytes rs ++ ·) (List.append_nil _)

/-- **What `MetaSend` writes**: the record, behind what was there. -/
theorem appendRecord_eq (sendBuf : List Byte) (type : MsgType) (message : List Byte) :
    appendRecord sendBuf type message = some (sendBuf ++ (Record.mk type message).bytes) := by
  have hresize : resize sendBuf (sendBuf.length + SIZEOF_MsgHead + (LWS_PRE + message.length)) =
      sendBuf ++ (List.replicate SIZEOF_MsgHead 0 ++
        (List.replicate LWS_PRE 0 ++ List.replicate message.length 0)) := by
    unfold resize
    rw [List.take_of_length_le (by omega), ← List.replicate_add, ← List.replicate_add,
      Nat.add_assoc, Nat.add_sub_cancel_left]
  -- the head goes over the first bytes of the new part, the message over the last
  unfold appendRecord
  dsimp only
  rw [hresize, writeAt_middle (by rw [List.length_replicate, MsgHead.bytes_length]) rfl,
    Option.bind_some]
  rcases Nat.eq_zero_or_pos message.length with hz | hpos
  · obtain rfl := List.eq_nil_of_length_eq_zero hz
    simp [Record.bytes]
  · have hassoc : sendBuf ++ ((MsgHead.mk type (LWS_PRE + message.length)).bytes ++
        (List.replicate LWS_PRE 0 ++ List.replicate message.length 0)) =
        (sendBuf ++ (MsgHead.mk type (LWS_PRE + message.length)).bytes ++
          List.replicate LWS_PRE 0) ++ (List.replicate message.length 0 ++ []) := by
      simp
    rw [if_pos hpos, hassoc, writeAt_middle (by simp) (by simp [MsgHead.bytes_length]; rfl)]
    simp [Record.bytes]

/-! ### Reading -/

/-- The `int` at a position. -/
def intAt (s : List Byte) (pos : Nat) : Int :=
  toInt32 (word32 (s.getD (pos + 3) 0) (s.getD (pos + 2) 0) (s.getD (pos + 1) 0) (s.getD pos 0))

/-- `pHead->type_` and `pHead->len_`, where `pHead` points to `pos`. -/
def typeAt (s : List Byte) (pos : Nat) : Int := intAt s pos
def lenAt (s : List Byte) (pos : Nat) : Int := intAt s (pos + 4)

/-- The bytes handed to `lws_write` for the record at `pos`. -/
def payloadAt (s : List Byte) (pos : Nat) : List Byte :=
  (s.drop (pos + SIZEOF_MsgHead + LWS_PRE)).take (lenAt s pos - LWS_PRE).toNat

theorem intAt_intBytes {xs ys : List Byte} {n : Nat} (h : n < 2 ^ 31) :
    intAt (xs ++ (intBytes n ++ ys)) xs.length = n := by
  have hget : ∀ k, (xs ++ (intBytes n ++ ys)).getD (xs.length + k) 0 =
      (intBytes n ++ ys).getD k 0 := by
    intro k
    rw [List.getD_eq_getElem?_getD, List.getD_eq_getElem?_getD,
      List.getElem?_append_right (by omega), Nat.add_sub_cancel_left]
  unfold intAt
  rw [hget 3, hget 2, hget 1, show xs.length = xs.length + 0 from rfl, hget 0]
  show toInt32 (word32 (wordByte n 3) (wordByte n 2) (wordByte n 1) (wordByte n 0)) = n
  rw [word32_wordByte, Nat.mod_eq_of_lt (by omega), toInt32_of_lt h]

section Record

variable {r : Record} (xs ys : List Byte)

/-- The size field of the record is an `int`. -/
def Record.Small (r : Record) : Prop := LWS_PRE + r.payload.length < 2 ^ 31

theorem small_concat {rs : List Record} (hrs : ∀ q ∈ rs, q.Small) (hr : r.Small) :
    ∀ q ∈ rs ++ [r], q.Small := by
  intro q hq
  rcases List.mem_append.mp hq with hq | hq
  · exact hrs q hq
  · rwa [List.mem_singleton.mp hq]

theorem typeAt_record : typeAt (xs ++ (r.bytes ++ ys)) xs.length = r.type_.code := by
  have hcode : r.type_.code < 2 ^ 31 := by cases r.type_ <;> decide
  unfold typeAt Record.bytes MsgHead.bytes
  rw [List.append_assoc, List.append_assoc, List.append_assoc]
  exact intAt_intBytes hcode

theorem lenAt_record (h : r.Small) :
    lenAt (xs ++ (r.bytes ++ ys)) xs.length = (LWS_PRE + r.payload.length : Nat) := by
  have hsplit : xs ++ (r.bytes ++ ys) = (xs ++ intBytes r.type_.code) ++
      (intBytes (LWS_PRE + r.payload.length) ++
        (List.replicate LWS_PRE 0 ++ r.payload ++ ys)) := by
    simp [Record.bytes, MsgHead.bytes]
  unfold lenAt
  rw [hsplit, show xs.length + 4 = (xs ++ intBytes r.type_.code).length by
    rw [List.length_append]; rfl]
  exact intAt_intBytes h

theorem payloadAt_record (h : r.Small) :
    payloadAt (xs ++ (r.bytes ++ ys)) xs.length = r.payload := by
  have hsplit : xs ++ (r.bytes ++ ys) =
      (xs ++ (MsgHead.mk r.type_ (LWS_PRE + r.payload.length)).bytes ++
        List.replicate LWS_PRE 0) ++ (r.payload ++ ys) := by
    simp [Record.bytes]
  have hpos : xs.length + SIZEOF_MsgHead + LWS_PRE =
      (xs ++ (MsgHead.mk r.type_ (LWS_PRE + r.payload.length)).bytes ++
        List.replicate LWS_PRE 0).length := by
    rw [List.length_append, List.length_append, MsgHead.bytes_length, List.length_replicate]
  unfold payloadAt
  rw [lenAt_record xs ys h, hpos, hsplit, List.drop_left]
  have hlen : (((LWS_PRE + r.payload.length : Nat) : Int) - (LWS_PRE : Nat)).toNat =
      r.payload.length := by omega
  rw [hlen, List.take_left]

/-- **Reading record after record**: at the end of the records read so far stand
the kind and the payload of the next one, and its length leads to its end. -/
theorem record_at {done rest : List Record} (h : r.Small) {pos : Nat}
    (hpos : pos = (recordBytes done).length) :
    typeAt (recordBytes (done ++ r :: rest)) pos = r.type_.code ∧
      payloadAt (recordBytes (done ++ r :: rest)) pos = r.payload ∧
      pos + SIZEOF_MsgHead + (lenAt (recordBytes (done ++ r :: rest)) pos).toNat =
        (recordBytes (done ++ [r])).length := by
  have hsplit : recordBytes (done ++ r :: rest) =
      recordBytes done ++ (r.bytes ++ recordBytes rest) := by
    rw [recordBytes_append, recordBytes_cons]
  rw [hpos, hsplit]
  refine ⟨typeAt_record _ _, payloadAt_record _ _ h, ?_⟩
  rw [lenAt_record _ _ h, Int.toNat_natCast, recordBytes_append, List.length_append,
    recordBytes_cons, List.length_append, r.bytes_length,
    show (recordBytes []).length = 0 from rfl]
  omega

end Record

/-- Fewer bytes than a head are left only where nothing is. -/
theorem rest_eq_nil {done rest : List Record}
    (h : (recordBytes (done ++ rest)).length < (recordBytes done).length + SIZEOF_MsgHead) :
    rest = [] := by
  rcases rest with - | ⟨r, rest⟩
  · rfl
  · rw [recordBytes_append, recordBytes_cons, List.length_append, List.length_append,
      r.bytes_length] at h
    omega

end TestExamples
