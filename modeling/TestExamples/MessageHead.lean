/-
TestExamples/MessageHead.lean

The application message of the libuv test programs: a request id in decimal,
a command and a payload, in fields of fixed width.  MyServer.h and MyClient.h
define the widths twice, with the same values.

`packMsg` is the layout shared by `MyClient::Send` and `MyServer::EchoCmd`:
a block from `new char[]`, two `strcpy`s and a `memcpy`.  What `new char[]`
leaves in the block is arbitrary and stays behind the terminators; it is the
argument `junk` (`packMsg_spec` says which bytes are determined).

The two decoders differ: the server takes all nine bytes of the id field, the
client the first eight.
-/
import TestExamples.Lib.CString

namespace TestExamples

def REQ_ID_LENGH : Nat := 9
def CMD_LENGTH : Nat := 31
def MSG_HEAD_LENGTH : Nat := REQ_ID_LENGH + CMD_LENGTH

/-- `SERVER_CMD_STX_COMMAND`. -/
def SERVER_CMD_STX_COMMAND : List Byte :=
  ['S', 'T', 'X', '_', 'C', 'O', 'M', 'M', 'A', 'N', 'D'].map Char.toUInt8

/-! ### The encoders -/

/-- The common layout: id, command and payload in a block that holds `junk`.
`none` where a copy would leave the block. -/
def packMsg (junk : Block) (id : Int) (cmd value : List Byte) : Option (List Byte) :=
  (strcpy (span junk 0 (MSG_HEAD_LENGTH + value.length)) 0 (to_string id)).bind fun buf =>
    (strcpy buf REQ_ID_LENGH cmd).bind fun buf =>
      writeAt buf MSG_HEAD_LENGTH value

/-- The message `MyClient::Send` hands to the transport. -/
def MyClient.packSend (junk : Block) (cmd msg : List Byte) (reqId : Int) : Option (List Byte) :=
  packMsg junk reqId cmd msg

/-- The message `MyServer::EchoCmd` hands to the transport. -/
def MyServer.packEcho (junk : Block) (id : Int) (cmd value : List Byte) : Option (List Byte) :=
  packMsg junk id cmd value

/-! ### The decoders -/

/-- The three fields of a message. -/
structure MsgFields where
  id : Int
  cmd : List Byte
  value : List Byte
  deriving DecidableEq, Repr

/-- The parse of `MyServer::DespatchMsg`; `none` where `substr` throws. -/
def MyServer.parseMsg (str : List Byte) : Option MsgFields :=
  (substr str 0 REQ_ID_LENGH).bind fun reqIdStr =>
    (substr str REQ_ID_LENGH CMD_LENGTH).bind fun cmd =>
      (substr str MSG_HEAD_LENGTH (str.length - MSG_HEAD_LENGTH)).bind fun value =>
        some ⟨atoi reqIdStr, cmd, value⟩

/-- `MyServer::DespatchMsg`: the arguments of the call of `EchoCmd`, `some
none` when it makes none, `none` where it throws. -/
def MyServer.DespatchMsg (str : List Byte) : Option (Option MsgFields) :=
  (MyServer.parseMsg str).map fun m =>
    if cstr m.cmd = SERVER_CMD_STX_COMMAND then some m else none

/-- The id `MyClient::OnMsg` looks up. -/
def MyClient.replyId (msg : List Byte) : Int := atoi (msg.take (REQ_ID_LENGH - 1))

/-! ### What the layout determines -/

/-- The command field of a message. -/
def cmdField (frame : List Byte) : List Byte := (frame.drop REQ_ID_LENGH).take CMD_LENGTH

/-- `frame` is laid out for this id, command and payload.  The id field holds
as much of the decimal and its terminator as there is room for. -/
structure LaidOut (frame : List Byte) (id : Nat) (cmd value : List Byte) : Prop where
  length_eq : frame.length = MSG_HEAD_LENGTH + value.length
  id_eq : ∃ rest, frame.take REQ_ID_LENGH = (decimal id ++ 0 :: rest).take REQ_ID_LENGH
  cmd_eq : (cstr cmd).length < CMD_LENGTH → cstr (cmdField frame) = cstr cmd
  value_eq : frame.drop MSG_HEAD_LENGTH = value

/-- The block is large enough for an id and a command that fit the head. -/
theorem exists_packMsg {junk : Block} {id : Int} {cmd value : List Byte}
    (hid : (to_string id).length < MSG_HEAD_LENGTH) (hcmd : (cstr cmd).length < CMD_LENGTH) :
    ∃ frame, packMsg junk id cmd value = some frame := by
  have hids := cstr_length_le (to_string id)
  have hhead : MSG_HEAD_LENGTH = REQ_ID_LENGH + CMD_LENGTH := rfl
  obtain ⟨buf₁, h₁⟩ : ∃ buf, strcpy (span junk 0 (MSG_HEAD_LENGTH + value.length)) 0
      (to_string id) = some buf := by
    refine exists_writeAt ?_
    rw [span_length, List.length_append, List.length_singleton]
    omega
  have hlen₁ := writeAt_length h₁
  rw [span_length] at hlen₁
  obtain ⟨buf₂, h₂⟩ : ∃ buf, strcpy buf₁ REQ_ID_LENGH cmd = some buf := by
    refine exists_writeAt ?_
    rw [hlen₁, List.length_append, List.length_singleton]
    omega
  obtain ⟨frame, h₃⟩ : ∃ buf, writeAt buf₂ MSG_HEAD_LENGTH value = some buf := by
    refine exists_writeAt ?_
    rw [writeAt_length h₂, hlen₁]
  exact ⟨frame, by rw [packMsg, h₁, Option.bind_some, h₂, Option.bind_some, h₃]⟩

/-- **What `packMsg` lays out.** -/
theorem packMsg_laidOut {junk : Block} {id : Nat} {cmd value frame : List Byte}
    (h : packMsg junk id cmd value = some frame) : LaidOut frame id cmd value := by
  obtain ⟨buf₁, h₁, h⟩ := Option.bind_eq_some_iff.mp h
  obtain ⟨buf₂, h₂, h₃⟩ := Option.bind_eq_some_iff.mp h
  have hlen₁ := writeAt_length h₁
  have hlen₂ := writeAt_length h₂
  have hlen₃ := writeAt_length h₃
  rw [span_length] at hlen₁
  refine ⟨by omega, ?_, fun hcmd => ?_, ?_⟩
  · -- the id field: written first, and left alone by the two later copies
    have hids : cstr (to_string id) = decimal id := by
      rw [to_string_of_nonneg (by omega), Int.toNat_natCast, cstr_of_no_nul decimal_no_nul]
    have hid₁ := writeAt_drop h₁
    rw [hids, List.drop_zero, List.append_assoc] at hid₁
    rw [writeAt_take h₃ (by decide), writeAt_take h₂ (Nat.le_refl _), hid₁]
    exact ⟨_, rfl⟩
  · -- the command field: written second, before the payload
    have hcmd₂ := writeAt_drop h₂
    have hfield : cmdField frame = cmdField buf₂ := by
      have htake₃ : frame.take MSG_HEAD_LENGTH = buf₂.take MSG_HEAD_LENGTH :=
        writeAt_take h₃ (Nat.le_refl _)
      have hd := congrArg (List.drop REQ_ID_LENGH) htake₃
      rwa [List.drop_take, List.drop_take] at hd
    have hfit : (cstr cmd ++ [0]).length ≤ CMD_LENGTH := by
      rw [List.length_append]
      exact hcmd
    rw [hfield, cmdField, hcmd₂, List.take_append, List.take_of_length_le hfit, List.append_assoc]
    exact cstr_append_nul no_nul_of_mem_cstr _
  · -- the payload: written last
    rw [writeAt_drop h₃, List.drop_eq_nil_of_le (by omega), List.append_nil]

/-- `frame` carries the id `id` in decimal, followed by a NUL within the id
field, and the payload `value` behind the head. -/
structure Carries (frame : List Byte) (id : Nat) (value : List Byte) : Prop where
  length_eq : frame.length = MSG_HEAD_LENGTH + value.length
  id_eq : ∃ rest, frame = decimal id ++ 0 :: rest
  width : (decimal id).length < REQ_ID_LENGH
  value_eq : frame.drop MSG_HEAD_LENGTH = value

/-- With an id of at most eight digits the id and the payload can be read
back; a command that fits its field as well. -/
theorem packMsg_spec {junk : Block} {id : Nat} {cmd value frame : List Byte} (hid : id < 10 ^ 8)
    (h : packMsg junk id cmd value = some frame) :
    Carries frame id value ∧
      ((cstr cmd).length < CMD_LENGTH → cstr (cmdField frame) = cstr cmd) := by
  have hlaid := packMsg_laidOut h
  have hwidth : (decimal id).length ≤ 8 := decimal_length_le (by decide) hid
  have hpre : (decimal id ++ [0]).length ≤ REQ_ID_LENGH := by
    rw [List.length_append]
    exact Nat.succ_le_succ hwidth
  have hidf : ∃ rest, frame = decimal id ++ 0 :: rest := by
    obtain ⟨rest, hrest⟩ := hlaid.id_eq
    refine ⟨frame.drop (decimal id ++ [0]).length, ?_⟩
    have hcut : frame.take (decimal id ++ [0]).length = decimal id ++ [0] := by
      rw [← min_eq_left hpre, ← List.take_take, hrest, List.take_take, min_eq_left hpre,
        List.append_cons (decimal id) 0 rest, List.take_left]
    conv_lhs => rw [← List.take_append_drop (decimal id ++ [0]).length frame, hcut]
    simp
  exact ⟨⟨hlaid.length_eq, hidf, Nat.lt_succ_of_le hwidth, hlaid.value_eq⟩, hlaid.cmd_eq⟩

/-! ### Reading a message back -/

/-- The three slices of a message that is at least as long as the head. -/
theorem parseMsg_of_le {msg : List Byte} (hlen : MSG_HEAD_LENGTH ≤ msg.length) :
    MyServer.parseMsg msg =
      some ⟨atoi (msg.take REQ_ID_LENGH), cmdField msg, msg.drop MSG_HEAD_LENGTH⟩ := by
  have hhead : MSG_HEAD_LENGTH = 40 := rfl
  have hid : REQ_ID_LENGH = 9 := rfl
  have hvalue : (msg.drop MSG_HEAD_LENGTH).take (msg.length - MSG_HEAD_LENGTH) =
      msg.drop MSG_HEAD_LENGTH := by
    rw [List.take_of_length_le]
    rw [List.length_drop]
  unfold MyServer.parseMsg substr
  rw [if_pos (Nat.zero_le _), Option.bind_some, if_pos (by omega), Option.bind_some,
    if_pos (by omega), Option.bind_some, hvalue, List.drop_zero]
  rfl

section Carries

variable {frame value : List Byte} {id : Nat}

/-- The id field of any width that holds the digits is read as the id. -/
theorem Carries.atoi_take (h : Carries frame id value) {n : Nat} (hn : (decimal id).length ≤ n)
    (hn' : n ≤ REQ_ID_LENGH) : atoi (frame.take n) = id := by
  obtain ⟨rest, hrest⟩ := h.id_eq
  have hpos : 1 ≤ n := (List.length_pos_of_ne_nil (decimal_ne_nil id)).trans_le hn
  rw [hrest]
  exact (atoi_take_decimal_iff hpos hn' rest).mpr ((decimal_length_le_iff hpos).mp hn)

/-- The server reads the id, the command field and the payload. -/
theorem Carries.parseMsg (h : Carries frame id value) :
    MyServer.parseMsg frame = some ⟨id, cmdField frame, value⟩ := by
  have hlen : MSG_HEAD_LENGTH ≤ frame.length := by
    rw [h.length_eq]
    exact Nat.le_add_right ..
  rw [parseMsg_of_le hlen, h.atoi_take (Nat.le_of_lt h.width) (Nat.le_refl _), h.value_eq]

/-- The client reads the id. -/
theorem Carries.replyId (h : Carries frame id value) : MyClient.replyId frame = id :=
  h.atoi_take (Nat.le_of_lt_succ h.width) (by decide)

end Carries

end TestExamples
