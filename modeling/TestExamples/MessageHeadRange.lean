/-
TestExamples/MessageHeadRange.lean

Which ids the message head can carry, and which messages the server's
despatcher can take.

The id field is nine bytes wide and the counter of request ids is an `int` of
up to ten digits.  The three decoders differ in how much of the field they
take: `MyServer::DespatchMsg` and `MyClient::Handle` all of it,
`MyClient::OnMsg` one byte less, so that the terminator of eight digits is the
last byte the layout leaves alone.  A ninth digit is still there for the first
two (the copy of the command overwrites the terminator only), a tenth one is
overwritten by the command.

Main results: all three decoders read back what either encoder laid out
exactly when the id has at most eight digits (`decoded_iff`), and
the despatcher survives exactly the messages that are at least as long as the
head (`survives_iff`).  The copies of `EchoCmd` always stay within its block
(`exists_packEcho`).
-/
import TestExamples.MyClient

namespace TestExamples

/-! ### The decoders of the client -/

/-- What `MyClient::OnMsg` makes of a message: the id it looks up, and the
string it stores for the waiting `SyncSend`, cut into command and value where
`SyncSend` cuts it.  `none` where it drops the message. -/
def MyClient.parseReply (msg : List Byte) : Option MsgFields :=
  if msg.length ≤ MSG_HEAD_LENGTH then none
  else
    let result := msg.drop REQ_ID_LENGH
    some ⟨replyId msg, result.take CMD_LENGTH, result.drop CMD_LENGTH⟩

/-- A call of the application's `IClientCallBack`. -/
inductive MyClient.CallBack
  | OnConnection
  | OnMsg (m : MsgFields)
  deriving DecidableEq, Repr

/-- The message `MyClient::OnConnection` queues for the despatcher. -/
def MyClient.ON_CONNECTION_MSG : List Byte :=
  ['O', 'n', 'C', 'o', 'n', 'n', 'e', 'c', 't', 'i', 'o', 'n'].map Char.toUInt8

/-- `MyClient::Handle`: the call it makes, `some none` when it makes none,
`none` where `substr` throws.  The three slices are those of the server. -/
def MyClient.Handle (msg : List Byte) : Option (Option CallBack) :=
  if cstr msg = ON_CONNECTION_MSG then some (some .OnConnection)
  else if msg.length ≤ MSG_HEAD_LENGTH then some none
  else (MyServer.parseMsg msg).map fun m => some (.OnMsg m)

/-- A waiting `SyncSend` takes what `parseReply` says. -/
theorem MyClient.takeResult_of_OnMsg {s s' : MyClient} {t : Thread} {msg : List Byte} {id : Nat}
    {m : MsgFields} (hm : parseReply msg = some m) (hid : m.id = id) (hne : id ≠ 0)
    (hwait : s.GetSyscReqSem id = some t) (hs : s.OnMsg msg = some s') :
    (s'.takeResult id).1 = ⟨RJ_S_OK, m.cmd, m.value⟩ := by
  unfold parseReply at hm
  split at hm
  · cases hm
  · rename_i hlen
    obtain rfl := Option.some.inj hm
    have hreply : replyId msg = id := hid
    unfold OnMsg at hs
    rw [if_neg hlen] at hs
    dsimp only at hs
    rw [hreply, if_pos (by omega), hwait] at hs
    obtain ⟨n, -, rfl⟩ := Option.map_eq_some_iff.mp hs
    simp [takeResult]

/-! ### Reading the layout back -/

/-- The fields read are those that were laid out. -/
def MsgFields.Reads (m : MsgFields) (id : Nat) (cmd value : List Byte) : Prop :=
  m.id = id ∧ cstr m.cmd = cstr cmd ∧ m.value = value

/-- All three decoders read the fields. -/
structure Decoded (frame : List Byte) (id : Nat) (cmd value : List Byte) : Prop where
  DespatchMsg : ∃ m, MyServer.parseMsg frame = some m ∧ m.Reads id cmd value
  OnMsg : ∃ m, MyClient.parseReply frame = some m ∧ m.Reads id cmd value
  Handle : ∃ m, MyClient.Handle frame = some (some (.OnMsg m)) ∧ m.Reads id cmd value

/-- A message begins with a digit, so it is not taken for `OnConnection`. -/
theorem LaidOut.cstr_ne {frame cmd value : List Byte} {id : Nat} (h : LaidOut frame id cmd value) :
    cstr frame ≠ MyClient.ON_CONNECTION_MSG := by
  intro heq
  obtain ⟨rest, hrest⟩ := h.id_eq
  have hdigits := @isDigit_of_mem_decimal id
  rcases hdec : decimal id with - | ⟨d, ds⟩
  · exact decimal_ne_nil id hdec
  rcases frame with - | ⟨b, bs⟩
  · cases heq
  -- the first byte of both sides
  rw [hdec] at hrest hdigits
  have hb : b = d := (List.cons.inj hrest).1
  have hdigit : isDigit b = true := by
    rw [hb]
    exact hdigits d (List.mem_cons_self ..)
  by_cases hnul : b = 0
  · rw [hnul] at hdigit
    cases hdigit
  · rw [cstr, List.takeWhile_cons_of_pos (by simpa using hnul)] at heq
    have hO : b = 'O'.toUInt8 := (List.cons.inj heq).1
    rw [hO] at hdigit
    cases hdigit

section LaidOut

variable {frame cmd value : List Byte} {id : Nat}

theorem LaidOut.atoi_take_iff (h : LaidOut frame id cmd value) {n : Nat} (hpos : 1 ≤ n)
    (hn : n ≤ REQ_ID_LENGH) : atoi (frame.take n) = id ↔ id < 10 ^ n := by
  obtain ⟨rest, hrest⟩ := h.id_eq
  have hfield : frame.take n = (decimal id ++ 0 :: rest).take n := by
    rw [← Nat.min_eq_left hn, ← List.take_take, hrest, List.take_take]
  rw [hfield]
  exact atoi_take_decimal_iff hpos hn rest

/-- The server cuts the message where the layout put the fields. -/
theorem LaidOut.parseMsg (h : LaidOut frame id cmd value) :
    MyServer.parseMsg frame = some ⟨atoi (frame.take REQ_ID_LENGH), cmdField frame, value⟩ := by
  have hlen : MSG_HEAD_LENGTH ≤ frame.length := by
    rw [h.length_eq]
    exact Nat.le_add_right ..
  rw [parseMsg_of_le hlen, h.value_eq]

/-- So does the client, with a shorter id. -/
theorem LaidOut.parseReply (h : LaidOut frame id cmd value) (hvalue : value ≠ []) :
    MyClient.parseReply frame = some ⟨MyClient.replyId frame, cmdField frame, value⟩ := by
  have hpos := List.length_pos_of_ne_nil hvalue
  have hlen : ¬ frame.length ≤ MSG_HEAD_LENGTH := by
    rw [h.length_eq]
    omega
  have hcut : (frame.drop REQ_ID_LENGH).drop CMD_LENGTH = value := by
    rw [List.drop_drop]
    exact h.value_eq
  unfold MyClient.parseReply
  rw [if_neg hlen]
  dsimp only
  rw [hcut]
  rfl

theorem LaidOut.Handle (h : LaidOut frame id cmd value) (hvalue : value ≠ []) :
    MyClient.Handle frame =
      some (some (.OnMsg ⟨atoi (frame.take REQ_ID_LENGH), cmdField frame, value⟩)) := by
  have hpos := List.length_pos_of_ne_nil hvalue
  have hlen : ¬ frame.length ≤ MSG_HEAD_LENGTH := by
    rw [h.length_eq]
    omega
  unfold MyClient.Handle
  rw [if_neg h.cstr_ne, if_neg hlen, h.parseMsg]
  rfl

/-- **The decoders agree on eight digits.**  Nothing but the id can come out
wrong. -/
theorem LaidOut.decoded_iff_lt (h : LaidOut frame id cmd value)
    (hcmd : (cstr cmd).length < CMD_LENGTH) (hvalue : value ≠ []) :
    Decoded frame id cmd value ↔ id < 10 ^ 8 := by
  refine ⟨fun hdec => ?_, fun hid => ?_⟩
  · obtain ⟨m, hm, hmid, -⟩ := hdec.OnMsg
    rw [h.parseReply hvalue] at hm
    obtain rfl := Option.some.inj hm
    exact (h.atoi_take_iff (by decide) (by decide)).mp hmid
  · have hnine : atoi (frame.take REQ_ID_LENGH) = id :=
      (h.atoi_take_iff (by decide) (Nat.le_refl _)).mpr (hid.trans (by decide))
    have height : MyClient.replyId frame = id :=
      (h.atoi_take_iff (by decide) (by decide)).mpr hid
    have hfield := h.cmd_eq hcmd
    exact ⟨⟨_, h.parseMsg, hnine, hfield, rfl⟩, ⟨_, h.parseReply hvalue, height, hfield, rfl⟩,
      ⟨_, h.Handle hvalue, hnine, hfield, rfl⟩⟩

end LaidOut

/-! ### The whole range of ids -/

/-- An `int` has at most ten digits. -/
theorem to_string_length_of_int32 {id : Nat} (hid : id < 2 ^ 31) :
    (to_string id).length < MSG_HEAD_LENGTH :=
  (to_string_length_le (show 1 ≤ 10 by decide) (hid.trans (by decide))).trans_lt (by decide)

/-- **The ids the head can carry.**  Both encoders lay every message out, and
all decoders read it back exactly for ids of at most eight digits. -/
theorem decoded_iff (junk : Block) {id : Nat} {cmd value : List Byte} (hid : id < 2 ^ 31)
    (hnul : ∀ b ∈ cmd, b ≠ 0) (hcmd : cmd.length ≤ 30) (hvalue : value ≠ []) :
    ((∃ frame, MyClient.packSend junk cmd value id = some frame ∧ Decoded frame id cmd value) ↔
      id < 10 ^ 8) ∧
    ((∃ frame, MyServer.packEcho junk id cmd value = some frame ∧ Decoded frame id cmd value) ↔
      id < 10 ^ 8) := by
  have hlen : (cstr cmd).length < CMD_LENGTH := by
    rw [cstr_of_no_nul hnul]
    exact Nat.lt_succ_of_le hcmd
  obtain ⟨frame, hframe⟩ : ∃ frame, packMsg junk id cmd value = some frame :=
    exists_packMsg (to_string_length_of_int32 hid) hlen
  have hdec := (packMsg_laidOut hframe).decoded_iff_lt hlen hvalue
  suffices key : (∃ frame, packMsg junk id cmd value = some frame ∧ Decoded frame id cmd value) ↔
      id < 10 ^ 8 from ⟨key, key⟩
  rw [← hdec, hframe]
  refine ⟨?_, fun h => ⟨frame, rfl, h⟩⟩
  rintro ⟨frame', he, h⟩
  obtain rfl := Option.some.inj he
  exact h

theorem decoded_iff_seven :
    (∃ frame,
      MyClient.packSend (fun _ => 0xCD) SERVER_CMD_STX_COMMAND [1, 0] (7 : Nat) = some frame ∧
      Decoded frame 7 SERVER_CMD_STX_COMMAND [1, 0]) ∧
    ∃ frame,
      MyServer.packEcho (fun _ => 0xCD) (7 : Nat) SERVER_CMD_STX_COMMAND [1, 0] = some frame ∧
      Decoded frame 7 SERVER_CMD_STX_COMMAND [1, 0] :=
  have h := @decoded_iff (fun _ => 0xCD) 7 SERVER_CMD_STX_COMMAND [1, 0] (by decide)
    (by decide +kernel) (by decide) (by decide)
  ⟨h.1.mpr (by decide), h.2.mpr (by decide)⟩

/-- The hundred millionth request: `OnMsg` looks up its first eight digits. -/
theorem not_decoded : ¬ ∀ (junk : Block) (id : Nat) (cmd value : List Byte), 1 ≤ id → id < 2 ^ 31 →
    (∀ b ∈ cmd, b ≠ 0) → 1 ≤ cmd.length → cmd.length ≤ 30 → value ≠ [] →
    ∃ frame, MyClient.packSend junk cmd value id = some frame ∧ Decoded frame id cmd value := by
  intro h
  obtain ⟨frame, hframe, hdec⟩ := h (fun _ => 0xCD) (10 ^ 8) SERVER_CMD_STX_COMMAND [1]
    (by decide) (by decide) (by decide +kernel) (by decide) (by decide) (by decide)
  have hid := ((packMsg_laidOut hframe).decoded_iff_lt (by decide) (by decide)).mp hdec
  exact absurd hid (by decide)

/-! ### The messages the despatcher can take -/

/-- The copies of `EchoCmd` stay within its block. -/
theorem exists_packEcho {str : List Byte} {m : MsgFields}
    (h : MyServer.DespatchMsg str = some (some m)) (junk : Block) :
    ∃ frame, MyServer.packEcho junk m.id m.cmd m.value = some frame := by
  obtain ⟨m', hparse, hm⟩ := Option.map_eq_some_iff.mp h
  split at hm
  · rename_i hstx
    obtain rfl := Option.some.inj hm
    obtain ⟨reqIdStr, hreq, hparse⟩ := Option.bind_eq_some_iff.mp hparse
    obtain ⟨cmd, -, hparse⟩ := Option.bind_eq_some_iff.mp hparse
    obtain ⟨value, -, hparse⟩ := Option.bind_eq_some_iff.mp hparse
    obtain rfl := Option.some.inj hparse
    apply exists_packMsg
    · -- nine bytes hold a sign and at most nine digits
      have hlen : reqIdStr.length ≤ REQ_ID_LENGH := by
        unfold substr at hreq
        rw [if_pos (Nat.zero_le _)] at hreq
        obtain rfl := Option.some.inj hreq
        exact List.length_take_le ..
      exact (to_string_length_le (by decide) (natAbs_atoi_lt (by decide) hlen)).trans_lt (by decide)
    · rw [hstx]
      decide
  · cases hm

/-- `DespatchMsg` throws exactly where the head is not complete. -/
theorem DespatchMsg_ne_none_iff {str : List Byte} :
    MyServer.DespatchMsg str ≠ none ↔ MSG_HEAD_LENGTH ≤ str.length := by
  have hhead : MSG_HEAD_LENGTH = REQ_ID_LENGH + CMD_LENGTH := rfl
  unfold MyServer.DespatchMsg MyServer.parseMsg substr
  rw [if_pos (Nat.zero_le _), Option.bind_some]
  by_cases h₁ : REQ_ID_LENGH ≤ str.length
  · rw [if_pos h₁, Option.bind_some]
    by_cases h₂ : MSG_HEAD_LENGTH ≤ str.length
    · rw [if_pos h₂]
      exact iff_of_true nofun h₂
    · rw [if_neg h₂]
      exact iff_of_false (fun h => h rfl) h₂
  · rw [if_neg h₁]
    refine iff_of_false (fun h => h rfl) ?_
    omega

/-- The despatcher survives a message: `DespatchMsg` does not throw, and
`EchoCmd`, where it is called, writes inside its block. -/
def MyServer.Survives (str : List Byte) : Prop :=
  ∃ call, MyServer.DespatchMsg str = some call ∧
    ∀ m, call = some m → ∀ junk, ∃ frame, MyServer.packEcho junk m.id m.cmd m.value = some frame

/-- **What kills the despatcher.**  A message shorter than the head, and
nothing else. -/
theorem survives_iff (str : List Byte) :
    MyServer.Survives str ↔ MSG_HEAD_LENGTH ≤ str.length := by
  rw [← DespatchMsg_ne_none_iff]
  constructor
  · rintro ⟨call, hcall, -⟩
    rw [hcall]
    nofun
  · intro hne
    obtain ⟨call, hcall⟩ := Option.ne_none_iff_exists'.mp hne
    refine ⟨call, hcall, ?_⟩
    rintro m rfl junk
    exact exists_packEcho hcall junk

/-- The empty message: a peer sends a frame of length zero. -/
theorem not_survives : ¬ MyServer.Survives [] := by
  rintro ⟨call, hcall, -⟩
  cases hcall

end TestExamples
