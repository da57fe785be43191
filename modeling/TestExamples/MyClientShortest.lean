/-
TestExamples/MyClientShortest.lean

The shortest message between server and client.

`MyClient::Send` and `MyServer::EchoCmd` lay out a message for a payload of any
length, the empty one included, and `MyServer::DespatchMsg` answers it.
`MyClient::OnMsg` and `MyClient::Handle` drop what is not longer than the head.
So the answer to a request without a payload is lost, and it is the only one
(`delivered_iff`).
-/
import TestExamples.MessageHeadRange
import TestExamples.MyClientRegistry

namespace TestExamples

namespace MyClient

/-- `OnMsg` gives the frame to the call registered under its id, or appends it
to `m_receiveMsgVec`; `Handle` reports it. -/
structure Delivered (s : MyClient) (frame : List Byte) (id : Nat) (cmd value : List Byte) :
    Prop where
  kept : ∃ s', s.OnMsg frame = some s' ∧
    ((∃ t n, s.GetSyscReqSem id = some t ∧ s.sems t = some n ∧ s'.sems t = some (n + 1) ∧
        s'.m_reqResultMap id = some (frame.drop REQ_ID_LENGH)) ∨
      s'.m_receiveMsgVec = s.m_receiveMsgVec ++ [frame])
  reported : ∃ m, Handle frame = some (some (.OnMsg m)) ∧ m.id = id ∧ m.value = value ∧
    ((cstr cmd).length < CMD_LENGTH → cstr m.cmd = cstr cmd)

variable {s : MyClient} {tr : List Event} {frame cmd value : List Byte} {id : Nat}

/-- A frame that is no longer than the head is dropped. -/
theorem not_delivered_of_short (hlen : frame.length ≤ MSG_HEAD_LENGTH) :
    ¬ Delivered s frame id cmd value := by
  rintro ⟨⟨s', hs, hkept⟩, -⟩
  unfold OnMsg at hs
  rw [if_pos hlen] at hs
  obtain rfl := Option.some.inj hs
  rcases hkept with ⟨t, n, -, hsem, hsem', -⟩ | hvec
  · rw [hsem] at hsem'
    exact absurd (Option.some.inj hsem') (Nat.ne_of_lt (Nat.lt_succ_self n))
  · exact absurd (List.append_right_eq_self.mp hvec.symm) (List.cons_ne_nil _ _)

/-- Whatever `OnMsg` does with a longer one, it keeps it. -/
theorem kept_of_long (h : machine.Run AnyStep tr s) (hid : replyId frame = id)
    (hlen : MSG_HEAD_LENGTH < frame.length) :
    ∃ s', s.OnMsg frame = some s' ∧
      ((∃ t n, s.GetSyscReqSem id = some t ∧ s.sems t = some n ∧ s'.sems t = some (n + 1) ∧
          s'.m_reqResultMap id = some (frame.drop REQ_ID_LENGH)) ∨
        s'.m_receiveMsgVec = s.m_receiveMsgVec ++ [frame]) := by
  obtain ⟨s', hs⟩ := Option.isSome_iff_exists.mp ((Registry.of_run h).safe.alive frame)
  refine ⟨s', hs, ?_⟩
  cases files_of_OnMsg hs with
  | short hshort => exact absurd hlen (Nat.not_lt.mpr hshort)
  | @stored t n hreg hsem =>
      rw [hid] at hreg
      refine .inl ⟨t, n, hreg, hsem, Function.update_self .., ?_⟩
      show Function.update s.m_reqResultMap (replyId frame) _ id = _
      rw [hid, Function.update_self]
  | queued => exact .inr rfl

theorem delivered_iff_of_laidOut (h : machine.Run AnyStep tr s) (hid : id < 10 ^ 8)
    (hf : LaidOut frame id cmd value) : Delivered s frame id cmd value ↔ value ≠ [] := by
  constructor
  · rintro hd rfl
    exact not_delivered_of_short hf.length_eq.le hd
  · intro hvalue
    have hpos := List.length_pos_of_ne_nil hvalue
    have hlen : MSG_HEAD_LENGTH < frame.length := by
      rw [hf.length_eq]
      omega
    have height : replyId frame = id := (hf.atoi_take_iff (by decide) (by decide)).mpr hid
    have hnine : atoi (frame.take REQ_ID_LENGH) = id :=
      (hf.atoi_take_iff (by decide) (Nat.le_refl _)).mpr (hid.trans (by decide))
    exact ⟨kept_of_long h height hlen, _, hf.Handle hvalue, hnine, rfl, hf.cmd_eq⟩

/-- The answer to a request is laid out for its id and payload, and for the
command the server has read. -/
theorem laidOut_echo {junk junk' : Block} {req : List Byte} {m : MsgFields} (hid : id < 10 ^ 8)
    (hreq : packSend junk cmd value id = some req)
    (hm : MyServer.DespatchMsg req = some (some m))
    (hecho : MyServer.packEcho junk' m.id m.cmd m.value = some frame) :
    LaidOut frame id m.cmd value := by
  have hf := packMsg_laidOut hreq
  obtain ⟨m', hparse, hcmd⟩ := Option.map_eq_some_iff.mp hm
  split at hcmd
  · obtain rfl := Option.some.inj hcmd
    rw [hf.parseMsg, (hf.atoi_take_iff (by decide) (Nat.le_refl _)).mpr (hid.trans (by decide))]
      at hparse
    obtain rfl := Option.some.inj hparse
    exact packMsg_laidOut hecho
  · cases hcmd

/-- **The shortest message.**  In every state of the client, a message with an id
of at most eight digits is kept and reported if and only if it has a payload; in
particular the answer to a request. -/
theorem delivered_iff (h : machine.Run AnyStep tr s) (hid : id < 10 ^ 8) (cmd value : List Byte) :
    (∀ frame, LaidOut frame id cmd value → (Delivered s frame id cmd value ↔ value ≠ [])) ∧
      ∀ junk junk' req m frame, packSend junk cmd value id = some req →
        MyServer.DespatchMsg req = some (some m) →
        MyServer.packEcho junk' m.id m.cmd m.value = some frame →
        (Delivered s frame id m.cmd value ↔ value ≠ []) :=
  ⟨fun _ hf => delivered_iff_of_laidOut h hid hf, fun _ _ _ _ _ hreq hm hecho =>
    delivered_iff_of_laidOut h hid (laidOut_echo hid hreq hm hecho)⟩

/-- The answer to a request with a payload of one byte, while the call waits. -/
theorem delivered_iff_one : ∃ tr s frame,
    machine.Run AnyStep tr s ∧ s.GetSyscReqSem 1 = some 5 ∧
      MyServer.packEcho (fun _ => 0xCD) (1 : Nat) SERVER_CMD_STX_COMMAND [0x61] = some frame ∧
      Delivered s frame 1 SERVER_CMD_STX_COMMAND [0x61] := by
  obtain ⟨tr, s, hrun, hp⟩ := machine.run_of_exec AnyStep
    [.syncSend 5 SERVER_CMD_STX_COMMAND [0x61], .register 5]
    (fun q => decide (q.1.GetSyscReqSem 1 = some 5)) (by decide +kernel)
  obtain ⟨frame, hframe⟩ := @exists_packMsg (fun _ => 0xCD) (1 : Nat) SERVER_CMD_STX_COMMAND [0x61]
    (to_string_length_of_int32 (by decide)) (by decide)
  have hiff := (delivered_iff hrun (by decide) SERVER_CMD_STX_COMMAND [0x61]).1 frame
    (packMsg_laidOut hframe)
  exact ⟨tr, s, frame, hrun, of_decide_eq_true hp, hframe, hiff.mpr (by decide)⟩

/-- A request without a payload: its answer is no longer than the head. -/
theorem not_delivered : ¬ ∀ tr s (id : Nat) cmd value junk junk' req m frame,
    machine.Run AnyStep tr s → 1 ≤ id → id < 10 ^ 8 → packSend junk cmd value id = some req →
    MyServer.DespatchMsg req = some (some m) →
    MyServer.packEcho junk' m.id m.cmd m.value = some frame →
    Delivered s frame id m.cmd value := by
  intro h
  obtain ⟨req, hreq⟩ := @exists_packMsg (fun _ => 0xCD) (1 : Nat) SERVER_CMD_STX_COMMAND []
    (to_string_length_of_int32 (by decide)) (by decide)
  have hf := packMsg_laidOut hreq
  have hm : MyServer.DespatchMsg req =
      some (some ⟨atoi (req.take REQ_ID_LENGH), cmdField req, []⟩) := by
    rw [MyServer.DespatchMsg, hf.parseMsg, Option.map_some, if_pos]
    exact (hf.cmd_eq (by decide)).trans (by decide)
  obtain ⟨frame, hecho⟩ := exists_packEcho hm (fun _ => 0xCD)
  have hd := h [] init 1 SERVER_CMD_STX_COMMAND [] (fun _ => 0xCD) (fun _ => 0xCD) req _ frame
    .start (by decide) (by decide) hreq hm hecho
  have hlen := (laidOut_echo (by decide) hreq hm hecho).length_eq
  exact not_delivered_of_short hlen.le hd

end MyClient

end TestExamples
