/-
TestExamples/RJTcpClientReceiving.lean

What `RJTcpClient` makes of the bytes it reads.

`wire` is what the other side has written and the client has not read.  The bytes
in the reader and those on the wire are the packages of the messages `left`; a step
of the client hands over the first of them or none (`Receives.step`), however the
stream is cut into reads and whatever the sending side of the client does in
between.
-/
import TestExamples.LibUvHelperFrames
import TestExamples.RJTcpClientSession

namespace TestExamples

namespace ClientSession

variable {D : DataModel} {s s' : ClientSession} {a : Act} {es tr : List Event}
  {left : List (List Byte)} {wire wire' : List Byte}

/-- The messages handed to `m_callback`, in order. -/
def messagesIn (tr : List Event) : List (List Byte) :=
  tr.filterMap fun
    | .m_callback (.ON_MSG msg) => some msg
    | _ => none

/-- The wire after a step; `none` where the step reads other bytes than the next
ones. -/
def readWire (wire : List Byte) : Act → Option (List Byte)
  | .HandleMsg nread msg =>
      if 0 < nread then
        if msg.length ≤ READ_SIZE ∧ msg <+: wire then some (wire.drop msg.length) else none
      else some wire
  | _ => some wire

theorem messagesIn_append (tr es : List Event) :
    messagesIn (tr ++ es) = messagesIn tr ++ messagesIn es :=
  List.filterMap_append

/-- The messages `left` are in the reader and on the wire. -/
structure Receives (D : DataModel) (left : List (List Byte)) (wire : List Byte)
    (s : ClientSession) : Prop where
  stream : s.m_reader.received ++ wire = left.flatMap Msg2Package
  /-- outside of `SetBuffer` the reader holds no complete package -/
  waiting : s.inSetBuffer = false → nextPackage D s.m_reader.received = .more
  roomy : Roomy s.m_reader

/-- A reader without a complete package has room for another read. -/
theorem receive_of_stream {r : BufferReader} {zs : List Byte} (hroomy : Roomy r)
    (hfits : ∀ m ∈ left, Fits m) (h : r.received ++ zs = left.flatMap Msg2Package)
    (hmore : nextPackage D r.received = .more) {chunk : List Byte}
    (hlen : chunk.length ≤ READ_SIZE) : ∃ r', r.receive chunk = some r' ∧ Roomy r' := by
  refine receive_roomy chunk hroomy hlen ?_
  rw [← BufferReader.received_length]
  have hlens : ∀ m ∈ left, m.length < 2 ^ 31 := fun m hm => (hfits m hm).lt
  rcases (package_decodes D).next_of_append hlens h with
    ⟨-, hnil, hlt⟩ | ⟨m, ms, rest, -, hf, -⟩
  · rcases left with - | ⟨m, ms⟩
    · rw [hnil rfl, List.length_nil]
      unfold READ_SIZE at hlen
      omega
    · have hm := hfits m (List.mem_cons_self ..)
      have hlt := hlt m ms rfl
      rw [Msg2Package_length] at hlt
      unfold Fits at hm
      omega
  · rw [show (packageFraming D).next _ = _ from hmore] at hf
    cases hf

namespace Receives

theorem init : Receives D [] [] ClientSession.init where
  stream := rfl
  waiting := fun _ => rfl
  roomy := roomy_new

/-- The other side writes a package. -/
theorem write (h : Receives D left wire s) (msg : List Byte) :
    Receives D (left ++ [msg]) (wire ++ Msg2Package msg) s where
  stream := by
    rw [← List.append_assoc, h.stream, List.flatMap_append, List.flatMap_singleton]
  waiting := h.waiting
  roomy := h.roomy

/-- The reader stays as it is. -/
theorem keep (h : Receives D left wire s) (hreader : s'.m_reader = s.m_reader)
    (hin : s'.inSetBuffer = s.inSetBuffer) : Receives D left wire s' where
  stream := hreader ▸ h.stream
  waiting := hreader ▸ hin ▸ h.waiting
  roomy := hreader ▸ h.roomy

/-- A read callback with bytes. -/
theorem read (h : Receives D left wire s) (hfits : ∀ m ∈ left, Fits m) (hidle : s.Idle)
    {msg : List Byte} {r : BufferReader} (hr : s.m_reader.receive msg = some r)
    (hlen : msg.length ≤ READ_SIZE) (hpre : msg <+: wire) :
    Receives D left (wire.drop msg.length) { s with m_reader := r, inSetBuffer := true } where
  stream := by
    obtain ⟨rest, rfl⟩ := hpre
    show r.received ++ _ = _
    rw [List.drop_left, BufferReader.receive_received hr, List.append_assoc]
    exact h.stream
  waiting := nofun
  roomy := by
    obtain ⟨r', hr', hroomy⟩ := receive_of_stream h.roomy hfits h.stream (h.waiting hidle.2) hlen
    obtain rfl := Option.some.inj (hr.symm.trans hr')
    exact hroomy

/-- The sending side hands over nothing. -/
theorem messagesIn_cli (es : List RJTcpClient.Event) : messagesIn (es.map .cli) = [] := by
  refine List.filterMap_eq_nil_iff.mpr fun e he => ?_
  obtain ⟨e, -, rfl⟩ := List.mem_map.mp he
  rfl

/-- A package becomes a call of `m_callback`. -/
theorem messagesIn_deliver (msg : List Byte) :
    messagesIn [.m_callback (OnMsg (.deliver msg))] = [msg] := by
  have hcall : OnMsg (.deliver msg) = .ON_MSG msg := by
    show (if (msg.length : Int) < 0 then Notice.ON_ERROR else .ON_MSG msg) = _
    rw [if_neg (Int.not_lt.mpr (Int.natCast_nonneg msg.length))]
  rw [hcall]
  rfl

/-- One evaluation of the loop of `SetBuffer`. -/
theorem evaluate (h : Receives D left wire s) (hfits : ∀ m ∈ left, Fits m)
    (hin : s.inSetBuffer = true) (hs : s.SetBufferPass D = some (s', es)) :
    ∃ left', left = messagesIn es ++ left' ∧ Receives D left' wire s' := by
  have hlens : ∀ m ∈ left, m.length < 2 ^ 31 := fun m hm => (hfits m hm).lt
  unfold SetBufferPass at hs
  rcases pass_of_stream hlens h.stream with ⟨hstop, hmore⟩ | ⟨m, ms, r, hleft, hp, hrest, hsize⟩
  -- the loop comes to its end: what is left is not a whole package
  · refine ⟨left, ?_⟩
    rcases hstop with hp | hp
    · rw [hp] at hs
      obtain ⟨rfl, rfl⟩ := Prod.mk.inj (Option.some.inj hs)
      exact ⟨rfl, h.stream, fun _ => hmore, h.roomy⟩
    · rw [hp] at hs
      obtain ⟨rfl, rfl⟩ := Prod.mk.inj (Option.some.inj hs)
      exact ⟨rfl, h.stream, fun _ => hmore, h.roomy⟩
  · rw [hp] at hs
    obtain ⟨rfl, rfl⟩ := Prod.mk.inj (Option.some.inj hs)
    refine ⟨ms, ?_, hrest, fun hout => ?_, ?_⟩
    · rw [hleft, messagesIn_deliver]
      rfl
    · rw [show s.inSetBuffer = false from hout] at hin
      cases hin
    · obtain ⟨n, hlo, hhi, hn⟩ := h.roomy
      exact ⟨n, hlo, hhi, hsize.trans hn⟩

/-- **The client hands over the next message or none.** -/
theorem step (h : Receives D left wire s) (hfits : ∀ m ∈ left, Fits m)
    (hw : readWire wire a = some wire') (hs : s.step D a = some (s', es)) :
    ∃ left', left = messagesIn es ++ left' ∧ Receives D left' wire' s' := by
  cases a with
  | cli a =>
      obtain rfl := Option.some.inj hw
      refine ⟨left, ?_, ?_⟩
      · cases moves_of_cli hs with
        | connectFailed | connected => rfl
        | drain | walked | cli => rw [messagesIn_cli, List.nil_append]
      · cases moves_of_cli hs <;> exact h.keep rfl rfl
  | HandleMsg nread msg =>
      obtain ⟨⟨hidle, -⟩, hmsg⟩ := Option.ite_none_right_eq_some.mp hs
      cases moves_of_HandleMsg hs with
      | received _ hn hr =>
          obtain ⟨⟨hlen, hpre⟩, hw⟩ :=
            Option.ite_none_right_eq_some.mp ((if_pos hn).symm.trans hw)
          obtain rfl := Option.some.inj hw
          exact ⟨left, rfl, h.read hfits hidle hr hlen hpre⟩
      | ended _ hn =>
          obtain rfl := Option.some.inj ((if_neg (Int.not_lt.mpr hn)).symm.trans hw)
          exact ⟨left, rfl, h.keep rfl rfl⟩
  | pass =>
      obtain rfl := Option.some.inj hw
      obtain ⟨hin, hs⟩ := Option.ite_none_right_eq_some.mp hs
      exact h.evaluate hfits hin hs
  | drainFailed ret =>
      obtain rfl := Option.some.inj hw
      cases moves_of_step hs
      exact ⟨left, rfl, h.keep rfl rfl⟩
  | AfterSend status =>
      obtain rfl := Option.some.inj hw
      cases moves_of_step hs
      refine ⟨left, ?_, h.keep rfl rfl⟩
      split_ifs <;> rfl

end Receives

end ClientSession

end TestExamples
