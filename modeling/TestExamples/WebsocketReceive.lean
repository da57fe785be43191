/-
TestExamples/WebsocketReceive.lean

The receiving side of websock_net: `LWS_CALLBACK_RECEIVE` of
WebsocketServer.cpp and `LWS_CALLBACK_CLIENT_RECEIVE` of WebsocketClient.cpp.

libwebsockets delivers a message as one callback or several.  Both functions
collect the fragments in `receive_` and call a handler at the final one.  The
first fragment takes a way out of its own, before the test for the final one:
a message that is delivered as a whole stays in `receive_`, and the next one is
put behind it.  The client's copy passes the last fragment to the handler
where the server's passes all of `receive_`.

`Reassembles` asks for one call per message.  `reassembles_iff` says for which
messages there is one.
-/
import TestExamples.Lib.Bytes
import TestExamples.Lib.Machine
import TestExamples.WebsocketRecords

namespace TestExamples

/-- What a callback is given, and what it asks libwebsockets for. -/
structure Callback where
  isFirst : Bool
  isFinal : Bool
  isBinary : Bool
  remaining : Nat
  data : List Byte

/-- The receiving part of `ServerInOut` and `ClientInOut`. -/
structure Receiving where
  receive_ : List Byte
  bframe_ : Bool
  isBinary_ : Bool

/-- The handlers, as members of `WebsocketServer` and of `WebSock`. -/
inductive Received
  | TextReceived (message : List Byte) (len : Int)
  | BinaryReceived (message : List Byte) (len : Int)
  | TextFrameReceived (message : List Byte) (len : Int) (isLast : Bool)
  | BinaryFrameReceived (message : List Byte) (len : Int) (isLast : Bool)
  deriving DecidableEq, Repr

/-- A `size_t` passed as an `int`. -/
def sizeToInt (n : Nat) : Int := toInt32 (n % 2 ^ 32)

/-- What both functions do with a fragment.  `frame` selects what the handlers
of frames are given, from `receive_` and the fragment; -1 is `none`. -/
def onReceive (frame : List Byte → List Byte → List Byte) (inout : Receiving) (cb : Callback) :
    Option (Receiving × List Received) :=
  if cb.remaining > SERVRE_CACHE_MAX then none
  else
    let receive_ := inout.receive_ ++ cb.data
    if cb.isFirst then some (⟨receive_, true, cb.isBinary⟩, [])
    else if !cb.isFinal then some ({ inout with receive_ := receive_ }, [])
    else if 0 = cb.remaining then
      let part := frame receive_ cb.data
      let call : Received :=
        if !inout.bframe_ then
          if cb.isBinary then .BinaryReceived receive_ (sizeToInt receive_.length)
          else .TextReceived receive_ (sizeToInt receive_.length)
        else
          if inout.isBinary_ then .BinaryFrameReceived part (sizeToInt part.length) cb.isFinal
          else .TextFrameReceived part (sizeToInt part.length) cb.isFinal
      some ({ inout with receive_ := [], bframe_ := false }, [call])
    else some ({ inout with receive_ := receive_ }, [])

def Receiving.new : Receiving := ⟨[], false, false⟩

/-- The callbacks of one connection, by what the handlers of frames are given. -/
def assembler (frame : List Byte → List Byte → List Byte) : Machine Receiving Callback Received :=
  ⟨.new, onReceive frame⟩

namespace WebsocketServer

/-- `LWS_CALLBACK_RECEIVE`. -/
def receive : Receiving → Callback → Option (Receiving × List Received) :=
  onReceive fun receive_ _ => receive_

def receiver : Machine Receiving Callback Received := ⟨.new, receive⟩

end WebsocketServer

/-- The address of a `WebSock`. -/
abbrev WebSock := Nat

/-- The receiving part of `ClientInOut`, with the `WebSock` the handlers of
which are called. -/
structure ClientReceiving where
  inout : Receiving
  websock_ : Option WebSock

namespace WebsocketClient

/-- `LWS_CALLBACK_CLIENT_RECEIVE`, where `registered` is the `WebSock` in
`client_message_cache_`. -/
def receive (registered : Option WebSock) (c : ClientReceiving) (cb : Callback) :
    Option (ClientReceiving × List Received) :=
  match c.websock_.or registered with
  | some websock =>
      (onReceive (fun _ data => data) c.inout cb).map fun p => (⟨p.1, some websock⟩, p.2)
  | none => some (c, [])

/-- The callbacks of one connection, from `LWS_CALLBACK_CLIENT_ESTABLISHED` on. -/
def receiver (registered : Option WebSock) : Machine ClientReceiving Callback Received :=
  ⟨⟨.new, registered⟩, receive registered⟩

end WebsocketClient

/-! ### Messages -/

structure Fragment where
  data : List Byte
  remaining : Nat

/-- A message as libwebsockets delivers it. -/
structure Message where
  binary : Bool
  fragments : List Fragment
  nonempty : fragments ≠ []
  last : (fragments.getLast nonempty).remaining = 0
  remaining : ∀ f ∈ fragments, f.remaining ≤ SERVRE_CACHE_MAX
  total : (fragments.flatMap Fragment.data).length ≤ SERVRE_CACHE_MAX

/-- The callbacks for fragments, of which only the last is final. -/
def callbacks (binary first : Bool) : List Fragment → List Callback
  | [] => []
  | f :: fs => ⟨first, fs.isEmpty, binary, f.remaining, f.data⟩ :: callbacks binary false fs

namespace Message

def payload (m : Message) : List Byte := m.fragments.flatMap Fragment.data

def callbacks (m : Message) : List Callback := TestExamples.callbacks m.binary true m.fragments

/-- The last fragment. -/
def lastData (m : Message) : List Byte := (m.fragments.getLast m.nonempty).data

end Message

/-- What a handler is told: the kind of the message, its bytes and their
number. -/
structure Delivery where
  binary : Bool
  message : List Byte
  len : Int

def Received.delivery : Received → Delivery
  | .TextReceived message len | .TextFrameReceived message len _ => ⟨false, message, len⟩
  | .BinaryReceived message len | .BinaryFrameReceived message len _ => ⟨true, message, len⟩

def Message.delivery (m : Message) : Delivery := ⟨m.binary, m.payload, m.payload.length⟩

variable {σ : Type*}

/-- Each message in turn leads to exactly one call of a handler, with the kind
and the bytes of the message, and leaves `receive_` empty. -/
def Reassembles (M : Machine σ Callback Received) (receive_ : σ → List Byte) :
    σ → List Message → Prop
  | _, [] => True
  | s, m :: ms => ∃ s' call, M.exec AnyStep s [] m.callbacks = some (s', [call]) ∧
      call.delivery = m.delivery ∧ receive_ s' = [] ∧ Reassembles M receive_ s' ms

/-! ### One message -/

/-- The call of a handler of frames. -/
def frameReceived (binary : Bool) (part : List Byte) : Received :=
  if binary then .BinaryFrameReceived part (sizeToInt part.length) true
  else .TextFrameReceived part (sizeToInt part.length) true

theorem frameReceived_delivery (binary : Bool) (part : List Byte) :
    (frameReceived binary part).delivery = ⟨binary, part, sizeToInt part.length⟩ := by
  cases binary <;> rfl

theorem sizeToInt_of_le {n : Nat} (h : n ≤ SERVRE_CACHE_MAX) : sizeToInt n = n := by
  unfold SERVRE_CACHE_MAX at h
  unfold sizeToInt
  rw [Nat.mod_eq_of_lt (by omega), toInt32_of_lt (by omega)]

section Assembler

variable (frame : List Byte → List Byte → List Byte) (inout : Receiving) (binary : Bool)
  {f : Fragment}

/-- A first fragment. -/
theorem onReceive_first (hf : f.remaining ≤ SERVRE_CACHE_MAX) (final : Bool) :
    onReceive frame inout ⟨true, final, binary, f.remaining, f.data⟩ =
      some (⟨inout.receive_ ++ f.data, true, binary⟩, []) := by
  unfold onReceive
  rw [if_neg (Nat.not_lt.mpr hf)]
  rfl

/-- A fragment in the middle. -/
theorem onReceive_middle (hf : f.remaining ≤ SERVRE_CACHE_MAX) :
    onReceive frame inout ⟨false, false, binary, f.remaining, f.data⟩ =
      some ({ inout with receive_ := inout.receive_ ++ f.data }, []) := by
  unfold onReceive
  rw [if_neg (Nat.not_lt.mpr hf)]
  rfl

/-- A final fragment that is not the first. -/
theorem onReceive_final (hlast : f.remaining = 0) (hframe : inout.bframe_ = true) :
    onReceive frame inout ⟨false, true, binary, f.remaining, f.data⟩ =
      some ({ inout with receive_ := [], bframe_ := false },
        [frameReceived inout.isBinary_ (frame (inout.receive_ ++ f.data) f.data)]) := by
  unfold onReceive
  rw [hlast, if_neg (Nat.not_lt.mpr (Nat.zero_le _)), hframe]
  rfl

variable {frame inout}

/-- The callbacks behind the first. -/
theorem exec_callback {inout' : Receiving} {es : List Received} {cb : Callback}
    (h : onReceive frame inout cb = some (inout', es)) (cbs : List Callback) :
    (assembler frame).exec AnyStep inout [] (cb :: cbs) =
      (assembler frame).exec AnyStep inout' es cbs :=
  Machine.exec_cons (M := assembler frame) trivial h

/-- The fragments behind the first: `receive_` grows up to the final one, which
leads to the call. -/
theorem exec_continued {fs : List Fragment} (hne : fs ≠ [])
    (hlast : (fs.getLast hne).remaining = 0) (hsmall : ∀ f ∈ fs, f.remaining ≤ SERVRE_CACHE_MAX)
    (buf : List Byte) (kind : Bool) :
    (assembler frame).exec AnyStep ⟨buf, true, kind⟩ [] (callbacks binary false fs) =
      some (⟨[], false, kind⟩,
        [frameReceived kind (frame (buf ++ fs.flatMap Fragment.data) (fs.getLast hne).data)]) := by
  induction fs generalizing buf with
  | nil => exact absurd rfl hne
  | cons f fs ih =>
      rcases fs with - | ⟨g, fs⟩
      · have hstep := exec_callback (onReceive_final frame ⟨buf, true, kind⟩ binary hlast rfl) []
        rw [List.flatMap_cons, List.flatMap_nil, List.append_nil]
        exact hstep
      · have hf := hsmall f (List.mem_cons_self ..)
        have hstep := exec_callback (onReceive_middle frame ⟨buf, true, kind⟩ binary hf)
          (callbacks binary false (g :: fs))
        have hrest := ih (List.cons_ne_nil g fs) hlast
          (fun q hq => hsmall q (List.mem_cons_of_mem _ hq)) (buf ++ f.data)
        rw [List.flatMap_cons, ← List.append_assoc]
        exact hstep.trans hrest

/-- **A message in several fragments** leads to one call. -/
theorem exec_message (frame : List Byte → List Byte → List Byte) (m : Message)
    (hk : 2 ≤ m.fragments.length) (hempty : inout.receive_ = []) :
    (assembler frame).exec AnyStep inout [] m.callbacks =
      some (⟨[], false, m.binary⟩, [frameReceived m.binary (frame m.payload m.lastData)]) := by
  obtain ⟨binary, fs, hne, hlast, hsmall, htotal⟩ := m
  rcases fs with - | ⟨f, - | ⟨g, fs⟩⟩
  · exact absurd rfl hne
  · exact absurd hk (by simp)
  · have hf := hsmall f (List.mem_cons_self ..)
    have hstep := exec_callback (onReceive_first frame inout binary hf false)
      (callbacks binary false (g :: fs))
    rw [hempty, List.nil_append] at hstep
    have hrest : (assembler frame).exec AnyStep ⟨f.data, true, binary⟩ []
        (callbacks binary false (g :: fs)) = _ :=
      exec_continued binary (List.cons_ne_nil g fs) hlast
        (fun q hq => hsmall q (List.mem_cons_of_mem _ hq)) f.data binary
    exact hstep.trans hrest

/-- **A message in one fragment** leads to no call and stays in `receive_`. -/
theorem exec_single (m : Message) (hk : m.fragments.length < 2) (inout : Receiving) :
    (assembler frame).exec AnyStep inout [] m.callbacks =
      some (⟨inout.receive_ ++ m.payload, true, m.binary⟩, []) := by
  obtain ⟨binary, fs, hne, hlast, hsmall, htotal⟩ := m
  rcases fs with - | ⟨f, - | ⟨g, fs⟩⟩
  · exact absurd rfl hne
  · have hf := hsmall f (List.mem_cons_self ..)
    have hstep := exec_callback (onReceive_first frame inout binary hf true) []
    unfold Message.payload
    rw [List.flatMap_cons, List.flatMap_nil, List.append_nil]
    exact hstep
  · exact absurd hk (by simp)

/-! ### All messages -/

/-- The call says what the message is if and only if the handler is given the
whole of it. -/
theorem frameReceived_delivery_eq (m : Message) (part : List Byte) :
    (frameReceived m.binary part).delivery = m.delivery ↔ part = m.payload := by
  rw [frameReceived_delivery]
  constructor
  · intro h
    exact congrArg Delivery.message h
  · rintro rfl
    have hlen : m.payload.length ≤ SERVRE_CACHE_MAX := m.total
    rw [sizeToInt_of_le hlen]
    rfl

/-- **Which messages are reassembled**: those in several fragments of which the
handler is given the whole. -/
theorem reassembles_assembler (frame : List Byte → List Byte → List Byte)
    (hempty : inout.receive_ = []) (ms : List Message) :
    Reassembles (assembler frame) Receiving.receive_ inout ms ↔
      ∀ m ∈ ms, 2 ≤ m.fragments.length ∧ frame m.payload m.lastData = m.payload := by
  induction ms generalizing inout with
  | nil => exact ⟨fun _ => nofun, fun _ => trivial⟩
  | cons m ms ih =>
      rw [List.forall_mem_cons]
      rcases Nat.lt_or_ge m.fragments.length 2 with hk | hk
      · -- no call for this message
        refine ⟨fun h => ?_, fun h => absurd hk (Nat.not_lt.mpr h.1.1)⟩
        obtain ⟨s', call, hexec, -⟩ := h
        rw [exec_single m hk] at hexec
        cases hexec
      · have hexec := exec_message frame m hk hempty
        constructor
        · rintro ⟨s', call, hexec', hcall, -, hrest⟩
          rw [hexec] at hexec'
          obtain ⟨rfl, hcalls⟩ := Prod.mk.inj (Option.some.inj hexec')
          obtain ⟨rfl, -⟩ := List.cons.inj hcalls
          exact ⟨⟨hk, (frameReceived_delivery_eq m _).mp hcall⟩, (ih rfl).mp hrest⟩
        · rintro ⟨⟨-, hpart⟩, hrest⟩
          exact ⟨_, _, hexec, (frameReceived_delivery_eq m _).mpr hpart, rfl, (ih rfl).mpr hrest⟩

end Assembler

/-! ### The client -/

namespace WebsocketClient

variable {registered : Option WebSock} {websock : WebSock}

/-- Once the `WebSock` is known, the client is an assembler. -/
theorem exec_known (inout : Receiving) (tr : List Received) (cbs : List Callback) :
    (receiver registered).exec AnyStep ⟨inout, some websock⟩ tr cbs =
      ((assembler fun _ data => data).exec AnyStep inout tr cbs).map
        fun p => (⟨p.1, some websock⟩, p.2) := by
  induction cbs generalizing inout tr with
  | nil => rfl
  | cons cb cbs ih =>
      have hreceive : (receiver registered).step ⟨inout, some websock⟩ cb =
          (onReceive (fun _ data => data) inout cb).map fun p => (⟨p.1, some websock⟩, p.2) := rfl
      rcases hstep : onReceive (fun _ data => data) inout cb with - | ⟨inout', es⟩
      · rw [hstep] at hreceive
        rw [Machine.exec_cons_none (M := assembler fun _ data => data) hstep,
          Machine.exec_cons_none hreceive]
        rfl
      · rw [hstep] at hreceive
        rw [Machine.exec_cons (M := assembler fun _ data => data) trivial hstep,
          Machine.exec_cons trivial hreceive]
        exact ih inout' (tr ++ es)

/-- A connection without a `WebSock` gets nothing. -/
theorem exec_unknown (inout : Receiving) (tr : List Received) (cbs : List Callback) :
    (receiver none).exec AnyStep ⟨inout, none⟩ tr cbs = some (⟨inout, none⟩, tr) := by
  induction cbs generalizing tr with
  | nil => rfl
  | cons cb cbs ih =>
      have hreceive : (receiver none).step ⟨inout, none⟩ cb = some (⟨inout, none⟩, []) := rfl
      rw [Machine.exec_cons trivial hreceive, List.append_nil]
      exact ih tr

theorem reassembles_known (inout : Receiving) (ms : List Message) :
    Reassembles (receiver registered) (fun c => c.inout.receive_) ⟨inout, some websock⟩ ms ↔
      Reassembles (assembler fun _ data => data) Receiving.receive_ inout ms := by
  induction ms generalizing inout with
  | nil => exact Iff.rfl
  | cons m ms ih =>
      constructor
      · rintro ⟨s', call, hexec, hcall, hempty, hrest⟩
        rw [exec_known] at hexec
        obtain ⟨p, hp, he⟩ := Option.map_eq_some_iff.mp hexec
        obtain ⟨rfl, hcalls⟩ := Prod.mk.inj he
        exact ⟨p.1, call, hcalls ▸ hp, hcall, hempty, (ih p.1).mp hrest⟩
      · rintro ⟨s', call, hexec, hcall, hempty, hrest⟩
        refine ⟨⟨s', some websock⟩, call, ?_, hcall, hempty, (ih s').mpr hrest⟩
        rw [exec_known, hexec]
        rfl

theorem reassembles_unknown (ms : List Message) :
    Reassembles (receiver none) (fun c => c.inout.receive_) (receiver none).init ms ↔ ms = [] := by
  constructor
  · intro h
    rcases ms with - | ⟨m, ms⟩
    · rfl
    · obtain ⟨s', call, hexec, -⟩ := h
      have hnone := exec_unknown .new [] m.callbacks
      cases hexec.symm.trans hnone
  · rintro rfl
    trivial

end WebsocketClient

/-- The last fragment is the whole message if and only if there is nothing in
the others. -/
theorem Message.lastData_eq_payload (m : Message) :
    m.lastData = m.payload ↔ ∀ f ∈ m.fragments.dropLast, f.data = [] := by
  have hsplit : m.payload = m.fragments.dropLast.flatMap Fragment.data ++ m.lastData := by
    unfold payload lastData
    conv_lhs => rw [← List.dropLast_append_getLast m.nonempty]
    rw [List.flatMap_append]
    exact congrArg _ (List.append_nil _)
  rw [hsplit]
  constructor
  · intro h
    have hnil : m.fragments.dropLast.flatMap Fragment.data = [] := by
      have hlen := congrArg List.length h
      rw [List.length_append] at hlen
      exact List.eq_nil_of_length_eq_zero (by omega)
    exact List.flatMap_eq_nil_iff.mp hnil
  · intro h
    rw [List.flatMap_eq_nil_iff.mpr h, List.nil_append]

/-- **Reassembly.**  The server makes of each message exactly one call, with
all of it, if and only if every message comes in two fragments at least; the
client, if moreover a `WebSock` is registered and only the last fragment of a
message has anything in it. -/
theorem reassembles_iff (registered : Option WebSock) (ms : List Message) :
    (Reassembles WebsocketServer.receiver Receiving.receive_ .new ms ↔
      ∀ m ∈ ms, 2 ≤ m.fragments.length) ∧
    (Reassembles (WebsocketClient.receiver registered) (fun c => c.inout.receive_)
        ⟨.new, registered⟩ ms ↔
      (ms ≠ [] → registered ≠ none) ∧
        ∀ m ∈ ms, 2 ≤ m.fragments.length ∧ ∀ f ∈ m.fragments.dropLast, f.data = []) := by
  constructor
  · have hnew : Receiving.new.receive_ = [] := rfl
    have h := reassembles_assembler (fun receive_ _ => receive_) hnew ms
    refine h.trans (forall₂_congr fun m _ => ?_)
    exact and_iff_left rfl
  · rcases registered with - | websock
    · refine (WebsocketClient.reassembles_unknown ms).trans ⟨?_, fun h => ?_⟩
      · rintro rfl
        exact ⟨fun hne => absurd rfl hne, nofun⟩
      · exact not_not.mp fun hne => h.1 hne rfl
    · have hnew : Receiving.new.receive_ = [] := rfl
      have h := reassembles_assembler (fun _ data => data) hnew ms
      refine (WebsocketClient.reassembles_known .new ms).trans (h.trans ?_)
      refine Iff.trans ?_ (and_iff_right fun _ => nofun).symm
      exact forall₂_congr fun m _ => and_congr_right fun _ => m.lastData_eq_payload

/-- A message in one fragment for the server, and for the client one in two
with something in both. -/
theorem not_reassembles :
    (¬ ∀ ms, Reassembles WebsocketServer.receiver Receiving.receive_ .new ms) ∧
      ¬ ∀ ms, (∀ m ∈ ms, 2 ≤ m.fragments.length) →
        Reassembles (WebsocketClient.receiver (some 1)) (fun c => c.inout.receive_)
          ⟨.new, some 1⟩ ms := by
  constructor
  · intro h
    let whole : Message := ⟨false, [⟨[65], 0⟩], nofun, rfl, by simp, by decide⟩
    obtain ⟨s', call, hexec, -⟩ := h [whole]
    have hsilent : WebsocketServer.receiver.exec AnyStep .new [] whole.callbacks =
        some (⟨[65], true, false⟩, []) := rfl
    cases hsilent.symm.trans hexec
  · intro h
    let halves : Message := ⟨false, [⟨[65], 0⟩, ⟨[66], 0⟩], nofun, rfl, by simp, by decide⟩
    obtain ⟨s', call, hexec, hcall, -⟩ := h [halves] (by simp [halves])
    have hpart : (WebsocketClient.receiver (some 1)).exec AnyStep ⟨.new, some 1⟩ []
        halves.callbacks = some (⟨⟨[], false, false⟩, some 1⟩, [.TextFrameReceived [66] 1 true]) :=
      rfl
    obtain ⟨-, hcalls⟩ := Prod.mk.inj (Option.some.inj (hpart.symm.trans hexec))
    obtain ⟨rfl, -⟩ := List.cons.inj hcalls
    cases congrArg Delivery.message hcall

end TestExamples
