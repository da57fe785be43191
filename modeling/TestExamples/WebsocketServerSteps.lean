/-
TestExamples/WebsocketServerSteps.lean

The steps of the websocket server, branch by branch.

`Moves` lists what a step can do, with the condition under which it does it;
`moves_of_step` is the inversion of `step`.  The first invariant proved by
cases on it is `Conns`: `send_cache_` has an item for every connection, and for
no other, and a connection is found at one address only.
-/
import TestExamples.WebsocketServer

namespace TestExamples

namespace WebsocketServer

/-! ### Fields -/

section Fields

variable (s : WebsocketServer) (w : Wsi) (item : CacheItem) (c : ServerInOut) (buf : List Byte)

@[simp] theorem setItem_send_cache_ :
    (s.setItem w item).send_cache_ = Function.update s.send_cache_ w (some item) := rfl
@[simp] theorem setItem_keys : (s.setItem w item).keys = s.keys := rfl
@[simp] theorem setItem_inout : (s.setItem w item).inout = s.inout := rfl
@[simp] theorem setItem_server_updated_ :
    (s.setItem w item).server_updated_ = s.server_updated_ := rfl
@[simp] theorem setItem_loop : (s.setItem w item).loop = s.loop := rfl
@[simp] theorem setItem_serial : (s.setItem w item).serial = s.serial := rfl

@[simp] theorem setInOut_send_cache_ : (s.setInOut w c).send_cache_ = s.send_cache_ := rfl
@[simp] theorem setInOut_keys : (s.setInOut w c).keys = s.keys := rfl
@[simp] theorem setInOut_inout :
    (s.setInOut w c).inout = Function.update s.inout w (some c) := rfl
@[simp] theorem setInOut_server_updated_ :
    (s.setInOut w c).server_updated_ = s.server_updated_ := rfl
@[simp] theorem setInOut_loop : (s.setInOut w c).loop = s.loop := rfl
@[simp] theorem setInOut_serial : (s.setInOut w c).serial = s.serial := rfl

end Fields

theorem update_self_eq {β : Type*} {f : Wsi → Option β} {w : Wsi} {x y : β}
    (h : Function.update f w (some y) w = some x) : y = x := by
  rw [Function.update_self] at h
  exact Option.some.inj h

/-! ### The branches -/

/-- `MetaSend` by its result: the record behind the others, or `Close` in place
of all of them. -/
theorem queueRecord_eq (sendBuf : List Byte) (type : MsgType) (message : List Byte) :
    queueRecord sendBuf type message =
      if sendBuf.length + message.length + LWS_PRE > SERVRE_CACHE_MAX then
        some ((Record.mk .Close []).bytes, true)
      else some (sendBuf ++ (Record.mk type message).bytes, false) := by
  unfold queueRecord
  rw [appendRecord_eq, appendRecord_eq]
  rfl

/-- What one round of the loop of a writeable callback comes to. -/
inductive Writes (s : WebsocketServer) (w : Wsi) (c : ServerInOut) (partially : Bool) :
    List Event → WebsocketServer → Prop
  | stop (hshort : c.send_.length < SIZEOF_MsgHead + c.curSendPos_) :
      Writes s w c partially [] { s with loop := .service }
  | close (hlen : SIZEOF_MsgHead + c.curSendPos_ ≤ c.send_.length)
      (htype : typeAt c.send_ c.curSendPos_ = MsgType.Close.code) :
      Writes s w c partially []
        { s.setInOut w { c with closing := true } with loop := .service }
  | written {type : MsgType} (hlen : SIZEOF_MsgHead + c.curSendPos_ ≤ c.send_.length)
      (htype : typeAt c.send_ c.curSendPos_ = type.code) (hne : type ≠ .Close) :
      Writes s w c partially
        [.written c.conn ⟨type, payloadAt c.send_ c.curSendPos_⟩] (s.advance w c partially)
  | unknown (hlen : SIZEOF_MsgHead + c.curSendPos_ ≤ c.send_.length)
      (htype : ∀ type : MsgType, typeAt c.send_ c.curSendPos_ ≠ type.code) :
      Writes s w c partially [.unknownType c.conn] (s.advance w c partially)

theorem writes_of_writeOne {s s' : WebsocketServer} {w : Wsi} {c : ServerInOut}
    {partially : Bool} {es : List Event} (h : s.writeOne w c partially = (s', es)) :
    Writes s w c partially es s' := by
  unfold writeOne at h
  split at h
  · next hlen =>
    dsimp only at h
    split at h
    · next htype =>
      obtain ⟨rfl, rfl⟩ := Prod.mk.inj h
      exact .close hlen htype
    · next htype =>
      obtain ⟨rfl, rfl⟩ := Prod.mk.inj h
      exact .written hlen htype nofun
    · next htype =>
      obtain ⟨rfl, rfl⟩ := Prod.mk.inj h
      exact .written hlen htype nofun
    · next htype =>
      obtain ⟨rfl, rfl⟩ := Prod.mk.inj h
      exact .written hlen htype nofun
    · next h₃ h₀ h₁ h₂ =>
      obtain ⟨rfl, rfl⟩ := Prod.mk.inj h
      refine .unknown hlen fun type => ?_
      cases type
      exacts [h₀, h₁, h₂, h₃]
  · next hshort =>
    obtain ⟨rfl, rfl⟩ := Prod.mk.inj h
    exact .stop (Nat.not_le.mp hshort)

/-- **The steps, branch by branch.** -/
inductive Moves (s : WebsocketServer) : Act → List Event → WebsocketServer → Prop
  | refused {w call} : Moves s (.call w call) [] s
  | accepted {w call type message item} (hcall : call.toMetaSend = some (type, message))
      (hitem : s.send_cache_ w = some item)
      (hfit : item.sendBuf_.length + message.length + LWS_PRE ≤ SERVRE_CACHE_MAX) :
      Moves s (.call w call) [.accepted item.conn ⟨type, message⟩]
        (s.queued w item (item.sendBuf_ ++ (Record.mk type message).bytes))
  | overflow {w call item} (hitem : s.send_cache_ w = some item) :
      Moves s (.call w call) [.overflow item.conn]
        (s.queued w item (Record.mk .Close []).bytes)
  | top (hloop : s.loop = .top) :
      Moves s .pass [] { s with loop := if s.server_updated_ then .collecting else .service }
  | around (hloop : s.loop = .service) : Moves s .pass [] { s with loop := .top }
  | collect (hloop : s.loop = .collecting) : Moves s .collect [] s.collect
  | requested (hloop : s.loop = .requesting []) :
      Moves s .request [] { s with loop := .service }
  | request {w rest c} (hloop : s.loop = .requesting (w :: rest)) (hc : s.inout w = some c) :
      Moves s .request []
        { s.setInOut w { c with requested := true } with loop := .requesting rest }
  | established {w} (hloop : s.loop = .service) (hnew : s.inout w = none) :
      Moves s (.established w) [] (s.established w)
  | writeable {w c s'} (hloop : s.loop = .service) (hc : s.inout w = some c)
      (hreq : c.requested = true) (hopen : c.closing = false) (hs : s.writeable w c = s') :
      Moves s (.writeable w) [] s'
  | write {w c partially es s'} (hloop : s.loop = .writing w) (hc : s.inout w = some c)
      (hw : Writes s w c partially es s') : Moves s (.write partially) es s'
  | destroy {w c} (hloop : s.loop = .service) (hc : s.inout w = some c) :
      Moves s (.destroy w) [] (s.destroy w)

/-! ### Inversion -/

theorem moves_of_call {s s' : WebsocketServer} {w : Wsi} {call : Call} {es : List Event}
    (h : s.step (.call w call) = some (s', es)) : Moves s (.call w call) es s' := by
  simp only [step] at h
  split at h
  · next type message hcall =>
    split at h
    · split at h
      · next item hitem =>
        unfold MetaSend at h
        rw [queueRecord_eq] at h
        split at h
        · obtain ⟨rfl, rfl⟩ := Prod.mk.inj (Option.some.inj h)
          exact .overflow hitem
        · next hfit =>
          obtain ⟨rfl, rfl⟩ := Prod.mk.inj (Option.some.inj h)
          exact .accepted hcall hitem (Nat.not_lt.mp hfit)
      · obtain ⟨rfl, rfl⟩ := Prod.mk.inj (Option.some.inj h)
        exact .refused
    · cases h
  · obtain ⟨rfl, rfl⟩ := Prod.mk.inj (Option.some.inj h)
    exact .refused

/-- **Inversion of `step`.** -/
theorem moves_of_step {s s' : WebsocketServer} {act : Act} {es : List Event}
    (h : s.step act = some (s', es)) : Moves s act es s' := by
  cases act with
  | call w call => exact moves_of_call h
  | pass =>
      simp only [step] at h
      split at h
      · next hloop =>
        obtain ⟨rfl, rfl⟩ := Prod.mk.inj (Option.some.inj h)
        exact .top hloop
      · next hloop =>
        obtain ⟨rfl, rfl⟩ := Prod.mk.inj (Option.some.inj h)
        exact .around hloop
      · cases h
  | collect =>
      simp only [step] at h
      split at h
      · next hloop =>
        obtain ⟨rfl, rfl⟩ := Prod.mk.inj (Option.some.inj h)
        exact .collect hloop
      · cases h
  | request =>
      simp only [step] at h
      split at h
      · next hloop =>
        obtain ⟨rfl, rfl⟩ := Prod.mk.inj (Option.some.inj h)
        exact .requested hloop
      · next w rest hloop =>
        obtain ⟨c, hc, he⟩ := Option.map_eq_some_iff.mp h
        obtain ⟨rfl, rfl⟩ := Prod.mk.inj he
        exact .request hloop hc
      · cases h
  | established w =>
      simp only [step] at h
      split at h
      · next hloop hnew =>
        obtain ⟨rfl, rfl⟩ := Prod.mk.inj (Option.some.inj h)
        exact .established hloop hnew
      · cases h
  | writeable w =>
      simp only [step] at h
      split at h
      · next c hloop hc =>
        split at h
        · next hreq =>
          obtain ⟨rfl, rfl⟩ := Prod.mk.inj (Option.some.inj h)
          exact .writeable hloop hc hreq.1 hreq.2 rfl
        · cases h
      · cases h
  | write partially =>
      simp only [step] at h
      split at h
      · next w hloop =>
        obtain ⟨c, hc, he⟩ := Option.map_eq_some_iff.mp h
        exact .write hloop hc (writes_of_writeOne he)
      · cases h
  | destroy w =>
      simp only [step] at h
      split at h
      · next c hloop hc =>
        obtain ⟨rfl, rfl⟩ := Prod.mk.inj (Option.some.inj h)
        exact .destroy hloop hc
      · cases h

/-! ### One connection at a time

Apart from `collect`, a step changes the item and the connection of one address,
`server_updated_` and `loop`. -/

/-- The server with `item` and `c` at `w`. -/
def put (s : WebsocketServer) (w : Wsi) (item : CacheItem) (c : ServerInOut) (updated : Bool)
    (loop : ServicePc) : WebsocketServer :=
  { (s.setItem w item).setInOut w c with server_updated_ := updated, loop := loop }

section Put

variable {s : WebsocketServer} {w : Wsi} {item : CacheItem} {c : ServerInOut}

theorem setItem_self (h : s.send_cache_ w = some item) : s.setItem w item = s := by
  unfold setItem
  rw [← h, Function.update_eq_self]

theorem setInOut_self (h : s.inout w = some c) : s.setInOut w c = s := by
  unfold setInOut
  rw [← h, Function.update_eq_self]

theorem setInOut_loop_eq_put (hitem : s.send_cache_ w = some item) (d : ServerInOut)
    (loop : ServicePc) :
    { s.setInOut w d with loop := loop } = s.put w item d s.server_updated_ loop := by
  unfold put
  rw [setItem_self hitem]
  rfl

theorem queued_eq_put (hc : s.inout w = some c) (buf : List Byte) :
    s.queued w item buf = s.put w
      { item with sendBuf_ := buf, updated_ := if item.sending_ then item.updated_ else true }
      c true s.loop := by
  unfold put
  rw [setInOut_self (s := s.setItem w _) hc]
  rfl

/-- A writeable callback gets to its loop, or finds the cache full. -/
def Begins (s : WebsocketServer) (w : Wsi) (c : ServerInOut) (closing : Bool)
    (loop : ServicePc) : Prop :=
  closing = c.closing ∧ loop = .writing w ∨ closing = true ∧ loop = s.loop

/-- What a writeable callback does up to its loop. -/
inductive Wakes (s : WebsocketServer) (w : Wsi) (item : CacheItem) (c : ServerInOut) :
    WebsocketServer → Prop
  | drained (hshort : c.send_.length < c.curSendPos_ + SIZEOF_MsgHead)
      (hbuf : item.sendBuf_ = []) :
      Wakes s w item c (s.put w { item with sendBuf_ := [], sending_ := false }
        { c with send_ := [], curSendPos_ := 0, requested := false } s.server_updated_ s.loop)
  | refilled {closing loop} (hshort : c.send_.length < c.curSendPos_ + SIZEOF_MsgHead)
      (hbuf : item.sendBuf_ ≠ []) (hbegin : Begins s w c closing loop) :
      Wakes s w item c (s.put w { item with sendBuf_ := [], sending_ := true }
        { c with
          send_ := item.sendBuf_, curSendPos_ := 0, requested := false, closing := closing }
        s.server_updated_ loop)
  | resumed {closing loop} (hlong : c.curSendPos_ + SIZEOF_MsgHead ≤ c.send_.length)
      (hbegin : Begins s w c closing loop) :
      Wakes s w item c (s.put w item { c with requested := false, closing := closing }
        s.server_updated_ loop)

theorem beginWriting_eq (s : WebsocketServer) (w : Wsi) (c : ServerInOut) :
    ∃ closing loop, Begins s w c closing loop ∧
      s.beginWriting w c = { s.setInOut w { c with closing := closing } with loop := loop } := by
  unfold beginWriting
  split
  · exact ⟨true, s.loop, Or.inr ⟨rfl, rfl⟩, rfl⟩
  · exact ⟨c.closing, .writing w, Or.inl ⟨rfl, rfl⟩, rfl⟩

theorem wakes_of_writeable {s' : WebsocketServer} (hitem : s.send_cache_ w = some item)
    (h : s.writeable w c = s') : Wakes s w item c s' := by
  subst h
  unfold writeable
  split
  · next hshort =>
    rw [hitem]
    dsimp only
    split
    · next hbuf =>
      have hnil := List.eq_nil_of_length_eq_zero (Nat.le_zero.mp hbuf)
      have hw := Wakes.drained (s := s) (w := w) hshort hnil
      rw [hnil]
      exact hw
    · next hbuf =>
      have hpos : 0 < item.sendBuf_.length := Nat.pos_of_ne_zero fun h => hbuf (by omega)
      obtain ⟨closing, loop, hbegin, heq⟩ := beginWriting_eq
        (s.setItem w { item with sendBuf_ := [], sending_ := 0 < item.sendBuf_.length }) w
        { c with send_ := item.sendBuf_, curSendPos_ := 0, requested := false }
      rw [heq]
      have hne : item.sendBuf_ ≠ [] := List.ne_nil_of_length_pos hpos
      have hbegin' : Begins s w c closing loop := hbegin
      have hw := Wakes.refilled hshort hne hbegin'
      simpa [hpos, put] using hw
  · next hlong =>
    obtain ⟨closing, loop, hbegin, heq⟩ := s.beginWriting_eq w { c with requested := false }
    rw [heq, setInOut_loop_eq_put hitem]
    exact .resumed (Nat.not_lt.mp hlong) hbegin

/-- Where a writeable callback goes on behind a record. -/
theorem advance_eq_put (hitem : s.send_cache_ w = some item) (c : ServerInOut)
    (partially : Bool) {pos : Nat}
    (hpos : pos = c.curSendPos_ + SIZEOF_MsgHead + (lenAt c.send_ c.curSendPos_).toNat) :
    s.advance w c partially =
      if pos ≥ c.send_.length then
        s.put w item { c with
          send_ := [], curSendPos_ := 0, requested := c.requested || !partially }
          s.server_updated_ .service
      else s.put w item { c with curSendPos_ := pos } s.server_updated_
        (if partially then .service else .writing w) := by
  unfold advance
  dsimp only
  rw [← hpos, setInOut_loop_eq_put hitem, setInOut_loop_eq_put hitem]

end Put

/-! ### The connections -/

/-- `send_cache_` has an item for each connection, and for no other. -/
structure Conns (s : WebsocketServer) : Prop where
  item_of : ∀ {w c}, s.inout w = some c → ∃ item, s.send_cache_ w = some item ∧ item.conn = c.conn
  inout_of : ∀ {w item}, s.send_cache_ w = some item → ∃ c, s.inout w = some c ∧ c.conn = item.conn
  keys : ∀ {w item}, s.send_cache_ w = some item → w ∈ s.keys
  serial : ∀ {w c}, s.inout w = some c → c.conn < s.serial
  inj : ∀ {w w' c c'}, s.inout w = some c → s.inout w' = some c' → c.conn = c'.conn → w = w'

namespace Conns

variable {s s' : WebsocketServer} {w : Wsi} {item item' : CacheItem} {c c' : ServerInOut}

theorem init : Conns WebsocketServer.init := ⟨nofun, nofun, nofun, nofun, nofun⟩

/-- Only the maps count. -/
theorem congr (h : Conns s) (hcache : s'.send_cache_ = s.send_cache_) (hkeys : s'.keys = s.keys)
    (hinout : s'.inout = s.inout) (hserial : s'.serial = s.serial) : Conns s' where
  item_of := by rw [hinout, hcache]; exact h.item_of
  inout_of := by rw [hinout, hcache]; exact h.inout_of
  keys := by rw [hcache, hkeys]; exact h.keys
  serial := by rw [hinout, hserial]; exact h.serial
  inj := by rw [hinout]; exact h.inj

/-- A connection stays the one it is. -/
theorem put (h : Conns s) (hitem : s.send_cache_ w = some item) (hc : s.inout w = some c)
    (hi' : item'.conn = item.conn) (hc' : c'.conn = c.conn) (u : Bool) (l : ServicePc) :
    Conns (s.put w item' c' u l) := by
  have hconn : item.conn = c.conn := by
    obtain ⟨i, hi, he⟩ := h.item_of hc
    obtain rfl := Option.some.inj (hitem.symm.trans hi)
    exact he
  -- behind the new connection stands an old one with the same number
  have hold : ∀ {b d}, Function.update s.inout w (some c') b = some d →
      ∃ d₀, s.inout b = some d₀ ∧ d₀.conn = d.conn := by
    intro b d hd
    rcases update_eq hd with ⟨rfl, he⟩ | ⟨-, hd⟩
    · obtain rfl := Option.some.inj he
      exact ⟨c, hc, hc'.symm⟩
    · exact ⟨d, hd, rfl⟩
  refine ⟨fun {b d} hd => ?_, fun {b i} hi => ?_, fun {b i} hi => ?_, fun {b d} hd => ?_,
    fun {b b' d d'} hd hd' he => ?_⟩
  · rcases update_eq hd with ⟨rfl, he⟩ | ⟨hne, hd⟩
    · obtain rfl := Option.some.inj he
      exact ⟨item', Function.update_self .., by rw [hi', hconn, hc']⟩
    · obtain ⟨i, hi, he⟩ := h.item_of hd
      exact ⟨i, (Function.update_of_ne hne ..).trans hi, he⟩
  · rcases update_eq hi with ⟨rfl, he⟩ | ⟨hne, hi⟩
    · obtain rfl := Option.some.inj he
      exact ⟨c', Function.update_self .., by rw [hi', hconn, hc']⟩
    · obtain ⟨d, hd, he⟩ := h.inout_of hi
      exact ⟨d, (Function.update_of_ne hne ..).trans hd, he⟩
  · rcases update_eq hi with ⟨rfl, -⟩ | ⟨-, hi⟩
    · exact h.keys hitem
    · exact h.keys hi
  · obtain ⟨d₀, hd₀, he⟩ := hold hd
    exact he ▸ h.serial hd₀
  · obtain ⟨d₀, hd₀, he₀⟩ := hold hd
    obtain ⟨d₁, hd₁, he₁⟩ := hold hd'
    exact h.inj hd₀ hd₁ (by rw [he₀, he₁, he])

theorem established (h : Conns s) : Conns (s.established w) := by
  refine ⟨fun {b d} hd => ?_, fun {b i} hi => ?_, fun {b i} hi => ?_, fun {b d} hd => ?_,
    fun {b b' d d'} hd hd' he => ?_⟩
  · rcases update_eq hd with ⟨rfl, he⟩ | ⟨hne, hd⟩
    · obtain rfl := Option.some.inj he
      exact ⟨_, Function.update_self .., rfl⟩
    · obtain ⟨i, hi, he⟩ := h.item_of hd
      exact ⟨i, (Function.update_of_ne hne ..).trans hi, he⟩
  · rcases update_eq hi with ⟨rfl, he⟩ | ⟨hne, hi⟩
    · obtain rfl := Option.some.inj he
      exact ⟨_, Function.update_self .., rfl⟩
    · obtain ⟨d, hd, he⟩ := h.inout_of hi
      exact ⟨d, (Function.update_of_ne hne ..).trans hd, he⟩
  · rcases update_eq hi with ⟨rfl, -⟩ | ⟨-, hi⟩
    · exact List.mem_append_right _ (List.mem_singleton_self _)
    · exact List.mem_append_left _ (h.keys hi)
  · rcases update_eq hd with ⟨-, he⟩ | ⟨-, hd⟩
    · obtain rfl := Option.some.inj he
      exact Nat.lt_succ_self _
    · exact Nat.lt_succ_of_lt (h.serial hd)
  · rcases update_eq hd with ⟨rfl, hnew⟩ | ⟨-, hold⟩ <;>
      rcases update_eq hd' with ⟨rfl, hnew'⟩ | ⟨-, hold'⟩
    · rfl
    · obtain rfl := Option.some.inj hnew
      exact absurd (he ▸ h.serial hold') (Nat.lt_irrefl _)
    · obtain rfl := Option.some.inj hnew'
      exact absurd (he ▸ h.serial hold) (Nat.lt_irrefl _)
    · exact h.inj hold hold' he

theorem destroy (h : Conns s) : Conns (s.destroy w) := by
  have hold : ∀ {β : Type} {f : Wsi → Option β} {b : Wsi} {x : β},
      Function.update f w none b = some x → b ≠ w ∧ f b = some x := of_update_none
  refine ⟨fun {b d} hd => ?_, fun {b i} hi => ?_, fun {b i} hi => ?_,
    fun {b d} hd => h.serial (hold hd).2,
    fun {b b' d d'} hd hd' => h.inj (hold hd).2 (hold hd').2⟩
  · obtain ⟨i, hi, he⟩ := h.item_of (hold hd).2
    exact ⟨i, (Function.update_of_ne (hold hd).1 ..).trans hi, he⟩
  · obtain ⟨d, hd, he⟩ := h.inout_of (hold hi).2
    exact ⟨d, (Function.update_of_ne (hold hi).1 ..).trans hd, he⟩
  · exact List.mem_filter.mpr ⟨h.keys (hold hi).2, by simpa using (hold hi).1⟩

end Conns

/-- An item of the cache after the pass of `run` over it. -/
theorem collect_send_cache_ {s : WebsocketServer} {w : Wsi} {item : CacheItem}
    (h : s.collect.send_cache_ w = some item) :
    ∃ item₀, s.send_cache_ w = some item₀ ∧
      (item₀.sending_ = false ∧ item₀.updated_ = true ∧ item = { item₀ with updated_ := false } ∨
        (item₀.sending_ = true ∨ item₀.updated_ = false) ∧ item = item₀) := by
  obtain ⟨item₀, hi, he⟩ := Option.map_eq_some_iff.mp h
  refine ⟨item₀, hi, ?_⟩
  rcases hs : item₀.sending_ with - | - <;> rcases hu : item₀.updated_ with - | - <;>
    rw [hs, hu] at he <;> simp_all

/-- The pass over the cache touches no buffer and no number. -/
theorem collect_buffers {s : WebsocketServer} {w : Wsi} {item : CacheItem}
    (h : s.collect.send_cache_ w = some item) :
    ∃ item₀, s.send_cache_ w = some item₀ ∧ item.sendBuf_ = item₀.sendBuf_ ∧
      item.conn = item₀.conn := by
  obtain ⟨item₀, hi, ⟨-, -, rfl⟩ | ⟨-, rfl⟩⟩ := collect_send_cache_ h
  · exact ⟨item₀, hi, rfl, rfl⟩
  · exact ⟨item, hi, rfl, rfl⟩

namespace Conns

variable {s s' : WebsocketServer} {act : Act} {es : List Event}

theorem collect (h : Conns s) : Conns s.collect where
  item_of := fun {w c} hc => by
    obtain ⟨item, hi, he⟩ := h.item_of hc
    refine ⟨_, Option.map_eq_some_iff.mpr ⟨item, hi, rfl⟩, ?_⟩
    rw [← he]
    split <;> rfl
  inout_of := fun {w item} hi => by
    obtain ⟨item₀, hi₀, -, he⟩ := collect_buffers hi
    exact he ▸ h.inout_of hi₀
  keys := fun {w item} hi => by
    obtain ⟨item₀, hi₀, -⟩ := collect_buffers hi
    exact h.keys hi₀
  serial := h.serial
  inj := h.inj

/-- **One step keeps the items and the connections together.** -/
theorem step (h : Conns s) (hm : Moves s act es s') : Conns s' := by
  cases hm with
  | refused => exact h
  | accepted _ hitem | overflow hitem =>
      obtain ⟨c, hc, -⟩ := h.inout_of hitem
      rw [queued_eq_put hc]
      exact h.put hitem hc (by rfl) (by rfl) _ _
  | top | around | requested => exact h.congr rfl rfl rfl rfl
  | collect => exact h.collect
  | request _ hc =>
      obtain ⟨item, hitem, -⟩ := h.item_of hc
      rw [setInOut_loop_eq_put hitem]
      exact h.put hitem hc (by rfl) (by rfl) _ _
  | established => exact h.established
  | writeable _ hc _ _ hs =>
      obtain ⟨item, hitem, -⟩ := h.item_of hc
      cases wakes_of_writeable hitem hs with
      | drained | refilled | resumed => exact h.put hitem hc (by rfl) (by rfl) _ _
  | @write w c partially es s' _ hc hw =>
      obtain ⟨item, hitem, -⟩ := h.item_of hc
      have hadvance : Conns (s.advance w c partially) := by
        rw [advance_eq_put hitem c partially rfl]
        split
        · exact h.put hitem hc (by rfl) (by rfl) _ _
        · exact h.put hitem hc (by rfl) (by rfl) _ _
      cases hw with
      | stop => exact h.congr rfl rfl rfl rfl
      | close =>
          rw [setInOut_loop_eq_put hitem]
          exact h.put hitem hc (by rfl) (by rfl) _ _
      | written | unknown => exact hadvance
  | destroy => exact h.destroy

end Conns

end WebsocketServer

end TestExamples
