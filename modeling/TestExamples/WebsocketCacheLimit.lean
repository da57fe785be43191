/-
TestExamples/WebsocketCacheLimit.lean

The limit of the send caches of websock_net.

`MetaSend` and `ClinetMetaSend` take a message as long as what is in the cache,
the message and `LWS_PRE` bytes stay within `SERVRE_CACHE_MAX`.  The record they
append has a `MsgHead` besides, and the writeable callbacks test what has been
appended.  A cache between `SERVRE_CACHE_MAX - 8` and the limit is thus let
through by the one and given up by the other.

Where the head fits as well (`HeadFits`), no cache gets longer than the limit, by
one record or by any number of them, and the callbacks agree with the producer
(`agrees_of_roomForHead`).
-/
import TestExamples.WebsocketClientTable

namespace TestExamples

/-- What the test of the producer lets through has room for its head. -/
def HeadFits (sendBuf message : List Byte) : Prop :=
  sendBuf.length + message.length + LWS_PRE ≤ SERVRE_CACHE_MAX →
    sendBuf.length + SIZEOF_MsgHead + (LWS_PRE + message.length) ≤ SERVRE_CACHE_MAX

instance (sendBuf message : List Byte) : Decidable (HeadFits sendBuf message) :=
  inferInstanceAs (Decidable (_ → _))

/-- The record that takes the place of an overflowing cache fits in any case. -/
theorem queueRecord_length_le_iff {sendBuf message : List Byte} {type : MsgType}
    {p : List Byte × Bool} (h : WebsocketServer.queueRecord sendBuf type message = some p) :
    p.1.length ≤ SERVRE_CACHE_MAX ↔ HeadFits sendBuf message := by
  rw [WebsocketServer.queueRecord_eq] at h
  split at h
  · next hfull =>
    obtain rfl := Option.some.inj h
    refine iff_of_true ?_ fun hfit => absurd hfit (Nat.not_le.mpr hfull)
    rw [Record.bytes_length]
    decide
  · next hfit =>
    obtain rfl := Option.some.inj h
    have hlen : (sendBuf ++ (Record.mk type message).bytes).length =
        sendBuf.length + SIZEOF_MsgHead + (LWS_PRE + message.length) := by
      rw [List.length_append, Record.bytes_length, Nat.add_assoc]
    show (sendBuf ++ _).length ≤ _ ↔ _
    rw [hlen]
    exact ⟨fun hle _ => hle, fun hfits => hfits (Nat.not_lt.mp hfit)⟩

/-- Whatever is in the cache, some message is let through that its head does not
fit behind. -/
theorem exists_not_headFits {sendBuf : List Byte}
    (h : sendBuf.length + LWS_PRE < SERVRE_CACHE_MAX) :
    ∃ message : List Byte, message ≠ [] ∧ message.length ≤ INT_MAX ∧
      sendBuf.length + message.length + LWS_PRE ≤ SERVRE_CACHE_MAX ∧
      ¬ HeadFits sendBuf message := by
  obtain ⟨message, hlen⟩ : ∃ message : List Byte,
      message.length = SERVRE_CACHE_MAX - LWS_PRE - sendBuf.length :=
    ⟨List.replicate _ 0, List.length_replicate⟩
  have hfit : sendBuf.length + message.length + LWS_PRE ≤ SERVRE_CACHE_MAX := by omega
  refine ⟨message, List.ne_nil_of_length_pos (by omega), ?_, hfit, fun hfits => ?_⟩
  · have hmax : SERVRE_CACHE_MAX ≤ INT_MAX := by decide
    omega
  · have hhead := hfits hfit
    unfold SIZEOF_MsgHead at hhead
    omega

/-! ### The server -/

namespace WebsocketServer

/-- No writeable callback at `w` returns -1 from its test. -/
def Agrees (s : WebsocketServer) (w : Wsi) : Prop :=
  ∀ s' es c, s.step (.writeable w) = some (s', es) → s'.inout w = some c → c.closing = false

/-- `MetaSend` for `w` leaves room for the head. -/
def RoomForHead (w : Wsi) (s : WebsocketServer) : Act → Prop
  | .call w' call =>
      w' = w → ∀ p ∈ call.toMetaSend, ∀ item ∈ s.send_cache_ w, HeadFits item.sendBuf_ p.2
  | _ => True

instance (w : Wsi) (s : WebsocketServer) (act : Act) : Decidable (RoomForHead w s act) := by
  unfold RoomForHead
  split <;> infer_instance

/-- The buffers at `w` are within the limit. -/
structure Within (s : WebsocketServer) (w : Wsi) : Prop where
  cache : ∀ item, s.send_cache_ w = some item → item.sendBuf_.length ≤ SERVRE_CACHE_MAX
  send : ∀ c, s.inout w = some c → c.send_.length ≤ SERVRE_CACHE_MAX

section Within

variable {s s' : WebsocketServer} {w b : Wsi} {item : CacheItem} {c : ServerInOut} {act : Act}
  {tr es : List Event}

namespace Within

theorem setItem (h : s.Within w) (hlen : b = w → item.sendBuf_.length ≤ SERVRE_CACHE_MAX) :
    (s.setItem b item).Within w := by
  refine ⟨fun i hi => ?_, h.send⟩
  rcases update_eq hi with ⟨rfl, he⟩ | ⟨-, hi⟩
  · obtain rfl := Option.some.inj he
    exact hlen rfl
  · exact h.cache i hi

/-- The connection at `b` is `c` now, and the items are the same. -/
theorem setInOut_congr (h : s.Within w) (hcache : s'.send_cache_ = s.send_cache_)
    (hinout : s'.inout = Function.update s.inout b (some c))
    (hlen : b = w → c.send_.length ≤ SERVRE_CACHE_MAX) : s'.Within w := by
  refine ⟨by rw [hcache]; exact h.cache, fun d hd => ?_⟩
  rw [hinout] at hd
  rcases update_eq hd with ⟨rfl, he⟩ | ⟨-, hd⟩
  · obtain rfl := Option.some.inj he
    exact hlen rfl
  · exact h.send d hd

theorem setInOut (h : s.Within w) (hlen : b = w → c.send_.length ≤ SERVRE_CACHE_MAX) :
    (s.setInOut b c).Within w :=
  h.setInOut_congr rfl rfl hlen

theorem send_of (h : s.Within w) (hc : s.inout b = some c) :
    b = w → c.send_.length ≤ SERVRE_CACHE_MAX := by
  rintro rfl
  exact h.send c hc

/-- Only the two maps count. -/
theorem congr (h : s.Within w) (hcache : s'.send_cache_ = s.send_cache_)
    (hinout : s'.inout = s.inout) : s'.Within w where
  cache := by rw [hcache]; exact h.cache
  send := by rw [hinout]; exact h.send

theorem beginWriting (h : s.Within w) (hlen : b = w → c.send_.length ≤ SERVRE_CACHE_MAX) :
    (s.beginWriting b c).Within w := by
  unfold WebsocketServer.beginWriting
  split
  · exact h.setInOut hlen
  · exact h.setInOut_congr rfl rfl hlen

theorem writeable (h : s.Within w) (hc : s.inout b = some c) : (s.writeable b c).Within w := by
  have hsend := h.send_of hc
  unfold WebsocketServer.writeable
  split
  · split
    · next item hitem =>
      have hbuf : b = w → item.sendBuf_.length ≤ SERVRE_CACHE_MAX := by
        rintro rfl
        exact h.cache item hitem
      have hs : (s.setItem b
          { item with sendBuf_ := [], sending_ := 0 < item.sendBuf_.length }).Within w :=
        h.setItem fun _ => Nat.zero_le _
      dsimp only
      split
      · exact hs.setInOut hbuf
      · exact hs.beginWriting hbuf
    · exact h.setInOut fun _ => Nat.zero_le _
  · exact h.beginWriting hsend

theorem advance (h : s.Within w) (hc : s.inout b = some c) (partially : Bool) :
    (s.advance b c partially).Within w := by
  have hsend := h.send_of hc
  unfold WebsocketServer.advance
  dsimp only
  split
  · exact h.setInOut_congr rfl rfl fun _ => Nat.zero_le _
  · exact h.setInOut_congr rfl rfl hsend

theorem collect (h : s.Within w) : s.collect.Within w := by
  refine ⟨fun i hi => ?_, h.send⟩
  obtain ⟨item, hitem, rfl⟩ := Option.map_eq_some_iff.mp hi
  have hlen := h.cache item hitem
  split
  · exact hlen
  · exact hlen

theorem call {call : Call} (h : s.Within w) (hok : RoomForHead w s (.call b call))
    (hs : s.step (.call b call) = some (s', es)) : s'.Within w := by
  simp only [WebsocketServer.step] at hs
  split at hs
  · next type message hcall =>
    split at hs
    · split at hs
      · next item hitem =>
        obtain ⟨p, hp, he⟩ := Option.map_eq_some_iff.mp hs
        obtain ⟨rfl, rfl⟩ := Prod.mk.inj he
        have hlen : b = w → p.1.length ≤ SERVRE_CACHE_MAX := fun hb =>
          (queueRecord_length_le_iff hp).mpr (hok hb (type, message) hcall item (hb ▸ hitem))
        exact Within.congr (h.setItem hlen) rfl rfl
      · obtain ⟨rfl, rfl⟩ := Prod.mk.inj (Option.some.inj hs)
        exact h
    · cases hs
  · obtain ⟨rfl, rfl⟩ := Prod.mk.inj (Option.some.inj hs)
    exact h

theorem destroy (h : s.Within w) (b : Wsi) : (s.destroy b).Within w := by
  refine ⟨fun i hi => ?_, fun d hd => ?_⟩
  · rcases update_eq hi with ⟨-, he⟩ | ⟨-, hi⟩
    · cases he
    · exact h.cache i hi
  · rcases update_eq hd with ⟨-, he⟩ | ⟨-, hd⟩
    · cases he
    · exact h.send d hd

/-- **The buffers stay within the limit** where the head fits. -/
theorem step (h : s.Within w) (hok : RoomForHead w s act) (hs : s.step act = some (s', es)) :
    s'.Within w := by
  cases moves_of_step hs with
  | refused | accepted | overflow => exact h.call hok hs
  | top | around | requested => exact h.congr rfl rfl
  | collect => exact h.collect
  | request _ hc =>
      have hsend := h.send_of hc
      exact h.setInOut_congr rfl rfl hsend
  | established =>
      exact ((h.setItem fun _ => Nat.zero_le _).setInOut fun _ => Nat.zero_le _).congr rfl rfl
  | writeable _ hc _ _ hs =>
      rw [← hs]
      exact h.writeable hc
  | write _ hc hw =>
      cases hw with
      | stop => exact h.congr rfl rfl
      | close =>
          have hsend := h.send_of hc
          exact h.setInOut_congr rfl rfl hsend
      | written | unknown => exact h.advance hc _
  | destroy => exact h.destroy _

theorem of_run (h : machine.Run (RoomForHead w) tr s) : s.Within w :=
  h.invariant (fun _ s => s.Within w) ⟨nofun, nofun⟩ fun ih hok hs => ih.step hok hs

end Within

/-- What the callback tests: what is left in `send_`, or the cache it has taken
over. -/
def tested (s : WebsocketServer) (w : Wsi) (c : ServerInOut) : Nat :=
  if c.send_.length < c.curSendPos_ + SIZEOF_MsgHead then
    (s.send_cache_ w).elim 0 fun item => item.sendBuf_.length
  else c.send_.length - c.curSendPos_

theorem closing_beginWriting (hopen : c.closing = false) :
    ∃ d, (s.beginWriting w c).inout w = some d ∧
      (d.closing = true ↔ SERVRE_CACHE_MAX < c.send_.length - c.curSendPos_) := by
  unfold beginWriting
  split
  · next hfull => exact ⟨_, Function.update_self .., iff_of_true rfl hfull⟩
  · next hfits =>
    refine ⟨_, Function.update_self .., iff_of_false ?_ hfits⟩
    rw [hopen]
    nofun

theorem closing_writeable (s : WebsocketServer) (w : Wsi) (hopen : c.closing = false) :
    ∃ d, (s.writeable w c).inout w = some d ∧
      (d.closing = true ↔ SERVRE_CACHE_MAX < s.tested w c) := by
  have hopen' : ¬ c.closing = true := by
    rw [hopen]
    nofun
  unfold writeable tested
  split
  · split
    · next item hitem =>
      rw [hitem]
      dsimp only
      split
      · next hempty =>
        have hfits : ¬ SERVRE_CACHE_MAX < item.sendBuf_.length :=
          Nat.not_lt.mpr (hempty.trans (Nat.zero_le _))
        exact ⟨_, Function.update_self .., iff_of_false hopen' hfits⟩
      · exact closing_beginWriting hopen
    · next hitem =>
      rw [hitem]
      exact ⟨_, Function.update_self .., iff_of_false hopen' (Nat.not_lt_zero _)⟩
  · exact closing_beginWriting hopen

theorem Within.agrees (h : s.Within w) : s.Agrees w := by
  intro s' es d hs hd
  cases moves_of_step hs with
  | @writeable _ c _ _ hc _ hopen hs =>
      subst hs
      obtain ⟨d', hd', hclosing⟩ := s.closing_writeable w hopen
      obtain rfl := Option.some.inj (hd.symm.trans hd')
      have hfits : s.tested w c ≤ SERVRE_CACHE_MAX := by
        unfold tested
        split
        · rcases hitem : s.send_cache_ w with - | item
          · exact Nat.zero_le _
          · exact h.cache item hitem
        · exact (Nat.sub_le ..).trans (h.send c hc)
      exact Bool.eq_false_iff.mpr fun hcl => absurd (hclosing.mp hcl) (Nat.not_lt.mpr hfits)

/-- A writeable callback is due at `w` that finds `send_` written. -/
def Due (s : WebsocketServer) (w : Wsi) : Prop :=
  s.loop = .service ∧ ∃ c ∈ s.inout w, c.requested = true ∧ c.closing = false ∧
    c.send_.length < c.curSendPos_ + SIZEOF_MsgHead

instance (s : WebsocketServer) (w : Wsi) : Decidable (s.Due w) :=
  inferInstanceAs (Decidable (_ ∧ _))

theorem Due.givenUp (hdue : s.Due w) (hitem : s.send_cache_ w = some item)
    (hlong : SERVRE_CACHE_MAX < item.sendBuf_.length) : ¬ s.Agrees w := by
  obtain ⟨hloop, c, hc, hreq, hopen, hshort⟩ := hdue
  intro hagrees
  have hs : s.step (.writeable w) = some (s.writeable w c, []) := by
    simp only [WebsocketServer.step, hloop, Option.mem_def.mp hc]
    exact if_pos ⟨hreq, hopen⟩
  obtain ⟨d, hd, hclosing⟩ := s.closing_writeable w hopen
  have hfull : SERVRE_CACHE_MAX < s.tested w c := by
    unfold tested
    rw [if_pos hshort, hitem]
    exact hlong
  have hcl := hclosing.mpr hfull
  rw [hagrees _ _ d hs hd] at hcl
  cases hcl

/-- The condition is exact: behind a call without room for the head the callback
that is due gives the connection up. -/
theorem not_agrees_of_not_roomForHead (hok : ¬ RoomForHead w s act)
    (hs : s.step act = some (s', es)) (hdue : s.Due w) : ¬ s'.Agrees w := by
  cases act with
  | call b call =>
      obtain ⟨rfl, hok⟩ := Classical.not_imp.mp hok
      push Not at hok
      obtain ⟨⟨type, message⟩, hcall, item, hitem, hfits⟩ := hok
      rw [Option.mem_def] at hcall hitem
      simp only [WebsocketServer.step, hcall, hitem] at hs
      obtain ⟨-, hs⟩ := Option.ite_none_right_eq_some.mp hs
      obtain ⟨p, hp, he⟩ := Option.map_eq_some_iff.mp hs
      obtain ⟨rfl, rfl⟩ := Prod.mk.inj he
      have hlong : SERVRE_CACHE_MAX < p.1.length :=
        Nat.not_le.mp fun hle => hfits ((queueRecord_length_le_iff hp).mp hle)
      have hdue' : (s.queued b item p.1).Due b := hdue
      exact hdue'.givenUp (Function.update_self ..) hlong
  | _ => exact absurd trivial hok

/-- From every state in which there is room for a record, one call breaks the
condition. -/
theorem exists_not_roomForHead (hitem : s.send_cache_ w = some item)
    (hroom : item.sendBuf_.length + LWS_PRE < SERVRE_CACHE_MAX) :
    ∃ message s', machine.step s (.call w (.SendBinary message)) =
        some (s', [.accepted item.conn ⟨.Binary, message⟩]) ∧
      ¬ RoomForHead w s (.call w (.SendBinary message)) := by
  obtain ⟨message, hne, hint, hfit, hfits⟩ := exists_not_headFits hroom
  have hcall : (Call.SendBinary message).toMetaSend = some (.Binary, message) :=
    if_neg fun hle => hne (List.eq_nil_of_length_eq_zero (Nat.le_zero.mp hle))
  have hsend : s.MetaSend w item .Binary message =
      some (s.queued w item (item.sendBuf_ ++ (Record.mk .Binary message).bytes),
        [.accepted item.conn ⟨.Binary, message⟩]) := by
    unfold MetaSend
    rw [queueRecord_eq, if_neg (Nat.not_lt.mpr hfit)]
    rfl
  refine ⟨message, s.queued w item (item.sendBuf_ ++ (Record.mk .Binary message).bytes), ?_,
    fun hok => hfits (hok rfl (.Binary, message) hcall item hitem)⟩
  show s.step (.call w (.SendBinary message)) = _
  simp only [WebsocketServer.step, hcall, if_pos hint, hitem]
  exact hsend

end Within

end WebsocketServer

/-! ### The client -/

namespace WebsocketClient

/-- No writeable callback at `w` returns -1 from its test. -/
def Agrees (s : WebsocketClient) (w : Wsi) : Prop :=
  ∀ s' es c, s.step (.writeable w) = some (s', es) → s'.lws w = some c → c.closing = false

/-- `ClinetMetaSend` for `w` leaves room for the head. -/
def RoomForHead (w : Wsi) (s : WebsocketClient) : Act → Prop
  | .metaSend t => ∀ m ∈ s.users t, m.wsi = w → HeadFits (s.sendBuf w) m.message
  | _ => True

instance (w : Wsi) (s : WebsocketClient) (act : Act) : Decidable (RoomForHead w s act) := by
  unfold RoomForHead
  split <;> infer_instance

section Within

variable {junk : WebSock → Wsi} {s s' : WebsocketClient} {w b : Wsi} {c : Lws} {io : ClientInOut}
  {act : Act} {tr es : List Event}

/-- What a step leaves in the cache of `w`: what was there, nothing, or what
`ClinetMetaSend` has made of it. -/
inductive Caches (s : WebsocketClient) (w : Wsi) (s' : WebsocketClient) : Act → Prop
  | kept {a} (h : s'.sendBuf w = s.sendBuf w) : Caches s w s' a
  | emptied {a} (h : s'.sendBuf w = []) : Caches s w s' a
  | queued {t m p} (ht : s.users t = some m) (hw : m.wsi = w)
      (hp : WebsocketServer.queueRecord (s.sendBuf w) m.type m.message = some p)
      (h : s'.sendBuf w = p.1) : Caches s w s' (.metaSend t)

/-- The map is the same. -/
theorem Caches.congr (h : s'.client_message_cache_ = s.client_message_cache_) :
    Caches s w s' act := by
  refine .kept ?_
  unfold sendBuf
  rw [h]

theorem sendBuf_update {item : Option ClientMsgItem}
    (hs : s'.client_message_cache_ = Function.update s.client_message_cache_ b item) :
    s'.sendBuf w = if w = b then item.elim [] ClientMsgItem.sendBuf_ else s.sendBuf w := by
  unfold sendBuf
  rw [hs, Function.update_apply]
  split <;> rfl

/-- An entry changes that keeps what is cached or has nothing cached. -/
theorem Caches.update {item : ClientMsgItem}
    (hs : s'.client_message_cache_ = Function.update s.client_message_cache_ b (some item))
    (h : item.sendBuf_ = s.sendBuf b ∨ item.sendBuf_ = []) : Caches s w s' act := by
  have hbuf : s'.sendBuf w = if w = b then item.sendBuf_ else s.sendBuf w := sendBuf_update hs
  split at hbuf
  · next hw =>
    subst hw
    rcases h with hkept | hempty
    · exact .kept (hbuf.trans hkept)
    · exact .emptied (hbuf.trans hempty)
  · exact .kept hbuf

theorem Caches.erase
    (hs : s'.client_message_cache_ = Function.update s.client_message_cache_ b none) :
    Caches s w s' act := by
  have hbuf : s'.sendBuf w = if w = b then [] else s.sendBuf w := sendBuf_update hs
  split at hbuf
  · exact .emptied hbuf
  · exact .kept hbuf

theorem caches_metaSend {t : Thread} {m : Sending} (ht : s.users t = some m)
    (hs : (s.setUser t none).ClinetMetaSend m = some (s', es)) :
    Caches s w s' (.metaSend t) := by
  obtain ⟨p, hp, he⟩ := Option.map_eq_some_iff.mp hs
  obtain ⟨rfl, -⟩ := Prod.mk.inj he
  rcases eq_or_ne w m.wsi with rfl | hne
  · refine .queued ht rfl ?_ ((sendBuf_update rfl).trans (if_pos rfl))
    rw [← sendBuf_item]
    exact hp
  · exact .kept ((sendBuf_update rfl).trans (if_neg hne))

theorem caches_collect (s : WebsocketClient) (w : Wsi) : Caches s w s.collect act := by
  refine .kept ?_
  show ((s.client_message_cache_ w).map _).elim [] _ = _
  unfold sendBuf
  cases s.client_message_cache_ w <;> rfl

theorem caches_writeable (s : WebsocketClient) (w b : Wsi) (c : Lws) (io : ClientInOut) :
    Caches s w (s.writeable b c io) act := by
  unfold writeable
  dsimp only
  split
  · split
    · split
      · exact .update rfl (.inr rfl)
      · split
        · exact .update rfl (.inr rfl)
        · exact .update rfl (.inr rfl)
    · exact .congr rfl
  · exact .congr rfl

theorem caches_of_pass {now : Int} (hp : Passes s now es s') : Caches s w s' (.pass now) := by
  cases hp with
  | @register b => exact .update rfl (.inl (sendBuf_item s b))
  | collect => exact caches_collect s w
  | request _ hs =>
      obtain ⟨lws, rfl⟩ := lws_callback_on_writable_frame hs
      exact .congr rfl
  | _ => exact .congr rfl

theorem caches_of_step (hs : s.step act = some (s', es)) : Caches s w s' act := by
  cases moves_of_step hs with
  | call _ hs =>
      obtain ⟨users, rfl⟩ := call_frame hs
      exact .congr rfl
  | metaSend ht hs => exact caches_metaSend ht hs
  | destruct => exact .erase rfl
  | destroy => exact .erase rfl
  | pass hp => exact caches_of_pass hp
  | @established b c =>
      obtain ⟨lws, socks, hframe⟩ := established_frame s b c
      rw [hframe]
      exact .congr rfl
  | writeable => exact caches_writeable ..
  | write _ _ _ hs =>
      obtain ⟨lws, loop, rfl, -⟩ := writeOne_frame hs
      exact .congr rfl
  | _ => exact .congr rfl

/-- **The cache stays within the limit** where the head fits. -/
theorem within_of_run (h : (machine junk).Run (RoomForHead w) tr s) :
    (s.sendBuf w).length ≤ SERVRE_CACHE_MAX := by
  refine h.invariant (fun _ s => (s.sendBuf w).length ≤ SERVRE_CACHE_MAX) (Nat.zero_le _) ?_
  intro tr s a s' es ih hok hs
  have hcaches : Caches s w s' a := caches_of_step hs
  cases hcaches with
  | kept hbuf => rwa [hbuf]
  | emptied hbuf =>
      rw [hbuf]
      exact Nat.zero_le _
  | queued ht hw hp hbuf =>
      rw [hbuf]
      exact (queueRecord_length_le_iff hp).mpr (hok _ ht hw)

/-- The callback tests the cache it has taken over. -/
theorem closing_writeable (s : WebsocketClient) (w : Wsi) (io : ClientInOut)
    (hopen : c.closing = false) :
    ∃ d, (s.writeable w c io).lws w = some d ∧ (d.closing = true ↔
      io.send_.length < io.curSendPos_ + SIZEOF_MsgHead ∧
        SERVRE_CACHE_MAX < (s.sendBuf w).length) := by
  have hopen' : ¬ c.closing = true := by
    rw [hopen]
    nofun
  unfold writeable sendBuf
  dsimp only
  split
  · next hshort =>
    split
    · next item hitem =>
      rw [hitem]
      split
      · next hfull => exact ⟨_, Function.update_self .., iff_of_true rfl ⟨hshort, hfull⟩⟩
      · next hfits =>
        refine ⟨{ c with requested := false,
                         user := some { io with send_ := item.sendBuf_, curSendPos_ := 0 } },
          ?_, iff_of_false hopen' fun h => hfits h.2⟩
        split <;> exact Function.update_self ..
    · next hitem =>
      rw [hitem]
      exact ⟨_, Function.update_self ..,
        iff_of_false hopen' fun h => absurd h.2 (Nat.not_lt_zero _)⟩
  · next hlong => exact ⟨_, Function.update_self .., iff_of_false hopen' fun h => hlong h.1⟩

theorem agrees_of_within (h : (s.sendBuf w).length ≤ SERVRE_CACHE_MAX) : s.Agrees w := by
  intro s' es d hs hd
  simp only [step] at hs
  split at hs
  · next c hloop hc =>
    obtain ⟨⟨-, hopen⟩, hs⟩ := Option.ite_none_right_eq_some.mp hs
    split at hs
    · next io huser =>
      obtain ⟨rfl, -⟩ := Prod.mk.inj (Option.some.inj hs)
      obtain ⟨d', hd', hclosing⟩ := s.closing_writeable w io hopen
      obtain rfl := Option.some.inj (hd.symm.trans hd')
      exact Bool.eq_false_iff.mpr fun hcl => absurd (hclosing.mp hcl).2 (Nat.not_lt.mpr h)
    · obtain ⟨rfl, -⟩ := Prod.mk.inj (Option.some.inj hs)
      obtain rfl := WebsocketServer.update_self_eq hd
      exact hopen
  · cases hs

/-- A writeable callback is due at `w` that finds `send_` written. -/
def Due (s : WebsocketClient) (w : Wsi) : Prop :=
  s.loop = .service ∧ ∃ c ∈ s.lws w, c.requested = true ∧ c.closing = false ∧
    ∃ io ∈ c.user, io.send_.length < io.curSendPos_ + SIZEOF_MsgHead

instance (s : WebsocketClient) (w : Wsi) : Decidable (s.Due w) :=
  inferInstanceAs (Decidable (_ ∧ _))

theorem Due.givenUp (hdue : s.Due w) (hlong : SERVRE_CACHE_MAX < (s.sendBuf w).length) :
    ¬ s.Agrees w := by
  obtain ⟨hloop, c, hc, hreq, hopen, io, huser, hshort⟩ := hdue
  intro hagrees
  have hs : s.step (.writeable w) = some (s.writeable w c io, []) := by
    simp only [step, hloop, Option.mem_def.mp hc, Option.mem_def.mp huser]
    exact if_pos ⟨hreq, hopen⟩
  obtain ⟨d, hd, hclosing⟩ := s.closing_writeable w io hopen
  have hcl := hclosing.mpr ⟨hshort, hlong⟩
  rw [hagrees _ _ d hs hd] at hcl
  cases hcl

/-- The condition is exact here as well. -/
theorem not_agrees_of_not_roomForHead (hok : ¬ RoomForHead w s act)
    (hs : s.step act = some (s', es)) (hdue : s.Due w) : ¬ s'.Agrees w := by
  cases act with
  | metaSend t =>
      obtain ⟨m, hm⟩ := not_forall.mp hok
      obtain ⟨ht, hm⟩ := Classical.not_imp.mp hm
      obtain ⟨rfl, hfits⟩ := Classical.not_imp.mp hm
      simp only [step, Option.mem_def.mp ht] at hs
      obtain ⟨p, hp, he⟩ := Option.map_eq_some_iff.mp hs
      obtain ⟨hs', -⟩ := Prod.mk.inj he
      have hbuf : s'.sendBuf m.wsi = p.1 := by
        rw [← hs']
        exact (sendBuf_update rfl).trans (if_pos rfl)
      have hdue' : s'.Due m.wsi := by
        rw [← hs']
        exact hdue
      refine hdue'.givenUp ?_
      rw [hbuf]
      refine Nat.not_le.mp fun hle => hfits ?_
      rw [← sendBuf_item]
      exact (queueRecord_length_le_iff hp).mp hle
  | _ => exact absurd trivial hok

/-- From every state in which the handle is that of `w` and there is room for a
record, a call and its `ClinetMetaSend` break the condition. -/
theorem exists_not_roomForHead (junk : WebSock → Wsi) {t : Thread} {websock : WebSock}
    (hidle : s.users t = none) (hwsi : (s.socks websock).wsi_ = w) (hw : w ≠ 0)
    (hroom : (s.sendBuf w).length + LWS_PRE < SERVRE_CACHE_MAX) (hdue : s.Due w) :
    ∃ message s₁ s', (machine junk).step s (.call t websock (.SendBinary message)) =
        some (s₁, []) ∧
      (machine junk).step s₁ (.metaSend t) = some (s', [.accepted (s.socks websock).conn
        (s.live w (s.socks websock).conn) ⟨.Binary, message⟩]) ∧ s₁.Due w ∧
      ¬ RoomForHead w s₁ (.metaSend t) := by
  obtain ⟨message, hne, hint, hfit, hfits⟩ := exists_not_headFits hroom
  have hcall : (Call.SendBinary message).toMetaSend = some (.Binary, message) :=
    if_neg fun hle => hne (List.eq_nil_of_length_eq_zero (Nat.le_zero.mp hle))
  let m : Sending := ⟨w, (s.socks websock).conn, .Binary, message⟩
  let s₁ := (s.setSock websock (s.socks websock)).setUser t (some m)
  have hm : s₁.users t = some m := Function.update_self ..
  have hs₁ : s.step (.call t websock (.SendBinary message)) = some (s₁, []) := by
    simp only [step, hidle, call, hcall]
    rw [if_pos (show (Call.SendBinary message).len ≤ INT_MAX from hint), hwsi, if_pos hw]
    rfl
  have hqueue : WebsocketServer.queueRecord ((s₁.setUser t none).item w).sendBuf_ .Binary message =
      some (s.sendBuf w ++ (Record.mk .Binary message).bytes, false) := by
    rw [sendBuf_item, WebsocketServer.queueRecord_eq]
    exact if_neg (Nat.not_lt.mpr hfit)
  have hs' : ∃ s', s₁.step (.metaSend t) = some (s', [.accepted (s.socks websock).conn
      (s.live w (s.socks websock).conn) ⟨.Binary, message⟩]) := by
    simp only [step, hm, ClinetMetaSend]
    rw [hqueue]
    exact ⟨_, rfl⟩
  obtain ⟨s', hs'⟩ := hs'
  exact ⟨message, s₁, s', hs₁, hs', hdue, fun hok => hfits (hok m hm rfl)⟩

end Within

end WebsocketClient

/-! ### Both -/

/-- **Producer and consumer agree on the limit** for the connections at `w`, in
every run in which the messages for `w` leave room for the head, on the server
and on the client. -/
theorem agrees_of_roomForHead (w : Wsi) :
    (∀ tr s, WebsocketServer.machine.Run (WebsocketServer.RoomForHead w) tr s → s.Agrees w) ∧
      ∀ junk tr s, (WebsocketClient.machine junk).Run (WebsocketClient.RoomForHead w) tr s →
        s.Agrees w :=
  ⟨fun _ _ h => (WebsocketServer.Within.of_run h).agrees,
    fun _ _ _ h => WebsocketClient.agrees_of_within (WebsocketClient.within_of_run h)⟩

/-- The server before the writeable callback for a message of one byte. -/
private def serverDue : List WebsocketServer.Act :=
  [.pass, .established 5, .call 5 (.SendText [0x61]), .pass, .pass, .collect, .request, .request]

/-- The client before the same callback. -/
private def clientDue : List WebsocketClient.Act :=
  [.connect 1, .pass 5, .pass 5, .pass 5, .pass 5, .pass 5, .attempt (some 5), .pass 5, .pass 5,
    .pass 5, .established 5, .call 1 1 (.SendText [0x61]), .metaSend 1, .pass 5, .pass 6, .pass 6,
    .pass 6, .pass 6, .pass 6, .pass 6, .pass 6]

/-- A callback is due on both sides. -/
theorem agrees_of_roomForHead_two :
    (∃ tr s, WebsocketServer.machine.Run (WebsocketServer.RoomForHead 5) tr s ∧ s.Due 5 ∧
      s.Agrees 5) ∧
    ∃ tr s, (WebsocketClient.machine fun _ => 0).Run (WebsocketClient.RoomForHead 5) tr s ∧
      s.Due 5 ∧ s.Agrees 5 := by
  obtain ⟨tr, s, hrun, hp⟩ := WebsocketServer.machine.run_of_exec (WebsocketServer.RoomForHead 5)
    serverDue (fun q => decide (q.1.Due 5)) (by decide +kernel)
  obtain ⟨tr', s', hrun', hp'⟩ := (WebsocketClient.machine fun _ => 0).run_of_exec
    (WebsocketClient.RoomForHead 5) clientDue (fun q => decide (q.1.Due 5)) (by decide +kernel)
  exact ⟨⟨tr, s, hrun, of_decide_eq_true hp, (agrees_of_roomForHead 5).1 tr s hrun⟩,
    tr', s', hrun', of_decide_eq_true hp', (agrees_of_roomForHead 5).2 _ tr' s' hrun'⟩

/-- Behind a message of one byte the longest one that is taken is appended: the
callback that is due then gives the connection up, on both sides. -/
theorem not_agrees :
    (¬ ∀ w tr s, WebsocketServer.machine.Run AnyStep tr s → (∀ k, .overflow k ∉ tr) →
      s.Agrees w) ∧
    ¬ ∀ junk w tr s, (WebsocketClient.machine junk).Run AnyStep tr s →
      (∀ conn live, .overflow conn live ∉ tr) → s.Agrees w := by
  constructor
  · intro h
    obtain ⟨tr, s, hrun, hp⟩ := WebsocketServer.machine.run_of_exec AnyStep serverDue
      (fun q => decide (q.1.Due 5 ∧ (∃ item ∈ q.1.send_cache_ 5, item.sendBuf_.length = 25) ∧
        q.2 = [.accepted 0 ⟨.Text, [0x61]⟩])) (by decide +kernel)
    obtain ⟨hdue, ⟨item, hitem, hbuf⟩, htr⟩ := of_decide_eq_true hp
    obtain ⟨message, s', hs, hok⟩ := WebsocketServer.exists_not_roomForHead hitem
      (by rw [hbuf]; decide)
    refine WebsocketServer.not_agrees_of_not_roomForHead hok hs hdue
      (h 5 _ _ (hrun.step trivial hs) fun k => ?_)
    simp [show tr = _ from htr]
  · intro h
    obtain ⟨tr, s, hrun, hp⟩ := (WebsocketClient.machine fun _ => 0).run_of_exec AnyStep clientDue
      (fun q => decide (q.1.Due 5 ∧ (q.1.sendBuf 5).length = 25 ∧ q.1.users 1 = none ∧
        (q.1.socks 1).wsi_ = 5 ∧
        q.2 = [.attempted 1 (some 5), .accepted (some 0) true ⟨.Text, [0x61]⟩,
          .requested 5 (some 0)])) (by decide +kernel)
    obtain ⟨hdue, hbuf, hidle, hwsi, htr⟩ := of_decide_eq_true hp
    obtain ⟨message, s₁, s', hcall, hs, hdue', hok⟩ :=
      WebsocketClient.exists_not_roomForHead (fun _ => 0) hidle hwsi (by decide)
        (by rw [hbuf]; decide) hdue
    refine WebsocketClient.not_agrees_of_not_roomForHead hok hs hdue'
      (h _ 5 _ _ ((hrun.step trivial hcall).step trivial hs) fun conn live => ?_)
    simp [show tr = _ from htr]

end TestExamples
