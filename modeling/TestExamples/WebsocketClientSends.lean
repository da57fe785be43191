/-
TestExamples/WebsocketClientSends.lean

What a step of the websocket client does to the send buffers.

Of an entry of `client_message_cache_` the three fields matter that
`ClinetMetaSend`, the pass and the writeable callback use (`Cached`); an address
without an entry is like one with a new entry.  `Turns` lists the steps by what
they do to these fields and to the connections, mostly to one of them (`On`), and
`turns_of_moves` reads it off the steps.

The entry of a connection goes with the connection, and with its `WebSock`:
`ClearRegisterCache` takes it out and what is queued with it.  `Kept` asks, next to
`Live`, that nothing is queued then.
-/
import TestExamples.WebsocketClientTable
import TestExamples.WebsocketServerFifo

namespace TestExamples

namespace WebsocketClient

structure Cached where
  sendBuf_ : List Byte
  updated_ : Bool
  sending_ : Bool

/-- What `client_message_cache_` says of the sends on `w`. -/
def cached (s : WebsocketClient) (w : Wsi) : Cached :=
  ⟨(s.item w).sendBuf_, (s.item w).updated_, (s.item w).sending_⟩

/-- `ClinetMetaSend` leaves `buf` and announces it unless `sending_` is set. -/
def Cached.announce (i : Cached) (buf : List Byte) : Cached :=
  ⟨buf, if i.sending_ then i.updated_ else true, i.sending_⟩

/-- `run` has the connection in `updateds` and is about to ask for a callback. -/
def Asking (loop : ClientPc) (w : Wsi) : Prop := ∃ rest, loop = .requesting rest ∧ w ∈ rest

/-- `run` is neither about to ask for callbacks nor in one. -/
def Outside (loop : ClientPc) : Prop :=
  (∀ b, loop ≠ .writing b) ∧ ∀ rest, loop ≠ .requesting rest

/-- A send is for a connection that is there, and a `WebSock` is destructed while
nothing is queued for its connection. -/
def Kept (s : WebsocketClient) : Act → Prop
  | .destruct websock => s.sendBuf (s.socks websock).wsi_ = []
  | act => s.Live act

instance (s : WebsocketClient) : ∀ act, Decidable (s.Kept act)
  | .destruct _ => inferInstanceAs (Decidable (_ = _))
  | .metaSend t => inferInstanceAs (Decidable (s.Live (.metaSend t)))
  | .connect _ | .setAutoReconnect _ _ | .setReconnectInterval _ _ | .call _ _ _ | .pass _
  | .attempt _ | .established _ | .writeable _ | .write _ | .destroy _ =>
      inferInstanceAs (Decidable True)

theorem Kept.live {s : WebsocketClient} {act : Act} (h : s.Kept act) : s.Live act := by
  cases act with
  | destruct => exact True.intro
  | _ => exact h

/-- A step on the connection at `w`. -/
structure On (s s' : WebsocketClient) (w : Wsi) (c c' : Lws) (i : Cached) : Prop where
  here : s.lws w = some c
  lws : s'.lws = Function.update s.lws w (some c')
  conn : c'.conn = c.conn
  cached : s'.cached = Function.update s.cached w i
  serial : s'.serial = s.serial

/-- A writeable callback takes `sendBuf_` over: there is nothing in it, there is too
much in it, or its records are written now. -/
inductive Refills (s s' : WebsocketClient) (w : Wsi) (c c' : Lws) : Prop
  | drained (hnil : (s.cached w).sendBuf_ = []) (hsend : c'.send = [])
      (hopen : c'.closing = c.closing) (hloop : s'.loop = s.loop)
  | flooded (hclosing : c'.closing = true) (hloop : s'.loop = s.loop)
  | filled (hne : (s.cached w).sendBuf_ ≠ []) (hsend : c'.send = (s.cached w).sendBuf_)
      (hopen : c'.closing = c.closing) (hloop : s'.loop = .writing w)

/-- **The steps, by what they do to the send buffers.** -/
inductive Turns (s : WebsocketClient) : Act → List Event → WebsocketClient → Prop
  | still {act es s'} (hlws : s'.lws = s.lws) (hcached : s'.cached = s.cached)
      (hnew : s'.bnew_data_to_send_ = s.bnew_data_to_send_)
      (hwriting : ∀ b, s'.loop = .writing b ↔ s.loop = .writing b)
      (hask : ∀ b, b ≠ 0 → Asking s.loop b → Asking s'.loop b)
      (hask' : ∀ b, Asking s'.loop b → Asking s.loop b)
      (hes : ∀ e ∈ es, e.conn = none) : Turns s act es s'
  | accepted {act w c r s'} (hsmall : r.Small)
      (hon : On s s' w c c ((s.cached w).announce ((s.cached w).sendBuf_ ++ r.bytes)))
      (hnew : s'.bnew_data_to_send_ =
        if (s.cached w).sending_ then s.bnew_data_to_send_ else true)
      (hloop : s'.loop = s.loop) : Turns s act [.accepted (some c.conn) true r] s'
  | overflow {act w c s'}
      (hon : On s s' w c c ((s.cached w).announce (Record.mk .Close []).bytes))
      (hnew : s'.bnew_data_to_send_ =
        if (s.cached w).sending_ then s.bnew_data_to_send_ else true)
      (hloop : s'.loop = s.loop) : Turns s act [.overflow (some c.conn) true] s'
  | erased {websock w c s'} (hw : (s.socks websock).wsi_ = w)
      (hempty : (s.cached w).sendBuf_ = [])
      (hon : On s s' w c c ⟨[], false, false⟩)
      (hnew : s'.bnew_data_to_send_ = s.bnew_data_to_send_) (hloop : s'.loop = s.loop) :
      Turns s (.destruct websock) [] s'
  | collect {act s'} (hloop : s.loop = .collecting) (hlws : s'.lws = s.lws)
      (hcached : ∀ b, s'.cached b = { s.cached b with updated_ := false })
      (hask : ∀ b, Asking s'.loop b ↔ (s.cached b).updated_ = true)
      (hwriting : ∀ b, s'.loop ≠ .writing b) : Turns s act [] s'
  | request {act w rest c s'} (hloop : s.loop = .requesting (w :: rest))
      (hon : On s s' w c { c with requested := true } (s.cached w))
      (hnew : s'.bnew_data_to_send_ = s.bnew_data_to_send_) (hloop' : s'.loop = .requesting rest) :
      Turns s act [.requested w (some c.conn)] s'
  | created {act w websock s'} (hnone : s.lws w = none) (hw : w ≠ 0)
      (hlws : s'.lws = Function.update s.lws w (some ⟨none, false, false, s.serial⟩))
      (hcached : s'.cached = s.cached)
      (hnew : s'.bnew_data_to_send_ = s.bnew_data_to_send_)
      (hout : Outside s.loop ∧ Outside s'.loop) : Turns s act [.attempted websock (some w)] s'
  | established {act w c c' s'} (huser : c.user = none) (hon : On s s' w c c' (s.cached w))
      (huser' : c'.user ≠ none) (hsend : c'.send = [] ∧ c'.pos = 0)
      (hfields : c'.requested = c.requested ∧ c'.closing = c.closing)
      (hnew : s'.bnew_data_to_send_ = s.bnew_data_to_send_) (hloop : s'.loop = s.loop) :
      Turns s act [] s'
  | refill {w c c' s'} (hservice : s.loop = .service) (hopen : c.closing = false)
      (hasked : c.requested = true)
      (hshort : c.send.length < c.pos + SIZEOF_MsgHead)
      (hon : On s s' w c c' ⟨[], (s.cached w).updated_, 0 < (s.cached w).sendBuf_.length⟩)
      (huser : c'.user ≠ none) (hreq : c'.requested = false) (hpos : c'.pos = 0)
      (hnew : s'.bnew_data_to_send_ = s.bnew_data_to_send_) (hrefills : Refills s s' w c c') :
      Turns s (.writeable w) [] s'
  | resume {w c s'} (hservice : s.loop = .service) (hopen : c.closing = false)
      (hasked : c.requested = true)
      (hlong : c.pos + SIZEOF_MsgHead ≤ c.send.length)
      (hon : On s s' w c { c with requested := false } (s.cached w))
      (hnew : s'.bnew_data_to_send_ = s.bnew_data_to_send_) (hloop : s'.loop = .writing w) :
      Turns s (.writeable w) [] s'
  | unready {w c s'} (huser : c.user = none)
      (hon : On s s' w c { c with requested := false } (s.cached w))
      (hnew : s'.bnew_data_to_send_ = s.bnew_data_to_send_) (hloop : s'.loop = s.loop) :
      Turns s (.writeable w) [] s'
  | write {w c io partially es s'} (hloop : s.loop = .writing w) (hc : s.lws w = some c)
      (huser : c.user = some io) (hs : s.writeOne w c io partially = (s', es)) :
      Turns s (.write partially) es s'
  | destroy {w s'} (hservice : s.loop = .service) (hlws : s'.lws = Function.update s.lws w none)
      (hcached : s'.cached = Function.update s.cached w ⟨[], false, false⟩)
      (hnew : s'.bnew_data_to_send_ = s.bnew_data_to_send_)
      (hout : Outside s'.loop) : Turns s (.destroy w) [] s'

/-! ### The fields of the entries -/

section Cached

variable {s s' : WebsocketClient} {w : Wsi} {c : Lws}

theorem cached_sendBuf (s : WebsocketClient) (w : Wsi) : (s.cached w).sendBuf_ = s.sendBuf w :=
  sendBuf_item s w

theorem cached_congr (h : s'.client_message_cache_ = s.client_message_cache_) :
    s'.cached = s.cached := by
  funext b
  unfold cached item
  rw [h]

theorem cached_of_none (h : s.client_message_cache_ w = none) :
    s.cached w = ⟨[], false, false⟩ := by
  unfold cached item
  rw [h]
  rfl

theorem cached_of_some (item : ClientMsgItem)
    (h : s'.client_message_cache_ = Function.update s.client_message_cache_ w (some item)) :
    s'.cached = Function.update s.cached w ⟨item.sendBuf_, item.updated_, item.sending_⟩ := by
  funext b
  unfold cached WebsocketClient.item
  rw [h]
  by_cases hb : b = w
  · subst hb
    rw [Function.update_self, Function.update_self]
    rfl
  · rw [Function.update_of_ne hb, Function.update_of_ne hb]

theorem cached_of_erase
    (h : s'.client_message_cache_ = Function.update s.client_message_cache_ w none) :
    s'.cached = Function.update s.cached w ⟨[], false, false⟩ := by
  funext b
  unfold cached WebsocketClient.item
  rw [h]
  by_cases hb : b = w
  · subst hb
    rw [Function.update_self, Function.update_self]
    rfl
  · rw [Function.update_of_ne hb, Function.update_of_ne hb]

/-- A step that leaves the entries alone. -/
theorem On.of_cached {c' : Lws} (hc : s.lws w = some c)
    (hlws : s'.lws = Function.update s.lws w (some c')) (hconn : c'.conn = c.conn)
    (hcached : s'.cached = s.cached) (hserial : s'.serial = s.serial) :
    On s s' w c c' (s.cached w) where
  here := hc
  lws := hlws
  conn := hconn
  cached := hcached.trans (Function.update_eq_self w s.cached).symm
  serial := hserial

/-- A step that leaves the connection alone. -/
theorem On.of_lws {i : Cached} (hc : s.lws w = some c) (hlws : s'.lws = s.lws)
    (hcached : s'.cached = Function.update s.cached w i) (hserial : s'.serial = s.serial) :
    On s s' w c c i where
  here := hc
  lws := hlws.trans (Function.update_eq_self_iff.mpr hc.symm).symm
  conn := rfl
  cached := hcached
  serial := hserial

end Cached

/-! ### Every entry has its key -/

/-- `keys` holds every address that has an entry. -/
def Listed (s : WebsocketClient) : Prop := ∀ b, s.client_message_cache_ b ≠ none → b ∈ s.keys

namespace Listed

variable {s s' : WebsocketClient} {act : Act} {es : List Event} {w : Wsi}

theorem congr (h : Listed s) (hcache : s'.client_message_cache_ = s.client_message_cache_)
    (hkeys : s'.keys = s.keys) : Listed s' := by
  intro b hb
  rw [hcache] at hb
  rw [hkeys]
  exact h b hb

theorem setItem (h : Listed s) (item : ClientMsgItem)
    (hcache : s'.client_message_cache_ = Function.update s.client_message_cache_ w (some item))
    (hkeys : s'.keys = if w ∈ s.keys then s.keys else s.keys.orderedInsert (· ≤ ·) w) :
    Listed s' := by
  have hold : ∀ b, b ∈ s.keys ∨ b = w → b ∈ s'.keys := by
    intro b hb
    rw [hkeys]
    split
    · next hw => exact hb.elim id fun he => he ▸ hw
    · exact (List.mem_orderedInsert ..).mpr hb.symm
  intro b hb
  rw [hcache] at hb
  rcases eq_or_ne b w with rfl | hne
  · exact hold b (Or.inr rfl)
  · rw [Function.update_of_ne hne] at hb
    exact hold b (Or.inl (h b hb))

theorem erase (h : Listed s)
    (hcache : s'.client_message_cache_ = Function.update s.client_message_cache_ w none)
    (hkeys : s'.keys = s.keys.filter fun b => b ≠ w) : Listed s' := by
  intro b hb
  rw [hcache] at hb
  rcases eq_or_ne b w with rfl | hne
  · exact absurd (Function.update_self ..) hb
  · rw [Function.update_of_ne hne] at hb
    rw [hkeys]
    exact List.mem_filter.mpr ⟨h b hb, decide_eq_true hne⟩

theorem collect (h : Listed s) : Listed s.collect := by
  intro b hb
  refine h b fun hnone => hb ?_
  show (s.client_message_cache_ b).map _ = none
  rw [hnone]
  rfl

theorem writeable (h : Listed s) (c : Lws) (io : ClientInOut) : Listed (s.writeable w c io) := by
  unfold WebsocketClient.writeable
  dsimp only
  split
  · split
    · split_ifs <;> exact h.setItem _ rfl rfl
    · exact h.congr rfl rfl
  · exact h.congr rfl rfl

theorem pass {now : Int} (h : Listed s) (hp : Passes s now es s') : Listed s' := by
  cases hp with
  | collect => exact h.collect
  | register => exact h.setItem _ rfl rfl
  | request _ hs =>
      obtain ⟨lws, rfl⟩ := lws_callback_on_writable_frame hs
      exact h.congr rfl rfl
  | _ => exact h.congr rfl rfl

theorem step (h : Listed s) (hm : Moves s act es s') : Listed s' := by
  cases hm with
  | call _ hs =>
      obtain ⟨users, rfl⟩ := call_frame hs
      exact h.congr rfl rfl
  | metaSend _ hs =>
      obtain ⟨p, -, he⟩ := Option.map_eq_some_iff.mp hs
      obtain ⟨rfl, -⟩ := Prod.mk.inj he
      exact h.setItem _ rfl rfl
  | destruct => exact h.erase rfl rfl
  | pass hp => exact h.pass hp
  | established =>
      obtain ⟨lws, socks, he⟩ := established_frame s _ _
      rw [he]
      exact h.congr rfl rfl
  | writeable => exact h.writeable _ _
  | write _ _ _ hs =>
      obtain ⟨lws, loop, rfl, -⟩ := writeOne_frame hs
      exact h.congr rfl rfl
  | destroy => exact h.erase rfl rfl
  | _ => exact h.congr rfl rfl

end Listed

/-! ### The steps -/

section Turns

variable {s s' : WebsocketClient} {act : Act} {tr es : List Event} {w : Wsi} {c : Lws}

theorem silent : ∀ e ∈ ([] : List Event), e.conn = none := List.forall_mem_nil _

theorem not_asking {loop : ClientPc} (h : ∀ rest, loop ≠ .requesting rest) (w : Wsi) :
    ¬ Asking loop w := by
  rintro ⟨rest, hl, -⟩
  exact h rest hl

theorem Outside.not_asking {loop : ClientPc} (h : Outside loop) (w : Wsi) : ¬ Asking loop w :=
  WebsocketClient.not_asking h.2 w

theorem outside_service : Outside .service := by simp [Outside]

theorem outside_next (origin : Origin) : Outside origin.next := by
  cases origin <;> simp [Outside, Origin.next]

/-- The service thread goes from one place outside of the loops to another. -/
theorem Turns.move {l : ClientPc} (hloop : s.loop = l) (hout : Outside l)
    (hlws : s'.lws = s.lws) (hcached : s'.cached = s.cached)
    (hnew : s'.bnew_data_to_send_ = s.bnew_data_to_send_) (hout' : Outside s'.loop)
    (hes : ∀ e ∈ es, e.conn = none) : Turns s act es s' := by
  subst hloop
  exact .still hlws hcached hnew (fun b => iff_of_false (hout'.1 b) (hout.1 b))
    (fun b _ ha => absurd ha (hout.not_asking b)) (fun b ha => absurd ha (hout'.not_asking b)) hes

theorem turns_of_passes {now : Int} (h : Table tr s) (hlisted : Listed s)
    (hp : Passes s now es s') : Turns s act es s' := by
  cases hp with
  | top hloop | delayedEnd hloop | swap hloop | immediateEnd hloop | postpone hloop
  | immediate hloop | around hloop | due hloop | early hloop =>
      exact .move hloop (by simp [Outside]) rfl (cached_congr rfl) rfl (by simp [Outside]) silent
  | newConnect hloop | newData hloop =>
      refine .move hloop (by simp [Outside]) rfl (cached_congr rfl) rfl ?_ silent
      dsimp only
      split <;> simp [Outside]
  | @register w websock origin hloop =>
      have hcached : (s.register w websock origin).cached =
          Function.update s.cached w (s.cached w) :=
        cached_of_some { s.item w with websock_ := some websock } rfl
      refine .move hloop (by simp [Outside]) rfl ?_ rfl (outside_next _) silent
      rw [hcached, Function.update_eq_self]
  | @reconsider item origin hloop =>
      refine .move hloop (by simp [Outside]) rfl (cached_congr rfl) rfl ?_ silent
      show Outside (s.reconsider now item origin)
      unfold WebsocketClient.reconsider
      dsimp only
      split
      · simp [Outside]
      · exact outside_next origin
  | push hloop =>
      exact .move hloop (by simp [Outside]) rfl (cached_congr rfl) rfl (outside_next _) silent
  | collect hloop =>
      refine .collect hloop rfl (fun b => ?_) (fun b => ⟨?_, fun hb => ⟨_, rfl, ?_⟩⟩) (by
        intro b
        show ClientPc.requesting _ ≠ _
        simp)
      · have hitem : s.collect.item b = { s.item b with updated_ := false } := by
          show ((s.client_message_cache_ b).map fun item : ClientMsgItem =>
            { item with updated_ := false }).getD ⟨none, [], false, false⟩ = _
          unfold item
          cases s.client_message_cache_ b <;> rfl
        unfold cached
        rw [hitem]
      · rintro ⟨rest, hl, hb⟩
        obtain rfl := ClientPc.requesting.inj hl
        obtain ⟨item, hitem, hupdated⟩ := (Option.any_eq_true ..).mp (List.mem_filter.mp hb).2
        unfold cached WebsocketClient.item
        rw [hitem]
        exact hupdated
      · -- what is announced has an entry
        have hentry : (s.client_message_cache_ b).any (fun item => item.updated_) = true := by
          unfold cached item at hb
          cases he : s.client_message_cache_ b with
          | none =>
              rw [he] at hb
              cases hb
          | some item =>
              rw [he] at hb
              exact hb
        refine List.mem_filter.mpr ⟨hlisted b fun hnone => ?_, hentry⟩
        rw [hnone] at hentry
        cases hentry
  | requestEnd hloop =>
      refine .still rfl (cached_congr rfl) rfl (fun b => ?_) ?_
        (fun b ha => absurd ha (outside_service.not_asking b)) silent
      · rw [hloop]
        simp
      · rintro b - ⟨rest, hl, hb⟩
        rw [hloop] at hl
        cases hl
        cases hb
  | @request w rest es s' hloop hs =>
      have hlive : s.lws w ≠ none := h.hand w (by rw [hloop]; exact List.mem_cons_self ..)
      obtain ⟨c, hc⟩ := Option.ne_none_iff_exists'.mp hlive
      rw [lws_callback_on_writable_eq (s := { s with loop := .requesting rest }) hc] at hs
      obtain ⟨rfl, rfl⟩ := Prod.mk.inj hs
      exact .request hloop (.of_cached hc rfl rfl (cached_congr rfl) rfl) rfl rfl
  | @skip w rest hloop hw =>
      refine .still rfl (cached_congr rfl) rfl (fun b => ?_) ?_ ?_ silent
      · rw [hloop]
        simp
      · rintro b hb ⟨rest', hl, hmem⟩
        rw [hloop] at hl
        cases hl
        exact ⟨rest, rfl, (List.mem_cons.mp hmem).resolve_left fun he => hb (he.trans hw)⟩
      · rintro b ⟨rest', hl, hmem⟩
        obtain rfl := ClientPc.requesting.inj hl
        exact ⟨w :: rest, hloop, List.mem_cons_of_mem _ hmem⟩

/-- The section of `ClinetMetaSend` for a connection that is there. -/
theorem turns_of_metaSend {t : Thread} {m : Sending} (hlive : s.live m.wsi m.conn = true)
    (hs : (s.setUser t none).ClinetMetaSend m = some (s', es)) : Turns s act es s' := by
  obtain ⟨c, hc, hconn⟩ := exists_of_live hlive
  have hlive' : (s.setUser t none).live m.wsi m.conn = true := hlive
  obtain ⟨p, hp, he⟩ := Option.map_eq_some_iff.mp hs
  rw [WebsocketServer.queueRecord_eq] at hp
  obtain ⟨rfl, rfl⟩ := Prod.mk.inj he
  rw [hlive', hconn]
  split at hp
  · obtain rfl := Option.some.inj hp
    exact .overflow (.of_lws hc rfl (cached_of_some { s.item m.wsi with
      sendBuf_ := _
      updated_ := if (s.item m.wsi).sending_ then (s.item m.wsi).updated_ else true } rfl) rfl)
      rfl rfl
  · next hfit =>
    obtain rfl := Option.some.inj hp
    have hsmall : (Record.mk m.type m.message).Small := by
      simp only [Record.Small, LWS_PRE, SERVRE_CACHE_MAX] at hfit ⊢
      omega
    exact .accepted hsmall (.of_lws hc rfl (cached_of_some { s.item m.wsi with
      sendBuf_ := _
      updated_ := if (s.item m.wsi).sending_ then (s.item m.wsi).updated_ else true } rfl) rfl)
      rfl rfl

theorem turns_of_writeable {io : ClientInOut} (hloop : s.loop = .service)
    (hc : s.lws w = some c) (hasked : c.requested = true) (hopen : c.closing = false)
    (huser : c.user = some io) :
    Turns s (.writeable w) [] (s.writeable w c io) := by
  have hsend : c.send = io.send_ ∧ c.pos = io.curSendPos_ := by
    unfold Lws.send Lws.pos
    rw [huser]
    exact ⟨rfl, rfl⟩
  unfold WebsocketClient.writeable
  dsimp only
  split
  · next hshort =>
    rw [← hsend.1, ← hsend.2] at hshort
    split
    · next item hitem =>
      have hcached : s.cached w = ⟨item.sendBuf_, item.updated_, item.sending_⟩ := by
        unfold cached WebsocketClient.item
        rw [hitem]
        rfl
      have hon : ∀ {s' : WebsocketClient} {c' : Lws} {item' : ClientMsgItem},
          s'.lws = Function.update s.lws w (some c') → c'.conn = c.conn →
          s'.client_message_cache_ = Function.update s.client_message_cache_ w (some item') →
          s'.serial = s.serial →
          On s s' w c c' ⟨item'.sendBuf_, item'.updated_, item'.sending_⟩ :=
        fun hlws hconn hcache hserial => ⟨hc, hlws, hconn, cached_of_some _ hcache, hserial⟩
      have hturn : ∀ {s' : WebsocketClient} {io' : ClientInOut} {closing : Bool},
          s'.lws = Function.update s.lws w (some ⟨some io', false, closing, c.conn⟩) →
          s'.client_message_cache_ = Function.update s.client_message_cache_ w
            (some { item with sendBuf_ := [], sending_ := 0 < item.sendBuf_.length }) →
          s'.serial = s.serial → s'.bnew_data_to_send_ = s.bnew_data_to_send_ →
          io'.curSendPos_ = 0 → Refills s s' w c ⟨some io', false, closing, c.conn⟩ →
          Turns s (.writeable w) [] s' := by
        intro s' io' closing hlws hcache hserial hnew hpos hrefills
        have hfields := hon hlws rfl hcache hserial
        rw [show (Cached.mk _ _ _) = ⟨[], (s.cached w).updated_,
          0 < (s.cached w).sendBuf_.length⟩ by rw [hcached]] at hfields
        exact .refill hloop hopen hasked hshort hfields (Option.some_ne_none _) rfl hpos hnew
          hrefills
      split_ifs with hflood hnil
      · exact hturn rfl rfl rfl rfl rfl (.flooded rfl rfl)
      · refine hturn rfl rfl rfl rfl rfl (.drained ?_ ?_ rfl rfl)
        · rw [hcached]
          exact List.length_eq_zero_iff.mp (Nat.le_zero.mp hnil)
        · exact List.length_eq_zero_iff.mp (Nat.le_zero.mp hnil)
      · refine hturn rfl rfl rfl rfl rfl (.filled ?_ ?_ rfl rfl)
        · rw [hcached]
          exact fun he => hnil (Nat.le_zero.mpr (List.length_eq_zero_iff.mpr he))
        · rw [hcached]
          rfl
    · next hitem =>
      have hcached := cached_of_none hitem
      refine @Turns.refill s w c { c with
        requested := false
        user := some { io with send_ := [], curSendPos_ := 0 } } _ hloop hopen hasked hshort ?_
        (Option.some_ne_none _) rfl rfl rfl (.drained ?_ rfl rfl rfl)
      · rw [hcached]
        refine ⟨hc, rfl, rfl, ?_, rfl⟩
        exact (cached_congr rfl).trans
          ((Function.update_eq_self w s.cached).symm.trans (by rw [hcached]; rfl))
      · rw [hcached]
  · next hlong =>
    rw [← hsend.1, ← hsend.2] at hlong
    exact .resume hloop hopen hasked (Nat.le_of_not_lt hlong)
      (.of_cached hc rfl rfl (cached_congr rfl) rfl) rfl rfl

/-- **What a step does to the send buffers.** -/
theorem turns_of_moves (h : Table tr s) (hlisted : Listed s) (hok : s.Kept act)
    (hm : Moves s act es s') : Turns s act es s' := by
  have hsame : ∀ {s' : WebsocketClient} {es : List Event}, s'.lws = s.lws →
      s'.client_message_cache_ = s.client_message_cache_ →
      s'.bnew_data_to_send_ = s.bnew_data_to_send_ → s'.loop = s.loop →
      (∀ e ∈ es, e.conn = none) → Turns s act es s' := by
    intro s' es hlws hcache hnew hloop hes
    refine .still hlws (cached_congr hcache) hnew (fun b => ?_) (fun b _ ha => ?_)
      (fun b ha => ?_) hes
    · rw [hloop]
    · rw [hloop]
      exact ha
    · rw [hloop] at ha
      exact ha
  cases hm with
  | connect | setAutoReconnect | setReconnectInterval | keepInterval | destructNull =>
      exact hsame rfl rfl rfl rfl silent
  | call _ hs =>
      unfold WebsocketClient.call at hs
      dsimp only at hs
      split at hs
      · split at hs
        · obtain ⟨rfl, rfl⟩ := Prod.mk.inj hs
          exact hsame rfl rfl rfl rfl silent
        · obtain ⟨rfl, rfl⟩ := Prod.mk.inj hs
          exact hsame rfl rfl rfl rfl (by simp [Event.conn])
      · obtain ⟨rfl, rfl⟩ := Prod.mk.inj hs
        exact hsame rfl rfl rfl rfl (by simp [Event.conn])
  | metaSend ht hs =>
      have hlive : (s.users _).all _ = true := hok
      rw [ht] at hlive
      exact turns_of_metaSend hlive hs
  | @destruct websock hwsi =>
      have hempty : s.sendBuf (s.socks websock).wsi_ = [] := hok
      cases hc : s.lws (s.socks websock).wsi_ with
      | some c =>
          refine .erased rfl ?_ (.of_lws hc rfl (cached_of_erase rfl) rfl) rfl rfl
          rw [cached_sendBuf]
          exact hempty
      | none =>
          -- there was no entry
          refine hsame rfl ?_ rfl rfl silent
          exact Function.update_eq_self_iff.mpr (h.keys _ hc).symm
  | pass hp => exact turns_of_passes h hlisted hp
  | created hloop hnew hw =>
      refine .created hnew hw rfl (cached_congr rfl) rfl ⟨?_, ?_⟩
      · rw [hloop]
        simp [Outside]
      · show Outside (.registering ..)
        simp [Outside]
  | failed hloop =>
      refine .move hloop (by simp [Outside]) rfl (cached_congr rfl) rfl (by simp [Outside]) ?_
      simp [Event.conn]
  | @established w c hloop hc huser hopen =>
      have hturn : ∀ {s' : WebsocketClient} {websock_ : Option WebSock},
          s'.lws = Function.update s.lws w (some { c with user := some ⟨[], 0, websock_⟩ }) →
          s'.client_message_cache_ = s.client_message_cache_ → s'.serial = s.serial →
          s'.bnew_data_to_send_ = s.bnew_data_to_send_ → s'.loop = s.loop →
          Turns s (.established w) [] s' :=
        fun hlws hcache hserial hnew hl =>
          .established huser (.of_cached hc hlws rfl (cached_congr hcache) hserial)
            (Option.some_ne_none _)
            ⟨rfl, rfl⟩ ⟨rfl, rfl⟩ hnew hl
      unfold WebsocketClient.established
      dsimp only
      split
      · exact hturn rfl rfl rfl rfl rfl
      · exact hturn rfl rfl rfl rfl rfl
  | writeable hloop hc hreq hopen huser => exact turns_of_writeable hloop hc hreq hopen huser
  | unready hloop hc huser =>
      exact .unready huser (.of_cached hc rfl rfl (cached_congr rfl) rfl) rfl rfl
  | write hloop hc huser hs => exact .write hloop hc huser hs
  | destroy hloop hc =>
      refine .destroy hloop rfl (cached_of_erase rfl) rfl ?_
      unfold WebsocketClient.destroy
      dsimp only
      split <;> simp [Outside]

end Turns

end WebsocketClient

end TestExamples
