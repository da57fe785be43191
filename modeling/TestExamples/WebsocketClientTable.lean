/-
TestExamples/WebsocketClientTable.lean

The keys of `client_message_cache_`.

The service thread enters a connection when it has been created and takes it
out when it is destroyed.  `ClinetMetaSend` enters whatever handle it is given:
a `WebSock` keeps its handle when the connection has gone, so a call that comes
then, or was on its way, makes an entry for an address that belongs to nobody,
or to a later connection.  `Live` asks that the connection whose handle was read
is still there when the section is entered; in a run of such steps every key is
a live connection, no writeable callback is asked for another, and the records
written on a connection are records queued for it, in their order
(`liveTable_of_live`).
-/
import TestExamples.WebsocketClientSteps

namespace TestExamples

/-- `send_` and `curSendPos_`, of a connection that is not established too. -/
def Lws.send (c : Lws) : List Byte := c.user.elim [] ClientInOut.send_
def Lws.pos (c : Lws) : Nat := c.user.elim 0 ClientInOut.curSendPos_

/-- The addresses the service thread has in hand. -/
def ClientPc.addresses : ClientPc → List Wsi
  | .requesting rest => rest
  | .registering w _ _ => [w]
  | _ => []

namespace WebsocketClient

/-! ### Histories -/

/-- The connection an entry of the history speaks of. -/
def Event.conn : Event → Option Nat
  | .accepted conn _ _ | .overflow conn _ => conn
  | .written conn _ | .unknownType conn => some conn
  | .refused | .requested _ _ | .attempted _ _ => none

/-- The records passed to `lws_write` on the connection `k`. -/
def written (k : Nat) (tr : List Event) : List Record :=
  tr.filterMap fun
    | .written k' r => if k' = k then some r else none
    | _ => none

/-- The records that `ClinetMetaSend` writes for the connection `k`: `Close`
where there was no room. -/
def logged (k : Nat) (tr : List Event) : List Record :=
  tr.filterMap fun
    | .accepted conn _ r => if conn = some k then some r else none
    | .overflow conn _ => if conn = some k then some ⟨.Close, []⟩ else none
    | _ => none

/-- Nothing wrong with it: a call that returns 0 is for a connection that is
there, and so is a request for a callback. -/
def Event.Fine : Event → Prop
  | .accepted _ live _ | .overflow _ live => live = true
  | .requested _ conn => conn ≠ none
  | _ => True

section Append

variable {k : Nat} (tr : List Event) {es : List Event}

theorem logged_append : logged k (tr ++ es) = logged k tr ++ logged k es := List.filterMap_append

theorem written_append : written k (tr ++ es) = written k tr ++ written k es :=
  List.filterMap_append

/-- What does not speak of a connection is in neither of its lists. -/
theorem of_conn_ne (h : ∀ e ∈ es, e.conn ≠ some k) : logged k es = [] ∧ written k es = [] := by
  refine ⟨List.filterMap_eq_nil_iff.mpr fun e he => ?_,
    List.filterMap_eq_nil_iff.mpr fun e he => ?_⟩
  · have hne := h e he
    cases e with
    | accepted | overflow => exact if_neg hne
    | refused | requested | written | unknownType | attempted => rfl
  · have hne := h e he
    cases e with
    | written => exact if_neg fun heq => hne (congrArg some heq)
    | refused | accepted | overflow | requested | unknownType | attempted => rfl

theorem append_of_conn_ne (h : ∀ e ∈ es, e.conn ≠ some k) :
    logged k (tr ++ es) = logged k tr ∧ written k (tr ++ es) = written k tr := by
  obtain ⟨hlogged, hwritten⟩ := of_conn_ne h
  rw [logged_append, written_append, hlogged, hwritten, List.append_nil, List.append_nil]
  exact ⟨rfl, rfl⟩

end Append

/-! ### The buffers of one connection -/

/-- The records in `send_` from `curSendPos_` on and those in `sendBuf_`, behind
those written, are records queued, in their order. -/
def Pending (log out : List Record) (sendBuf send : List Byte) (pos : Nat) : Prop :=
  ∃ done rest buf : List Record, send = recordBytes (done ++ rest) ∧
    pos = (recordBytes done).length ∧ sendBuf = recordBytes buf ∧
    (∀ r ∈ rest ++ buf, r.Small) ∧ (out ++ (rest ++ buf)).Sublist log

namespace Pending

variable {log out : List Record} {sendBuf send : List Byte} {pos : Nat} {r : Record}

theorem empty : Pending [] [] [] [] 0 := ⟨[], [], [], rfl, rfl, rfl, nofun, .slnil⟩

theorem sublist (h : Pending log out sendBuf send pos) : out.Sublist log := by
  obtain ⟨_, _, _, -, -, -, -, hsub⟩ := h
  exact (List.sublist_append_left ..).trans hsub

/-- A record is put behind the others. -/
theorem push (h : Pending log out sendBuf send pos) (hr : r.Small) :
    Pending (log ++ [r]) out (sendBuf ++ r.bytes) send pos := by
  obtain ⟨done, rest, buf, hsend, hpos, rfl, hsmall, hsub⟩ := h
  refine ⟨done, rest, buf ++ [r], hsend, hpos, ?_, fun q hq => ?_, ?_⟩
  · exact (recordBytes_concat buf r).symm
  · rw [← List.append_assoc] at hq
    exact small_concat hsmall hr q hq
  · rw [← List.append_assoc, ← List.append_assoc, List.append_assoc out]
    exact hsub.append (List.Sublist.refl _)

/-- `sendBuf_` is thrown away. -/
theorem drop (h : Pending log out sendBuf send pos) : Pending log out [] send pos := by
  obtain ⟨done, rest, buf, hsend, hpos, -, hsmall, hsub⟩ := h
  refine ⟨done, rest, [], hsend, hpos, rfl, fun q hq => ?_, ?_⟩
  · rw [List.append_nil] at hq
    exact hsmall q (List.mem_append_left _ hq)
  · refine List.Sublist.trans ?_ hsub
    rw [List.append_nil]
    exact (List.sublist_append_left rest buf).append_left out

/-- The buffers change places once `send_` has been written. -/
theorem swap (h : Pending log out sendBuf send pos) (hshort : send.length < pos + SIZEOF_MsgHead) :
    Pending log out [] sendBuf 0 := by
  obtain ⟨done, rest, buf, rfl, rfl, rfl, hsmall, hsub⟩ := h
  obtain rfl := rest_eq_nil hshort
  refine ⟨[], buf, [], rfl, rfl, rfl, ?_, ?_⟩
  · rwa [List.append_nil]
  · rwa [List.append_nil]

/-- `send_` is thrown away. -/
theorem clear (h : Pending log out sendBuf send pos) : Pending log out sendBuf [] 0 := by
  obtain ⟨done, rest, buf, -, -, hbuf, hsmall, hsub⟩ := h
  refine ⟨[], [], buf, rfl, rfl, hbuf, fun q hq => ?_, ?_⟩
  · exact hsmall q (List.mem_append_right _ hq)
  · refine List.Sublist.trans ?_ hsub
    exact (List.sublist_append_right rest buf).append_left out

/-- **The record at `curSendPos_`**, read there, and the buffers behind it. -/
theorem next (h : Pending log out sendBuf send pos)
    (hlong : SIZEOF_MsgHead + pos ≤ send.length) :
    ∃ r : Record, typeAt send pos = r.type_.code ∧ payloadAt send pos = r.payload ∧
      Pending log (out ++ [r]) sendBuf send
        (pos + SIZEOF_MsgHead + (lenAt send pos).toNat) := by
  obtain ⟨done, rest, buf, rfl, rfl, rfl, hsmall, hsub⟩ := h
  rcases rest with - | ⟨r, rest⟩
  · rw [List.append_nil, SIZEOF_MsgHead] at hlong
    omega
  have hr : r.Small := hsmall r (List.mem_cons_self ..)
  obtain ⟨htype, hpayload, hend⟩ := record_at hr (Eq.refl (recordBytes done).length)
  refine ⟨r, htype, hpayload, done ++ [r], rest, buf, ?_, hend, rfl, fun q hq => ?_, ?_⟩
  · rw [List.append_assoc]
    rfl
  · exact hsmall q (List.mem_cons_of_mem _ hq)
  · rw [List.append_assoc]
    exact hsub

end Pending

/-! ### The invariant -/

/-- What `client_message_cache_` holds for an address. -/
def sendBuf (s : WebsocketClient) (w : Wsi) : List Byte :=
  (s.client_message_cache_ w).elim [] ClientMsgItem.sendBuf_

structure Table (tr : List Event) (s : WebsocketClient) : Prop where
  keys : ∀ w, s.lws w = none → s.client_message_cache_ w = none
  hand : ∀ w ∈ s.loop.addresses, s.lws w ≠ none
  serial : ∀ {w c}, s.lws w = some c → c.conn < s.serial
  inj : ∀ {w w' c c'}, s.lws w = some c → s.lws w' = some c' → c.conn = c'.conn → w = w'
  past : ∀ {e k}, e ∈ tr → e.conn = some k → k < s.serial
  fine : ∀ e ∈ tr, e.Fine
  order : ∀ k, (written k tr).Sublist (logged k tr)
  pending : ∀ {w c}, s.lws w = some c →
    Pending (logged c.conn tr) (written c.conn tr) (s.sendBuf w) c.send c.pos

section Table

variable {junk : WebSock → Wsi} {s s' : WebsocketClient} {act : Act} {tr es : List Event} {w : Wsi}
  {c c' : Lws}

namespace Table

theorem init : Table [] (init junk) where
  keys := fun _ _ => rfl
  hand := nofun
  serial := nofun
  inj := nofun
  past := nofun
  fine := nofun
  order := fun _ => .slnil
  pending := nofun

/-- A step that speaks of no connection and leaves the buffers alone. -/
theorem congr (h : Table tr s) (hlws : s'.lws = s.lws)
    (hkeys : ∀ w, s.client_message_cache_ w = none → s'.client_message_cache_ w = none)
    (hbuf : ∀ w, s'.sendBuf w = s.sendBuf w) (hserial : s'.serial = s.serial)
    (hes : ∀ e ∈ es, e.conn = none ∧ e.Fine)
    (hhand : ∀ w ∈ s'.loop.addresses, s.lws w ≠ none) : Table (tr ++ es) s' := by
  have hsame : ∀ k, logged k (tr ++ es) = logged k tr ∧ written k (tr ++ es) = written k tr := by
    intro k
    apply append_of_conn_ne
    intro e he
    rw [(hes e he).1]
    exact nofun
  refine ⟨?_, ?_, ?_, ?_, ?_, ?_, ?_, ?_⟩
  · rw [hlws]
    exact fun w hw => hkeys w (h.keys w hw)
  · rw [hlws]
    exact hhand
  · rw [hlws, hserial]
    exact h.serial
  · rw [hlws]
    exact h.inj
  · intro e k he hk
    rw [hserial]
    rcases List.mem_append.mp he with he | he
    · exact h.past he hk
    · rw [(hes e he).1] at hk
      cases hk
  · intro e he
    rcases List.mem_append.mp he with he | he
    · exact h.fine e he
    · exact (hes e he).2
  · intro k
    rw [(hsame k).1, (hsame k).2]
    exact h.order k
  · rw [hlws]
    intro w c hc
    rw [(hsame c.conn).1, (hsame c.conn).2, hbuf]
    exact h.pending hc

/-- A step on one connection. -/
theorem put (h : Table tr s) (hc : s.lws w = some c)
    (hlws : s'.lws = Function.update s.lws w (some c')) (hconn : c'.conn = c.conn)
    (hcache : ∀ b, b ≠ w → s'.client_message_cache_ b = s.client_message_cache_ b)
    (hserial : s'.serial = s.serial)
    (hes : ∀ e ∈ es, (e.conn = none ∨ e.conn = some c.conn) ∧ e.Fine)
    (hpending : Pending (logged c.conn (tr ++ es)) (written c.conn (tr ++ es)) (s'.sendBuf w)
      c'.send c'.pos)
    (hhand : ∀ b ∈ s'.loop.addresses, s.lws b ≠ none) : Table (tr ++ es) s' := by
  -- the other connections are not spoken of
  have hother : ∀ {k}, k ≠ c.conn →
      logged k (tr ++ es) = logged k tr ∧ written k (tr ++ es) = written k tr := by
    intro k hk
    apply append_of_conn_ne
    intro e he heq
    rcases (hes e he).1 with hnone | hsome
    · rw [hnone] at heq
      cases heq
    · rw [hsome] at heq
      exact hk (Option.some.inj heq).symm
  -- behind the new connection stands an old one with the same number
  have hold : ∀ {b d}, s'.lws b = some d → ∃ d₀, s.lws b = some d₀ ∧ d₀.conn = d.conn := by
    intro b d hd
    rw [hlws] at hd
    rcases update_eq hd with ⟨rfl, he⟩ | ⟨-, hd⟩
    · obtain rfl := Option.some.inj he
      exact ⟨c, hc, hconn.symm⟩
    · exact ⟨d, hd, rfl⟩
  have hnone : ∀ b, s'.lws b = none → b ≠ w ∧ s.lws b = none := by
    intro b hb
    rw [hlws] at hb
    exact (update_eq hb).resolve_left fun ⟨_, he⟩ => nomatch he
  refine ⟨fun b hb => ?_, fun b hb hnil => ?_, fun hd => ?_, fun hd hd' he => ?_,
    fun {e k} he hk => ?_, fun e he => ?_, fun k => ?_, fun {b d} hd => ?_⟩
  · obtain ⟨hne, hb⟩ := hnone b hb
    rw [hcache b hne]
    exact h.keys b hb
  · exact hhand b hb (hnone b hnil).2
  · obtain ⟨d₀, hd₀, he⟩ := hold hd
    rw [← he, hserial]
    exact h.serial hd₀
  · obtain ⟨d₀, hd₀, he₀⟩ := hold hd
    obtain ⟨d₁, hd₁, he₁⟩ := hold hd'
    exact h.inj hd₀ hd₁ (by rw [he₀, he₁, he])
  · rw [hserial]
    rcases List.mem_append.mp he with he | he
    · exact h.past he hk
    · rcases (hes e he).1 with hnone | hsome
      · rw [hnone] at hk
        cases hk
      · rw [hsome] at hk
        exact Option.some.inj hk ▸ h.serial hc
  · rcases List.mem_append.mp he with he | he
    · exact h.fine e he
    · exact (hes e he).2
  · rcases eq_or_ne k c.conn with rfl | hk
    · exact hpending.sublist
    · rw [(hother hk).1, (hother hk).2]
      exact h.order k
  · rw [hlws] at hd
    rcases update_eq hd with ⟨rfl, he⟩ | ⟨hne, hd⟩
    · obtain rfl := Option.some.inj he
      rw [hconn]
      exact hpending
    · have hk : d.conn ≠ c.conn := fun he => hne (h.inj hd hc he)
      have hbuf : s'.sendBuf b = s.sendBuf b := by
        unfold sendBuf
        rw [hcache b hne]
      rw [(hother hk).1, (hother hk).2, hbuf]
      exact h.pending hd

end Table

theorem sendBuf_item (s : WebsocketClient) (w : Wsi) : (s.item w).sendBuf_ = s.sendBuf w := by
  unfold item sendBuf
  cases s.client_message_cache_ w <;> rfl

theorem sendBuf_setItem (s : WebsocketClient) (w : Wsi) (item : ClientMsgItem) :
    (s.setItem w item).sendBuf w = item.sendBuf_ := by
  show (Function.update s.client_message_cache_ w (some item) w).elim [] _ = _
  rw [Function.update_self]
  rfl

theorem exists_of_live {conn : Option Nat} (h : s.live w conn = true) :
    ∃ c, s.lws w = some c ∧ conn = some c.conn := by
  unfold live at h
  cases hc : s.lws w with
  | none =>
      rw [hc] at h
      cases h
  | some c =>
      rw [hc] at h
      exact ⟨c, rfl, (of_decide_eq_true h).symm⟩

namespace Table

/-- The section of `ClinetMetaSend` for a connection that is there. -/
theorem metaSend {t : Thread} {m : Sending} (h : Table tr s)
    (hlive : s.live m.wsi m.conn = true)
    (hs : (s.setUser t none).ClinetMetaSend m = some (s', es)) : Table (tr ++ es) s' := by
  obtain ⟨c, hc, hconn⟩ := exists_of_live hlive
  have hlive' : (s.setUser t none).live m.wsi m.conn = true := hlive
  have hold := h.pending hc
  obtain ⟨p, hp, he⟩ := Option.map_eq_some_iff.mp hs
  rw [show (s.setUser t none).item m.wsi = s.item m.wsi from rfl, sendBuf_item,
    WebsocketServer.queueRecord_eq] at hp
  obtain ⟨rfl, rfl⟩ := Prod.mk.inj he
  rw [hlive', hconn]
  refine h.put hc (Function.update_eq_self_iff.mpr hc.symm).symm rfl
    (fun b hb => Function.update_of_ne hb ..) rfl ?_ ?_ h.hand
  · intro e he
    obtain rfl := List.mem_singleton.mp he
    split <;> exact ⟨Or.inr rfl, rfl⟩
  · show Pending _ _ (((s.setUser t none).setItem m.wsi _).sendBuf m.wsi) _ _
    rw [sendBuf_setItem, logged_append, written_append]
    split at hp
    · obtain rfl := Option.some.inj hp
      have hsmall : (Record.mk .Close []).Small := by
        show 16 + 0 < 2 ^ 31
        decide
      simpa [logged, written] using hold.drop.push hsmall
    · next hfit =>
      obtain rfl := Option.some.inj hp
      have hsmall : (Record.mk m.type m.message).Small := by
        simp only [Record.Small, LWS_PRE, SERVRE_CACHE_MAX] at hfit ⊢
        omega
      simpa [logged, written] using hold.push hsmall

/-- An entry is taken out. -/
theorem erase (h : Table tr s) (w : Wsi) : Table (tr ++ []) (s.eraseItem w) := by
  have hempty : (s.eraseItem w).sendBuf w = [] := by
    show (Function.update s.client_message_cache_ w none w).elim [] _ = _
    rw [Function.update_self]
    rfl
  cases hc : s.lws w with
  | some c =>
      refine h.put hc (Function.update_eq_self_iff.mpr hc.symm).symm rfl
        (fun b hb => Function.update_of_ne hb ..) rfl nofun ?_ h.hand
      rw [List.append_nil, hempty]
      exact (h.pending hc).drop
  | none =>
      -- there was none
      have hcache : (s.eraseItem w).client_message_cache_ = s.client_message_cache_ :=
        Function.update_eq_self_iff.mpr (h.keys w hc).symm
      refine h.congr rfl (fun b hb => ?_) (fun b => ?_) rfl nofun h.hand
      · rw [hcache]
        exact hb
      · unfold sendBuf
        rw [hcache]

theorem created {item : ConnectItem} {origin : Origin} (h : Table tr s) (hnew : s.lws w = none) :
    Table (tr ++ [.attempted item.websock_ (some w)]) (s.created w item.websock_ origin) := by
  have hsame : ∀ k, logged k (tr ++ [.attempted item.websock_ (some w)]) = logged k tr ∧
      written k (tr ++ [.attempted item.websock_ (some w)]) = written k tr := fun k =>
    append_of_conn_ne tr fun e he => by rw [List.mem_singleton.mp he]; nofun
  -- nothing has been said of the connection yet
  have hfresh : logged s.serial tr = [] ∧ written s.serial tr = [] :=
    of_conn_ne fun e he hk => Nat.lt_irrefl _ (h.past he hk)
  refine ⟨fun b hb => ?_, fun b hb => ?_, fun {b d} hd => ?_, fun {b b' d d'} hd hd' he => ?_,
    fun {e k} he hk => ?_, fun e he => ?_, fun k => ?_, fun {b d} hd => ?_⟩
  · obtain ⟨-, hb⟩ := (update_eq hb).resolve_left fun ⟨_, he⟩ => nomatch he
    exact h.keys b hb
  · obtain rfl := List.mem_singleton.mp hb
    show Function.update s.lws b _ b ≠ none
    rw [Function.update_self]
    exact Option.some_ne_none _
  · rcases update_eq hd with ⟨-, he⟩ | ⟨-, hd⟩
    · obtain rfl := Option.some.inj he
      exact Nat.lt_succ_self _
    · exact Nat.lt_succ_of_lt (h.serial hd)
  · rcases update_eq hd with ⟨rfl, hi⟩ | ⟨-, hold⟩ <;>
      rcases update_eq hd' with ⟨rfl, hi'⟩ | ⟨-, hold'⟩
    · rfl
    · obtain rfl := Option.some.inj hi
      exact absurd (he ▸ h.serial hold') (Nat.lt_irrefl _)
    · obtain rfl := Option.some.inj hi'
      exact absurd (he ▸ h.serial hold) (Nat.lt_irrefl _)
    · exact h.inj hold hold' he
  · rcases List.mem_append.mp he with he | he
    · exact Nat.lt_succ_of_lt (h.past he hk)
    · rw [List.mem_singleton.mp he] at hk
      cases hk
  · rcases List.mem_append.mp he with he | he
    · exact h.fine e he
    · rw [List.mem_singleton.mp he]
      exact True.intro
  · rw [(hsame k).1, (hsame k).2]
    exact h.order k
  · rw [(hsame d.conn).1, (hsame d.conn).2]
    rcases update_eq hd with ⟨rfl, he⟩ | ⟨-, hd⟩
    · obtain rfl := Option.some.inj he
      have hbuf : s.sendBuf b = [] := by
        unfold sendBuf
        rw [h.keys b hnew]
        rfl
      show Pending (logged s.serial tr) (written s.serial tr) (s.sendBuf b) [] 0
      rw [hfresh.1, hfresh.2, hbuf]
      exact .empty
    · exact h.pending hd

theorem destroy (h : Table tr s) : Table (tr ++ []) (s.destroy w) := by
  rw [List.append_nil]
  have hold : ∀ {b d}, Function.update s.lws w none b = some d → b ≠ w ∧ s.lws b = some d :=
    of_update_none
  refine ⟨fun b hb => ?_, fun b hb => ?_, fun hd => h.serial (hold hd).2,
    fun hd hd' he => h.inj (hold hd).2 (hold hd').2 he, h.past, h.fine, h.order,
    fun {b d} hd => ?_⟩
  · show Function.update s.client_message_cache_ w none b = none
    rcases update_eq hb with ⟨rfl, -⟩ | ⟨hne, hb⟩
    · exact Function.update_self ..
    · rw [Function.update_of_ne hne]
      exact h.keys b hb
  · -- nothing is in hand
    have hnil : (s.destroy w).loop.addresses = [] := by
      unfold WebsocketClient.destroy
      dsimp only
      split <;> rfl
    rw [hnil] at hb
    cases hb
  · obtain ⟨hne, hd⟩ := hold hd
    have hbuf : (s.destroy w).sendBuf b = s.sendBuf b := by
      show (Function.update s.client_message_cache_ w none b).elim [] _ = _
      rw [Function.update_of_ne hne]
      rfl
    rw [hbuf]
    exact h.pending hd

theorem established (h : Table tr s) (hc : s.lws w = some c)
    (huser : c.user = none) : Table (tr ++ []) (s.established w c) := by
  have hpending := h.pending hc
  have hsend : c.send = [] ∧ c.pos = 0 := by
    unfold Lws.send Lws.pos
    rw [huser]
    exact ⟨rfl, rfl⟩
  rw [hsend.1, hsend.2] at hpending
  have hput : ∀ {s' : WebsocketClient} {websock_ : Option WebSock},
      s'.lws = Function.update s.lws w (some { c with user := some ⟨[], 0, websock_⟩ }) →
      s'.client_message_cache_ = s.client_message_cache_ → s'.serial = s.serial →
      s'.loop = s.loop → Table (tr ++ []) s' := by
    intro s' websock_ hlws hcache hserial hl
    refine h.put hc hlws rfl (fun b _ => congrFun hcache b) hserial nofun ?_ ?_
    · rw [List.append_nil]
      unfold sendBuf
      rw [hcache]
      exact hpending
    · rw [hl]
      exact h.hand
  unfold WebsocketClient.established
  dsimp only
  split
  · exact hput rfl rfl rfl rfl
  · exact hput rfl rfl rfl rfl

/-- What a step that goes on with the connection `w` in `lws_service` leaves in
hand: nothing. -/
theorem hand_nil (hloop : s'.loop.addresses = []) : ∀ b ∈ s'.loop.addresses, s.lws b ≠ none := by
  rw [hloop]
  exact nofun

theorem writeable {io : ClientInOut} (h : Table tr s) (hloop : s.loop = .service)
    (hc : s.lws w = some c) (huser : c.user = some io) : Table (tr ++ []) (s.writeable w c io) := by
  have hservice : s.loop.addresses = [] := by rw [hloop]; rfl
  have hpending := h.pending hc
  have hsend : c.send = io.send_ ∧ c.pos = io.curSendPos_ := by
    unfold Lws.send Lws.pos
    rw [huser]
    exact ⟨rfl, rfl⟩
  rw [hsend.1, hsend.2] at hpending
  unfold WebsocketClient.writeable
  dsimp only
  split
  · next hshort =>
    have hswap := hpending.swap hshort
    split
    · next item hitem =>
      have hbuf : s.sendBuf w = item.sendBuf_ := by
        unfold sendBuf
        rw [hitem]
        rfl
      rw [hbuf] at hswap
      -- the entry is there with an empty buffer, the connection with what was in it
      have hput : ∀ {s' : WebsocketClient} {c' : Lws} {item' : ClientMsgItem},
          s'.lws = Function.update s.lws w (some c') → c'.conn = c.conn →
          s'.client_message_cache_ = Function.update s.client_message_cache_ w (some item') →
          item'.sendBuf_ = [] → s'.serial = s.serial → s'.loop.addresses = [] →
          c'.send = [] ∧ c'.pos = 0 ∨ c'.send = item.sendBuf_ ∧ c'.pos = 0 →
          Table (tr ++ []) s' := by
        intro s' c' item' hlws hconn hcache hnil hserial hl hfields
        refine h.put hc hlws hconn (fun b hb => ?_) hserial nofun ?_ (hand_nil hl)
        · rw [hcache]
          exact Function.update_of_ne hb ..
        · have hbuf' : s'.sendBuf w = [] := by
            unfold sendBuf
            rw [hcache, Function.update_self]
            exact hnil
          rw [List.append_nil, hbuf']
          rcases hfields with ⟨hs, hp⟩ | ⟨hs, hp⟩
          · rw [hs, hp]
            exact hswap.clear
          · rw [hs, hp]
            exact hswap
      split_ifs
      · exact hput rfl rfl rfl rfl rfl hservice (Or.inl ⟨rfl, rfl⟩)
      · exact hput rfl rfl rfl rfl rfl hservice (Or.inr ⟨rfl, rfl⟩)
      · exact hput rfl rfl rfl rfl rfl rfl (Or.inr ⟨rfl, rfl⟩)
    · next hitem =>
      refine h.put hc rfl rfl (fun _ _ => rfl) rfl nofun ?_ (hand_nil hservice)
      rw [List.append_nil]
      exact hpending.clear
  · refine h.put hc rfl rfl (fun _ _ => rfl) rfl nofun ?_ (hand_nil rfl)
    rw [List.append_nil]
    show Pending _ _ (s.sendBuf w) c.send c.pos
    exact h.pending hc

end Table

/-- One round of the callback's loop, by the record at `curSendPos_`. -/
theorem writeOne_eq {io : ClientInOut} {partially : Bool} {r : Record}
    (hlong : SIZEOF_MsgHead + io.curSendPos_ ≤ io.send_.length)
    (htype : typeAt io.send_ io.curSendPos_ = r.type_.code)
    (hpayload : payloadAt io.send_ io.curSendPos_ = r.payload) :
    s.writeOne w c io partially =
      if r.type_ = .Close then
        ({ s.setLws w { c with closing := true } with loop := .service }, [])
      else ((s.advance w c io partially).1,
        .written c.conn r :: (s.advance w c io partially).2) := by
  obtain ⟨type, payload⟩ := r
  unfold writeOne
  rw [if_pos hlong, hpayload, htype]
  cases type <;> rfl

theorem lws_callback_on_writable_eq (hc : s.lws w = some c) :
    s.lws_callback_on_writable w =
      (s.setLws w { c with requested := true }, [.requested w (some c.conn)]) := by
  unfold lws_callback_on_writable
  rw [hc]

namespace Table

/-- A record is written, and the loop goes on behind it. -/
theorem advance {io : ClientInOut} {partially : Bool} {r : Record} (h : Table tr s)
    (hc : s.lws w = some c)
    (hnext : Pending (logged c.conn tr) (written c.conn tr ++ [r]) (s.sendBuf w) io.send_
      (io.curSendPos_ + SIZEOF_MsgHead + (lenAt io.send_ io.curSendPos_).toNat))
    (hs : s.advance w c io partially = (s', es)) :
    Table (tr ++ .written c.conn r :: es) s' := by
  have hput : ∀ {s' : WebsocketClient} {d : Lws} {es : List Event},
      s'.lws = Function.update s.lws w (some d) → d.conn = c.conn →
      s'.client_message_cache_ = s.client_message_cache_ → s'.serial = s.serial →
      s'.loop.addresses = [] → (∀ e ∈ es, e.conn = none ∧ e.Fine) →
      Pending (logged c.conn tr) (written c.conn tr ++ [r]) (s.sendBuf w) d.send d.pos →
      Table (tr ++ .written c.conn r :: es) s' := by
    intro s' d es hlws hconn hcache hserial hl hes hpending
    have hother : ∀ e ∈ es, e.conn ≠ some c.conn := fun e he => by
      rw [(hes e he).1]
      nofun
    obtain ⟨hlogged, hwritten⟩ := of_conn_ne hother
    refine h.put hc hlws hconn (fun b _ => congrFun hcache b) hserial (fun e he => ?_) ?_
      (hand_nil hl)
    · rcases List.mem_cons.mp he with rfl | he
      · exact ⟨Or.inr rfl, True.intro⟩
      · exact ⟨Or.inl (hes e he).1, (hes e he).2⟩
    · have hlog : logged c.conn (.written c.conn r :: es) = [] := hlogged
      have hout : WebsocketClient.written c.conn (.written c.conn r :: es) = [r] := by
        rw [← List.singleton_append, written_append, hwritten]
        simp [WebsocketClient.written]
      have hbuf : s'.sendBuf w = s.sendBuf w := by
        unfold sendBuf
        rw [hcache]
      rw [logged_append, written_append, hlog, hout, List.append_nil, hbuf]
      exact hpending
  unfold WebsocketClient.advance at hs
  dsimp only at hs
  split at hs
  · split at hs
    · obtain ⟨rfl, rfl⟩ := Prod.mk.inj hs
      exact hput rfl rfl rfl rfl rfl nofun hnext.clear
    · rw [lws_callback_on_writable_eq (Function.update_self ..)] at hs
      obtain ⟨rfl, rfl⟩ := Prod.mk.inj hs
      refine hput (d := { c with
        user := some { io with send_ := [], curSendPos_ := 0 }
        requested := true }) ?_ rfl rfl rfl rfl (fun e he => ?_) hnext.clear
      · exact Function.update_idem ..
      · rw [List.mem_singleton.mp he]
        exact ⟨rfl, nofun⟩
  · obtain ⟨rfl, rfl⟩ := Prod.mk.inj hs
    refine hput rfl rfl rfl rfl ?_ nofun hnext
    show ClientPc.addresses (if partially then _ else _) = []
    split <;> rfl

theorem write {io : ClientInOut} {partially : Bool} (h : Table tr s)
    (hc : s.lws w = some c) (huser : c.user = some io)
    (hs : s.writeOne w c io partially = (s', es)) : Table (tr ++ es) s' := by
  have hpending := h.pending hc
  have hsend : c.send = io.send_ ∧ c.pos = io.curSendPos_ := by
    unfold Lws.send Lws.pos
    rw [huser]
    exact ⟨rfl, rfl⟩
  rw [hsend.1, hsend.2] at hpending
  by_cases hlong : SIZEOF_MsgHead + io.curSendPos_ ≤ io.send_.length
  · obtain ⟨r, htype, hpayload, hnext⟩ := hpending.next hlong
    rw [writeOne_eq hlong htype hpayload] at hs
    split at hs
    · obtain ⟨rfl, rfl⟩ := Prod.mk.inj hs
      refine h.put hc rfl rfl (fun _ _ => rfl) rfl nofun ?_ (hand_nil rfl)
      rw [List.append_nil]
      exact h.pending hc
    · obtain ⟨rfl, rfl⟩ := Prod.mk.inj hs
      exact h.advance hc hnext rfl
  · unfold writeOne at hs
    rw [if_neg hlong] at hs
    obtain ⟨rfl, rfl⟩ := Prod.mk.inj hs
    exact h.congr rfl (fun _ => id) (fun _ => rfl) rfl nofun (hand_nil rfl)

theorem next_addresses (origin : Origin) : origin.next.addresses = [] := by
  cases origin <;> rfl

/-- The service thread enters the connection it has made. -/
theorem register {websock : WebSock} {origin : Origin} (h : Table tr s)
    (hloop : s.loop = .registering w websock origin) :
    Table (tr ++ []) (s.register w websock origin) := by
  have hlive : s.lws w ≠ none := h.hand w (by rw [hloop]; exact List.mem_cons_self ..)
  obtain ⟨c, hc⟩ := Option.ne_none_iff_exists'.mp hlive
  refine h.put hc (Function.update_eq_self_iff.mpr hc.symm).symm rfl
    (fun b hb => Function.update_of_ne hb ..) rfl nofun ?_ (hand_nil (next_addresses origin))
  have hbuf : (s.register w websock origin).sendBuf w = s.sendBuf w := by
    show (s.setItem w _).sendBuf w = _
    rw [sendBuf_setItem, ← sendBuf_item]
  rw [List.append_nil, hbuf]
  exact h.pending hc

theorem collect (h : Table tr s) : Table (tr ++ []) s.collect := by
  refine h.congr rfl (fun b hb => ?_) (fun b => ?_) rfl nofun fun b hb hnone => ?_
  · show (s.client_message_cache_ b).map _ = none
    rw [hb]
    rfl
  · show ((s.client_message_cache_ b).map _).elim [] _ = (s.client_message_cache_ b).elim [] _
    cases s.client_message_cache_ b <;> rfl
  · -- what is collected has an entry
    obtain ⟨-, hany⟩ := List.mem_filter.mp hb
    rw [h.keys b hnone] at hany
    cases hany

theorem request {rest : List Wsi} (h : Table tr s) (hloop : s.loop = .requesting (w :: rest))
    (hs : lws_callback_on_writable { s with loop := .requesting rest } w = (s', es)) :
    Table (tr ++ es) s' := by
  have hhand : ∀ b ∈ w :: rest, s.lws b ≠ none := fun b hb =>
    h.hand b (by rw [hloop]; exact hb)
  obtain ⟨c, hc⟩ := Option.ne_none_iff_exists'.mp (hhand w (List.mem_cons_self ..))
  rw [lws_callback_on_writable_eq (s := { s with loop := .requesting rest }) hc] at hs
  obtain ⟨rfl, rfl⟩ := Prod.mk.inj hs
  refine h.put hc rfl rfl (fun _ _ => rfl) rfl (fun e he => ?_) ?_ fun b hb =>
    hhand b (List.mem_cons_of_mem _ hb)
  · rw [List.mem_singleton.mp he]
    exact ⟨Or.inl rfl, nofun⟩
  · have hother : ∀ e ∈ [Event.requested w (some c.conn)], e.conn ≠ some c.conn := fun e he => by
      rw [List.mem_singleton.mp he]
      nofun
    obtain ⟨hlogged, hwritten⟩ := append_of_conn_ne tr hother
    rw [hlogged, hwritten]
    exact h.pending hc

theorem pass {now : Int} (h : Table tr s) (hp : Passes s now es s') : Table (tr ++ es) s' := by
  -- the thread goes on with nothing in hand
  have hgo : ∀ {s' : WebsocketClient}, s'.lws = s.lws →
      s'.client_message_cache_ = s.client_message_cache_ → s'.serial = s.serial →
      s'.loop.addresses = [] → Table (tr ++ []) s' := by
    intro s' hlws hcache hserial hl
    refine h.congr hlws (fun b hb => ?_) (fun b => ?_) hserial nofun (hand_nil hl)
    · rw [hcache]
      exact hb
    · unfold sendBuf
      rw [hcache]
  cases hp with
  | top | due | early | delayedEnd | swap | immediateEnd | postpone | immediate | requestEnd
  | around => exact hgo rfl rfl rfl rfl
  | newConnect =>
      refine hgo rfl rfl rfl ?_
      show ClientPc.addresses (if s.has_new_connect_ then _ else _) = []
      split <;> rfl
  | newData =>
      refine hgo rfl rfl rfl ?_
      show ClientPc.addresses (if s.bnew_data_to_send_ then _ else _) = []
      split <;> rfl
  | @reconsider item origin =>
      refine hgo rfl rfl rfl ?_
      show (s.reconsider now item origin).addresses = []
      unfold WebsocketClient.reconsider
      dsimp only
      split
      · rfl
      · exact next_addresses origin
  | @push item origin => exact hgo rfl rfl rfl (next_addresses origin)
  | register hl => exact h.register hl
  | collect => exact h.collect
  | request hl hs => exact h.request hl hs
  | skip hl _ =>
      refine h.congr rfl (fun _ => id) (fun _ => rfl) rfl nofun fun b hb => ?_
      exact h.hand b (by rw [hl]; exact List.mem_cons_of_mem _ hb)

end Table

/-- The connection whose handle was read is still there when `ClinetMetaSend`
is entered with it. -/
def Live (s : WebsocketClient) : Act → Prop
  | .metaSend t => (s.users t).all (fun m => s.live m.wsi m.conn) = true
  | _ => True

instance (s : WebsocketClient) : ∀ act, Decidable (s.Live act)
  | .metaSend t => inferInstanceAs (Decidable ((s.users t).all _ = true))
  | .connect _ | .setAutoReconnect _ _ | .setReconnectInterval _ _ | .call _ _ _ | .pass _
  | .destruct _ | .attempt _ | .established _ | .writeable _ | .write _ | .destroy _ =>
      inferInstanceAs (Decidable True)

namespace Table

/-- **One step keeps the table.** -/
theorem step (h : Table tr s) (hok : s.Live act) (hm : Moves s act es s') :
    Table (tr ++ es) s' := by
  -- nothing of the connections is touched
  have happ : ∀ {s' : WebsocketClient} {es : List Event}, s'.lws = s.lws →
      s'.client_message_cache_ = s.client_message_cache_ → s'.serial = s.serial →
      s'.loop = s.loop → (∀ e ∈ es, e.conn = none ∧ e.Fine) → Table (tr ++ es) s' := by
    intro s' es hlws hcache hserial hl hes
    refine h.congr hlws (fun b hb => ?_) (fun b => ?_) hserial hes ?_
    · rw [hcache]
      exact hb
    · unfold sendBuf
      rw [hcache]
    · rw [hl]
      exact h.hand
  cases hm with
  | connect | setAutoReconnect | setReconnectInterval | keepInterval | destructNull =>
      exact happ rfl rfl rfl rfl nofun
  | call _ hs =>
      unfold WebsocketClient.call at hs
      dsimp only at hs
      split at hs
      · split at hs
        · obtain ⟨rfl, rfl⟩ := Prod.mk.inj hs
          exact happ rfl rfl rfl rfl nofun
        · obtain ⟨rfl, rfl⟩ := Prod.mk.inj hs
          exact happ rfl rfl rfl rfl (by simp [Event.conn, Event.Fine])
      · obtain ⟨rfl, rfl⟩ := Prod.mk.inj hs
        exact happ rfl rfl rfl rfl (by simp [Event.conn, Event.Fine])
  | metaSend ht hs =>
      have hlive : (s.users _).all _ = true := hok
      rw [ht] at hlive
      exact h.metaSend hlive hs
  | destruct => exact h.erase _
  | pass hp => exact h.pass hp
  | created _ hnew => exact h.created hnew
  | failed =>
      exact h.congr rfl (fun _ => id) (fun _ => rfl) rfl (by simp [Event.conn, Event.Fine])
        (hand_nil rfl)
  | established hl hc huser => exact h.established hc huser
  | writeable hl hc _ _ huser => exact h.writeable hl hc huser
  | @unready w c hl hc huser =>
      refine h.put hc rfl rfl (fun _ _ => rfl) rfl nofun ?_ (hand_nil (by rw [setLws, hl]; rfl))
      rw [List.append_nil]
      exact h.pending hc
  | write _ hc huser hs => exact h.write hc huser hs
  | destroy => exact h.destroy

theorem of_run (h : (machine junk).Run Live tr s) : Table tr s :=
  h.invariant Table .init fun ih hok hs => ih.step hok (moves_of_step hs)

end Table

/-- **The table holds live connections only.**  Every key is a connection that
has been created and not destroyed; a call that returns 0 is for one that is
there; a writeable callback is asked only for such; and the records written on a
connection are records queued for it, in their order. -/
structure LiveTable (tr : List Event) (s : WebsocketClient) : Prop where
  keys : ∀ w, (s.client_message_cache_ w).isSome → (s.lws w).isSome
  sends : ∀ conn, (∀ r, .accepted conn false r ∉ tr) ∧ .overflow conn false ∉ tr
  requests : ∀ w, .requested w none ∉ tr
  written : ∀ k, (written k tr).Sublist (logged k tr)

theorem Table.liveTable (h : Table tr s) : LiveTable tr s where
  keys := fun w hkey => by
    by_contra hnone
    rw [h.keys w (Option.not_isSome_iff_eq_none.mp hnone)] at hkey
    cases hkey
  sends := fun conn =>
    ⟨fun _ he => Bool.false_ne_true (h.fine _ he), fun he => Bool.false_ne_true (h.fine _ he)⟩
  requests := fun _ he => h.fine _ he rfl
  written := h.order

/-- **The table is live in every run of live sends**, whatever the addresses
libwebsockets gives and the order of the calls, the callbacks and the passes. -/
theorem liveTable_of_live (h : (machine junk).Run Live tr s) : LiveTable tr s :=
  (Table.of_run h).liveTable

/-- The condition is exact: a send on a connection that is gone returns 0 and
queues its message. -/
theorem not_liveTable_of_not_live (hs : s.step act = some (s', es)) (hok : ¬ s.Live act) :
    ¬ LiveTable (tr ++ es) s' := by
  intro hlive
  cases moves_of_step hs with
  | @metaSend t m _ _ ht hsend =>
      have hgone : s.live m.wsi m.conn = false := by
        rw [← Bool.not_eq_true]
        intro hyes
        apply hok
        show (s.users t).all _ = true
        rw [ht]
        exact hyes
      obtain ⟨p, -, he⟩ := Option.map_eq_some_iff.mp hsend
      obtain ⟨-, rfl⟩ := Prod.mk.inj he
      rw [show (s.setUser t none).live m.wsi m.conn = false from hgone] at hlive
      obtain ⟨haccepted, hoverflow⟩ := hlive.sends m.conn
      cases hp : p.2 with
      | true => exact hoverflow (by simp [hp])
      | false => exact haccepted ⟨m.type, m.message⟩ (by simp [hp])
  | connect | setAutoReconnect | setReconnectInterval | keepInterval | call | destruct
  | destructNull | pass | created | failed | established | writeable | unready | write | destroy =>
      exact hok True.intro

end Table

/-- The service thread alone, `n` times. -/
private def passes (n : Nat) : List Act := List.replicate n (.pass 5)

/-- A connection with a message in its buffer is destroyed, the next one gets its
address, and another message is written on it. -/
theorem liveTable_of_live_two :
    ∃ tr s, (machine fun _ => 0).Run Live tr s ∧
      written 0 tr = [] ∧ written 1 tr = [⟨.Ping, [66]⟩] ∧ s.keys = [5] ∧ LiveTable tr s := by
  obtain ⟨tr, s, hrun, hp⟩ := (machine fun _ => 0).run_of_exec Live
    (List.flatten [[.connect 1], passes 5, [.attempt (some 5)], passes 3,
      [.established 5, .call 0 1 (.SendText [65]), .metaSend 0, .destroy 5, .connect 1],
      passes 7, [.attempt (some 5)], passes 1, [.call 0 1 (.Ping [66]), .metaSend 0],
      passes 5, [.established 5, .writeable 5, .write true]])
    (fun q => decide (written 0 q.2 = [] ∧ written 1 q.2 = [⟨.Ping, [66]⟩] ∧ q.1.keys = [5]))
    (by decide +kernel)
  obtain ⟨hfirst, hsecond, hkeys⟩ := of_decide_eq_true hp
  exact ⟨tr, s, hrun, hfirst, hsecond, hkeys, liveTable_of_live hrun⟩

/-- A message is sent on a connection that has been destroyed. -/
theorem not_liveTable : ¬ ∀ junk tr s, (machine junk).Run AnyStep tr s → LiveTable tr s := by
  intro h
  obtain ⟨tr, s, hrun, hp⟩ := (machine fun _ => 0).run_of_exec AnyStep
    (List.flatten [[.connect 1], passes 5, [.attempt (some 5)], passes 3,
      [.established 5, .destroy 5, .call 0 1 (.SendText [65]), .metaSend 0]])
    (fun q => decide ((q.1.client_message_cache_ 5).isSome ∧ (q.1.lws 5).isNone))
    (by decide +kernel)
  obtain ⟨hkey, hgone⟩ := of_decide_eq_true hp
  have hlive := (h _ tr s hrun).keys 5 hkey
  rw [Option.isNone_iff_eq_none.mp hgone] at hlive
  cases hlive

end WebsocketClient

end TestExamples
