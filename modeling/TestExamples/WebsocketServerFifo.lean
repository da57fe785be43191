/-
TestExamples/WebsocketServerFifo.lean

The send buffers of a websocket connection are one queue.

`send_` behind `curSendPos_` and `sendBuf_` behind it hold, as bytes, the
records taken over by `MetaSend` and not yet written (`Buffers`).  The queue
stops at a `Close` record, and a `sendBuf_` that overflows is thrown away and
replaced by one: this is the queue of `Lib/StoppedQueue.lean`, of which
`MetaSend` and the writeable callback are the operations.
-/
import TestExamples.Lib.StoppedQueue
import TestExamples.WebsocketServerSteps

namespace TestExamples

namespace WebsocketServer

/-! ### Histories -/

def Event.conn : Event → Nat
  | .accepted k _ | .overflow k | .written k _ | .unknownType k => k

/-- The records passed to `lws_write` for the connection `k`. -/
def written (k : Nat) (tr : List Event) : List Record :=
  tr.filterMap fun
    | .written k' r => if k' = k then some r else none
    | _ => none

/-- The records accepted by `MetaSend` for the connection `k` before the first
`Close` record or overflow. -/
def acceptedBefore (k : Nat) : List Event → List Record
  | [] => []
  | .accepted k' r :: tr =>
      if k' = k then if r.type_ = .Close then [] else r :: acceptedBefore k tr
      else acceptedBefore k tr
  | .overflow k' :: tr => if k' = k then [] else acceptedBefore k tr
  | _ :: tr => acceptedBefore k tr

/-- The records that `MetaSend` writes for the connection `k`: `Close` where
there was no room. -/
def logged (k : Nat) (tr : List Event) : List Record :=
  tr.filterMap fun
    | .accepted k' r => if k' = k then some r else none
    | .overflow k' => if k' = k then some ⟨.Close, []⟩ else none
    | _ => none

def stops (r : Record) : Bool := decide (r.type_ = .Close)

theorem stops_eq_false {r : Record} (h : r.type_ ≠ .Close) : stops r = false := decide_eq_false h

theorem acceptedBefore_eq (k : Nat) (tr : List Event) :
    acceptedBefore k tr = beforeStop stops (logged k tr) := by
  induction tr with
  | nil => rfl
  | cons e tr ih =>
      cases e with
      | accepted k' r =>
          rcases eq_or_ne k' k with rfl | hk
          · by_cases hr : r.type_ = .Close <;> simp [acceptedBefore, logged, beforeStop, stops, hr]
            exact ih
          · simpa [acceptedBefore, logged, hk] using ih
      | overflow k' =>
          rcases eq_or_ne k' k with rfl | hk
          · simp [acceptedBefore, logged, beforeStop, stops]
          · simpa [acceptedBefore, logged, hk] using ih
      | written k' r => exact ih
      | unknownType k' => exact ih

section Append

variable {k : Nat} (tr : List Event) {es : List Event}

theorem logged_append : logged k (tr ++ es) = logged k tr ++ logged k es := List.filterMap_append

theorem written_append : written k (tr ++ es) = written k tr ++ written k es :=
  List.filterMap_append

/-- What is said of other connections is not in the log of this one. -/
theorem logged_of_ne (h : ∀ e ∈ es, e.conn ≠ k) : logged k es = [] :=
  List.filterMap_eq_nil_iff.mpr fun e he => by
    have hne := h e he
    cases e with
    | accepted | overflow => exact if_neg hne
    | written | unknownType => rfl

theorem written_of_ne (h : ∀ e ∈ es, e.conn ≠ k) : written k es = [] :=
  List.filterMap_eq_nil_iff.mpr fun e he => by
    have hne := h e he
    cases e with
    | written => exact if_neg hne
    | accepted | overflow | unknownType => rfl

theorem logged_other (h : ∀ e ∈ es, e.conn ≠ k) : logged k (tr ++ es) = logged k tr := by
  rw [logged_append, logged_of_ne h, List.append_nil]

theorem written_other (h : ∀ e ∈ es, e.conn ≠ k) : written k (tr ++ es) = written k tr := by
  rw [written_append, written_of_ne h, List.append_nil]

end Append

/-! ### The buffers of one connection -/

/-- `send_` consists of whole records, and `curSendPos_` is between two of
them. -/
def OnBoundary (send : List Byte) (pos : Nat) : Prop :=
  ∃ done rest : List Record, send = recordBytes (done ++ rest) ∧ pos = (recordBytes done).length

/-- The records in `send_` from `curSendPos_` on and those in `sendBuf_` are
what is pending. -/
def Buffers (log out : List Record) (sendBuf send : List Byte) (pos : Nat) : Prop :=
  ∃ done rest buf : List Record, send = recordBytes (done ++ rest) ∧
    pos = (recordBytes done).length ∧ sendBuf = recordBytes buf ∧
    (∀ r ∈ rest ++ buf, r.Small) ∧ Tracks stops log out (rest ++ buf)

namespace Buffers

variable {log out : List Record} {sendBuf send : List Byte} {pos : Nat} {r : Record}

theorem empty : Buffers [] [] [] [] 0 := ⟨[], [], [], rfl, rfl, rfl, nofun, .empty⟩

theorem onBoundary (h : Buffers log out sendBuf send pos) : OnBoundary send pos := by
  obtain ⟨done, rest, -, hsend, hpos, -⟩ := h
  exact ⟨done, rest, hsend, hpos⟩

theorem prefix_log (h : Buffers log out sendBuf send pos) : out <+: beforeStop stops log := by
  obtain ⟨_, _, _, -, -, -, -, htracks⟩ := h
  exact htracks.prefix_log

/-- A record is put behind the others. -/
theorem push (h : Buffers log out sendBuf send pos) (hr : r.Small) :
    Buffers (log ++ [r]) out (sendBuf ++ r.bytes) send pos := by
  obtain ⟨done, rest, buf, hsend, hpos, rfl, hsmall, htracks⟩ := h
  refine ⟨done, rest, buf ++ [r], hsend, hpos, ?_, fun q hq => ?_, ?_⟩
  · exact (recordBytes_concat buf r).symm
  · rw [← List.append_assoc] at hq
    exact small_concat hsmall hr q hq
  · rw [← List.append_assoc]
    exact htracks.push r

/-- `sendBuf_` is thrown away for `Close`. -/
theorem replace (h : Buffers log out sendBuf send pos) :
    Buffers (log ++ [⟨.Close, []⟩]) out (Record.mk .Close []).bytes send pos := by
  obtain ⟨done, rest, buf, hsend, hpos, -, hsmall, htracks⟩ := h
  refine ⟨done, rest, [⟨.Close, []⟩], hsend, hpos, (List.append_nil _).symm, fun q hq => ?_,
    htracks.replace rfl⟩
  rcases List.mem_append.mp hq with hq | hq
  · exact hsmall q (List.mem_append_left _ hq)
  · rw [List.mem_singleton.mp hq]
    show 16 + 0 < 2 ^ 31
    decide

/-- The buffers change places once `send_` has been written. -/
theorem swap (h : Buffers log out sendBuf send pos) (hshort : send.length < pos + SIZEOF_MsgHead) :
    Buffers log out [] sendBuf 0 := by
  obtain ⟨done, rest, buf, rfl, rfl, rfl, hsmall, htracks⟩ := h
  obtain rfl := rest_eq_nil hshort
  refine ⟨[], buf, [], rfl, rfl, rfl, ?_, ?_⟩
  · rwa [List.append_nil]
  · rwa [List.append_nil]

/-- Behind the swap `curSendPos_` is at a record. -/
theorem front_of_swap (h : Buffers log out sendBuf send pos) (hne : sendBuf ≠ []) :
    0 + SIZEOF_MsgHead ≤ sendBuf.length := by
  obtain ⟨-, -, buf, -, -, rfl, -⟩ := h
  rcases buf with - | ⟨r, buf⟩
  · exact absurd rfl hne
  · rw [recordBytes_cons, List.length_append, r.bytes_length]
    omega

/-- **The record at `curSendPos_`**, read there, and the buffers behind it. -/
theorem next (h : Buffers log out sendBuf send pos) (hlong : SIZEOF_MsgHead + pos ≤ send.length) :
    ∃ r : Record, typeAt send pos = r.type_.code ∧ payloadAt send pos = r.payload ∧
      (stops r = false → ∀ pos', pos' = pos + SIZEOF_MsgHead + (lenAt send pos).toNat →
        (send.length ≤ pos' → Buffers log (out ++ [r]) sendBuf [] 0) ∧
        (pos' < send.length → Buffers log (out ++ [r]) sendBuf send pos' ∧
          pos' + SIZEOF_MsgHead ≤ send.length)) := by
  obtain ⟨done, rest, buf, rfl, rfl, rfl, hsmall, htracks⟩ := h
  rcases rest with - | ⟨r, rest⟩
  · rw [List.append_nil, SIZEOF_MsgHead] at hlong
    omega
  have hr : r.Small := hsmall r (List.mem_cons_self ..)
  obtain ⟨htype, hpayload, hend⟩ := record_at hr (Eq.refl (recordBytes done).length)
  refine ⟨r, htype, hpayload, fun hstop pos' hpos' => ?_⟩
  rw [hend] at hpos'
  have hcons : done ++ r :: rest = (done ++ [r]) ++ rest := by simp
  have hsmall' : ∀ q ∈ rest ++ buf, q.Small := fun q hq => hsmall q (List.mem_cons_of_mem _ hq)
  have htracks' : Tracks stops log (out ++ [r]) (rest ++ buf) := htracks.pop hstop
  rw [hcons, hpos']
  refine ⟨fun hlast => ?_, fun hmore => ⟨?_, ?_⟩⟩
  · have hnil : rest = [] :=
      rest_eq_nil (Nat.lt_of_le_of_lt hlast (Nat.lt_add_of_pos_right (by decide)))
    exact ⟨[], rest, buf, by rw [hnil]; rfl, rfl, rfl, hsmall', htracks'⟩
  · exact ⟨done ++ [r], rest, buf, rfl, rfl, rfl, hsmall', htracks'⟩
  · refine Nat.le_of_not_lt fun hshort => ?_
    rw [rest_eq_nil hshort, List.append_nil] at hmore
    exact Nat.lt_irrefl _ hmore

end Buffers

/-! ### The invariant -/

structure Fifo (tr : List Event) (s : WebsocketServer) : Prop where
  conns : Conns s
  past : ∀ e ∈ tr, e.conn < s.serial
  known : ∀ k, .unknownType k ∉ tr
  order : ∀ k, written k tr <+: beforeStop stops (logged k tr)
  buffers : ∀ {w item c}, s.send_cache_ w = some item → s.inout w = some c →
    Buffers (logged c.conn tr) (written c.conn tr) item.sendBuf_ c.send_ c.curSendPos_
  front : ∀ {w c}, s.loop = .writing w → s.inout w = some c →
    c.curSendPos_ + SIZEOF_MsgHead ≤ c.send_.length

namespace Fifo

variable {tr es : List Event} {s s' : WebsocketServer} {w : Wsi} {item item' : CacheItem}
  {c c' : ServerInOut}

theorem init : Fifo [] WebsocketServer.init :=
  ⟨.init, nofun, nofun, fun _ => List.prefix_refl _, nofun, nofun⟩

/-- A step that leaves the buffers alone. -/
theorem congr (h : Fifo tr s) (hconns : Conns s') (hserial : s'.serial = s.serial)
    (hinout : s'.inout = s.inout)
    (hcache : ∀ {w item}, s'.send_cache_ w = some item →
      ∃ item₀, s.send_cache_ w = some item₀ ∧ item.sendBuf_ = item₀.sendBuf_)
    (hloop : ∀ w, s'.loop = .writing w → s.loop = .writing w) : Fifo tr s' where
  conns := hconns
  past := hserial ▸ h.past
  known := h.known
  order := h.order
  buffers := fun hitem hc => by
    obtain ⟨item₀, hitem₀, he⟩ := hcache hitem
    rw [he]
    exact h.buffers hitem₀ (hinout ▸ hc)
  front := fun hl hc => h.front (hloop _ hl) (hinout ▸ hc)

/-- A step on one connection. -/
theorem put (h : Fifo tr s) {u : Bool} {l : ServicePc} (hconns : Conns (s.put w item' c' u l))
    (hc : s.inout w = some c) (hc' : c'.conn = c.conn) (hes : ∀ e ∈ es, e.conn = c.conn)
    (hknown : .unknownType c.conn ∉ es)
    (hbuf : Buffers (logged c.conn (tr ++ es)) (written c.conn (tr ++ es)) item'.sendBuf_
      c'.send_ c'.curSendPos_)
    (hfront : l = .writing w → c'.curSendPos_ + SIZEOF_MsgHead ≤ c'.send_.length)
    (hloop : ∀ b, b ≠ w → l = .writing b → s.loop = .writing b) :
    Fifo (tr ++ es) (s.put w item' c' u l) := by
  -- the other connections are not spoken of
  have hother : ∀ {k}, k ≠ c.conn → ∀ e ∈ es, e.conn ≠ k := fun hk e he hek =>
    hk (hek ▸ hes e he)
  refine
    { conns := hconns
      past := fun e he => ?_
      known := fun k hk => ?_
      order := fun k => ?_
      buffers := fun {b i d} hi hd => ?_
      front := fun {b d} hl hd => ?_ }
  · rcases List.mem_append.mp he with he | he
    · exact h.past e he
    · exact hes e he ▸ h.conns.serial hc
  · rcases List.mem_append.mp hk with hk | hk
    · exact h.known k hk
    · have hkc : k = c.conn := hes _ hk
      exact hknown (hkc ▸ hk)
  · rcases eq_or_ne k c.conn with rfl | hk
    · exact hbuf.prefix_log
    · rw [logged_other tr (hother hk), written_other tr (hother hk)]
      exact h.order k
  · rcases update_eq hd with ⟨rfl, he⟩ | ⟨hne, hd⟩
    · obtain rfl := Option.some.inj he
      obtain rfl := update_self_eq hi
      rw [hc']
      exact hbuf
    · have hk : d.conn ≠ c.conn := fun he => hne (h.conns.inj hd hc he)
      rw [logged_other tr (hother hk), written_other tr (hother hk)]
      exact h.buffers ((Function.update_of_ne hne ..).symm.trans hi) hd
  · rcases update_eq hd with ⟨rfl, he⟩ | ⟨hne, hd⟩
    · obtain rfl := Option.some.inj he
      exact hfront hl
    · exact h.front (hloop b hne hl) hd

theorem established (h : Fifo tr s) (hloop : s.loop = .service) : Fifo tr (s.established w) := by
  have hnew : ∀ e ∈ tr, e.conn ≠ s.serial := fun e he hk =>
    absurd (hk ▸ h.past e he) (Nat.lt_irrefl _)
  refine
    { conns := h.conns.established
      past := fun e he => Nat.lt_succ_of_lt (h.past e he)
      known := h.known
      order := h.order
      buffers := fun {b i d} hi hd => ?_
      front := fun {b d} hl _ => ?_ }
  · rcases update_eq hd with ⟨rfl, he⟩ | ⟨hne, hd⟩
    · obtain rfl := Option.some.inj he
      obtain rfl := update_self_eq hi
      rw [logged_of_ne hnew, written_of_ne hnew]
      exact .empty
    · exact h.buffers ((Function.update_of_ne hne ..).symm.trans hi) hd
  · have hl' : s.loop = .writing b := hl
    rw [hloop] at hl'
    cases hl'

theorem destroy (h : Fifo tr s) : Fifo tr (s.destroy w) := by
  have hold : ∀ {β : Type} {f : Wsi → Option β} {b : Wsi} {x : β},
      Function.update f w none b = some x → f b = some x := fun hx => (of_update_none hx).2
  exact
    { conns := h.conns.destroy
      past := h.past
      known := h.known
      order := h.order
      buffers := fun hi hd => h.buffers (hold hi) (hold hd)
      front := fun hl hd => h.front hl (hold hd) }

/-- One round of the loop of a writeable callback. -/
theorem writes {partially : Bool} (h : Fifo tr s) (hconns : Conns s') (hloop : s.loop = .writing w)
    (hitem : s.send_cache_ w = some item) (hc : s.inout w = some c)
    (hw : Writes s w c partially es s') : Fifo (tr ++ es) s' := by
  have hlong : SIZEOF_MsgHead + c.curSendPos_ ≤ c.send_.length :=
    Nat.add_comm .. ▸ h.front hloop hc
  obtain ⟨r, htype, hpayload, hrest⟩ := (h.buffers hitem hc).next hlong
  have hother : ∀ {l : ServicePc}, l = .service ∨ l = .writing w →
      ∀ b, b ≠ w → l = .writing b → s.loop = .writing b := by
    rintro l (rfl | rfl) b hb hl
    · cases hl
    · cases hl
      exact absurd rfl hb
  cases hw with
  | stop hshort => exact absurd hlong (Nat.not_le.mpr hshort)
  | close =>
      rw [setInOut_loop_eq_put hitem] at hconns ⊢
      refine h.put hconns hc rfl nofun nofun ?_ nofun (hother (Or.inl rfl))
      rw [List.append_nil]
      exact h.buffers hitem hc
  | @written type _ htype' hne =>
      have hcode : r.type_ = type := by
        rw [htype] at htype'
        cases hr : r.type_ <;> cases type <;> rw [hr] at htype' <;> first | rfl | cases htype'
      obtain ⟨t, p⟩ := r
      dsimp only at hcode hpayload
      subst hcode
      rw [hpayload]
      have hstop : stops ⟨t, p⟩ = false := stops_eq_false hne
      have hlog : logged c.conn (tr ++ [.written c.conn ⟨t, p⟩]) = logged c.conn tr := by
        rw [logged_append]
        exact List.append_nil _
      have hout : WebsocketServer.written c.conn (tr ++ [.written c.conn ⟨t, p⟩]) =
          WebsocketServer.written c.conn tr ++ [⟨t, p⟩] := by
        rw [written_append]
        simp [WebsocketServer.written]
      obtain ⟨hlast, hmore⟩ := hrest hstop _ rfl
      rw [advance_eq_put hitem c partially rfl] at hconns ⊢
      split at hconns
      · next hend =>
        rw [if_pos hend]
        refine h.put hconns hc rfl (by simp [Event.conn]) (by simp) ?_ nofun (hother (Or.inl rfl))
        rw [hlog, hout]
        exact hlast hend
      · next hend =>
        rw [if_neg hend]
        obtain ⟨hbuf, hfront⟩ := hmore (Nat.not_le.mp hend)
        refine h.put hconns hc rfl (by simp [Event.conn]) (by simp) ?_ (fun _ => hfront)
          (hother ?_)
        · rw [hlog, hout]
          exact hbuf
        · cases partially
          exacts [Or.inr rfl, Or.inl rfl]
  | unknown _ htype' => exact absurd htype (htype' r.type_)

/-- **One step keeps the queue of every connection.** -/
theorem step {act : Act} (h : Fifo tr s) (hm : Moves s act es s') : Fifo (tr ++ es) s' := by
  have hconns := h.conns.step hm
  cases hm with
  | refused => rwa [List.append_nil]
  | @accepted w call type message item _ hitem hfit =>
      obtain ⟨c, hc, hk⟩ := h.conns.inout_of hitem
      rw [queued_eq_put hc] at hconns ⊢
      rw [← hk] at hconns ⊢
      refine h.put hconns hc rfl (by simp [Event.conn]) (by simp) ?_ (fun hl => h.front hl hc)
        (fun _ _ hl => hl)
      have hsmall : (Record.mk type message).Small := by
        simp only [Record.Small, LWS_PRE, SERVRE_CACHE_MAX] at hfit ⊢
        omega
      rw [logged_append, written_append]
      simpa [logged, written] using (h.buffers hitem hc).push hsmall
  | @overflow w call item hitem =>
      obtain ⟨c, hc, hk⟩ := h.conns.inout_of hitem
      rw [queued_eq_put hc] at hconns ⊢
      rw [← hk] at hconns ⊢
      refine h.put hconns hc rfl (by simp [Event.conn]) (by simp) ?_ (fun hl => h.front hl hc)
        (fun _ _ hl => hl)
      rw [logged_append, written_append]
      simpa [logged, written] using (h.buffers hitem hc).replace
  | top =>
      rw [List.append_nil]
      refine h.congr hconns rfl rfl (fun hi => ⟨_, hi, rfl⟩) fun b hl => ?_
      dsimp only at hl
      split at hl <;> cases hl
  | around | requested =>
      rw [List.append_nil]
      exact h.congr hconns rfl rfl (fun hi => ⟨_, hi, rfl⟩) nofun
  | collect =>
      rw [List.append_nil]
      refine h.congr hconns rfl rfl (fun hi => ?_) nofun
      obtain ⟨item₀, hi₀, he, -⟩ := collect_buffers hi
      exact ⟨item₀, hi₀, he⟩
  | request _ hc =>
      obtain ⟨item, hitem, -⟩ := h.conns.item_of hc
      rw [setInOut_loop_eq_put hitem] at hconns ⊢
      refine h.put hconns hc rfl nofun nofun ?_ nofun nofun
      rw [List.append_nil]
      exact h.buffers hitem hc
  | established hloop =>
      rw [List.append_nil]
      exact h.established hloop
  | @writeable w c s' hloop hc _ _ hs =>
      obtain ⟨item, hitem, -⟩ := h.conns.item_of hc
      have hbuf := h.buffers hitem hc
      have hother : ∀ {closing l}, Begins s w c closing l →
          ∀ b, b ≠ w → l = .writing b → s.loop = .writing b := by
        rintro closing l (⟨-, rfl⟩ | ⟨-, rfl⟩) b hb hl
        · cases hl
          exact absurd rfl hb
        · exact hl
      rw [← List.append_nil tr] at hbuf
      cases wakes_of_writeable hitem hs with
      | drained hshort hnil =>
          refine h.put hconns hc rfl nofun nofun ?_ ?_ fun _ _ hl => hl
          · exact hnil ▸ hbuf.swap hshort
          · rw [hloop]
            nofun
      | refilled hshort hne hbegin =>
          exact h.put hconns hc rfl nofun nofun (hbuf.swap hshort)
            (fun _ => hbuf.front_of_swap hne) (hother hbegin)
      | resumed hlong hbegin =>
          exact h.put hconns hc rfl nofun nofun hbuf (fun _ => hlong) (hother hbegin)
  | write hloop hc hw =>
      obtain ⟨item, hitem, -⟩ := h.conns.item_of hc
      exact h.writes hconns hloop hitem hc hw
  | destroy =>
      rw [List.append_nil]
      exact h.destroy

theorem of_run (h : machine.Run AnyStep tr s) : Fifo tr s :=
  h.invariant Fifo .init fun ih _ hs => ih.step (moves_of_step hs)

end Fifo

/-- **The send buffers are a faithful queue.**  The records passed to
`lws_write` for a connection are a prefix of those accepted for it before the
first `Close` or overflow; `send_` consists of whole records, with
`curSendPos_` between two of them; and the default branch is never reached. -/
theorem written_prefix_accepted {tr : List Event} {s : WebsocketServer}
    (h : machine.Run AnyStep tr s) :
    (∀ k, written k tr <+: acceptedBefore k tr) ∧
      (∀ w c, s.inout w = some c → OnBoundary c.send_ c.curSendPos_) ∧
      ∀ k, .unknownType k ∉ tr := by
  have hfifo := Fifo.of_run h
  refine ⟨fun k => ?_, fun w c hc => ?_, hfifo.known⟩
  · rw [acceptedBefore_eq]
    exact hfifo.order k
  · obtain ⟨item, hitem, -⟩ := hfifo.conns.item_of hc
    exact (hfifo.buffers hitem hc).onBoundary

/-- Two records, and a third accepted between the two writes. -/
theorem written_prefix_accepted_three :
    ∃ tr s, machine.Run AnyStep tr s ∧
      written 0 tr = [⟨.Text, [65]⟩, ⟨.Ping, []⟩] ∧
      acceptedBefore 0 tr = [⟨.Text, [65]⟩, ⟨.Ping, []⟩, ⟨.Binary, [0, 1]⟩] ∧
      written 0 tr <+: acceptedBefore 0 tr ∧
      (∀ w c, s.inout w = some c → OnBoundary c.send_ c.curSendPos_) ∧
      .unknownType 0 ∉ tr := by
  obtain ⟨tr, s, hrun, hp⟩ := machine.run_of_exec AnyStep
    [.pass, .established 7, .call 7 (.SendText [65]), .call 7 (.Ping []), .pass, .pass, .collect,
      .request, .request, .writeable 7, .write false, .call 7 (.SendBinary [0, 1]), .write true]
    (fun q => decide (written 0 q.2 = [⟨.Text, [65]⟩, ⟨.Ping, []⟩] ∧
      acceptedBefore 0 q.2 = [⟨.Text, [65]⟩, ⟨.Ping, []⟩, ⟨.Binary, [0, 1]⟩])) (by decide +kernel)
  obtain ⟨hw, ha⟩ := of_decide_eq_true hp
  obtain ⟨horder, hboundary, hknown⟩ := written_prefix_accepted hrun
  exact ⟨tr, s, hrun, hw, ha, horder 0, hboundary, hknown 0⟩

end WebsocketServer

end TestExamples
