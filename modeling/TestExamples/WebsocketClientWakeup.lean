/-
TestExamples/WebsocketClientWakeup.lean

What makes the service thread of the websocket client come back to a connection
with something to send.

As on the server (WebsocketServerWakeup.lean) a connection is woken up by a callback
it has asked for, by the pass that is about to ask for one, or by `updated_` and
`bnew_data_to_send_`, which will make the pass ask.  The pass of the client does not
look at `sending_`, and a record may be queued before the connection is established:
a callback that comes then finds no `ClientInOut` and is lost with what announced it.

`Smooth` excludes that, and a write that leaves the connection partially buffered.
Under it nothing is left behind: a connection for which nothing is going to happen has
had every record written that was queued for it (`written_of_rest`).  Behind a partial
write the header of libwebsockets wants a new callback asked for.  The client does not
ask, and with `sending_` set `ClinetMetaSend` announces nothing: nothing is written on
the connection any more (`written_of_quiet`).
-/
import TestExamples.WebsocketClientFifo

namespace TestExamples

namespace WebsocketClient

open WebsocketServer (Buffers stops)

/-- No `lws_write` leaves the connection partially buffered, and no callback comes
before the connection is established while something is queued for it. -/
def Smooth (s : WebsocketClient) : Act → Prop
  | .write partially => partially = false
  | .writeable w => (s.lws w).all (fun c => c.user.isSome) = true ∨ s.sendBuf w = []
  | act => s.Kept act

instance (s : WebsocketClient) : ∀ act, Decidable (s.Smooth act)
  | .write _ => inferInstanceAs (Decidable (_ = _))
  | .writeable _ => inferInstanceAs (Decidable (_ ∨ _))
  | .destruct _ => inferInstanceAs (Decidable (_ = _))
  | .metaSend t => inferInstanceAs (Decidable (s.Live (.metaSend t)))
  | .connect _ | .setAutoReconnect _ _ | .setReconnectInterval _ _ | .call _ _ _ | .pass _
  | .attempt _ | .established _ | .destroy _ => inferInstanceAs (Decidable True)

theorem Smooth.kept {s : WebsocketClient} {act : Act} (h : s.Smooth act) : s.Kept act := by
  cases act with
  | write | writeable => exact True.intro
  | _ => exact h

/-! ### One connection -/

/-- Under the guard: the callback leaves nothing in `send_`; while `sending_` is set
the next callback has been asked for; where it is not, new records are announced; and
it is not set before the connection is established. -/
structure Wakeful (loop : ClientPc) (new : Bool) (w : Wsi) (i : Cached) (c : Lws) : Prop where
  drained : loop ≠ .writing w → c.send = [] ∧ c.pos = 0
  sending : loop ≠ .writing w → i.sending_ = true → c.requested = true
  pending : i.sending_ = false → i.sendBuf_ ≠ [] →
    c.requested = true ∨ Asking loop w ∨ i.updated_ = true ∧ new = true
  fresh : c.user = none → i.sending_ = false

namespace Wakeful

variable {loop loop' : ClientPc} {new new' : Bool} {w : Wsi} {i : Cached} {c : Lws}

/-- What the rest of the client may do. -/
theorem mono (h : Wakeful loop new w i c) (hloop : loop' ≠ .writing w → loop ≠ .writing w)
    (hask : Asking loop w → Asking loop' w) (hnew : new = true → new' = true) :
    Wakeful loop' new' w i c where
  drained := fun hl => h.drained (hloop hl)
  sending := fun hl => h.sending (hloop hl)
  pending := fun hs hb => (h.pending hs hb).imp_right (Or.imp hask (And.imp_right hnew))
  fresh := h.fresh

/-- A connection that is not being written is woken up. -/
theorem woken (h : Wakeful loop new w i c) (hloop : loop ≠ .writing w) (hbuf : i.sendBuf_ ≠ []) :
    c.requested = true ∨ Asking loop w ∨ i.updated_ = true ∧ new = true := by
  rcases hs : i.sending_ with - | -
  · exact h.pending hs hbuf
  · exact Or.inl (h.sending hloop hs)

end Wakeful

/-! ### The invariant -/

structure Awake (tr : List Event) (s : WebsocketClient) : Prop where
  fifo : Fifo tr s
  zero : s.lws 0 = none
  wakeful : ∀ {w c}, s.lws w = some c → c.closing = false →
    Wakeful s.loop s.bnew_data_to_send_ w (s.cached w) c

namespace Awake

variable {junk : WebSock → Wsi} {s s' : WebsocketClient} {act : Act} {tr tr' es : List Event}
  {w : Wsi} {c c' : Lws} {i : Cached}

theorem init : Awake [] (init junk) := ⟨.init, rfl, nofun⟩

theorem ne_zero (h : Awake tr s) (hc : s.lws w = some c) : w ≠ 0 := by
  rintro rfl
  rw [h.zero] at hc
  cases hc

/-- A step on one connection: the others go on as before. -/
theorem on (h : Awake tr s) (hfifo : Fifo tr' s') (hon : On s s' w c c' i)
    (hloop : ∀ b, b ≠ w → s'.loop ≠ .writing b → s.loop ≠ .writing b)
    (hask : ∀ b, b ≠ w → Asking s.loop b → Asking s'.loop b)
    (hnew : s.bnew_data_to_send_ = true → s'.bnew_data_to_send_ = true)
    (hself : c'.closing = false → Wakeful s'.loop s'.bnew_data_to_send_ w i c') : Awake tr' s' where
  fifo := hfifo
  zero := by
    rw [hon.lws, Function.update_of_ne (h.ne_zero hon.here).symm]
    exact h.zero
  wakeful := fun {b d} hd ho => by
    rw [hon.lws] at hd
    rw [hon.cached]
    rcases update_eq hd with ⟨rfl, he⟩ | ⟨hne, hd⟩
    · obtain rfl := Option.some.inj he
      rw [Function.update_self]
      exact hself ho
    · rw [Function.update_of_ne hne]
      exact (h.wakeful hd ho).mono (hloop b hne) (hask b hne) hnew

/-- A call puts a record into the buffer and announces it. -/
theorem queued (h : Awake tr s) (hfifo : Fifo tr' s') {buf : List Byte}
    (hon : On s s' w c c ((s.cached w).announce buf))
    (hnew : s'.bnew_data_to_send_ =
      if (s.cached w).sending_ then s.bnew_data_to_send_ else true)
    (hloop : s'.loop = s.loop) : Awake tr' s' := by
  refine h.on hfifo hon (fun b _ hl => hloop ▸ hl) (fun b _ ha => hloop ▸ ha) (fun hn => ?_)
    fun ho => ?_
  · rw [hnew, hn]
    exact ite_self true
  · have hw := h.wakeful hon.here ho
    rw [hloop]
    refine ⟨hw.drained, hw.sending, fun hs _ => Or.inr (Or.inr ⟨?_, ?_⟩), hw.fresh⟩
    · have hs' : (s.cached w).sending_ = false := hs
      show (if (s.cached w).sending_ then _ else true) = true
      rw [hs']
      rfl
    · have hs' : (s.cached w).sending_ = false := hs
      rw [hnew, hs']
      rfl

/-- The pass takes the connections with something new over into `updateds`. -/
theorem collect (h : Awake tr s) (hfifo : Fifo tr' s') (hloop : s.loop = .collecting)
    (hlws : s'.lws = s.lws) (hcached : ∀ b, s'.cached b = { s.cached b with updated_ := false })
    (hask : ∀ b, (s.cached b).updated_ = true → Asking s'.loop b) : Awake tr' s' where
  fifo := hfifo
  zero := by
    rw [hlws]
    exact h.zero
  wakeful := fun {b d} hd ho => by
    rw [hlws] at hd
    rw [hcached]
    have hw := h.wakeful hd ho
    have hnot : s.loop ≠ .writing b := by
      rw [hloop]
      simp
    refine ⟨fun _ => hw.drained hnot, fun _ => hw.sending hnot, fun hs hb => ?_, hw.fresh⟩
    rcases hw.pending hs hb with hreq | ha | ⟨hup, -⟩
    · exact Or.inl hreq
    · refine absurd ha (not_asking (fun rest => ?_) b)
      rw [hloop]
      simp
    · exact Or.inr (Or.inl (hask b hup))

theorem created (h : Awake tr s) (hfifo : Fifo tr' s') (hnone : s.lws w = none) (hw : w ≠ 0)
    (hlws : s'.lws = Function.update s.lws w (some ⟨none, false, false, s.serial⟩))
    (hcached : s'.cached = s.cached) (hnew : s'.bnew_data_to_send_ = s.bnew_data_to_send_)
    (hout : Outside s.loop) : Awake tr' s' where
  fifo := hfifo
  zero := by
    rw [hlws, Function.update_of_ne hw.symm]
    exact h.zero
  wakeful := fun {b d} hd ho => by
    rw [hlws] at hd
    rw [hcached]
    rcases update_eq hd with ⟨rfl, he⟩ | ⟨-, hd⟩
    · obtain rfl := Option.some.inj he
      rw [cached_of_none (h.fifo.table.keys b hnone)]
      exact ⟨fun _ => ⟨rfl, rfl⟩, fun _ hs => absurd hs Bool.false_ne_true,
        fun _ hb => absurd rfl hb, fun _ => rfl⟩
    · exact (h.wakeful hd ho).mono (fun _ => hout.1 b) (fun ha => absurd ha (hout.not_asking b))
        fun hn => hnew.trans hn

/-- A writeable callback takes the records over. -/
theorem refill (h : Awake tr s) (hfifo : Fifo tr' s') (hservice : s.loop = .service)
    (hon : On s s' w c c' ⟨[], (s.cached w).updated_, 0 < (s.cached w).sendBuf_.length⟩)
    (huser : c'.user ≠ none) (hpos : c'.pos = 0)
    (hnew : s'.bnew_data_to_send_ = s.bnew_data_to_send_) (hrefills : Refills s s' w c c') :
    Awake tr' s' := by
  have hout : Outside s.loop := hservice ▸ outside_service
  refine h.on hfifo hon (fun b _ _ => hout.1 b) (fun b _ ha => absurd ha (hout.not_asking b))
    hnew.trans fun ho => ?_
  cases hrefills with
  | drained hnil hsend _ hl =>
      have hsending : decide (0 < (s.cached w).sendBuf_.length) = false := by
        rw [hnil]
        rfl
      exact ⟨fun _ => ⟨hsend, hpos⟩, fun _ hs => absurd (hsending.symm.trans hs) Bool.false_ne_true,
        fun _ hb => absurd rfl hb, fun _ => hsending⟩
  | flooded hclosing =>
      rw [hclosing] at ho
      cases ho
  | filled hne _ _ hl =>
      have hsending : decide (0 < (s.cached w).sendBuf_.length) = true :=
        decide_eq_true (List.length_pos_of_ne_nil hne)
      exact ⟨fun hn => absurd hl hn, fun hn => absurd hl hn,
        fun hs => absurd (hs.symm.trans hsending) Bool.false_ne_true, fun hn => absurd hn huser⟩

/-- One round of the loop of a writeable callback, not partially buffered. -/
theorem write {io : ClientInOut} (h : Awake tr s) (hfifo : Fifo tr' s')
    (hloop : s.loop = .writing w) (hc : s.lws w = some c) (huser : c.user = some io)
    (hs : s.writeOne w c io false = (s', es)) : Awake tr' s' := by
  obtain ⟨hopen, hlong⟩ := h.fifo.front hloop hc
  obtain ⟨r, htype, hpayload, -⟩ :=
    (h.fifo.buffers hc hopen).next (Nat.add_comm .. ▸ hlong)
  have hnot : ∀ b, b ≠ w → s.loop ≠ .writing b := fun b hb hl => by
    rw [hloop] at hl
    cases hl
    exact hb rfl
  have hask : ∀ b, ¬ Asking s.loop b := not_asking fun rest => by
    rw [hloop]
    simp
  have hold := h.wakeful hc hopen
  have hon : ∀ {d : Lws}, On s s' w c d (s.cached w) →
      s'.bnew_data_to_send_ = s.bnew_data_to_send_ →
      (d.closing = false → Wakeful s'.loop s'.bnew_data_to_send_ w (s.cached w) d) →
      Awake tr' s' := fun hon hnew hself =>
    h.on hfifo hon (fun b hb _ => hnot b hb) (fun b _ ha => absurd ha (hask b)) hnew.trans hself
  cases writes_of_writeOne hc huser hlong htype hpayload hs with
  | close _ hone hnew _ => exact hon hone hnew fun ho => absurd ho.symm Bool.false_ne_true
  | last _ _ hone huser' hsend _ hreq hnew _ _ =>
      refine hon hone hnew fun _ => ⟨fun _ => hsend, fun _ _ => hreq rfl,
        fun _ _ => Or.inl (hreq rfl), fun hn => absurd hn huser'⟩
  | next _ _ hone huser' _ _ hreq hnew hl =>
      refine hon hone hnew fun _ => ⟨fun hn => absurd hl hn, fun hn => absurd hl hn,
        fun hs hb => ?_, fun hn => absurd hn huser'⟩
      rw [hreq, hnew]
      exact (hold.pending hs hb).imp_right (Or.imp_left fun ha => absurd ha (hask w))

/-- **One step under the guard keeps every connection awake.** -/
theorem step (h : Awake tr s) (hok : s.Smooth act) (hm : Moves s act es s') :
    Awake (tr ++ es) s' := by
  have hfifo := h.fifo.step hok.kept hm
  cases turns_of_moves h.fifo.table h.fifo.listed hok.kept hm with
  | still hlws hcached hnew hwriting hask _ _ =>
      refine ⟨hfifo, hlws ▸ h.zero, fun {b d} hd ho => ?_⟩
      rw [hlws] at hd
      rw [hcached]
      exact (h.wakeful hd ho).mono (fun hn hl => hn ((hwriting b).mpr hl))
        (hask b (h.ne_zero hd)) hnew.trans
  | accepted _ hon hnew hloop => exact h.queued hfifo hon hnew hloop
  | overflow hon hnew hloop => exact h.queued hfifo hon hnew hloop
  | erased _ _ hon hnew hloop =>
      refine h.on hfifo hon (fun b _ hl => hloop ▸ hl) (fun b _ ha => hloop ▸ ha) hnew.trans
        fun ho => ?_
      have hw := h.wakeful hon.here ho
      rw [hloop]
      exact ⟨hw.drained, fun _ hs => absurd hs Bool.false_ne_true, fun _ hb => absurd rfl hb,
        fun _ => rfl⟩
  | collect hloop hlws hcached hask _ =>
      exact h.collect hfifo hloop hlws hcached fun b => (hask b).mpr
  | @request _ w rest c _ hloop hon hnew hloop' =>
      have hnot : ∀ b, s.loop ≠ .writing b := fun b => by
        rw [hloop]
        simp
      refine h.on hfifo hon (fun b _ _ => hnot b) ?_ hnew.trans fun ho => ?_
      · rintro b hb ⟨rest', hl, hmem⟩
        rw [hloop] at hl
        cases hl
        exact ⟨rest, hloop', (List.mem_cons.mp hmem).resolve_left hb⟩
      · have hw := h.wakeful hon.here ho
        exact ⟨fun _ => hw.drained (hnot w), fun _ _ => rfl, fun _ _ => Or.inl rfl, hw.fresh⟩
  | created hnone hw hlws hcached hnew hout =>
      exact h.created hfifo hnone hw hlws hcached hnew hout.1
  | established _ hon huser hsend hfields hnew hloop =>
      refine h.on hfifo hon (fun b _ hl => hloop ▸ hl) (fun b _ ha => hloop ▸ ha) hnew.trans
        fun ho => ?_
      have hw := h.wakeful hon.here (hfields.2 ▸ ho)
      rw [hloop, hnew]
      refine ⟨fun _ => hsend, ?_, ?_, fun hn => absurd hn huser⟩
      · rw [hfields.1]
        exact hw.sending
      · rw [hfields.1]
        exact hw.pending
  | refill hservice _ _ _ hon huser _ hpos hnew hrefills =>
      exact h.refill hfifo hservice hon huser hpos hnew hrefills
  | @resume w c _ hservice hopen _ hlong hon _ _ =>
      -- nothing is left in `send_` between two callbacks
      have hout : Outside s.loop := hservice ▸ outside_service
      obtain ⟨hsend, hpos⟩ := (h.wakeful hon.here hopen).drained (hout.1 w)
      rw [hsend, hpos] at hlong
      exact absurd hlong (by decide)
  | @unready w c _ huser hon hnew hloop =>
      have hempty : (s.cached w).sendBuf_ = [] := by
        rcases hok with hall | hnil
        · have hall' : (s.lws w).all (fun c => c.user.isSome) = true := hall
          rw [hon.here, Option.all_some, huser] at hall'
          cases hall'
        · rw [cached_sendBuf]
          exact hnil
      refine h.on hfifo hon (fun b _ hl => hloop ▸ hl) (fun b _ ha => hloop ▸ ha) hnew.trans
        fun ho => ?_
      have hw := h.wakeful hon.here ho
      rw [hloop]
      exact ⟨hw.drained, fun _ hs => absurd ((hw.fresh huser).symm.trans hs) Bool.false_ne_true,
        fun _ hb => absurd hempty hb, hw.fresh⟩
  | @write w c io partially es s' hloop hc huser hs =>
      obtain rfl : partially = false := hok
      exact h.write hfifo hloop hc huser hs
  | @destroy w s' hservice hlws hcached hnew _ =>
      refine ⟨hfifo, ?_, fun {b d} hd ho => ?_⟩
      · rw [hlws]
        rcases eq_or_ne 0 w with rfl | hne
        · exact Function.update_self ..
        · rw [Function.update_of_ne hne]
          exact h.zero
      · rw [hlws] at hd
        obtain ⟨hne, hd⟩ := of_update_none hd
        rw [hcached, Function.update_of_ne hne]
        have hout : Outside s.loop := hservice ▸ outside_service
        exact (h.wakeful hd ho).mono (fun _ => hout.1 b)
          (fun ha => absurd ha (hout.not_asking b)) hnew.trans

theorem of_run (h : (machine junk).Run Smooth tr s) : Awake tr s :=
  h.invariant Awake .init fun ih hok hs => ih.step hok (moves_of_step hs)

end Awake

/-! ### At rest -/

/-- The connection at `w` is open, and nothing is going to wake it up. -/
structure AtRest (s : WebsocketClient) (w : Wsi) (c : Lws) : Prop where
  here : s.lws w = some c
  opened : c.closing = false
  idle : s.loop ≠ .writing w
  unrequested : c.requested = false
  unasked : ¬ Asking s.loop w
  unannounced : ¬ ((s.cached w).updated_ = true ∧ s.bnew_data_to_send_ = true)

/-- Buffers with nothing in them: everything put in has come out. -/
theorem out_eq_log {log out : List Record} (h : Buffers log out [] [] 0) : out = log := by
  obtain ⟨done, rest, buf, hsend, hpos, hbuf, -, htracks⟩ := h
  have hrest : rest = [] := by
    refine rest_eq_nil (?_ : _ < (recordBytes done).length + _)
    rw [← hsend, ← hpos]
    decide
  have hnil : buf = [] := by
    refine rest_eq_nil (?_ : _ < (recordBytes []).length + _)
    rw [List.nil_append, ← hbuf]
    decide
  rw [hrest, hnil] at htracks
  rcases stops_or stops log with hstop | hnone
  · obtain ⟨r, hr, -⟩ := htracks.stopped hstop
    cases hr
  · have hexact := htracks.exact hnone
    exact (List.append_nil out).symm.trans hexact

/-- **Nothing is left behind.**  A connection that is at rest has had written, in
order and once each, all the records that were queued for it. -/
theorem written_of_rest {junk : WebSock → Wsi} {tr : List Event} {s : WebsocketClient} {w : Wsi}
    {c : Lws} (h : (machine junk).Run Smooth tr s) (hrest : AtRest s w c) :
    written c.conn tr = logged c.conn tr := by
  have hawake := Awake.of_run h
  have hw := hawake.wakeful hrest.here hrest.opened
  have hnil : (s.cached w).sendBuf_ = [] := by
    by_contra hne
    rcases hw.woken hrest.idle hne with hreq | hask | hnew
    · rw [hrest.unrequested] at hreq
      cases hreq
    · exact hrest.unasked hask
    · exact hrest.unannounced hnew
  have hbuf := hawake.fifo.buffers hrest.here hrest.opened
  obtain ⟨hsend, hpos⟩ := hw.drained hrest.idle
  rw [hnil, hsend, hpos] at hbuf
  exact out_eq_log hbuf

/-- Two records are queued for the first connection, and a callback is asked for. -/
private def twoRequested : List Act :=
  List.flatten [firstConnection, [.call 0 1 (.SendText [65]), .metaSend 0,
    .call 0 1 (.Ping [66]), .metaSend 0], List.replicate 8 (.pass 5)]

/-- The service thread has nothing to do and the connection at `w`, the first one, is
at rest. -/
private def resting (q : WebsocketClient × List Event) (w : Wsi) : Bool :=
  decide (q.1.loop = .service) && !(q.1.cached w).updated_ &&
    (q.1.lws w).any fun c => !c.closing && !c.requested && c.conn == 0

private theorem atRest_of_resting {q : WebsocketClient × List Event} {w : Wsi}
    (h : resting q w = true) : ∃ c, AtRest q.1 w c ∧ c.conn = 0 := by
  unfold resting at h
  simp only [Bool.and_eq_true, decide_eq_true_eq, Bool.not_eq_true'] at h
  obtain ⟨⟨hloop, hupdated⟩, hany⟩ := h
  obtain ⟨c, hc, hfields⟩ := (Option.any_eq_true ..).mp hany
  simp only [Bool.and_eq_true, Bool.not_eq_true', beq_iff_eq] at hfields
  obtain ⟨⟨hopen, hreq⟩, hconn⟩ := hfields
  have hout : Outside q.1.loop := hloop ▸ outside_service
  refine ⟨c, ⟨hc, hopen, hout.1 w, hreq, hout.not_asking w, fun hnew => ?_⟩, hconn⟩
  rw [hupdated] at hnew
  cases hnew.1

/-- Two records, both written at the first callback; the second callback finds
nothing. -/
theorem written_of_rest_two :
    ∃ tr s c, (machine fun _ => 0).Run Smooth tr s ∧ AtRest s 5 c ∧
      logged c.conn tr = [⟨.Text, [65]⟩, ⟨.Ping, [66]⟩] ∧
      written c.conn tr = logged c.conn tr := by
  obtain ⟨tr, s, hrun, hp⟩ := (machine fun _ => 0).run_of_exec Smooth
    (twoRequested ++ [.writeable 5, .write false, .write false, .writeable 5])
    (fun q => resting q 5 && decide (logged 0 q.2 = [⟨.Text, [65]⟩, ⟨.Ping, [66]⟩]))
    (by decide +kernel)
  obtain ⟨hresting, hlog⟩ := Bool.and_eq_true_iff.mp hp
  obtain ⟨c, hrest, hconn⟩ := atRest_of_resting hresting
  refine ⟨tr, s, c, hrun, hrest, ?_, written_of_rest hrun hrest⟩
  rw [hconn]
  exact of_decide_eq_true hlog

/-- The first write leaves the connection partially buffered, and the second record
stays where it is. -/
theorem not_written_of_rest : ¬ ∀ junk tr s w c, (machine junk).Run Kept tr s →
    AtRest s w c → written c.conn tr = logged c.conn tr := by
  intro h
  obtain ⟨tr, s, hrun, hp⟩ := (machine fun _ => 0).run_of_exec Kept
    (twoRequested ++ [.writeable 5, .write true])
    (fun q => resting q 5 && decide (written 0 q.2 ≠ logged 0 q.2)) (by decide +kernel)
  obtain ⟨hresting, hne⟩ := Bool.and_eq_true_iff.mp hp
  obtain ⟨c, hrest, hconn⟩ := atRest_of_resting hresting
  apply of_decide_eq_true hne
  rw [← hconn]
  exact h _ tr s 5 c hrun hrest

/-! ### A connection that nothing wakes up -/

/-- `sending_` is set, so nothing is announced; nothing has been announced before it
was, no callback has been asked for and none is under way. -/
structure Quiet (loop : ClientPc) (w : Wsi) (i : Cached) (c : Lws) : Prop where
  unrequested : c.requested = false
  established : c.user ≠ none
  sending : i.sending_ = true
  unannounced : i.updated_ = false
  idle : loop ≠ .writing w
  unasked : ¬ Asking loop w

theorem Quiet.mono {loop loop' : ClientPc} {w : Wsi} {i : Cached} {c : Lws}
    (h : Quiet loop w i c) (hloop : loop' = .writing w → loop = .writing w)
    (hask : Asking loop' w → Asking loop w) : Quiet loop' w i c :=
  ⟨h.unrequested, h.established, h.sending, h.unannounced, fun hl => h.idle (hloop hl),
    fun ha => h.unasked (hask ha)⟩

/-- The connection `k` is quiet, or gone. -/
def Asleep (k : Nat) (s : WebsocketClient) : Prop :=
  ∀ {w c}, s.lws w = some c → c.conn = k → Quiet s.loop w (s.cached w) c

/-- `Kept`, and the `WebSock` of the connection `k` stays. -/
def Undisturbed (k : Nat) (s : WebsocketClient) : Act → Prop
  | .destruct websock => s.sendBuf (s.socks websock).wsi_ = [] ∧
      (s.lws (s.socks websock).wsi_).all (fun c => c.conn ≠ k) = true
  | act => s.Kept act

instance (k : Nat) (s : WebsocketClient) : ∀ act, Decidable (s.Undisturbed k act)
  | .destruct _ => inferInstanceAs (Decidable (_ ∧ _))
  | .metaSend t => inferInstanceAs (Decidable (s.Live (.metaSend t)))
  | .connect _ | .setAutoReconnect _ _ | .setReconnectInterval _ _ | .call _ _ _ | .pass _
  | .attempt _ | .established _ | .writeable _ | .write _ | .destroy _ =>
      inferInstanceAs (Decidable True)

theorem Undisturbed.kept {k : Nat} {s : WebsocketClient} {act : Act} (h : s.Undisturbed k act) :
    s.Kept act := by
  cases act with
  | destruct => exact h.1
  | _ => exact h

theorem serial_le_of_moves {s s' : WebsocketClient} {act : Act} {es : List Event}
    (hm : Moves s act es s') : s.serial ≤ s'.serial := by
  cases hm with
  | created => exact Nat.le_succ _
  | call _ hs =>
      obtain ⟨_, rfl⟩ := call_frame hs
      exact Nat.le_refl _
  | metaSend _ hs =>
      obtain ⟨_, _, _, _, rfl⟩ := metaSend_frame hs
      exact Nat.le_refl _
  | pass hp =>
      cases hp with
      | request _ hs =>
          obtain ⟨_, rfl⟩ := lws_callback_on_writable_frame hs
          exact Nat.le_refl _
      | _ => exact Nat.le_refl _
  | @established w c =>
      obtain ⟨_, _, he⟩ := established_frame s w c
      rw [he]
  | @writeable w c io =>
      obtain ⟨_, _, _, _, he, -⟩ := writeable_frame s w c io
      rw [he]
  | write _ _ _ hs =>
      obtain ⟨_, _, rfl, -⟩ := writeOne_frame hs
      exact Nat.le_refl _
  | _ => exact Nat.le_refl _

namespace Asleep

variable {junk : WebSock → Wsi} {s s' : WebsocketClient} {act : Act} {tr es : List Event} {w : Wsi}
  {c c' : Lws} {i : Cached} {k : Nat}

/-- A step on one connection. -/
theorem on (h : Asleep k s) (hon : On s s' w c c' i)
    (hloop : ∀ b, b ≠ w → s'.loop = .writing b → s.loop = .writing b)
    (hask : ∀ b, b ≠ w → Asking s'.loop b → Asking s.loop b)
    (hself : Quiet s.loop w (s.cached w) c → Quiet s'.loop w i c') : Asleep k s' := by
  intro b d hd hdk
  rw [hon.lws] at hd
  rw [hon.cached]
  rcases update_eq hd with ⟨rfl, he⟩ | ⟨hne, hd⟩
  · obtain rfl := Option.some.inj he
    rw [Function.update_self]
    exact hself (h hon.here (hon.conn.symm.trans hdk))
  · rw [Function.update_of_ne hne]
    exact (h hd hdk).mono (hloop b hne) (hask b hne)

/-- What is queued is not announced. -/
theorem queued (h : Asleep k s) {buf : List Byte} (hon : On s s' w c c ((s.cached w).announce buf))
    (hloop : s'.loop = s.loop) : Asleep k s' := by
  refine h.on hon (fun b _ hl => hloop ▸ hl) (fun b _ ha => hloop ▸ ha) fun hq => ?_
  have hsame : ((s.cached w).announce buf).updated_ = (s.cached w).updated_ := if_pos hq.sending
  rw [hloop]
  exact ⟨hq.unrequested, hq.established, hq.sending, hsame.trans hq.unannounced, hq.idle,
    hq.unasked⟩

/-- A writeable callback is another connection's. -/
theorem refill (h : Asleep k s) (hasked : c.requested = true) (hon : On s s' w c c' i)
    (hloop : s'.loop = s.loop ∨ s'.loop = .writing w) : Asleep k s' := by
  refine h.on hon (fun b hb hl => ?_) (fun b _ ha => ?_) fun hq => ?_
  · rcases hloop with he | he
    · exact he.symm.trans hl
    · rw [he] at hl
      exact absurd (ClientPc.writing.inj hl).symm hb
  · rcases hloop with he | he
    · exact he ▸ ha
    · rw [he] at ha
      exact absurd ha (not_asking (by simp) b)
  · rw [hq.unrequested] at hasked
    cases hasked

/-- And so is what is written. -/
theorem write {partially : Bool} {io : ClientInOut} (h : Asleep k s) (hfifo : Fifo tr s)
    (hloop : s.loop = .writing w) (hc : s.lws w = some c) (huser : c.user = some io)
    (hs : s.writeOne w c io partially = (s', es)) : Asleep k s' ∧ written k es = [] := by
  have hne : c.conn ≠ k := fun hk => (h hc hk).idle hloop
  obtain ⟨hopen, hlong⟩ := hfifo.front hloop hc
  obtain ⟨r, htype, hpayload, -⟩ := (hfifo.buffers hc hopen).next (Nat.add_comm .. ▸ hlong)
  have hon : ∀ {d : Lws}, On s s' w c d (s.cached w) →
      s'.loop = .service ∨ s'.loop = .writing w → Asleep k s' := by
    intro d hon hl
    refine h.on hon (fun b hb hw => ?_) (fun b _ ha => ?_) fun hq => absurd hloop hq.idle
    · rcases hl with hl | hl
      · rw [hl] at hw
        cases hw
      · rw [hl] at hw
        exact absurd (ClientPc.writing.inj hw).symm hb
    · refine absurd ha (not_asking (fun rest => ?_) b)
      rcases hl with hl | hl <;> simp [hl]
  have hother : ∀ e : Event, e.conn = some c.conn → e.conn ≠ some k := fun e he hk =>
    hne (Option.some.inj (he.symm.trans hk))
  cases writes_of_writeOne hc huser hlong htype hpayload hs with
  | close _ hone _ hl => exact ⟨hon hone (Or.inl hl), rfl⟩
  | last _ _ hone _ _ _ _ _ hl hes =>
      refine ⟨hon hone (Or.inl hl), (of_conn_ne fun e he => ?_).2⟩
      rcases List.mem_cons.mp he with rfl | he
      · exact hother _ rfl
      · rw [hes e he]
        exact (Option.some_ne_none k).symm
  | next _ _ hone _ _ _ _ _ hl =>
      refine ⟨hon hone ?_, (of_conn_ne fun e he => ?_).2⟩
      · rw [hl]
        split
        · exact Or.inl rfl
        · exact Or.inr rfl
      · rw [List.mem_singleton.mp he]
        exact hother _ rfl

/-- **One step does not wake it up.** -/
theorem step (h : Asleep k s) (hfifo : Fifo tr s) (hk : k < s.serial) (hok : s.Undisturbed k act)
    (hm : Moves s act es s') : Asleep k s' ∧ written k es = [] := by
  cases turns_of_moves hfifo.table hfifo.listed hok.kept hm with
  | still hlws hcached _ hwriting _ hask hes =>
      refine ⟨fun {b d} hd hdk => ?_, (of_conn_ne fun e he => ?_).2⟩
      · rw [hlws] at hd
        rw [hcached]
        exact (h hd hdk).mono (hwriting b).mp (hask b)
      · rw [hes e he]
        exact (Option.some_ne_none k).symm
  | accepted _ hon _ hloop => exact ⟨h.queued hon hloop, rfl⟩
  | overflow hon _ hloop => exact ⟨h.queued hon hloop, rfl⟩
  | @erased websock w c _ hw _ hon _ hloop =>
      have hne : c.conn ≠ k := by
        have hall : (s.lws (s.socks websock).wsi_).all (fun c => c.conn ≠ k) = true := hok.2
        rw [hw, hon.here] at hall
        exact of_decide_eq_true hall
      refine ⟨fun {b d} hd hdk => ?_, rfl⟩
      rw [hon.lws] at hd
      rcases update_eq hd with ⟨rfl, he⟩ | ⟨hb, hd⟩
      · obtain rfl := Option.some.inj he
        exact absurd hdk hne
      · rw [hon.cached, Function.update_of_ne hb, hloop]
        exact h hd hdk
  | collect hloop hlws hcached hask hwriting =>
      refine ⟨fun {b d} hd hdk => ?_, rfl⟩
      rw [hlws] at hd
      rw [hcached]
      have hq := h hd hdk
      refine ⟨hq.unrequested, hq.established, hq.sending, rfl, hwriting b, fun ha => ?_⟩
      exact absurd (hq.unannounced.symm.trans ((hask b).mp ha)) Bool.false_ne_true
  | @request _ w rest c _ hloop hon _ hloop' =>
      refine ⟨h.on hon (fun b _ hl => ?_) (fun b _ ha => ?_) fun hq => ?_, rfl⟩
      · rw [hloop'] at hl
        cases hl
      · obtain ⟨rest', hl, hmem⟩ := ha
        obtain rfl := ClientPc.requesting.inj (hloop'.symm.trans hl)
        exact ⟨w :: rest, hloop, List.mem_cons_of_mem _ hmem⟩
      · exact absurd ⟨w :: rest, hloop, List.mem_cons_self ..⟩ hq.unasked
  | created _ _ hlws hcached _ hout =>
      refine ⟨fun {b d} hd hdk => ?_, rfl⟩
      rw [hlws] at hd
      rw [hcached]
      rcases update_eq hd with ⟨rfl, he⟩ | ⟨-, hd⟩
      · obtain rfl := Option.some.inj he
        exact absurd hdk.symm (Nat.ne_of_lt hk)
      · exact (h hd hdk).mono (fun hl => absurd hl (hout.2.1 b))
          fun ha => absurd ha (hout.2.not_asking b)
  | established huser hon _ _ _ _ hloop =>
      exact ⟨h.on hon (fun b _ hl => hloop ▸ hl) (fun b _ ha => hloop ▸ ha)
        fun hq => absurd huser hq.established, rfl⟩
  | refill _ _ hasked _ hon _ _ _ _ hrefills =>
      refine ⟨h.refill hasked hon ?_, rfl⟩
      cases hrefills with
      | drained _ _ _ hl => exact Or.inl hl
      | flooded _ hl => exact Or.inl hl
      | filled _ _ _ hl => exact Or.inr hl
  | resume _ _ hasked _ hon _ hloop => exact ⟨h.refill hasked hon (Or.inr hloop), rfl⟩
  | unready huser hon _ hloop =>
      exact ⟨h.on hon (fun b _ hl => hloop ▸ hl) (fun b _ ha => hloop ▸ ha)
        fun hq => absurd huser hq.established, rfl⟩
  | write hloop hc huser hs => exact h.write hfifo hloop hc huser hs
  | destroy _ hlws hcached _ hout =>
      refine ⟨fun {b d} hd hdk => ?_, rfl⟩
      rw [hlws] at hd
      obtain ⟨hne, hd⟩ := of_update_none hd
      rw [hcached, Function.update_of_ne hne]
      exact (h hd hdk).mono (fun hl => absurd hl (hout.1 b)) fun ha => absurd ha (hout.not_asking b)

theorem of_quiet (h : Table tr s) (hc : s.lws w = some c)
    (hquiet : Quiet s.loop w (s.cached w) c) : Asleep c.conn s := by
  intro b d hd hdk
  obtain rfl := h.inj hd hc hdk
  obtain rfl := Option.some.inj (hd.symm.trans hc)
  exact hquiet

end Asleep

/-- **The wake-up is lost.**  Nothing is written any more on a connection that has
become quiet, whatever is queued for it and however long the run goes on. -/
theorem written_of_quiet {junk : WebSock → Wsi} {tr tr' : List Event} {s s' : WebsocketClient}
    {w : Wsi} {c : Lws} (h : (machine junk).Run Kept tr s) (hc : s.lws w = some c)
    (hquiet : Quiet s.loop w (s.cached w) c)
    (hrest : ((machine junk).startAt s).Run (Undisturbed c.conn) tr' s') :
    Asleep c.conn s' ∧ written c.conn (tr ++ tr') = written c.conn tr := by
  have hfifo := Fifo.of_run h
  have hinv := hrest.invariant
    (fun tr' s' => (Asleep c.conn s' ∧ written c.conn tr' = []) ∧ Fifo (tr ++ tr') s' ∧
      c.conn < s'.serial)
    ⟨⟨Asleep.of_quiet hfifo.table hc hquiet, rfl⟩, by rwa [List.append_nil],
      hfifo.table.serial hc⟩ (by
    intro tr' s a s' es ih hok hs
    obtain ⟨⟨hasleep, hnil⟩, hfifo, hserial⟩ := ih
    have hm := moves_of_step hs
    obtain ⟨hasleep', hes⟩ := hasleep.step hfifo hserial hok hm
    refine ⟨⟨hasleep', ?_⟩, ?_, Nat.lt_of_lt_of_le hserial (serial_le_of_moves hm)⟩
    · rw [written_append, hnil, hes]
      rfl
    · rw [← List.append_assoc]
      exact hfifo.step hok.kept hm)
  obtain ⟨⟨hasleep, hnil⟩, -⟩ := hinv
  refine ⟨hasleep, ?_⟩
  rw [written_append, hnil, List.append_nil]

/-- After a partial write a third record is queued, and `run` goes round twice. -/
theorem written_of_quiet_later :
    ∃ (tr tr' : List Event) (s s' : WebsocketClient) (c : Lws),
      (machine fun _ => 0).Run Kept tr s ∧
      ((machine fun _ => 0).startAt s).Run (Undisturbed c.conn) tr' s' ∧
      logged c.conn (tr ++ tr') = [⟨.Text, [65]⟩, ⟨.Ping, [66]⟩, ⟨.Text, [67]⟩] ∧
      written c.conn tr = [⟨.Text, [65]⟩] ∧
      Asleep c.conn s' ∧ written c.conn (tr ++ tr') = written c.conn tr := by
  obtain ⟨tr, s, hrun, hp⟩ := (machine fun _ => 0).run_of_exec Kept
    (twoRequested ++ [.writeable 5, .write true])
    (fun q => resting q 5 && (q.1.cached 5).sending_ && !(q.1.cached 5).updated_ &&
      (q.1.lws 5).any (fun c => c.user.isSome) && decide (written 0 q.2 = [⟨.Text, [65]⟩]) &&
      (((machine fun _ => 0).startAt q.1).exec (Undisturbed 0) q.1 []
        ([.call 0 1 (.SendText [67]), .metaSend 0] ++ List.replicate 10 (.pass 5))).any fun q' =>
          decide (logged 0 (q.2 ++ q'.2) = [⟨.Text, [65]⟩, ⟨.Ping, [66]⟩, ⟨.Text, [67]⟩]))
    (by decide +kernel)
  simp only [Bool.and_eq_true, Bool.not_eq_true', decide_eq_true_eq] at hp
  obtain ⟨⟨⟨⟨⟨hresting, hsending⟩, hupdated⟩, huser⟩, hout⟩, hexec⟩ := hp
  obtain ⟨c, hrest, hconn⟩ := atRest_of_resting hresting
  rw [hrest.here] at huser
  have hquiet : Quiet s.loop 5 (s.cached 5) c :=
    ⟨hrest.unrequested, Option.isSome_iff_ne_none.mp huser, hsending, hupdated, hrest.idle,
      hrest.unasked⟩
  obtain ⟨tr', s', hrun', hlog⟩ :=
    ((machine fun _ => 0).startAt s).run_of_exec (Undisturbed 0) _ _ hexec
  rw [← hconn] at hrun' hout
  refine ⟨tr, tr', s, s', c, hrun, hrun', ?_, hout, written_of_quiet hrun hrest.here hquiet hrun'⟩
  rw [hconn]
  exact of_decide_eq_true hlog

end WebsocketClient

end TestExamples
