/-
TestExamples/WebsocketClientFifo.lean

The send buffers of a connection of the websocket client are one queue.

As on the server (WebsocketServerFifo.lean), `send_` behind `curSendPos_` and
`sendBuf_` behind it hold the records taken over and not yet written (`Buffers`).
Unlike there a buffer that is too long is thrown away where the callback finds it;
the connection ends with it, so nothing is written any more.  Records may be queued
before the connection is established.
-/
import TestExamples.WebsocketClientSends

namespace TestExamples

namespace WebsocketClient

open WebsocketServer (Buffers OnBoundary stops stops_eq_false)

/-- The records accepted by `ClinetMetaSend` for the connection `k` before the first
`Close` record or overflow. -/
def acceptedBefore (k : Nat) (tr : List Event) : List Record := beforeStop stops (logged k tr)

structure Fifo (tr : List Event) (s : WebsocketClient) : Prop where
  table : Table tr s
  listed : Listed s
  known : ∀ k, .unknownType k ∉ tr
  order : ∀ k, written k tr <+: acceptedBefore k tr
  buffers : ∀ {w c}, s.lws w = some c → c.closing = false →
    Buffers (logged c.conn tr) (written c.conn tr) (s.cached w).sendBuf_ c.send c.pos
  front : ∀ {w c}, s.loop = .writing w → s.lws w = some c →
    c.closing = false ∧ c.pos + SIZEOF_MsgHead ≤ c.send.length

/-- One round of the loop of a writeable callback, by the record it finds. -/
inductive Writes (s : WebsocketClient) (w : Wsi) (c : Lws) (partially : Bool) (r : Record) :
    List Event → WebsocketClient → Prop
  | close {s'} (hclose : stops r = true)
      (hon : On s s' w c { c with closing := true } (s.cached w))
      (hnew : s'.bnew_data_to_send_ = s.bnew_data_to_send_) (hloop : s'.loop = .service) :
      Writes s w c partially r [] s'
  | last {es c' s'} (hopen : stops r = false)
      (hend : c.send.length ≤ c.pos + SIZEOF_MsgHead + (lenAt c.send c.pos).toNat)
      (hon : On s s' w c c' (s.cached w)) (huser : c'.user ≠ none)
      (hsend : c'.send = [] ∧ c'.pos = 0) (hclosing : c'.closing = c.closing)
      (hreq : partially = false → c'.requested = true)
      (hnew : s'.bnew_data_to_send_ = s.bnew_data_to_send_) (hloop : s'.loop = .service)
      (hes : ∀ e ∈ es, e.conn = none) : Writes s w c partially r (.written c.conn r :: es) s'
  | next {c' s'} (hopen : stops r = false)
      (hmore : c.pos + SIZEOF_MsgHead + (lenAt c.send c.pos).toNat < c.send.length)
      (hon : On s s' w c c' (s.cached w)) (huser : c'.user ≠ none)
      (hsend : c'.send = c.send ∧ c'.pos = c.pos + SIZEOF_MsgHead + (lenAt c.send c.pos).toNat)
      (hclosing : c'.closing = c.closing) (hreq : c'.requested = c.requested)
      (hnew : s'.bnew_data_to_send_ = s.bnew_data_to_send_)
      (hloop : s'.loop = if partially then .service else .writing w) :
      Writes s w c partially r [.written c.conn r] s'

section Fifo

variable {junk : WebSock → Wsi} {s s' : WebsocketClient} {act : Act} {tr es : List Event} {w : Wsi}
  {c c' : Lws} {i : Cached}

theorem writes_of_writeOne {io : ClientInOut} {partially : Bool} {r : Record}
    (hc : s.lws w = some c) (huser : c.user = some io)
    (hlong : c.pos + SIZEOF_MsgHead ≤ c.send.length)
    (htype : typeAt c.send c.pos = r.type_.code) (hpayload : payloadAt c.send c.pos = r.payload)
    (hs : s.writeOne w c io partially = (s', es)) : Writes s w c partially r es s' := by
  have hsend : c.send = io.send_ ∧ c.pos = io.curSendPos_ := by
    unfold Lws.send Lws.pos
    rw [huser]
    exact ⟨rfl, rfl⟩
  rw [hsend.1, hsend.2] at hlong htype hpayload
  rw [writeOne_eq (Nat.add_comm .. ▸ hlong) htype hpayload] at hs
  have hon : ∀ {s' : WebsocketClient} {d : Lws}, s'.lws = Function.update s.lws w (some d) →
      d.conn = c.conn → s'.client_message_cache_ = s.client_message_cache_ →
      s'.serial = s.serial → On s s' w c d (s.cached w) :=
    fun hlws hconn hcache hserial => .of_cached hc hlws hconn (cached_congr hcache) hserial
  split at hs
  · next hclose =>
    obtain ⟨rfl, rfl⟩ := Prod.mk.inj hs
    exact .close (decide_eq_true hclose) (hon rfl rfl rfl rfl) rfl rfl
  · next hopen =>
    obtain ⟨rfl, rfl⟩ := Prod.mk.inj hs
    have hstop : stops r = false := stops_eq_false hopen
    unfold WebsocketClient.advance
    dsimp only
    split
    · next hend =>
      rw [← hsend.1, ← hsend.2] at hend
      split
      · next hpart =>
        exact .last hstop hend (hon rfl rfl rfl rfl) (Option.some_ne_none _) ⟨rfl, rfl⟩ rfl
          (fun hfalse => absurd (hfalse.symm.trans hpart) Bool.false_ne_true) rfl rfl silent
      · rw [lws_callback_on_writable_eq (Function.update_self ..)]
        refine .last hstop hend (hon (d := { c with
          user := some { io with send_ := [], curSendPos_ := 0 }
          requested := true }) ?_ rfl rfl rfl) (Option.some_ne_none _) ⟨rfl, rfl⟩ rfl (fun _ => rfl)
          rfl rfl ?_
        · exact Function.update_idem ..
        · intro e he
          rw [List.mem_singleton.mp he]
          rfl
    · next hmore =>
      rw [← hsend.1, ← hsend.2] at hmore
      refine .next hstop (Nat.not_le.mp hmore) (hon rfl rfl rfl rfl) (Option.some_ne_none _)
        ⟨?_, ?_⟩ rfl rfl rfl rfl
      · exact hsend.1.symm
      · rw [hsend.1, hsend.2]
        rfl

namespace Fifo

theorem init : Fifo [] (init junk) where
  table := .init
  listed := fun _ hb => absurd rfl hb
  known := nofun
  order := fun _ => List.prefix_refl _
  buffers := nofun
  front := nofun

/-- Where nothing is written, what has been written stays in order. -/
theorem order_of_quiet (h : Fifo tr s) {k : Nat} (hes : written k es = []) :
    written k (tr ++ es) <+: acceptedBefore k (tr ++ es) := by
  unfold acceptedBefore
  rw [written_append, hes, List.append_nil, logged_append]
  exact (h.order k).trans (beforeStop_prefix_append _ _)

/-- A step that leaves the buffers alone. -/
theorem congr (h : Fifo tr s) (htable : Table (tr ++ es) s') (hlisted : Listed s')
    (hlws : s'.lws = s.lws) (hbuf : ∀ b, (s'.cached b).sendBuf_ = (s.cached b).sendBuf_)
    (hes : ∀ e ∈ es, e.conn = none) (hloop : ∀ b, s'.loop = .writing b → s.loop = .writing b) :
    Fifo (tr ++ es) s' := by
  have hne : ∀ k, ∀ e ∈ es, e.conn ≠ some k := fun k e he => by
    rw [hes e he]
    exact (Option.some_ne_none _).symm
  refine ⟨htable, hlisted, fun k hk => ?_, fun k => ?_, fun {b d} hd ho => ?_,
    fun {b d} hl hd => ?_⟩
  · rcases List.mem_append.mp hk with hk | hk
    · exact h.known k hk
    · exact hne k _ hk rfl
  · exact h.order_of_quiet (of_conn_ne (hne k)).2
  · rw [hlws] at hd
    rw [(append_of_conn_ne tr (hne _)).1, (append_of_conn_ne tr (hne _)).2, hbuf]
    exact h.buffers hd ho
  · rw [hlws] at hd
    exact h.front (hloop b hl) hd

/-- A step on one connection. -/
theorem on (h : Fifo tr s) (htable : Table (tr ++ es) s') (hlisted : Listed s')
    (hon : On s s' w c c' i) (hes : ∀ e ∈ es, e.conn = none ∨ e.conn = some c.conn)
    (hknown : .unknownType c.conn ∉ es)
    (horder : written c.conn (tr ++ es) <+: acceptedBefore c.conn (tr ++ es))
    (hbuf : c'.closing = false → Buffers (logged c.conn (tr ++ es)) (written c.conn (tr ++ es))
      i.sendBuf_ c'.send c'.pos)
    (hfront : s'.loop = .writing w →
      c'.closing = false ∧ c'.pos + SIZEOF_MsgHead ≤ c'.send.length)
    (hloop : ∀ b, b ≠ w → s'.loop = .writing b → s.loop = .writing b) : Fifo (tr ++ es) s' := by
  -- the other connections are not spoken of
  have hother : ∀ {k}, k ≠ c.conn → ∀ e ∈ es, e.conn ≠ some k := by
    intro k hk e he heq
    rcases hes e he with hnone | hsome
    · rw [hnone] at heq
      cases heq
    · rw [hsome] at heq
      exact hk (Option.some.inj heq).symm
  refine ⟨htable, hlisted, fun k hk => ?_, fun k => ?_, fun {b d} hd ho => ?_,
    fun {b d} hl hd => ?_⟩
  · rcases List.mem_append.mp hk with hk | hk
    · exact h.known k hk
    · rcases eq_or_ne k c.conn with rfl | hne
      · exact hknown hk
      · exact hother hne _ hk rfl
  · rcases eq_or_ne k c.conn with rfl | hne
    · exact horder
    · exact h.order_of_quiet (of_conn_ne (hother hne)).2
  · rw [hon.lws] at hd
    rw [hon.cached]
    rcases update_eq hd with ⟨rfl, he⟩ | ⟨hne, hd⟩
    · obtain rfl := Option.some.inj he
      rw [Function.update_self, hon.conn]
      exact hbuf ho
    · have hk : d.conn ≠ c.conn := fun he => hne (h.table.inj hd hon.here he)
      rw [Function.update_of_ne hne, (append_of_conn_ne tr (hother hk)).1,
        (append_of_conn_ne tr (hother hk)).2]
      exact h.buffers hd ho
  · rw [hon.lws] at hd
    rcases update_eq hd with ⟨rfl, he⟩ | ⟨hne, hd⟩
    · obtain rfl := Option.some.inj he
      exact hfront hl
    · exact h.front (hloop b hne hl) hd

/-- A step on one connection that is not spoken of. -/
theorem touch (h : Fifo tr s) (htable : Table (tr ++ es) s') (hlisted : Listed s')
    (hon : On s s' w c c' i) (hes : ∀ e ∈ es, e.conn = none)
    (hbuf : c'.closing = false → Buffers (logged c.conn tr) (written c.conn tr)
      i.sendBuf_ c'.send c'.pos)
    (hfront : s'.loop = .writing w →
      c'.closing = false ∧ c'.pos + SIZEOF_MsgHead ≤ c'.send.length)
    (hloop : ∀ b, b ≠ w → s'.loop = .writing b → s.loop = .writing b) : Fifo (tr ++ es) s' := by
  have hne : ∀ e ∈ es, e.conn ≠ some c.conn := fun e he => by
    rw [hes e he]
    exact (Option.some_ne_none _).symm
  refine h.on htable hlisted hon (fun e he => Or.inl (hes e he)) (fun hk => hne _ hk rfl)
    (h.order_of_quiet (of_conn_ne hne).2) (fun ho => ?_) hfront hloop
  rw [(append_of_conn_ne tr hne).1, (append_of_conn_ne tr hne).2]
  exact hbuf ho

theorem created {websock : WebSock} (h : Fifo tr s)
    (htable : Table (tr ++ [.attempted websock (some w)]) s') (hlisted : Listed s')
    (hnone : s.lws w = none)
    (hlws : s'.lws = Function.update s.lws w (some ⟨none, false, false, s.serial⟩))
    (hcached : s'.cached = s.cached) (hwriting : ∀ b, s'.loop ≠ .writing b) :
    Fifo (tr ++ [.attempted websock (some w)]) s' := by
  have hne : ∀ k, ∀ e ∈ [Event.attempted websock (some w)], e.conn ≠ some k := fun k e he => by
    rw [List.mem_singleton.mp he]
    exact (Option.some_ne_none _).symm
  refine ⟨htable, hlisted, fun k hk => ?_, fun k => ?_, fun {b d} hd ho => ?_,
    fun {b _} hl => absurd hl (hwriting b)⟩
  · rcases List.mem_append.mp hk with hk | hk
    · exact h.known k hk
    · exact hne k _ hk rfl
  · exact h.order_of_quiet (of_conn_ne (hne k)).2
  · rw [hlws] at hd
    rw [(append_of_conn_ne tr (hne _)).1, (append_of_conn_ne tr (hne _)).2, hcached]
    rcases update_eq hd with ⟨rfl, he⟩ | ⟨-, hd⟩
    · -- nothing has been said of the connection yet
      obtain rfl := Option.some.inj he
      obtain ⟨hlog, hout⟩ : logged s.serial tr = [] ∧ written s.serial tr = [] :=
        of_conn_ne fun e he hk => Nat.lt_irrefl _ (h.table.past he hk)
      rw [hlog, hout, cached_of_none (h.table.keys b hnone)]
      exact .empty
    · exact h.buffers hd ho

/-- A round of the loop of a writeable callback. -/
theorem write {io : ClientInOut} {partially : Bool} (h : Fifo tr s) (htable : Table (tr ++ es) s')
    (hlisted : Listed s') (hloop : s.loop = .writing w) (hc : s.lws w = some c)
    (huser : c.user = some io) (hs : s.writeOne w c io partially = (s', es)) :
    Fifo (tr ++ es) s' := by
  obtain ⟨hopen, hlong⟩ := h.front hloop hc
  obtain ⟨r, htype, hpayload, hrest⟩ := (h.buffers hc hopen).next (Nat.add_comm .. ▸ hlong)
  have hservice : s'.loop = .service → ∀ b, s'.loop ≠ .writing b := fun hl =>
    hl ▸ outside_service.1
  have hwritten : ∀ {es : List Event}, (∀ e ∈ es, e.conn = none) →
      logged c.conn (tr ++ .written c.conn r :: es) = logged c.conn tr ∧
        written c.conn (tr ++ .written c.conn r :: es) = written c.conn tr ++ [r] := by
    intro es hes
    obtain ⟨hlog, hout⟩ : logged c.conn es = [] ∧ written c.conn es = [] :=
      of_conn_ne fun e he => by
        rw [hes e he]
        exact (Option.some_ne_none _).symm
    have hsplit : (.written c.conn r :: es : List Event) = [.written c.conn r] ++ es := rfl
    rw [logged_append, written_append, hsplit, logged_append, written_append, hlog, hout]
    simp [logged, written]
  cases writes_of_writeOne hc huser hlong htype hpayload hs with
  | close _ hon _ hl =>
      exact h.touch htable hlisted hon silent (fun ho => absurd ho.symm Bool.false_ne_true)
        (fun hw => absurd hw (hservice hl w)) fun b _ hw => absurd hw (hservice hl b)
  | last hstop hend hon _ hsend hclosing _ _ hl hes =>
      obtain ⟨hlog, hout⟩ := hwritten hes
      have hbuf := (hrest hstop _ rfl).1 hend
      refine h.on htable hlisted hon (fun e he => ?_) ?_ ?_ (fun _ => ?_)
        (fun hw => absurd hw (hservice hl w)) fun b _ hw => absurd hw (hservice hl b)
      · rcases List.mem_cons.mp he with rfl | he
        · exact Or.inr rfl
        · exact Or.inl (hes e he)
      · intro hk
        rcases List.mem_cons.mp hk with he | hk
        · cases he
        · exact absurd (hes _ hk) (Option.some_ne_none _)
      · unfold acceptedBefore
        rw [hlog, hout]
        exact hbuf.prefix_log
      · rw [hlog, hout, hsend.1, hsend.2]
        exact hbuf
  | next hstop hmore hon _ hsend hclosing _ _ hl =>
      obtain ⟨hlog, hout⟩ := hwritten silent
      obtain ⟨hbuf, hfront⟩ := (hrest hstop _ rfl).2 hmore
      refine h.on htable hlisted hon (by simp [Event.conn]) (by simp) ?_ (fun _ => ?_)
        (fun _ => ⟨hclosing.trans hopen, ?_⟩) fun b hb hw => ?_
      · unfold acceptedBefore
        rw [hlog, hout]
        exact hbuf.prefix_log
      · rw [hlog, hout, hsend.1, hsend.2]
        exact hbuf
      · rw [hsend.1, hsend.2]
        exact hfront
      · rw [hl] at hw
        split at hw
        · cases hw
        · cases hw
          exact absurd rfl hb

/-- **One step keeps the queue of every connection.** -/
theorem step (h : Fifo tr s) (hok : s.Kept act) (hm : Moves s act es s') : Fifo (tr ++ es) s' := by
  have htable := h.table.step hok.live hm
  have hlisted := h.listed.step hm
  cases turns_of_moves h.table h.listed hok hm with
  | still hlws hcached _ hwriting _ _ hes =>
      exact h.congr htable hlisted hlws (fun b => by rw [hcached]) hes fun b => (hwriting b).mp
  | @accepted _ w c r _ hsmall hon _ hloop =>
      have hlog : logged c.conn (tr ++ [.accepted (some c.conn) true r]) =
          logged c.conn tr ++ [r] := by simp [logged]
      have hout : written c.conn [.accepted (some c.conn) true r] = [] := rfl
      refine h.on htable hlisted hon (by simp [Event.conn]) (by simp) (h.order_of_quiet hout)
        (fun ho => ?_) (fun hl => ?_) fun b _ hl => hloop ▸ hl
      · rw [hlog, written_append, hout, List.append_nil]
        exact (h.buffers hon.here ho).push hsmall
      · rw [hloop] at hl
        exact h.front hl hon.here
  | @overflow _ w c _ hon _ hloop =>
      have hlog : logged c.conn (tr ++ [.overflow (some c.conn) true]) =
          logged c.conn tr ++ [⟨.Close, []⟩] := by simp [logged]
      have hout : written c.conn [.overflow (some c.conn) true] = [] := rfl
      refine h.on htable hlisted hon (by simp [Event.conn]) (by simp) (h.order_of_quiet hout)
        (fun ho => ?_) (fun hl => ?_) fun b _ hl => hloop ▸ hl
      · rw [hlog, written_append, hout, List.append_nil]
        exact (h.buffers hon.here ho).replace
      · rw [hloop] at hl
        exact h.front hl hon.here
  | erased _ hempty hon _ hloop =>
      refine h.touch htable hlisted hon silent (fun ho => ?_) (fun hl => ?_)
        fun b _ hl => hloop ▸ hl
      · exact hempty ▸ h.buffers hon.here ho
      · rw [hloop] at hl
        exact h.front hl hon.here
  | collect _ hlws hcached _ hwriting =>
      exact h.congr htable hlisted hlws (fun b => by rw [hcached]) silent
        fun b hl => absurd hl (hwriting b)
  | request _ hon _ hloop =>
      have hbuf := h.buffers hon.here
      refine h.touch htable hlisted hon (by simp [Event.conn]) hbuf (fun hl => ?_) fun b _ hl => ?_
      · rw [hloop] at hl
        cases hl
      · rw [hloop] at hl
        cases hl
  | created hnone _ hlws hcached _ hout =>
      exact h.created htable hlisted hnone hlws hcached hout.2.1
  | established huser hon _ hsend hfields _ hloop =>
      refine h.touch htable hlisted hon silent (fun ho => ?_) (fun hl => ?_)
        fun b _ hl => hloop ▸ hl
      · have hbuf := h.buffers hon.here (hfields.2 ▸ ho)
        unfold Lws.send Lws.pos at hbuf
        rw [huser] at hbuf
        rw [hsend.1, hsend.2]
        exact hbuf
      · rw [hloop] at hl
        have hfront := (h.front hl hon.here).2
        unfold Lws.send Lws.pos at hfront
        rw [huser] at hfront
        exact absurd hfront (by decide)
  | refill hservice hopen _ hshort hon _ _ hpos _ hrefills =>
      have hswap := (h.buffers hon.here hopen).swap hshort
      have hout : Outside s.loop := hservice ▸ outside_service
      have hnot : s'.loop = s.loop → ∀ b, s'.loop ≠ .writing b := fun hl => hl ▸ hout.1
      cases hrefills with
      | drained hnil hsend _ hl =>
          refine h.touch htable hlisted hon silent (fun _ => ?_) (fun hw => absurd hw (hnot hl _))
            fun b _ hw => absurd hw (hnot hl b)
          rw [hsend, hpos]
          exact hnil ▸ hswap
      | flooded hclosing hl =>
          refine h.touch htable hlisted hon silent (fun ho => ?_) (fun hw => absurd hw (hnot hl _))
            fun b _ hw => absurd hw (hnot hl b)
          rw [hclosing] at ho
          cases ho
      | filled hne hsend hclosing hl =>
          refine h.touch htable hlisted hon silent (fun _ => ?_) (fun _ => ⟨?_, ?_⟩)
            fun b hb hw => ?_
          · rw [hsend, hpos]
            exact hswap
          · rw [hclosing]
            exact hopen
          · rw [hsend, hpos]
            exact (h.buffers hon.here hopen).front_of_swap hne
          · rw [hl] at hw
            cases hw
            exact absurd rfl hb
  | resume _ hopen _ hlong hon _ hloop =>
      have hbuf := h.buffers hon.here
      refine h.touch htable hlisted hon silent hbuf (fun _ => ⟨hopen, hlong⟩) fun b hb hw => ?_
      rw [hloop] at hw
      cases hw
      exact absurd rfl hb
  | unready _ hon _ hloop =>
      have hbuf := h.buffers hon.here
      refine h.touch htable hlisted hon silent hbuf (fun hl => ?_) fun b _ hl => hloop ▸ hl
      rw [hloop] at hl
      have hfront := h.front hl hon.here
      exact hfront
  | write hloop hc huser hs => exact h.write htable hlisted hloop hc huser hs
  | destroy hservice hlws hcached _ hout =>
      rw [List.append_nil] at htable ⊢
      refine ⟨htable, hlisted, h.known, h.order, fun {b d} hd ho => ?_,
        fun {b _} hl => absurd hl (hout.1 b)⟩
      rw [hlws] at hd
      obtain ⟨hne, hd⟩ := of_update_none hd
      rw [hcached, Function.update_of_ne hne]
      exact h.buffers hd ho

theorem of_run (h : (machine junk).Run Kept tr s) : Fifo tr s :=
  h.invariant Fifo .init fun ih hok hs => ih.step hok (moves_of_step hs)

end Fifo

/-- **The send buffers of the client are a faithful queue.**  The records passed to
`lws_write` on a connection are a prefix of those accepted for it before the first
`Close` or overflow, and the default branch of the callback is never reached. -/
theorem written_prefix_of_run (h : (machine junk).Run Kept tr s) :
    (∀ k, written k tr <+: acceptedBefore k tr) ∧ ∀ k, .unknownType k ∉ tr :=
  ⟨(Fifo.of_run h).order, (Fifo.of_run h).known⟩

end Fifo

/-- Two records are queued before the connection is established and written at the
first callback, the third one waits for the next. -/
theorem written_prefix_of_run_two :
    ∃ tr s, (machine fun _ => 0).Run Kept tr s ∧
      written 0 tr = [⟨.Text, [65]⟩, ⟨.Ping, [66]⟩] ∧
      acceptedBefore 0 tr = [⟨.Text, [65]⟩, ⟨.Ping, [66]⟩, ⟨.Text, [67]⟩] ∧
      (∀ k, written k tr <+: acceptedBefore k tr) ∧ ∀ k, .unknownType k ∉ tr := by
  obtain ⟨tr, s, hrun, hp⟩ := (machine fun _ => 0).run_of_exec Kept
    (List.flatten [[.connect 1], List.replicate 5 (.pass 5), [.attempt (some 5)],
      List.replicate 1 (.pass 5), [.call 0 1 (.SendText [65]), .metaSend 0,
      .call 0 1 (.Ping [66]), .metaSend 0], List.replicate 5 (.pass 5),
      [.established 5, .call 0 1 (.SendText [67]), .metaSend 0, .writeable 5, .write false,
      .write true]])
    (fun q => decide (written 0 q.2 = [⟨.Text, [65]⟩, ⟨.Ping, [66]⟩] ∧
      acceptedBefore 0 q.2 = [⟨.Text, [65]⟩, ⟨.Ping, [66]⟩, ⟨.Text, [67]⟩]))
    (by decide +kernel)
  obtain ⟨hout, hlog⟩ := of_decide_eq_true hp
  exact ⟨tr, s, hrun, hout, hlog, written_prefix_of_run hrun⟩

/-- The connection 0 is made, at the address 5, and established. -/
def firstConnection : List Act :=
  List.flatten [[.connect 1], List.replicate 5 (.pass 5), [.attempt (some 5)],
    List.replicate 3 (.pass 5), [.established 5]]

/-- A `WebSock` is destructed while a record is queued for its connection and
another thread is on its way with the next: the first is lost and the second goes out. -/
theorem not_written_prefix : ¬ ∀ junk tr s, (machine junk).Run Live tr s →
    ∀ k, written k tr <+: acceptedBefore k tr := by
  intro h
  obtain ⟨tr, s, hrun, hp⟩ := (machine fun _ => 0).run_of_exec Live
    (List.flatten [firstConnection, [.call 0 1 (.SendText [65]), .metaSend 0,
      .call 0 1 (.Ping [66]), .destruct 1, .metaSend 0], List.replicate 8 (.pass 5),
      [.writeable 5, .write false]])
    (fun q => decide (¬ written 0 q.2 <+: acceptedBefore 0 q.2)) (by decide +kernel)
  exact of_decide_eq_true hp (h _ tr s hrun 0)

end WebsocketClient

end TestExamples
