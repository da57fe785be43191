/-
TestExamples/WebsocketServerWakeup.lean

What makes the service thread come back to a connection with something to send.

A connection is woken up by a writeable callback it has asked for, by `run`,
which is about to ask for one, or by `updated_` and `server_updated_`, which
will make `run` ask.  `MetaSend` leaves `updated_` alone while `sending_` is
set, so that from the swap of the buffers on the callback itself has to ask
for the next one.  It does so behind the last record, unless that was left
partially buffered; when any record is, the loop ends without asking.

`WholeWrites` excludes exactly these writes.  Under it a callback always gets
to the end of `send_` and asks for the next one.  The condition cannot be
weakened much: a connection that was left partially buffered once is never
woken up again (`asleep_of_partially`).
-/
import TestExamples.WebsocketServerFifo

namespace TestExamples

namespace WebsocketServer

/-- A record has not been written. -/
def Unwritten (item : CacheItem) (c : ServerInOut) : Prop :=
  c.curSendPos_ < c.send_.length ∨ item.sendBuf_ ≠ []

/-- `run` has the connection in `updateds` and is about to ask for a callback. -/
def Asking (loop : ServicePc) (w : Wsi) : Prop := ∃ rest, loop = .requesting rest ∧ w ∈ rest

/-- Where no callback is running, an established connection with a record that
has not been written is going to be woken up. -/
def NoStall (s : WebsocketServer) : Prop :=
  (∀ w, s.loop ≠ .writing w) → ∀ w item c, s.send_cache_ w = some item → s.inout w = some c →
    c.closing = false → Unwritten item c →
      c.requested = true ∨ Asking s.loop w ∨
        item.updated_ = true ∧ s.server_updated_ = true ∧ item.sending_ = false

/-- No `lws_write` leaves the connection partially buffered. -/
def WholeWrites (_ : WebsocketServer) : Act → Prop
  | .write partially => partially = false
  | _ => True

instance (s : WebsocketServer) (act : Act) : Decidable (WholeWrites s act) := by
  unfold WholeWrites
  split <;> infer_instance

/-! ### One connection -/

/-- Under the guard: the callback leaves nothing in `send_`; while `sending_`
is set the next callback has been asked for; and where it is not, new records
are announced. -/
structure Wakeful (loop : ServicePc) (updated : Bool) (w : Wsi) (item : CacheItem)
    (c : ServerInOut) : Prop where
  drained : loop ≠ .writing w → c.send_ = [] ∧ c.curSendPos_ = 0
  sending : loop ≠ .writing w → item.sending_ = true → c.requested = true
  pending : item.sending_ = false → item.sendBuf_ ≠ [] →
    c.requested = true ∨ Asking loop w ∨ item.updated_ = true ∧ updated = true

namespace Wakeful

variable {loop loop' : ServicePc} {u u' : Bool} {w : Wsi} {item : CacheItem} {c : ServerInOut}

/-- What the rest of the server may do. -/
theorem mono (h : Wakeful loop u w item c) (hloop : loop' ≠ .writing w → loop ≠ .writing w)
    (hask : Asking loop w → Asking loop' w) (hu : u = true → u' = true) :
    Wakeful loop' u' w item c where
  drained := fun hl => h.drained (hloop hl)
  sending := fun hl => h.sending (hloop hl)
  pending := fun hs hb => (h.pending hs hb).imp_right (Or.imp hask (And.imp_right hu))

/-- A connection that is not being written is woken up. -/
theorem woken (h : Wakeful loop u w item c) (hloop : loop ≠ .writing w)
    (hun : Unwritten item c) :
    c.requested = true ∨ Asking loop w ∨
      item.updated_ = true ∧ u = true ∧ item.sending_ = false := by
  obtain ⟨hsend, hpos⟩ := h.drained hloop
  have hbuf : item.sendBuf_ ≠ [] := by
    refine hun.resolve_left fun hlt => ?_
    rw [hsend] at hlt
    exact Nat.not_lt_zero _ hlt
  rcases hs : item.sending_ with - | -
  · rcases h.pending hs hbuf with hreq | hask | ⟨hup, hu⟩
    · exact Or.inl hreq
    · exact Or.inr (Or.inl hask)
    · exact Or.inr (Or.inr ⟨hup, hu, rfl⟩)
  · exact Or.inl (h.sending hloop hs)

end Wakeful

theorem not_asking {loop : ServicePc} {w : Wsi} (h : ∀ rest, loop ≠ .requesting rest) :
    ¬ Asking loop w := by
  rintro ⟨rest, hl, -⟩
  exact h rest hl

/-! ### The invariant -/

structure Awake (tr : List Event) (s : WebsocketServer) : Prop where
  fifo : Fifo tr s
  wakeful : ∀ {w item c}, s.send_cache_ w = some item → s.inout w = some c → c.closing = false →
    Wakeful s.loop s.server_updated_ w item c

namespace Awake

variable {tr tr' es : List Event} {s s' : WebsocketServer} {w : Wsi} {item item' : CacheItem}
  {c c' : ServerInOut}

theorem init : Awake [] WebsocketServer.init := ⟨.init, nofun⟩

theorem noStall (h : Awake tr s) : NoStall s := fun hloop w _ _ hitem hc hopen hun =>
  (h.wakeful hitem hc hopen).woken (hloop w) hun

/-- A step on one connection: the others go on as before. -/
theorem put (h : Awake tr s) {u : Bool} {l : ServicePc} (hfifo : Fifo tr' (s.put w item' c' u l))
    (hloop : ∀ b, b ≠ w → l ≠ .writing b → s.loop ≠ .writing b)
    (hask : ∀ b, b ≠ w → Asking s.loop b → Asking l b) (hu : s.server_updated_ = true → u = true)
    (hself : c'.closing = false → Wakeful l u w item' c') :
    Awake tr' (s.put w item' c' u l) where
  fifo := hfifo
  wakeful := fun {b i d} hi hd ho => by
    rcases update_eq hd with ⟨rfl, he⟩ | ⟨hne, hd⟩
    · obtain rfl := Option.some.inj he
      obtain rfl := update_self_eq hi
      exact hself ho
    · have hw := h.wakeful ((Function.update_of_ne hne ..).symm.trans hi) hd ho
      exact hw.mono (hloop b hne) (hask b hne) hu

/-- The service thread goes from one place outside of the loops to another. -/
theorem move (h : Awake tr s) {l : ServicePc} (hfifo : Fifo tr { s with loop := l })
    (hloop : ∀ b, s.loop ≠ .writing b) (hask : ∀ b, ¬ Asking s.loop b) :
    Awake tr { s with loop := l } where
  fifo := hfifo
  wakeful := fun hi hc ho =>
    (h.wakeful hi hc ho).mono (fun _ => hloop _) (fun ha => absurd ha (hask _)) id

/-- `run` takes the connections with something new over into `updateds`. -/
theorem collect (h : Awake tr s) (hfifo : Fifo tr s.collect) (hloop : s.loop = .collecting) :
    Awake tr s.collect where
  fifo := hfifo
  wakeful := fun {b i d} hi hd ho => by
    obtain ⟨item₀, hi₀, hcase⟩ := collect_send_cache_ hi
    have hw := h.wakeful hi₀ hd ho
    have hnot : s.loop ≠ .writing b := by
      rw [hloop]
      nofun
    have hdrained := hw.drained hnot
    rcases hcase with ⟨hs, hup, rfl⟩ | ⟨hkeep, rfl⟩
    · -- the connection is in `updateds`
      have hmem : b ∈ s.updateds := by
        refine List.mem_filter.mpr ⟨h.fifo.conns.keys hi₀, ?_⟩
        rw [hi₀, Option.any_some, hs, hup]
        rfl
      refine ⟨fun _ => hdrained, fun _ ht => ?_, fun _ _ => Or.inr (Or.inl ⟨_, rfl, hmem⟩)⟩
      have ht' : item₀.sending_ = true := ht
      rw [hs] at ht'
      cases ht'
    · refine ⟨fun _ => hdrained, fun _ => hw.sending hnot, fun hs hb => ?_⟩
      -- nothing new: the callback had been asked for before
      rcases hw.pending hs hb with hreq | hask | ⟨hup, -⟩
      · exact Or.inl hreq
      · refine absurd hask (not_asking fun rest => ?_)
        rw [hloop]
        nofun
      · rcases hkeep with hk | hk
        · rw [hs] at hk
          cases hk
        · rw [hup] at hk
          cases hk

theorem established (h : Awake tr s) (hfifo : Fifo tr' (s.established w)) :
    Awake tr' (s.established w) := by
  refine ⟨hfifo, fun {b i d} hi hd ho => ?_⟩
  rcases update_eq hd with ⟨rfl, he⟩ | ⟨hne, hd⟩
  · obtain rfl := Option.some.inj he
    obtain rfl := update_self_eq hi
    exact ⟨fun _ => ⟨rfl, rfl⟩, nofun, fun _ hb => absurd rfl hb⟩
  · exact h.wakeful ((Function.update_of_ne hne ..).symm.trans hi) hd ho

theorem destroy (h : Awake tr s) (hfifo : Fifo tr' (s.destroy w)) : Awake tr' (s.destroy w) where
  fifo := hfifo
  wakeful := fun hi hd => by
    have hi' := (update_eq hi).resolve_left fun ⟨_, he⟩ => nomatch he
    have hd' := (update_eq hd).resolve_left fun ⟨_, he⟩ => nomatch he
    exact h.wakeful hi'.2 hd'.2

/-- A call puts a record into the cache and announces it. -/
theorem queued (h : Awake tr s) {buf : List Byte} (hfifo : Fifo tr' (s.queued w item buf))
    (hitem : s.send_cache_ w = some item) : Awake tr' (s.queued w item buf) := by
  obtain ⟨c, hc, -⟩ := h.fifo.conns.inout_of hitem
  rw [queued_eq_put hc] at hfifo ⊢
  refine h.put hfifo (fun _ _ => id) (fun _ _ => id) (fun _ => rfl) fun ho => ?_
  have hw := h.wakeful hitem hc ho
  exact ⟨hw.drained, hw.sending, fun hs _ =>
    Or.inr (Or.inr ⟨by rw [if_neg (by rw [hs]; nofun)], rfl⟩)⟩

/-- One round of the loop of a writeable callback, not partially buffered. -/
theorem writes (h : Awake tr s) (hfifo : Fifo tr' s') (hloop : s.loop = .writing w)
    (hitem : s.send_cache_ w = some item) (hc : s.inout w = some c)
    (hw : Writes s w c false es s') : Awake tr' s' := by
  have hlong := h.fifo.front hloop hc
  have hnot : ∀ b, b ≠ w → s.loop ≠ .writing b := by
    rintro b hb hl
    rw [hloop] at hl
    cases hl
    exact hb rfl
  have hask : ∀ b, ¬ Asking s.loop b := fun b => not_asking fun rest => by
    rw [hloop]
    nofun
  have hadvance : Fifo tr' (s.advance w c false) → Awake tr' (s.advance w c false) := by
    intro hfifo
    rw [advance_eq_put hitem c false rfl] at hfifo ⊢
    split at hfifo
    · next hend =>
      rw [if_pos hend]
      refine h.put hfifo (fun b hb _ => hnot b hb) (fun b _ ha => absurd ha (hask b)) id fun _ => ?_
      have hreq : (c.requested || !false) = true := by simp
      exact ⟨fun _ => ⟨rfl, rfl⟩, fun _ _ => hreq, fun _ _ => Or.inl hreq⟩
    · next hend =>
      rw [if_neg hend]
      refine h.put hfifo (fun b hb _ => hnot b hb) (fun b _ ha => absurd ha (hask b)) id
        fun ho => ?_
      have hold := h.wakeful hitem hc ho
      refine ⟨fun hl => absurd rfl hl, fun hl => absurd rfl hl, fun hs hb => ?_⟩
      exact (hold.pending hs hb).imp_right (Or.imp_left fun ha => absurd ha (hask w))
  cases hw with
  | stop hshort => exact absurd hlong (Nat.not_le.mpr (Nat.add_comm .. ▸ hshort))
  | close =>
      rw [setInOut_loop_eq_put hitem] at hfifo ⊢
      exact h.put hfifo (fun b hb _ => hnot b hb) (fun b _ ha => absurd ha (hask b)) id nofun
  | written | unknown => exact hadvance hfifo

/-- A writeable callback up to its loop: the records are all in `sendBuf_`. -/
theorem wakes (h : Awake tr s) (hfifo : Fifo tr' s') (hloop : s.loop = .service)
    (hitem : s.send_cache_ w = some item) (hc : s.inout w = some c) (hopen : c.closing = false)
    (hw : Wakes s w item c s') : Awake tr' s' := by
  have hnot : ∀ b, s.loop ≠ .writing b := fun b => by
    rw [hloop]
    nofun
  have hask : ∀ b, ¬ Asking s.loop b := fun b => not_asking fun rest => by
    rw [hloop]
    nofun
  obtain ⟨hsend, hpos⟩ := (h.wakeful hitem hc hopen).drained (hnot w)
  cases hw with
  | drained =>
      refine h.put hfifo (fun b _ _ => hnot b) (fun _ _ => id) id fun _ => ?_
      exact ⟨fun _ => ⟨rfl, rfl⟩, nofun, fun _ hb => absurd rfl hb⟩
  | @refilled closing l _ _ hbegin =>
      refine h.put hfifo (fun b _ _ => hnot b) (fun b _ ha => absurd ha (hask b)) id fun ho => ?_
      rcases hbegin with ⟨-, rfl⟩ | ⟨rfl, -⟩
      · exact ⟨fun hl => absurd rfl hl, fun hl => absurd rfl hl, nofun⟩
      · cases ho
  | resumed hlong =>
      rw [hsend, hpos] at hlong
      exact absurd hlong (by decide)

/-- **One step under the guard keeps every connection awake.** -/
theorem step {act : Act} (h : Awake tr s) (hok : WholeWrites s act) (hm : Moves s act es s') :
    Awake (tr ++ es) s' := by
  have hfifo := h.fifo.step hm
  have hquiet : ∀ {l : ServicePc}, s.loop = l → (∀ b, l ≠ .writing b) →
      ∀ b, s.loop ≠ .writing b := fun hl hne b => hl ▸ hne b
  cases hm with
  | refused => rwa [List.append_nil]
  | accepted _ hitem => exact h.queued hfifo hitem
  | overflow hitem => exact h.queued hfifo hitem
  | top hloop =>
      rw [List.append_nil] at hfifo ⊢
      exact h.move hfifo (hquiet hloop nofun) fun b => not_asking fun rest => by rw [hloop]; nofun
  | around hloop =>
      rw [List.append_nil] at hfifo ⊢
      exact h.move hfifo (hquiet hloop nofun) fun b => not_asking fun rest => by rw [hloop]; nofun
  | collect hloop =>
      rw [List.append_nil] at hfifo ⊢
      exact h.collect hfifo hloop
  | requested hloop =>
      rw [List.append_nil] at hfifo ⊢
      refine h.move hfifo (hquiet hloop nofun) ?_
      rintro b ⟨rest, hl, hb⟩
      rw [hloop] at hl
      cases hl
      cases hb
  | @request w rest c hloop hc =>
      obtain ⟨item, hitem, -⟩ := h.fifo.conns.item_of hc
      rw [setInOut_loop_eq_put hitem] at hfifo ⊢
      have hnot := hquiet hloop nofun
      refine h.put hfifo (fun b _ _ => hnot b) ?_ id fun ho => ?_
      · rintro b hb ⟨rest', hl, hmem⟩
        rw [hloop] at hl
        cases hl
        exact ⟨rest, rfl, (List.mem_cons.mp hmem).resolve_left hb⟩
      · have hw := h.wakeful hitem hc ho
        exact ⟨fun _ => hw.drained (hnot w), fun _ _ => rfl, fun _ _ => Or.inl rfl⟩
  | established => exact h.established hfifo
  | writeable hloop hc _ hopen hs =>
      obtain ⟨item, hitem, -⟩ := h.fifo.conns.item_of hc
      exact h.wakes hfifo hloop hitem hc hopen (wakes_of_writeable hitem hs)
  | @write w c partially es s' hloop hc hw =>
      obtain ⟨item, hitem, -⟩ := h.fifo.conns.item_of hc
      obtain rfl : partially = false := hok
      exact h.writes hfifo hloop hitem hc hw
  | destroy => exact h.destroy hfifo

end Awake

/-- **No stalled connection.**  In a run in which no `lws_write` leaves a
connection partially buffered, a connection with a record that has not been
written is always going to be woken up. -/
theorem noStall_of_wholeWrites {tr : List Event} {s : WebsocketServer}
    (h : machine.Run WholeWrites tr s) : NoStall s :=
  (h.invariant Awake .init fun ih hok hs => ih.step hok (moves_of_step hs)).noStall

/-- A record sent during the callback that writes another: the callback has
asked for the next one. -/
theorem noStall_of_wholeWrites_two :
    ∃ tr s, machine.Run WholeWrites tr s ∧ written 0 tr = [⟨.Text, [65]⟩] ∧
      acceptedBefore 0 tr = [⟨.Text, [65]⟩, ⟨.Text, [66]⟩] ∧ NoStall s := by
  obtain ⟨tr, s, hrun, hp⟩ := machine.run_of_exec WholeWrites
    [.pass, .established 7, .call 7 (.SendText [65]), .pass, .pass, .collect, .request, .request,
      .writeable 7, .call 7 (.SendText [66]), .write false]
    (fun q => decide (written 0 q.2 = [⟨.Text, [65]⟩] ∧
      acceptedBefore 0 q.2 = [⟨.Text, [65]⟩, ⟨.Text, [66]⟩])) (by decide +kernel)
  obtain ⟨hw, ha⟩ := of_decide_eq_true hp
  exact ⟨tr, s, hrun, hw, ha, noStall_of_wholeWrites hrun⟩

/-- The only record is left partially buffered: no callback is asked for,
`sending_` stays set, and a record sent later is not announced. -/
theorem not_noStall :
    ¬ ∀ (tr : List Event) (s : WebsocketServer), machine.Run AnyStep tr s → NoStall s := by
  intro h
  obtain ⟨tr, s, hrun, hp⟩ := machine.run_of_exec AnyStep
    [.pass, .established 7, .call 7 (.SendText [65]), .pass, .pass, .collect, .request, .request,
      .writeable 7, .write true, .call 7 (.SendText [66])]
    (fun q => decide (q.1.loop = .service) &&
      (q.1.send_cache_ 7).any (fun item : CacheItem =>
        decide (item.sendBuf_ ≠ [] ∧ item.sending_ = true)) &&
      (q.1.inout 7).any fun c : ServerInOut => decide (c.closing = false ∧ c.requested = false))
    (by decide +kernel)
  simp only [Bool.and_eq_true, decide_eq_true_eq, Option.any_eq_true] at hp
  obtain ⟨⟨hloop, item, hitem, hbuf, hsending⟩, c, hc, hopen, hreq⟩ := hp
  have hidle : ∀ w, s.loop ≠ .writing w := by
    rw [hloop]
    nofun
  rcases h tr s hrun hidle 7 item c hitem hc hopen (Or.inr hbuf) with
    h₁ | ⟨rest, h₂, -⟩ | ⟨-, -, h₃⟩
  · rw [hreq] at h₁
    cases h₁
  · rw [hloop] at h₂
    cases h₂
  · rw [hsending] at h₃
    cases h₃

/-! ### After a partially buffered write -/

/-- What holds of a connection in every run: its callback is not asked for
while it is running, and `sending_` is set while there is anything in
`send_`. -/
structure Held (s : WebsocketServer) : Prop where
  conns : Conns s
  writing : ∀ {w c}, s.loop = .writing w → s.inout w = some c → c.requested = false
  sending : ∀ {w item c}, s.send_cache_ w = some item → s.inout w = some c → c.send_ ≠ [] →
    item.sending_ = true

namespace Held

variable {s s' : WebsocketServer} {w : Wsi} {item item' : CacheItem} {c c' : ServerInOut}

theorem init : Held WebsocketServer.init := ⟨.init, nofun, nofun⟩

theorem put (h : Held s) {u : Bool} {l : ServicePc} (hconns : Conns (s.put w item' c' u l))
    (hloop : ∀ b, b ≠ w → l = .writing b → s.loop = .writing b)
    (hwriting : l = .writing w → c'.requested = false)
    (hsending : c'.send_ ≠ [] → item'.sending_ = true) : Held (s.put w item' c' u l) where
  conns := hconns
  writing := fun {b d} hl hd => by
    rcases update_eq hd with ⟨rfl, he⟩ | ⟨hne, hd⟩
    · obtain rfl := Option.some.inj he
      exact hwriting hl
    · exact h.writing (hloop b hne hl) hd
  sending := fun {b i d} hi hd hsend => by
    rcases update_eq hd with ⟨rfl, he⟩ | ⟨hne, hd⟩
    · obtain rfl := Option.some.inj he
      obtain rfl := update_self_eq hi
      exact hsending hsend
    · exact h.sending ((Function.update_of_ne hne ..).symm.trans hi) hd hsend

/-- A step that leaves the connections and `sending_` alone. -/
theorem congr (h : Held s) (hconns : Conns s') (hinout : s'.inout = s.inout)
    (hcache : ∀ {w item}, s'.send_cache_ w = some item →
      ∃ item₀, s.send_cache_ w = some item₀ ∧ item.sending_ = item₀.sending_)
    (hloop : ∀ w, s'.loop = .writing w → s.loop = .writing w) : Held s' where
  conns := hconns
  writing := fun hl hc => h.writing (hloop _ hl) (hinout ▸ hc)
  sending := fun hi hc hsend => by
    obtain ⟨item₀, hi₀, he⟩ := hcache hi
    rw [he]
    exact h.sending hi₀ (hinout ▸ hc) hsend

/-- **One step, partially buffered or not.** -/
theorem step {act : Act} {tr es : List Event} (h : Held s) (hfifo : Fifo tr s)
    (hm : Moves s act es s') : Held s' := by
  have hconns := h.conns.step hm
  cases hm with
  | refused => exact h
  | accepted _ hitem | overflow hitem =>
      obtain ⟨c, hc, -⟩ := h.conns.inout_of hitem
      have hsending := h.sending hitem hc
      rw [queued_eq_put hc] at hconns ⊢
      refine h.put hconns (fun _ _ => id) (fun hl => ?_) ?_
      · exact h.writing hl hc
      · exact hsending
  | top =>
      refine h.congr hconns rfl (fun hi => ⟨_, hi, rfl⟩) fun b hl => ?_
      dsimp only at hl
      split at hl <;> cases hl
  | around | requested => exact h.congr hconns rfl (fun hi => ⟨_, hi, rfl⟩) nofun
  | collect =>
      refine h.congr hconns rfl (fun hi => ?_) nofun
      obtain ⟨item₀, hi₀, ⟨-, -, rfl⟩ | ⟨-, rfl⟩⟩ := collect_send_cache_ hi
      · exact ⟨item₀, hi₀, rfl⟩
      · exact ⟨_, hi₀, rfl⟩
  | request _ hc =>
      obtain ⟨item, hitem, -⟩ := h.conns.item_of hc
      have hsending := h.sending hitem hc
      rw [setInOut_loop_eq_put hitem] at hconns ⊢
      refine h.put hconns nofun nofun ?_
      exact hsending
  | established hloop =>
      refine ⟨hconns, fun {b d} hl hd => ?_, fun {b i d} hi hd hsend => ?_⟩
      · have hl' : s.loop = .writing b := hl
        rw [hloop] at hl'
        cases hl'
      · rcases update_eq hd with ⟨rfl, he⟩ | ⟨hne, hd⟩
        · obtain rfl := Option.some.inj he
          exact absurd rfl hsend
        · exact h.sending ((Function.update_of_ne hne ..).symm.trans hi) hd hsend
  | @writeable w c s' hloop hc _ _ hs =>
      obtain ⟨item, hitem, -⟩ := h.conns.item_of hc
      have hsending := h.sending hitem hc
      have hother : ∀ {closing l}, Begins s w c closing l →
          ∀ b, b ≠ w → l = .writing b → s.loop = .writing b := by
        rintro closing l (⟨-, rfl⟩ | ⟨-, rfl⟩) b hb hl
        · cases hl
          exact absurd rfl hb
        · exact hl
      cases wakes_of_writeable hitem hs with
      | drained => exact h.put hconns (fun _ _ => id) (fun _ => rfl) fun hne => absurd rfl hne
      | refilled _ _ hbegin => exact h.put hconns (hother hbegin) (fun _ => rfl) fun _ => rfl
      | resumed _ hbegin =>
          refine h.put hconns (hother hbegin) (fun _ => rfl) ?_
          exact hsending
  | @write w c partially es s' hloop hc hw =>
      obtain ⟨item, hitem, -⟩ := h.conns.item_of hc
      have hsending := h.sending hitem hc
      have hwriting := h.writing hloop hc
      have hlong := hfifo.front hloop hc
      have hadvance : Conns (s.advance w c partially) → Held (s.advance w c partially) := by
        intro hconns
        rw [advance_eq_put hitem c partially rfl] at hconns ⊢
        split at hconns
        · next hend =>
          rw [if_pos hend]
          exact h.put hconns nofun nofun fun hne => absurd rfl hne
        · next hend =>
          rw [if_neg hend]
          refine h.put hconns (fun b hb hl => ?_) (fun _ => ?_) ?_
          · cases partially
            · cases hl
              exact absurd rfl hb
            · cases hl
          · exact hwriting
          · exact hsending
      cases hw with
      | stop hshort => exact absurd hlong (Nat.not_le.mpr (Nat.add_comm .. ▸ hshort))
      | close =>
          rw [setInOut_loop_eq_put hitem] at hconns ⊢
          refine h.put hconns nofun nofun ?_
          exact hsending
      | written | unknown => exact hadvance hconns
  | destroy =>
      refine ⟨hconns, fun hl hd => ?_, fun hi hd => ?_⟩
      · exact h.writing hl ((update_eq hd).resolve_left fun ⟨_, he⟩ => nomatch he).2
      · have hi' := (update_eq hi).resolve_left fun ⟨_, he⟩ => nomatch he
        have hd' := (update_eq hd).resolve_left fun ⟨_, he⟩ => nomatch he
        exact h.sending hi'.2 hd'.2

theorem of_run {tr : List Event} (h : machine.Run AnyStep tr s) : Held s :=
  (h.invariant (fun tr s => Held s ∧ Fifo tr s) ⟨.init, .init⟩ fun ih _ hs =>
    ⟨ih.1.step ih.2 (moves_of_step hs), ih.2.step (moves_of_step hs)⟩).1

end Held

/-- Nothing wakes the connection `k` up. -/
structure Asleep (k : Nat) (s : WebsocketServer) : Prop where
  known : k < s.serial
  quiet : ∀ {w item c}, s.send_cache_ w = some item → s.inout w = some c → c.conn = k →
    c.requested = false ∧ item.sending_ = true ∧ s.loop ≠ .writing w ∧ ¬ Asking s.loop w

namespace Asleep

variable {k : Nat} {s s' : WebsocketServer} {w : Wsi} {item item' : CacheItem} {c c' : ServerInOut}

/-- A step on another connection. -/
theorem put (h : Asleep k s) {u : Bool} {l : ServicePc} (hk : c'.conn ≠ k)
    (hloop : ∀ b, b ≠ w → l = .writing b → s.loop = .writing b)
    (hask : ∀ b, b ≠ w → Asking l b → Asking s.loop b) : Asleep k (s.put w item' c' u l) where
  known := h.known
  quiet := fun {b i d} hi hd hdk => by
    rcases update_eq hd with ⟨rfl, he⟩ | ⟨hne, hd⟩
    · obtain rfl := Option.some.inj he
      exact absurd hdk hk
    · obtain ⟨hreq, hsend, hl, ha⟩ := h.quiet ((Function.update_of_ne hne ..).symm.trans hi) hd hdk
      exact ⟨hreq, hsend, fun hw => hl (hloop b hne hw), fun hw => ha (hask b hne hw)⟩

/-- The service thread goes to a place where it neither writes nor asks. -/
theorem move (h : Asleep k s) {l : ServicePc} (hloop : ∀ b, l ≠ .writing b)
    (hask : ∀ b, Asking l b → Asking s.loop b) : Asleep k { s with loop := l } where
  known := h.known
  quiet := fun hi hd hdk => by
    obtain ⟨hreq, hsend, -, ha⟩ := h.quiet hi hd hdk
    exact ⟨hreq, hsend, hloop _, fun hw => ha (hask _ hw)⟩

/-- A record is put into the cache, of this connection or of another. -/
theorem queued (h : Asleep k s) {buf : List Byte} (hitem : s.send_cache_ w = some item) :
    Asleep k (s.queued w item buf) where
  known := h.known
  quiet := fun {b i d} hi hd hdk => by
    rcases update_eq hi with ⟨rfl, he⟩ | ⟨-, hi⟩
    · obtain rfl := Option.some.inj he
      have hquiet := h.quiet hitem hd hdk
      exact hquiet
    · exact h.quiet hi hd hdk

/-- **Nothing wakes it up again.** -/
theorem step {act : Act} {es : List Event} (h : Asleep k s) (hconns : Conns s)
    (hm : Moves s act es s') : Asleep k s' := by
  have hnot : ∀ {l : ServicePc} {b}, (∀ rest, l ≠ .requesting rest) → Asking l b →
      Asking s.loop b := fun hl ha => absurd ha (not_asking hl)
  cases hm with
  | refused => exact h
  | accepted _ hitem => exact h.queued hitem
  | overflow hitem => exact h.queued hitem
  | top =>
      refine h.move (fun b hl => ?_) fun b => hnot fun rest hl => ?_
      · split at hl <;> cases hl
      · split at hl <;> cases hl
  | around => exact h.move nofun fun b => hnot nofun
  | collect =>
      refine ⟨h.known, fun {b i d} hi hd hdk => ?_⟩
      obtain ⟨item₀, hi₀, hcase⟩ := collect_send_cache_ hi
      obtain ⟨hreq, hsend, -, -⟩ := h.quiet hi₀ hd hdk
      rcases hcase with ⟨hs, -, -⟩ | ⟨-, rfl⟩
      · rw [hsend] at hs
        cases hs
      · refine ⟨hreq, hsend, nofun, ?_⟩
        -- `sending_` keeps it out of `updateds`
        rintro ⟨rest, hl, hmem⟩
        have hl' : ServicePc.requesting s.updateds = .requesting rest := hl
        obtain rfl := ServicePc.requesting.inj hl'
        have hp := (List.mem_filter.mp hmem).2
        rw [hi₀, Option.any_some, hsend] at hp
        cases hp
  | requested => exact h.move nofun fun b => hnot nofun
  | @request w rest c hloop hc =>
      obtain ⟨item, hitem, -⟩ := hconns.item_of hc
      rw [setInOut_loop_eq_put hitem]
      refine h.put (fun hk => ?_) nofun ?_
      · exact (h.quiet hitem hc hk).2.2.2 ⟨_, hloop, List.mem_cons_self ..⟩
      · rintro b - ⟨rest', hl, hmem⟩
        cases hl
        exact ⟨_, hloop, List.mem_cons_of_mem _ hmem⟩
  | established =>
      refine ⟨Nat.lt_succ_of_lt h.known, fun {b i d} hi hd hdk => ?_⟩
      rcases update_eq hd with ⟨rfl, he⟩ | ⟨hne, hd⟩
      · obtain rfl := Option.some.inj he
        exact absurd (hdk ▸ h.known) (Nat.lt_irrefl _)
      · exact h.quiet ((Function.update_of_ne hne ..).symm.trans hi) hd hdk
  | @writeable w c s' hloop hc hreq _ hs =>
      obtain ⟨item, hitem, -⟩ := hconns.item_of hc
      have hk : c.conn ≠ k := fun hk => by
        rw [(h.quiet hitem hc hk).1] at hreq
        cases hreq
      have hbegins : ∀ {closing l}, Begins s w c closing l →
          (∀ b, b ≠ w → l = .writing b → s.loop = .writing b) ∧
            ∀ b, b ≠ w → Asking l b → Asking s.loop b := by
        rintro closing l (⟨-, rfl⟩ | ⟨-, rfl⟩)
        · refine ⟨fun b hb hl => ?_, fun b _ => hnot nofun⟩
          cases hl
          exact absurd rfl hb
        · exact ⟨fun _ _ => id, fun _ _ => id⟩
      cases wakes_of_writeable hitem hs with
      | drained => exact h.put hk (fun _ _ => id) (fun _ _ => id)
      | refilled _ _ hbegin => exact h.put hk (hbegins hbegin).1 (hbegins hbegin).2
      | resumed _ hbegin => exact h.put hk (hbegins hbegin).1 (hbegins hbegin).2
  | @write w c partially es s' hloop hc hw =>
      obtain ⟨item, hitem, -⟩ := hconns.item_of hc
      have hk : c.conn ≠ k := fun hk => (h.quiet hitem hc hk).2.2.1 hloop
      have hadvance : Asleep k (s.advance w c partially) := by
        rw [advance_eq_put hitem c partially rfl]
        split
        · exact h.put hk nofun fun b _ => hnot nofun
        · refine h.put hk (fun b hb hl => ?_) fun b _ => hnot fun rest hl => ?_
          · cases partially
            · cases hl
              exact absurd rfl hb
            · cases hl
          · cases partially <;> cases hl
      cases hw with
      | stop => exact h.move nofun fun b => hnot nofun
      | close =>
          rw [setInOut_loop_eq_put hitem]
          exact h.put hk nofun fun b _ => hnot nofun
      | written | unknown => exact hadvance
  | destroy =>
      refine ⟨h.known, fun hi hd => ?_⟩
      have hi' := (update_eq hi).resolve_left fun ⟨_, he⟩ => nomatch he
      have hd' := (update_eq hd).resolve_left fun ⟨_, he⟩ => nomatch he
      exact h.quiet hi'.2 hd'.2

/-- A connection that is asleep and has anything to send is stalled. -/
theorem stalled (h : Asleep k s) (hitem : s.send_cache_ w = some item) (hc : s.inout w = some c)
    (hk : c.conn = k) (hidle : ∀ w, s.loop ≠ .writing w) (hopen : c.closing = false)
    (hun : Unwritten item c) : ¬ NoStall s := by
  obtain ⟨hreq, hsend, -, hask⟩ := h.quiet hitem hc hk
  intro hno
  rcases hno hidle w item c hitem hc hopen hun with h₁ | h₂ | ⟨-, -, h₃⟩
  · rw [hreq] at h₁
    cases h₁
  · exact hask h₂
  · rw [hsend] at h₃
    cases h₃

end Asleep

/-- **The wake-up is lost.**  A write that leaves a connection partially
buffered puts it to sleep for the rest of the run. -/
theorem asleep_of_partially {tr tr' : List Event} {s s₁ s₂ : WebsocketServer}
    (h : machine.Run AnyStep tr s) {w : Wsi} {c : ServerInOut} (hloop : s.loop = .writing w)
    (hc : s.inout w = some c) {r : Record}
    (hs : s.step (.write true) = some (s₁, [.written c.conn r]))
    (hrest : (Machine.mk s₁ step).Run AnyStep tr' s₂) : Asleep c.conn s₂ := by
  have hheld := Held.of_run h
  obtain ⟨item, hitem, -⟩ := hheld.conns.item_of hc
  have hm := moves_of_step hs
  have hconns := hheld.conns.step hm
  have hsend : item.sending_ = true := by
    refine hheld.sending hitem hc fun hnil => ?_
    have hlong := (Fifo.of_run h).front hloop hc
    rw [hnil] at hlong
    exact absurd hlong (by simp [SIZEOF_MsgHead])
  have hreq := hheld.writing hloop hc
  -- where the loop of the callback is left, nothing is asked for
  have hafter : ∀ {d : ServerInOut}, d.conn = c.conn → d.requested = false →
      Asleep c.conn (s.put w item d s.server_updated_ .service) := by
    intro d hconn hdreq
    refine ⟨hheld.conns.serial hc, fun {b i e} hi he hek => ?_⟩
    have hloop' : ∀ l, l ≠ .service → (s.put w item d s.server_updated_ .service).loop ≠ l :=
      fun l hl he => hl he.symm
    have hask : ¬ Asking (s.put w item d s.server_updated_ .service).loop b :=
      not_asking fun rest => hloop' (.requesting rest) (by simp)
    refine ⟨?_, ?_, hloop' (.writing b) (by simp), hask⟩ <;>
      rcases update_eq he with ⟨rfl, hd⟩ | ⟨hne, he⟩
    · rw [← Option.some.inj hd]
      exact hdreq
    · exact absurd (hheld.conns.inj he hc hek) hne
    · rw [← update_self_eq hi]
      exact hsend
    · exact absurd (hheld.conns.inj he hc hek) hne
  have hasleep : Asleep c.conn s₁ := by
    cases hm with
    | write hl hd hw =>
        rw [hloop] at hl
        cases hl
        obtain rfl := Option.some.inj (hc.symm.trans hd)
        cases hw with
        | written =>
            rw [advance_eq_put hitem c true rfl]
            split
            · exact hafter rfl (by rw [hreq]; rfl)
            · exact hafter rfl hreq
  exact (hrest.invariant (fun _ s => Asleep c.conn s ∧ Conns s) ⟨hasleep, hconns⟩
    fun ih _ hs => ⟨ih.1.step ih.2 (moves_of_step hs), ih.2.step (moves_of_step hs)⟩).1

end WebsocketServer

end TestExamples
