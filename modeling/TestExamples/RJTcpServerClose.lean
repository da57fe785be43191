/-
TestExamples/RJTcpServerClose.lean

How often `uv_close` is called on a client.

Every call site but one is guarded by membership in `m_clients`, from which
the client is removed first.  The exception is the walk at shutdown: it closes
a client and leaves it registered.  libuv then cancels the pending writes of
the client, `AfterSend` finds it in `m_clients` and closes it once more.

`QuietWalk` excludes exactly this step.  Under it a client that is closing and
still registered has no write pending, and the loop thread never again gets to
a place where it would write to it or read from it: `m_is_closing` stays set.
-/
import TestExamples.RJTcpServerSteps

namespace TestExamples

namespace RJTcpServer

/-- `uv_close` is called at most once on each client. -/
def ClosesOnce (tr : List Event) : Prop :=
  Machine.Each (fun pre e => ∀ k, e = .uv_close k → .uv_close k ∉ pre) tr

/-- The walk does not come to a registered client that is not closing and has
a write pending. -/
def QuietWalk (s : RJTcpServer) : Act → Prop
  | .walk a =>
      match s.heap a with
      | some c => a ∈ s.m_clients → c.closing = none → c.writes = []
      | none => True
  | _ => True

instance (s : RJTcpServer) (act : Act) : Decidable (QuietWalk s act) := by
  unfold QuietWalk
  split
  · split <;> infer_instance
  · infer_instance

structure SingleClose (tr : List Event) (s : RJTcpServer) : Prop where
  registry : Registry s
  once : ClosesOnce tr
  past : ∀ {k}, .uv_close k ∈ tr → k < s.serial
  fresh : ∀ {a c}, s.heap a = some c → c.closing = none → .uv_close c.conn ∉ tr
  walked : ∀ {a c}, a ∈ s.m_clients → s.heap a = some c → c.closing ≠ none → c.writes = []
  loop : ∀ {a c}, a ∈ s.m_clients → s.heap a = some c → c.closing ≠ none →
    s.loop ≠ .asyncCallBack ∧ s.loop ≠ .draining ∧ s.loop ≠ .reading a
  shut : ∀ {a c}, a ∈ s.m_clients → s.heap a = some c → c.closing ≠ none → s.m_is_closing = true
  walking : s.loop = .walking → s.m_is_closing = true

namespace SingleClose

variable {tr es : List Event} {s s' : RJTcpServer} {a : Addr} {c : uv_tcp_client}

/-- A step without `uv_close` that leaves the clients alone. -/
theorem quiet (h : SingleClose tr s) (hes : ∀ k, .uv_close k ∉ es)
    (hm : s'.m_clients = s.m_clients) (hh : s'.heap = s.heap) (hs : s'.serial = s.serial)
    (hcl : s.m_is_closing = true → s'.m_is_closing = true)
    (hloop : s'.loop = s.loop ∨ s'.loop = .idle ∨ s'.loop = .walking ∧ s.m_is_closing = true ∨
      s'.loop = .asyncCallBack ∧ s.m_is_closing = false ∨
      s'.loop = .draining ∧ s.loop = .asyncCallBack) :
    SingleClose (tr ++ es) s' where
  registry := h.registry.congr hm hh hs
  once := Machine.each_append.mpr ⟨h.once, fun pre e post he k hk => by
    subst hk
    exact absurd (he ▸ List.mem_append_right _ (List.mem_cons_self ..)) (hes k)⟩
  past := fun hk => hs ▸ h.past ((List.mem_append.mp hk).resolve_right (hes _))
  fresh := fun hc ho hk =>
    h.fresh (hh ▸ hc) ho ((List.mem_append.mp hk).resolve_right (hes _))
  walked := fun ha hc ho => h.walked (hm ▸ ha) (hh ▸ hc) ho
  loop := fun ha hc ho => by
    have hshut := h.shut (hm ▸ ha) (hh ▸ hc) ho
    obtain ⟨h₁, h₂, h₃⟩ := h.loop (hm ▸ ha) (hh ▸ hc) ho
    rcases hloop with hl | hl | ⟨hl, -⟩ | ⟨-, hopen⟩ | ⟨-, hold⟩
    · exact hl ▸ ⟨h₁, h₂, h₃⟩
    · rw [hl]
      exact ⟨nofun, nofun, nofun⟩
    · rw [hl]
      exact ⟨nofun, nofun, nofun⟩
    · rw [hshut] at hopen
      cases hopen
    · exact absurd hold h₁
  shut := fun ha hc ho => hcl (h.shut (hm ▸ ha) (hh ▸ hc) ho)
  walking := fun hw => by
    rcases hloop with hl | hl | ⟨-, hopen⟩ | ⟨hl, -⟩ | ⟨hl, -⟩
    · exact hcl (h.walking (hl ▸ hw))
    · rw [hl] at hw
      cases hw
    · exact hcl hopen
    · rw [hl] at hw
      cases hw
    · rw [hl] at hw
      cases hw

/-- The reader and the writes of a client change.  A client that is closing
and registered gets no writes. -/
theorem setClient (h : SingleClose tr s) (hc : s.heap a = some c) (r : BufferReader)
    (w : List uv_tcp_send_buf)
    (hw : a ∈ s.m_clients → c.closing ≠ none → w = []) :
    SingleClose tr (s.setClient a { c with reader := r, writes := w }) where
  registry := h.registry.setClient hc r w
  once := h.once
  past := h.past
  fresh := fun {b d} hd ho => by
    rcases heap_eq hd with ⟨rfl, rfl⟩ | ⟨-, hold⟩
    · have hfresh := h.fresh hc ho
      exact hfresh
    · exact h.fresh hold ho
  walked := fun {b d} hb hd ho => by
    rcases heap_eq hd with ⟨rfl, rfl⟩ | ⟨-, hold⟩
    · exact hw hb ho
    · exact h.walked hb hold ho
  loop := fun {b d} hb hd ho => by
    rcases heap_eq hd with ⟨rfl, rfl⟩ | ⟨-, hold⟩
    · exact h.loop hb hc ho
    · exact h.loop hb hold ho
  shut := fun {b d} hb hd ho => by
    rcases heap_eq hd with ⟨rfl, rfl⟩ | ⟨-, hold⟩
    · exact h.shut hb hc ho
    · exact h.shut hb hold ho
  walking := h.walking

/-- `uv_close` on a client on which it was not called before. -/
theorem once_close (h : SingleClose tr s) {k : Nat} (hk : .uv_close k ∉ tr) :
    ClosesOnce (tr ++ [.uv_close k]) :=
  Machine.each_concat.mpr ⟨h.once, fun _ he => by cases he; exact hk⟩

/-- A client that is not closing, or not registered, is dropped. -/
theorem drops (h : SingleClose tr s)
    (hopen : ∀ {c}, a ∈ s.m_clients → s.heap a = some c → c.closing = none)
    (hd : Drops s a es s') : SingleClose (tr ++ es) s' := by
  have hreg := h.registry.drops hd
  cases hd with
  | unknown => rwa [List.append_nil]
  | @known c hmem hc =>
      have hfresh := h.fresh hc (hopen hmem hc)
      have hnot : a ∉ s.m_clients.erase a := fun ha =>
        ((List.Nodup.mem_erase_iff h.registry.nodup).mp ha).1 rfl
      have hmem' : ∀ {b d}, b ∈ s.m_clients.erase a → (s.dropped a c).heap b = some d →
          b ∈ s.m_clients ∧ s.heap b = some d := by
        intro b d hb hd
        rcases heap_eq (s := { s with m_clients := s.m_clients.erase a }) hd with
          ⟨rfl, -⟩ | ⟨-, hold⟩
        · exact absurd hb hnot
        · exact ⟨List.mem_of_mem_erase hb, hold⟩
      have hsplit : ∀ {k}, .uv_close k ∈ tr ++ [.OnDisconnection a, .uv_close c.conn] →
          .uv_close k ∈ tr ∨ k = c.conn := by
        intro k hk
        simpa using hk
      refine
        { registry := hreg
          once := ?_
          past := fun hk => ?_
          fresh := fun {b d} hd ho hk => ?_
          walked := fun hb hd ho => h.walked (hmem' hb hd).1 (hmem' hb hd).2 ho
          loop := fun hb hd ho => h.loop (hmem' hb hd).1 (hmem' hb hd).2 ho
          shut := fun hb hd ho => h.shut (hmem' hb hd).1 (hmem' hb hd).2 ho
          walking := h.walking }
      · have hdis : SingleClose (tr ++ [.OnDisconnection a]) s :=
          h.quiet (by simp) rfl rfl rfl id (Or.inl rfl)
        have := hdis.once_close (k := c.conn) (by simpa using hfresh)
        simpa using this
      · rcases hsplit hk with hk | rfl
        · exact h.past hk
        · exact h.registry.serial hc
      · rcases heap_eq (s := { s with m_clients := s.m_clients.erase a }) hd with
          ⟨-, rfl⟩ | ⟨hne, hold⟩
        · cases ho
        · rcases hsplit hk with hk | hk
          · exact h.fresh hold ho hk
          · exact hne (h.registry.inj hold hc hk)

theorem handles {call : OnMsgCall} (h : SingleClose tr s)
    (hopen : ∀ {c}, a ∈ s.m_clients → s.heap a = some c → c.closing = none)
    (hh : Handles s a call es s') : SingleClose (tr ++ es) s' := by
  cases hh with
  | drop _ hd => exact h.drops hopen hd
  | deliver => exact h.quiet (by simp) rfl rfl rfl id (Or.inl rfl)
  | skip => exact h.quiet (by simp) rfl rfl rfl id (Or.inl rfl)

/-- A client is created, and closed at once when it could not be accepted. -/
theorem create (h : SingleClose tr s) (hfresh : s.heap a = none) {m : List Addr} {e : Event}
    (hm : m = s.m_clients ∧ c = { s.newClient with closing := some .ClientClose } ∧
        e = .uv_close s.serial ∨
      m = s.m_clients ++ [a] ∧ c = s.newClient ∧ e = .OnNewConnection a s.serial) :
    SingleClose (tr ++ [e]) { s.opened a c with m_clients := m } := by
  have hnew : .uv_close s.serial ∉ tr := fun hk => absurd (h.past hk) (Nat.lt_irrefl _)
  have hmem : a ∉ s.m_clients := fun ha => by
    obtain ⟨d, hd⟩ := h.registry.alive ha
    rw [hfresh] at hd
    cases hd
  -- a closing client that is registered was there before
  have hold : ∀ {b d}, b ∈ m → (s.opened a c).heap b = some d → d.closing ≠ none →
      b ∈ s.m_clients ∧ s.heap b = some d := by
    intro b d hb hd ho
    rcases heap_eq (s := s) hd with ⟨rfl, rfl⟩ | ⟨hne, hd⟩
    · rcases hm with ⟨rfl, -, -⟩ | ⟨-, rfl, -⟩
      · exact absurd hb hmem
      · exact absurd rfl ho
    · rcases hm with ⟨rfl, -, -⟩ | ⟨rfl, -, -⟩
      · exact ⟨hb, hd⟩
      · exact ⟨(List.mem_append.mp hb).resolve_right (by simpa using hne), hd⟩
  have hconn : c.conn = s.serial := by
    rcases hm with ⟨-, rfl, -⟩ | ⟨-, rfl, -⟩ <;> rfl
  have hsplit : ∀ {k}, .uv_close k ∈ tr ++ [e] →
      .uv_close k ∈ tr ∨ k = s.serial ∧ c.closing ≠ none := by
    intro k hk
    rcases List.mem_append.mp hk with hk | hk
    · exact Or.inl hk
    · rcases hm with ⟨-, rfl, rfl⟩ | ⟨-, -, rfl⟩
      · exact Or.inr ⟨by simpa using hk, nofun⟩
      · exact absurd hk (by simp)
  refine
    { registry := h.registry.create hfresh hconn ?_
      once := ?_
      past := fun hk => ?_
      fresh := fun {b d} hd ho hk => ?_
      walked := fun hb hd ho => h.walked (hold hb hd ho).1 (hold hb hd ho).2 ho
      loop := fun hb hd ho => h.loop (hold hb hd ho).1 (hold hb hd ho).2 ho
      shut := fun hb hd ho => h.shut (hold hb hd ho).1 (hold hb hd ho).2 ho
      walking := h.walking }
  · rcases hm with ⟨rfl, rfl, -⟩ | ⟨rfl, rfl, -⟩
    · exact Or.inl ⟨rfl, nofun⟩
    · exact Or.inr ⟨rfl, rfl⟩
  · rcases hm with ⟨-, -, rfl⟩ | ⟨-, -, rfl⟩
    · exact h.once_close hnew
    · exact Machine.each_concat.mpr ⟨h.once, nofun⟩
  · rcases hsplit hk with hk | ⟨rfl, -⟩
    · exact Nat.lt_succ_of_lt (h.past hk)
    · exact Nat.lt_succ_self _
  · rcases heap_eq (s := s) hd with ⟨rfl, rfl⟩ | ⟨-, hd⟩
    · rcases hsplit hk with hk | ⟨-, hcl⟩
      · exact hnew (hconn ▸ hk)
      · exact hcl ho
    · rcases hsplit hk with hk | ⟨hk, -⟩
      · exact h.fresh hd ho hk
      · exact absurd (hk ▸ h.registry.serial hd) (Nat.lt_irrefl _)

/-- The walk closes a client without pending writes. -/
theorem walkClose (h : SingleClose tr s) (hloop : s.loop = .walking) (hc : s.heap a = some c)
    (hopen : c.closing = none) (hquiet : a ∈ s.m_clients → c.writes = []) :
    SingleClose (tr ++ [.uv_close c.conn])
      (s.setClient a { c with closing := some .null }) := by
  have hfresh := h.fresh hc hopen
  refine
    { registry := h.registry.replace hc { c with closing := some .null } rfl h.registry.nodup
        (fun _ hb => hb) (fun _ hb _ => hb) nofun nofun
      once := h.once_close hfresh
      past := fun hk => ?_
      fresh := fun {b d} hd ho hk => ?_
      walked := fun {b d} hb hd ho => ?_
      loop := fun {b d} hb hd ho => ?_
      shut := fun {b d} hb hd ho => h.walking hloop
      walking := h.walking }
  · rcases List.mem_append.mp hk with hk | hk
    · exact h.past hk
    · obtain rfl : _ = c.conn := by simpa using hk
      exact h.registry.serial hc
  · rcases heap_eq hd with ⟨-, rfl⟩ | ⟨hne, hold⟩
    · cases ho
    · rcases List.mem_append.mp hk with hk | hk
      · exact h.fresh hold ho hk
      · exact hne (h.registry.inj hold hc (by simpa using hk))
  · rcases heap_eq hd with ⟨rfl, rfl⟩ | ⟨-, hold⟩
    · exact hquiet hb
    · exact h.walked hb hold ho
  · rw [show (s.setClient a _).loop = .walking from hloop]
    exact ⟨nofun, nofun, nofun⟩

/-- `ClientClose` deletes a client. -/
theorem delete (h : SingleClose tr s) (hc : s.heap a = some c)
    (hcl : c.closing = some .ClientClose) :
    SingleClose tr { s with heap := Function.update s.heap a none } := by
  have hold : ∀ {b d}, Function.update s.heap a none b = some d → s.heap b = some d :=
    fun hd => (of_update_none hd).2
  exact
    { registry := h.registry.delete hc hcl
      once := h.once
      past := h.past
      fresh := fun hd ho => h.fresh (hold hd) ho
      walked := fun hb hd ho => h.walked hb (hold hd) ho
      loop := fun hb hd ho => h.loop hb (hold hd) ho
      shut := fun hb hd ho => h.shut hb (hold hd) ho
      walking := h.walking }

/-- **One step under the guard closes no client twice.** -/
theorem step {D : DataModel} {act : Act} (h : SingleClose tr s) (hok : QuietWalk s act)
    (hm : Moves D s act es s') : SingleClose (tr ++ es) s' := by
  -- steps that call nothing and leave the clients alone
  have hsame : SingleClose (tr ++ []) s := by rwa [List.append_nil]
  cases hm with
  | acceptNone => exact hsame
  | acceptFailed _ hfresh => exact h.create hfresh (Or.inl ⟨rfl, rfl, rfl⟩)
  | accepted _ hfresh => exact h.create hfresh (Or.inr ⟨rfl, rfl, rfl⟩)
  | @read a c msg r _ hc hopen =>
      have hr := h.setClient hc r c.writes fun _ ho => absurd hopen ho
      rw [List.append_nil]
      refine { hr with
        registry := hr.registry.congr rfl rfl rfl
        loop := fun {b d} hb hd ho => ⟨nofun, nofun, ?_⟩
        walking := nofun }
      -- the client being read is not closing
      rintro ⟨⟩
      rcases heap_eq (s := s) hd with ⟨-, rfl⟩ | ⟨hne, -⟩
      · exact ho hopen
      · exact hne rfl
  | readEnd _ hc hopen hd =>
      exact h.drops (fun _ hc' => Option.some.inj (hc.symm.trans hc') ▸ hopen) hd
  | passExit => exact h.quiet nofun rfl rfl rfl id (Or.inr (Or.inl rfl))
  | @passMore a c r hloop hc =>
      have hr := h.setClient hc r c.writes fun hb ho => absurd hloop (h.loop hb hc ho).2.2
      exact hr.quiet nofun rfl rfl rfl id (Or.inr (Or.inl rfl))
  | @passStop a c r call es s' hloop hc _ hh =>
      have hopen : a ∈ s.m_clients → c.closing = none := fun hb =>
        not_not.mp fun ho => (h.loop hb hc ho).2.2 hloop
      have hr := h.setClient hc r c.writes fun hb ho => absurd (hopen hb) ho
      have hidle : SingleClose (tr ++ [])
          { s.setClient a { c with reader := r } with loop := .idle } :=
        hr.quiet nofun rfl rfl rfl id (Or.inr (Or.inl rfl))
      rw [List.append_nil] at hidle
      refine hidle.handles (fun {d} hb hd => ?_) hh
      obtain rfl := heap_self (s := s) hd
      exact hopen hb
  | @passNext a c r call es s' hloop hc _ hh =>
      have hopen : a ∈ s.m_clients → c.closing = none := fun hb =>
        not_not.mp fun ho => (h.loop hb hc ho).2.2 hloop
      have hr := h.setClient hc r c.writes fun hb ho => absurd (hopen hb) ho
      refine hr.handles (fun {d} hb hd => ?_) hh
      obtain rfl := heap_self (s := s) hd
      exact hopen hb
  | asyncCallBack =>
      refine h.quiet nofun rfl rfl rfl id ?_
      by_cases hcl : s.m_is_closing = true
      · exact Or.inr (Or.inr (Or.inl ⟨if_pos hcl, hcl⟩))
      · exact Or.inr (Or.inr (Or.inr (Or.inl ⟨if_neg hcl, Bool.not_eq_true _ ▸ hcl⟩)))
  | swap hloop =>
      exact h.quiet nofun rfl rfl rfl id (Or.inr (Or.inr (Or.inr (Or.inr ⟨rfl, hloop⟩))))
  | @drainSent c buf rest ret hloop _ hmem hc =>
      have hpop : SingleClose (tr ++ [.uv_write c.conn buf ret]) { s with sendTemp := rest } :=
        h.quiet (by simp) rfl rfl rfl id (Or.inl rfl)
      exact hpop.setClient hc c.reader (c.writes ++ [buf]) fun hb ho =>
        absurd hloop (h.loop hb hc ho).2.1
  | @drainFailed c buf rest ret es s' hloop _ hmem hc _ hd =>
      have hpop : SingleClose (tr ++ [.uv_write c.conn buf ret]) { s with sendTemp := rest } :=
        h.quiet (by simp) rfl rfl rfl id (Or.inl rfl)
      have hdrop := hpop.drops (fun hb hc' => not_not.mp fun ho =>
        (h.loop hb hc' ho).2.1 hloop) hd
      rwa [List.append_assoc] at hdrop
  | drainDropped => exact h.quiet (by simp) rfl rfl rfl id (Or.inl rfl)
  | drained => exact h.quiet nofun rfl rfl rfl id (Or.inr (Or.inl rfl))
  | @walkClose a c hloop hc hopen =>
      refine h.walkClose hloop hc hopen fun hb => ?_
      simp only [QuietWalk, hc] at hok
      exact hok hb hopen
  | walkSkip => exact hsame
  | walked => exact h.quiet nofun rfl rfl rfl id (Or.inr (Or.inl rfl))
  | @sent a c buf rest _ hc hopen =>
      rw [List.append_nil]
      exact h.setClient hc c.reader rest fun _ ho => absurd hopen ho
  | @sendFailed a c buf rest _ es s' _ hc hw _ hd =>
      -- a write was pending, so the client is not closing while registered
      have hopen : a ∈ s.m_clients → c.closing = none := fun hb => not_not.mp fun ho => by
        rw [h.walked hb hc ho] at hw
        cases hw
      have hr := h.setClient hc c.reader rest fun hb ho => absurd (hopen hb) ho
      refine hr.drops (fun {d} hb hd => ?_) hd
      obtain rfl := heap_self (s := s) hd
      exact hopen hb
  | clientClose _ hc hcl =>
      rw [List.append_nil]
      exact h.delete hc hcl
  | closeNone => exact hsame
  | sendRefused => exact hsame
  | send => exact h.quiet (by simp) rfl rfl rfl id (Or.inl rfl)
  | push => exact h.quiet (by simp) rfl rfl rfl id (Or.inl rfl)
  | signal => exact h.quiet nofun rfl rfl rfl id (Or.inl rfl)
  | closeAgain => exact hsame
  | close => exact h.quiet nofun rfl rfl rfl id (Or.inl rfl)
  | setClosing => exact h.quiet nofun rfl rfl rfl (fun _ => rfl) (Or.inl rfl)

theorem init : SingleClose [] RJTcpServer.init :=
  ⟨.init, Machine.each_nil, nofun, nofun, nofun, nofun, nofun, nofun⟩

end SingleClose

/-- **No double close.**  In a run in which the walk at shutdown never comes
to a registered client with a write pending, `uv_close` is called at most once
on each client. -/
theorem closesOnce_of_quietWalk {D : DataModel} {tr : List Event} {s : RJTcpServer}
    (h : (machine D).Run QuietWalk tr s) : ClosesOnce tr :=
  (h.invariant SingleClose .init fun ih hok hs => ih.step hok (moves_of_step hs)).once

/-- Two clients, one dropped by a failed write, the other closed by the walk
with nothing pending. -/
theorem closesOnce_of_quietWalk_two :
    ∃ tr s, (machine .lp64).Run QuietWalk tr s ∧ .uv_close 0 ∈ tr ∧ .uv_close 1 ∈ tr ∧
      ClosesOnce tr := by
  obtain ⟨tr, s, hrun, hp⟩ := (machine .lp64).run_of_exec QuietWalk
    [.accept 1 0 0 0 0, .accept 2 0 0 0 0,
      .send 0 1 [65] 0, .push 0, .signal 0, .asyncCallBack, .swap, .drain 0, .drained,
      .afterSend 1 (-32), .closeDone 1,
      .close 0, .setClosing 0, .signal 0, .asyncCallBack, .walk 2, .walked, .closeDone 2]
    (fun q => decide (.uv_close 0 ∈ q.2 ∧ .uv_close 1 ∈ q.2)) (by decide +kernel)
  obtain ⟨h₀, h₁⟩ := of_decide_eq_true hp
  exact ⟨tr, s, hrun, h₀, h₁, closesOnce_of_quietWalk hrun⟩

/-- A client with a write pending when the walk comes to it: the cancelled
write closes it a second time. -/
theorem not_closesOnce :
    ¬ ∀ (D : DataModel) (tr : List Event) (s : RJTcpServer),
      (machine D).Run AnyStep tr s → ClosesOnce tr := by
  intro h
  let buf : uv_tcp_send_buf := ⟨1, Msg2Package [65], 0⟩
  obtain ⟨tr, s, hrun, hp⟩ := (machine .lp64).run_of_exec AnyStep
    [.accept 1 0 0 0 0,
      .send 0 1 [65] 0, .push 0, .signal 0, .asyncCallBack, .swap, .drain 0, .drained,
      .close 0, .setClosing 0, .signal 0, .asyncCallBack, .walk 1, .walked,
      .afterSend 1 (-4081)]
    (fun q => decide (q.2 = [.OnNewConnection 1 0, .accepted 0 buf, .pushed 0 buf,
      .uv_write 0 buf 0, .uv_close 0, .OnDisconnection 1] ++ .uv_close 0 :: [])) (by decide +kernel)
  have htr := of_decide_eq_true hp
  exact h .lp64 tr s hrun _ _ _ htr 0 rfl (by simp)

end RJTcpServer

end TestExamples
