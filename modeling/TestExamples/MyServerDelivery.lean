/-
TestExamples/MyServerDelivery.lean

Whom an answer reaches.

A message handed to `Send` is meant for the client its pointer denoted when
the application obtained it.  `CheckClient` compares addresses only, so the
message reaches another client if one has been registered at the same address
in between.  `FreshAccept` excludes exactly this: `AcceptConnection` does not
register a client at an address for which a message is still on its way, or
still waiting for an answer.  Under it every pointer in use names its client
(`Pointed`), and every message goes where it was meant to go.

An address may be used again: where only the despatcher sends and clients are
accepted while nothing is on its way, `FreshAccept` holds whatever addresses
they get (`freshAccept_of_despatcherOnly`).
-/
import TestExamples.MyServer
import TestExamples.RJTcpServerPointers

namespace TestExamples

open RJTcpServer (Event Names Sending Registry Moves)

namespace MyServer

/-- The despatcher answers the message. -/
def Answered (msg : List Byte) : Prop := ∃ m, DespatchMsg msg = some (some m)

/-- Something is meant for client `k` and holds the pointer `a`: a message
that waits for its answer, or a package on its way. -/
def Held (s : MyServer) (a : Addr) (k : Nat) : Prop :=
  (∃ buf, (buf ∈ s.m_bufs ∨ buf ∈ s.temp_bufs) ∧ Answered buf.msg ∧
      buf.client = a ∧ buf.conn = k) ∨
    ∃ buf, Sending s.m_server buf ∧ buf.client = a ∧ buf.meant = k

/-- Nothing is held while everybody is idle and the queues are empty. -/
theorem not_held_of_idle {s : MyServer} (hbufs : s.m_bufs = [] ∧ s.temp_bufs = [])
    (hsend : s.m_server.m_send_buf = []) (htemp : s.m_server.sendTemp = [])
    (hidle : ∀ t, s.m_server.pc t = .idle) (a : Addr) (k : Nat) : ¬ s.Held a k := by
  rintro (⟨buf, hbuf | hbuf, -⟩ | ⟨buf, hbuf | hbuf | ⟨t, ht⟩, -⟩)
  · rw [hbufs.1] at hbuf
    cases hbuf
  · rw [hbufs.2] at hbuf
    cases hbuf
  · rw [hsend] at hbuf
    cases hbuf
  · rw [htemp] at hbuf
    cases hbuf
  · rw [hidle t] at ht
    cases ht

/-- No client is registered at an address held for somebody else. -/
def FreshAccept (s : MyServer) : Act → Prop
  | .server (.accept a 0 0 0 0) => s.m_server.m_is_closing = false → ∀ k, ¬ s.Held a k
  | _ => True

/-- Every package written goes to the client it is meant for. -/
def DeliversAsMeant (tr : List Event) : Prop :=
  ∀ {k buf ret}, .uv_write k buf ret ∈ tr → buf.meant = k

structure Pointed (tr : List Event) (s : MyServer) : Prop where
  registry : Registry s.m_server
  mirror : s.m_clients.map Prod.fst = s.m_server.m_clients
  clients : ∀ {a k}, (a, k) ∈ s.m_clients → Names s.m_server a k
  held : ∀ {a k}, s.Held a k → Names s.m_server a k
  written : DeliversAsMeant tr

/-! ### What the callbacks leave -/

section Callbacks

variable {s : MyServer} {es : List Event}

@[simp] theorem callback_m_server (s : MyServer) (e : Event) :
    (s.callback e).m_server = s.m_server := by
  cases e with
  | OnNewConnection a k =>
      show (s.OnNewConnection a k).m_server = _
      unfold OnNewConnection
      split <;> rfl
  | _ => rfl

@[simp] theorem callback_temp_bufs (s : MyServer) (e : Event) :
    (s.callback e).temp_bufs = s.temp_bufs := by
  cases e with
  | OnNewConnection a k =>
      show (s.OnNewConnection a k).temp_bufs = _
      unfold OnNewConnection
      split <;> rfl
  | _ => rfl

theorem callbacks_m_server (s : MyServer) (es : List Event) :
    (es.foldl callback s).m_server = s.m_server := by
  induction es generalizing s with
  | nil => rfl
  | cons e es ih => rw [List.foldl_cons, ih, callback_m_server]

theorem callbacks_temp_bufs (s : MyServer) (es : List Event) :
    (es.foldl callback s).temp_bufs = s.temp_bufs := by
  induction es generalizing s with
  | nil => rfl
  | cons e es ih => rw [List.foldl_cons, ih, callback_temp_bufs]

/-- A message in the queue was there before, or has just come. -/
theorem mem_callbacks_m_bufs {buf : ServerBufferStruct} (h : buf ∈ (es.foldl callback s).m_bufs) :
    buf ∈ s.m_bufs ∨ .OnMsg buf.client buf.conn buf.msg ∈ es := by
  induction es generalizing s with
  | nil => exact Or.inl h
  | cons e es ih =>
      rcases ih h with h | h
      · cases e with
        | OnMsg a k msg =>
            rcases List.mem_append.mp h with h | h
            · exact Or.inl h
            · obtain rfl := List.mem_singleton.mp h
              exact Or.inr (List.mem_cons_self ..)
        | OnNewConnection a k =>
            refine Or.inl ?_
            have h : buf ∈ (s.OnNewConnection a k).m_bufs := h
            unfold OnNewConnection at h
            split at h <;> exact h
        | _ => exact Or.inl h
      · exact Or.inr (List.mem_cons_of_mem _ h)

/-- A client in the list was there before, or has just come. -/
theorem mem_callbacks_m_clients {p : Addr × Nat} (h : p ∈ (es.foldl callback s).m_clients) :
    p ∈ s.m_clients ∨ .OnNewConnection p.1 p.2 ∈ es := by
  induction es generalizing s with
  | nil => exact Or.inl h
  | cons e es ih =>
      rcases ih h with h | h
      · cases e with
        | OnNewConnection a k =>
            have h : p ∈ (s.OnNewConnection a k).m_clients := h
            unfold OnNewConnection at h
            split at h
            · exact Or.inl h
            · rcases List.mem_append.mp h with h | h
              · exact Or.inl h
              · obtain rfl := List.mem_singleton.mp h
                exact Or.inr (List.mem_cons_self ..)
        | OnDisconnection a => exact Or.inl (List.mem_of_mem_eraseP h)
        | _ => exact Or.inl h
      · exact Or.inr (List.mem_cons_of_mem _ h)

/-- The list follows the registered clients of the server. -/
theorem callback_mirror {e : Event}
    (hnew : ∀ a k, e = .OnNewConnection a k → a ∉ s.m_clients.map Prod.fst) :
    (s.callback e).m_clients.map Prod.fst =
      RJTcpServer.register (s.m_clients.map Prod.fst) e := by
  cases e with
  | OnNewConnection a k =>
      show (s.OnNewConnection a k).m_clients.map Prod.fst = _
      unfold OnNewConnection
      rw [if_neg (hnew a k rfl), List.map_append]
      rfl
  | OnDisconnection a =>
      show (s.m_clients.eraseP _).map Prod.fst = (s.m_clients.map Prod.fst).erase a
      rw [List.erase_eq_eraseP, List.eraseP_map]
      congr 2
      funext p
      simp [beq_eq_decide, eq_comm]
  | _ => rfl

theorem callbacks_mirror (hnew : ∀ a k, .OnNewConnection a k ∉ es) :
    (es.foldl callback s).m_clients.map Prod.fst =
      es.foldl RJTcpServer.register (s.m_clients.map Prod.fst) := by
  induction es generalizing s with
  | nil => rfl
  | cons e es ih =>
      rw [List.foldl_cons, List.foldl_cons, ih fun a k h => hnew a k (List.mem_cons_of_mem _ h),
        callback_mirror fun a k he => absurd (he ▸ List.mem_cons_self ..) (hnew a k)]

/-- **The callbacks of a step keep the two client lists in step.** -/
theorem mirror_of_moves {D : DataModel} {srv : RJTcpServer} {act : RJTcpServer.Act}
    (hreg : Registry s.m_server) (hmirror : s.m_clients.map Prod.fst = s.m_server.m_clients)
    (hm : Moves D s.m_server act es srv) :
    (es.foldl callback { s with m_server := srv }).m_clients.map Prod.fst = srv.m_clients := by
  rw [RJTcpServer.m_clients_step hm, ← hmirror]
  by_cases hnew : ∃ a k, .OnNewConnection a k ∈ es
  · obtain ⟨a, k, he⟩ := hnew
    obtain ⟨rfl, -, -, hmem, -⟩ := RJTcpServer.names_of_OnNewConnection hreg hm he
    refine callback_mirror (s := { s with m_server := srv }) (e := .OnNewConnection a k)
      fun a' k' he' => ?_
    cases he'
    rwa [hmirror]
  · exact callbacks_mirror fun a k he => hnew ⟨a, k, he⟩

end Callbacks

/-! ### The steps -/

namespace Pointed

variable {D : DataModel} {tr es : List Event} {s : MyServer} {srv : RJTcpServer}
  {act : RJTcpServer.Act}

/-- What a package written was meant for is what its pointer names. -/
theorem written_append (h : Pointed tr s) (hm : Moves D s.m_server act es srv) :
    DeliversAsMeant (tr ++ es) := by
  intro k buf ret hk
  rcases List.mem_append.mp hk with hk | hk
  · exact h.written hk
  · obtain ⟨hsend, hmem, c, hc, rfl⟩ := RJTcpServer.sending_of_write hm hk
    exact (h.held (Or.inr ⟨buf, hsend, rfl, rfl⟩) hmem c hc).symm

/-- A pointer that is held, or is in the client list, is not that of a client
just registered. -/
theorem not_new (h : Pointed tr s) (hm : Moves D s.m_server act es srv)
    (hok : s.FreshAccept (.server act)) {a : Addr} {k : Nat}
    (ha : s.Held a k ∨ (a, k) ∈ s.m_clients) (k' : Nat) : .OnNewConnection a k' ∉ es := by
  intro he
  obtain ⟨-, rfl, hopen, hmem, -⟩ := RJTcpServer.names_of_OnNewConnection h.registry hm he
  rcases ha with ha | ha
  · exact hok hopen k ha
  · exact hmem (h.mirror ▸ List.mem_map_of_mem (f := Prod.fst) ha)

/-- A step of the server by itself. -/
theorem server (h : Pointed tr s) (hok : s.FreshAccept (.server act))
    (hact : ∀ t a m k, act ≠ .send t a m k) (hm : Moves D s.m_server act es srv) :
    Pointed (tr ++ es) (es.foldl callback { s with m_server := srv }) where
  registry := by
    rw [callbacks_m_server]
    exact h.registry.step hm
  mirror := by
    rw [callbacks_m_server]
    exact mirror_of_moves h.registry h.mirror hm
  clients := by
    intro a k hmem
    rw [callbacks_m_server]
    rcases mem_callbacks_m_clients hmem with hold | hnew
    · exact (h.clients hold).step h.registry hm (h.not_new hm hok (Or.inr hold))
    · exact (RJTcpServer.names_of_OnNewConnection h.registry hm hnew).2.2.2.2
  held := by
    intro a k hheld
    rw [callbacks_m_server]
    -- what was held before goes on naming its client
    have hold : s.Held a k → Names srv a k := fun hh =>
      (h.held hh).step h.registry hm (h.not_new hm hok (Or.inl hh))
    rcases hheld with ⟨buf, hbuf, hans, rfl, rfl⟩ | ⟨buf, hsend, rfl, rfl⟩
    · rw [callbacks_temp_bufs] at hbuf
      rcases hbuf with hbuf | hbuf
      · rcases mem_callbacks_m_bufs hbuf with hbuf | hnew
        · exact hold (Or.inl ⟨buf, Or.inl hbuf, hans, rfl, rfl⟩)
        · exact RJTcpServer.names_of_OnMsg hm hnew
      · exact hold (Or.inl ⟨buf, Or.inr hbuf, hans, rfl, rfl⟩)
    · rw [callbacks_m_server] at hsend
      rcases Sending.of_step hsend hm with hsend | ⟨t, a, m, k, rfl, -⟩
      · exact hold (Or.inr ⟨buf, hsend, rfl, rfl⟩)
      · exact absurd rfl (hact t a m k)
  written := h.written_append hm

/-- The application sends to a client its pointer names. -/
theorem send (h : Pointed tr s) {t : Thread} {a : Addr} {msg : List Byte} {k : Nat}
    (hn : Names s.m_server a k) {s' : MyServer} (hs : s.send D t a msg k = some (s', es)) :
    Pointed (tr ++ es) s' := by
  obtain ⟨⟨srv, es'⟩, hstep, he⟩ := Option.map_eq_some_iff.mp hs
  obtain ⟨rfl, rfl⟩ := Prod.mk.inj he
  have hm := RJTcpServer.moves_of_step hstep
  -- `Send` makes no callback and leaves the clients alone
  have hclients : es'.foldl callback { s with m_server := srv } = { s with m_server := srv } ∧
      srv.m_clients = s.m_server.m_clients ∧ srv.heap = s.m_server.heap := by
    cases hm <;> exact ⟨rfl, rfl, rfl⟩
  obtain ⟨hcalls, hmc, hheap⟩ := hclients
  rw [hcalls]
  have hnames : ∀ {a k}, Names s.m_server a k → Names srv a k := fun hn ha c hc =>
    hn (hmc ▸ ha) c (hheap ▸ hc)
  exact
    { registry := h.registry.step hm
      mirror := h.mirror.trans hmc.symm
      clients := fun hmem => hnames (h.clients hmem)
      held := by
        rintro a' k' (hbuf | ⟨buf, hsend, rfl, rfl⟩)
        · exact hnames (h.held (Or.inl hbuf))
        · rcases Sending.of_step hsend hm with hsend | ⟨t', a', m', k', hact, rfl⟩
          · exact hnames (h.held (Or.inr ⟨buf, hsend, rfl, rfl⟩))
          · cases hact
            exact hnames hn
      written := h.written_append hm }

/-- The despatcher takes messages out of a queue. -/
theorem take (h : Pointed tr s) {bufs temp : List ServerBufferStruct} {new : Bool}
    (hsub : ∀ buf, buf ∈ bufs ∨ buf ∈ temp → buf ∈ s.m_bufs ∨ buf ∈ s.temp_bufs) :
    Pointed tr { s with m_bufs := bufs, temp_bufs := temp, m_has_new_msg := new } :=
  { h with
    held := by
      rintro a k (⟨buf, hbuf, hans, ha, hk⟩ | hsend)
      · exact h.held (Or.inl ⟨buf, hsub buf hbuf, hans, ha, hk⟩)
      · exact h.held (Or.inr hsend) }

/-- **One step under the guard sends nothing to the wrong client.** -/
theorem step (h : Pointed tr s) {act : Act} {s' : MyServer} (hok : s.FreshAccept act)
    (hs : s.step D act = some (s', es)) : Pointed (tr ++ es) s' := by
  cases act with
  | server act =>
      have hact : ∀ t a m k, act ≠ .send t a m k := by
        rintro t a m k rfl
        simp [MyServer.step] at hs
      have hs : s.server D act = some (s', es) := by
        cases act <;> first | exact hs | exact absurd rfl (hact _ _ _ _)
      obtain ⟨⟨srv, es'⟩, hstep, he⟩ := Option.map_eq_some_iff.mp hs
      obtain ⟨rfl, rfl⟩ := Prod.mk.inj he
      exact h.server hok hact (RJTcpServer.moves_of_step hstep)
  | swap =>
      simp only [MyServer.step] at hs
      split at hs
      · split at hs
        · obtain ⟨rfl, rfl⟩ := Prod.mk.inj (Option.some.inj hs)
          rw [List.append_nil]
          exact h.take fun _ hbuf => hbuf.symm
        · obtain ⟨rfl, rfl⟩ := Prod.mk.inj (Option.some.inj hs)
          rwa [List.append_nil]
      · cases hs
  | despatch junk =>
      simp only [MyServer.step] at hs
      split at hs
      · next buf rest _ htemp =>
        have hrest : Pointed tr { s with temp_bufs := rest } :=
          h.take fun _ hb => hb.imp id fun hb => htemp ▸ List.mem_cons_of_mem _ hb
        split at hs
        · next m hans =>
          obtain ⟨frame, -, hs⟩ := Option.bind_eq_some_iff.mp hs
          have hn : Names s.m_server buf.client buf.conn :=
            h.held (Or.inl ⟨buf, Or.inr (htemp ▸ List.mem_cons_self ..), ⟨m, hans⟩, rfl, rfl⟩)
          exact hrest.send hn hs
        · obtain ⟨rfl, rfl⟩ := Prod.mk.inj (Option.some.inj hs)
          rwa [List.append_nil]
        · cases hs
      · cases hs
  | broadcast t client msg =>
      simp only [MyServer.step] at hs
      split at hs
      · next a k hfind =>
        split at hs
        · exact h.send (h.clients (List.mem_of_find?_eq_some hfind)) hs
        · cases hs
      · cases hs

theorem init : Pointed [] MyServer.init where
  registry := .init
  mirror := rfl
  clients := nofun
  held := fun h => absurd h (not_held_of_idle ⟨rfl, rfl⟩ rfl rfl (fun _ => rfl) _ _)
  written := nofun

end Pointed

/-- **No cross-delivery.**  In a run in which no client is registered at an
address still held for another one, every message written goes to the client
its pointer denoted when the application obtained it. -/
theorem deliversAsMeant_of_freshAccept {D : DataModel} {tr : List Event} {s : MyServer}
    (h : (machine D).Run FreshAccept tr s) : DeliversAsMeant tr :=
  (h.invariant Pointed .init fun ih hok hs => ih.step hok hs).written

/-- No connection is accepted any more. -/
def NoAccept (_ : MyServer) : Act → Prop
  | .server (.accept _ _ _ _ _) => False
  | _ => True

instance (s : MyServer) (act : Act) : Decidable (NoAccept s act) := by
  unfold NoAccept
  split <;> infer_instance

theorem freshAccept_of_noAccept (s : MyServer) (act : Act) (h : NoAccept s act) :
    FreshAccept s act := by
  unfold FreshAccept
  split
  · exact h.elim
  · trivial

/-- The request with id 1 and an empty payload, as it is laid out in a
package. -/
def request : List Byte :=
  (49 :: List.replicate 8 0) ++ (SERVER_CMD_STX_COMMAND ++ List.replicate 20 0)

/-- Nobody sends but the despatcher, and a client is accepted while the despatcher
has nothing to do and no package is on its way. -/
def DespatcherOnly (s : MyServer) : Act → Prop
  | .server (.accept _ _ _ _ _) =>
      (s.m_bufs = [] ∧ s.temp_bufs = []) ∧ s.m_server.m_send_buf = [] ∧
        s.m_server.sendTemp = [] ∧ s.m_server.pc m_pThread = .idle
  | .server (.close _) | .broadcast _ _ _ => False
  | _ => True

instance (s : MyServer) (act : Act) : Decidable (DespatcherOnly s act) := by
  unfold DespatcherOnly
  split <;> infer_instance

section DespatcherOnly

variable {D : DataModel} {tr es : List Event} {s s' : MyServer} {act : Act}

/-- The other threads stay idle. -/
theorem idle_step (hok : DespatcherOnly s act) (hs : s.step D act = some (s', es)) {t : Thread}
    (ht : t ≠ m_pThread) (hidle : s.m_server.pc t = .idle) : s'.m_server.pc t = .idle := by
  have hserver : ∀ {s₁ : MyServer} {act' : RJTcpServer.Act}, s₁.server D act' = some (s', es) →
      s₁.m_server = s.m_server → act' ≠ .close t → (∀ a m k, act' ≠ .send t a m k) →
      s'.m_server.pc t = .idle := by
    intro s₁ act' hs hsame hclose hsend
    obtain ⟨⟨srv, es'⟩, hstep, he⟩ := Option.map_eq_some_iff.mp hs
    obtain ⟨rfl, rfl⟩ := Prod.mk.inj he
    rw [callbacks_m_server]
    rcases RJTcpServer.idle_of_moves (RJTcpServer.moves_of_step hstep) (hsame ▸ hidle) with
      hpc | hact | ⟨a, m, k, hact⟩
    · exact hpc
    · exact absurd hact hclose
    · exact absurd hact (hsend a m k)
  cases act with
  | server act =>
      have hsend : ∀ a m k, act ≠ .send t a m k := by
        rintro a m k rfl
        simp [MyServer.step] at hs
      have hclose : act ≠ .close t := by
        rintro rfl
        exact hok
      have hs : s.server D act = some (s', es) := by
        cases act <;> first | exact hs | simp [MyServer.step] at hs
      exact hserver hs rfl hclose hsend
  | swap =>
      simp only [MyServer.step] at hs
      split at hs
      · split at hs <;> obtain ⟨rfl, -⟩ := Prod.mk.inj (Option.some.inj hs) <;> exact hidle
      · cases hs
  | despatch junk =>
      simp only [MyServer.step] at hs
      split at hs
      · split at hs
        · obtain ⟨frame, -, hs⟩ := Option.bind_eq_some_iff.mp hs
          refine hserver hs rfl nofun fun a m k hact => ?_
          exact ht (RJTcpServer.Act.send.inj hact).1.symm
        · obtain ⟨rfl, -⟩ := Prod.mk.inj (Option.some.inj hs)
          exact hidle
        · cases hs
      · cases hs
  | broadcast => exact hok.elim

theorem idle_of_despatcherOnly (h : (machine D).Run DespatcherOnly tr s) :
    ∀ t, t ≠ m_pThread → s.m_server.pc t = .idle :=
  h.invariant (fun _ s => ∀ t, t ≠ m_pThread → s.m_server.pc t = .idle) (fun _ _ => rfl)
    fun ih hok hs t ht => idle_step hok hs ht (ih t ht)

theorem freshAccept_of_despatcherOnly (h : (machine D).Run DespatcherOnly tr s) :
    (machine D).Run FreshAccept tr s := by
  induction h with
  | start => exact .start
  | @step tr s act s' es hrun hok hs ih =>
      refine ih.step ?_ hs
      unfold FreshAccept
      split
      · intro _ k
        obtain ⟨hbufs, hsend, htemp, hpThread⟩ := hok
        refine not_held_of_idle hbufs hsend htemp (fun t => ?_) _ k
        rcases eq_or_ne t m_pThread with rfl | hne
        · exact hpThread
        · exact idle_of_despatcherOnly hrun t hne
      · trivial

end DespatcherOnly

/-- A client sends a request, gets the answer and leaves; the next one is created at the
same address, and its request is answered too. -/
theorem deliversAsMeant_of_freshAccept_two :
    ∃ tr s, (machine .lp64).Run FreshAccept tr s ∧
      .uv_write 0 ⟨1, Msg2Package request, 0⟩ 0 ∈ tr ∧
      .uv_write 1 ⟨1, Msg2Package request, 1⟩ 0 ∈ tr ∧ DeliversAsMeant tr := by
  let answered : List Act :=
    [.server (.read 1 (Msg2Package request)), .server .pass, .server .pass,
      .swap, .despatch (fun _ => 0), .server (.push 0), .server (.signal 0),
      .server .asyncCallBack, .server .swap, .server (.drain 0), .server .drained]
  obtain ⟨tr, s, hrun, hp⟩ := (machine .lp64).run_of_exec DespatcherOnly
    (.server (.accept 1 0 0 0 0) :: answered ++
      [.server (.afterSend 1 0), .server (.readEnd 1), .server (.closeDone 1)] ++
      .server (.accept 1 0 0 0 0) :: answered)
    (fun q => decide (.uv_write 0 ⟨1, Msg2Package request, 0⟩ 0 ∈ q.2 ∧
      .uv_write 1 ⟨1, Msg2Package request, 1⟩ 0 ∈ q.2)) (by decide +kernel)
  have hfresh := freshAccept_of_despatcherOnly hrun
  obtain ⟨hfirst, hsecond⟩ := of_decide_eq_true hp
  exact ⟨tr, s, hfresh, hfirst, hsecond, deliversAsMeant_of_freshAccept hfresh⟩

/-- A client leaves after its request has been queued; the next one is created
at the same address and gets the answer. -/
theorem not_deliversAsMeant :
    ¬ ∀ (D : DataModel) (tr : List Event) (s : MyServer),
      (machine D).Run AnyStep tr s → DeliversAsMeant tr := by
  intro h
  obtain ⟨tr, s, hrun, hp⟩ := (machine .lp64).run_of_exec AnyStep
    [.server (.accept 1 0 0 0 0), .server (.read 1 (Msg2Package request)),
      .server .pass, .server .pass, .server (.readEnd 1), .server (.closeDone 1),
      .server (.accept 1 0 0 0 0),
      .swap, .despatch (fun _ => 0), .server (.push 0), .server (.signal 0),
      .server .asyncCallBack, .server .swap, .server (.drain 0)]
    (fun q => decide (.uv_write 1 ⟨1, Msg2Package request, 0⟩ 0 ∈ q.2)) (by decide +kernel)
  have hmeant := h .lp64 tr s hrun (of_decide_eq_true hp)
  exact absurd hmeant (by decide)

end MyServer

end TestExamples
