/-
TestExamples/RJTcpServerLifecycle.lean

What the application is told about one client.

`AcceptConnection` numbers the clients it creates; a client is `Live` while it
is in `m_clients`.  A step of the server makes at most one of the three
callbacks about one client, and it makes it about a live client, or opens the
next one (`sessionStep_of_step`).  Removal has four sources: a bad package in
the middle of `SetBuffer`, a read error, a write that fails at once and a write
that completes with an error.  All of them go through `RemoveClient`, which
tells the application only when it finds the client, so none of them can tell
it twice; and the packages of a chunk that come after a removal are not passed
on, because `OnMsg` looks the client up again for each.

`lifecycle` is the machine of the application and its server with the callbacks
as its history, under the numbers of their clients.
-/
import TestExamples.Lib.Sessions
import TestExamples.MyServerDelivery

namespace TestExamples

namespace RJTcpServer

/-! ### The history of callbacks -/

/-- An entry of the history: a callback about a client, or a client that is
closed because `uv_accept` or `uv_read_start` failed. -/
abbrev Entry := SessionEntry (List Byte)

/-- The callback an event is, if it is one: `OnNewConnection` opens a session,
`OnMsg` passes on a message and `OnDisconnection` closes it.  The number
behind the address is the one found there before the step. -/
def callOf (s : RJTcpServer) : Event → Option Entry
  | .OnNewConnection _ k => some (.call k .opened)
  | .OnMsg _ k msg => some (.call k (.message msg))
  | .OnDisconnection a => (s.heap a).map fun c => .call c.conn .closed
  | _ => none

/-- The client created by an `AcceptConnection` that fails after
`uv_tcp_init`. -/
def refusedOf (s : RJTcpServer) : Act → List Entry
  | .accept _ status initRet acceptRet readRet =>
      if status = 0 ∧ s.m_is_closing = false ∧ initRet = 0 ∧ (acceptRet ≠ 0 ∨ readRet ≠ 0) then
        [.refused s.serial]
      else []
  | _ => []

/-- What a step enters in the history. -/
def entries (s : RJTcpServer) (act : Act) (es : List Event) : List Entry :=
  refusedOf s act ++ es.filterMap (callOf s)

/-! ### Live clients -/

/-- Client `k` is registered. -/
def Live (s : RJTcpServer) (k : Nat) : Prop :=
  ∃ a c, a ∈ s.m_clients ∧ s.heap a = some c ∧ c.conn = k

section Live

variable {D : DataModel} {s s' : RJTcpServer} {act : Act} {es : List Event} {a : Addr}
  {c c' : uv_tcp_client} {k : Nat}

/-- Fewer registered clients, and the same numbers. -/
theorem Live.of_le (hm : ∀ a ∈ s'.m_clients, a ∈ s.m_clients)
    (hh : ∀ a c', s'.heap a = some c' → ∃ c, s.heap a = some c ∧ c.conn = c'.conn)
    (h : Live s' k) : Live s k := by
  obtain ⟨a, c', ha, hc', hk⟩ := h
  obtain ⟨c, hc, hconn⟩ := hh a c' hc'
  exact ⟨a, c, hm a ha, hc, hconn.trans hk⟩

theorem heap_of_setClient (hc : s.heap a = some c) (hconn : c'.conn = c.conn) :
    ∀ b d, (s.setClient a c').heap b = some d → ∃ c, s.heap b = some c ∧ c.conn = d.conn := by
  intro b d hd
  rcases heap_eq hd with ⟨rfl, rfl⟩ | ⟨-, hold⟩
  · exact ⟨c, hc, hconn.symm⟩
  · exact ⟨d, hold, rfl⟩

/-- The clients of two states under the same numbers. -/
def SameConns (s s₀ : RJTcpServer) : Prop :=
  s.m_clients = s₀.m_clients ∧ s.serial = s₀.serial ∧
    ∀ b d, s.heap b = some d → ∃ c, s₀.heap b = some c ∧ c.conn = d.conn

theorem SameConns.live {s₀ : RJTcpServer} (h : SameConns s s₀) (hl : Live s k) : Live s₀ k :=
  hl.of_le (fun _ hb => h.1 ▸ hb) h.2.2

/-- `RemoveClient` and `uv_close`, seen from a state with the same clients. -/
theorem sessionStep_of_drops {s₀ : RJTcpServer} (hreg : Registry s₀) (hsame : SameConns s s₀)
    (hd : Drops s a es s') :
    SessionStep (Live s₀) s₀.serial (es.filterMap (callOf s₀)) (Live s') s'.serial := by
  cases hd with
  | unknown =>
      rw [hsame.2.1]
      exact .quiet fun k => hsame.live
  | @known c hmem hc =>
      obtain ⟨c₀, hc₀, hconn⟩ := hsame.2.2 a c hc
      have hcall : [Event.OnDisconnection a, .uv_close c.conn].filterMap (callOf s₀) =
          [.call c₀.conn .closed] := by
        simp [callOf, hc₀]
      rw [hcall]
      show SessionStep _ _ _ _ s.serial
      rw [hsame.2.1]
      have hmem₀ : a ∈ s₀.m_clients := hsame.1 ▸ hmem
      refine .close ⟨a, c₀, hmem₀, hc₀, rfl⟩ ?_
      rintro j ⟨b, d, hb, hd, rfl⟩
      have hb' : b ∈ s.m_clients.erase a := hb
      rw [hsame.1, List.Nodup.mem_erase_iff hreg.nodup] at hb'
      -- the address left out is the one of this number only
      rcases heap_eq (s := { s with m_clients := s.m_clients.erase a }) hd with ⟨rfl, -⟩ | ⟨-, hd⟩
      · exact absurd rfl hb'.1
      · obtain ⟨d₀, hd₀, hconn'⟩ := hsame.2.2 b d hd
        refine ⟨⟨b, d₀, hb'.2, hd₀, hconn'⟩, fun he => hb'.1 ?_⟩
        exact hreg.inj hd₀ hc₀ (hconn'.trans he)

theorem sessionStep_of_handles {s₀ : RJTcpServer} {call : OnMsgCall} (hreg : Registry s₀)
    (hsame : SameConns s s₀) (hh : Handles s a call es s') :
    SessionStep (Live s₀) s₀.serial (es.filterMap (callOf s₀)) (Live s') s'.serial := by
  cases hh with
  | drop _ hd => exact sessionStep_of_drops hreg hsame hd
  | @deliver c msg _ _ hmem hc =>
      obtain ⟨c₀, hc₀, hconn⟩ := hsame.2.2 a c hc
      show SessionStep _ _ [.call c.conn (.message msg)] _ s.serial
      rw [hsame.2.1]
      exact .message ⟨a, c₀, hsame.1 ▸ hmem, hc₀, hconn⟩ fun k => hsame.live
  | skip =>
      rw [hsame.2.1]
      exact .quiet fun k => hsame.live

/-- `AcceptConnection` opens the next session, refuses it, or does nothing. -/
theorem sessionStep_of_accept {st i ac r : Int} (hreg : Registry s)
    (h : s.AcceptConnection a st i ac r = some (s', es)) :
    SessionStep (Live s) s.serial (entries s (.accept a st i ac r) es) (Live s') s'.serial := by
  have hnone : ¬ (st = 0 ∧ s.m_is_closing = false ∧ i = 0 ∧ (ac ≠ 0 ∨ r ≠ 0)) →
      SessionStep (Live s) s.serial (entries s (.accept a st i ac r) []) (Live s) s.serial := by
    intro hno
    have hentries : entries s (.accept a st i ac r) [] = [] := by
      simp only [entries, refusedOf, if_neg hno]
      rfl
    rw [hentries]
    exact .quiet fun _ => id
  unfold AcceptConnection at h
  split at h
  · next hst =>
    obtain ⟨rfl, rfl⟩ := Prod.mk.inj (Option.some.inj h)
    exact hnone fun hcond => hst hcond.1
  next hst =>
  split at h
  · next hclosing =>
    obtain ⟨rfl, rfl⟩ := Prod.mk.inj (Option.some.inj h)
    refine hnone fun hcond => ?_
    rw [hcond.2.1] at hclosing
    cases hclosing
  next hopen =>
  split at h
  · cases h
  next hfree =>
  have hfresh : s.heap a = none := by simpa using (not_or.mp hfree).2
  split at h
  · next hi =>
    obtain ⟨rfl, rfl⟩ := Prod.mk.inj (Option.some.inj h)
    exact hnone fun hcond => hi hcond.2.2.1
  next hi =>
  have hgood : st = 0 ∧ s.m_is_closing = false ∧ i = 0 :=
    ⟨not_not.mp hst, Bool.not_eq_true _ ▸ hopen, not_not.mp hi⟩
  have hunregistered : a ∉ s.m_clients := fun ha => by
    obtain ⟨d, hd⟩ := hreg.alive ha
    rw [hfresh] at hd
    cases hd
  -- both failures close the client just created
  have hfail : ac ≠ 0 ∨ r ≠ 0 →
      (s.opened a s.newClient).uv_close a .ClientClose = some (s', es) →
      SessionStep (Live s) s.serial (entries s (.accept a st i ac r) es) (Live s') s'.serial := by
    intro hbad hclose
    obtain ⟨c, hc, he⟩ := Option.map_eq_some_iff.mp hclose
    obtain ⟨rfl, rfl⟩ := Prod.mk.inj he
    have hentries : entries s (.accept a st i ac r) [.uv_close c.conn] = [.refused s.serial] := by
      simp only [entries, refusedOf]
      rw [if_pos ⟨hgood.1, hgood.2.1, hgood.2.2, hbad⟩]
      rfl
    rw [hentries]
    refine .refuse ?_
    rintro k ⟨b, d, hb, hd, rfl⟩
    have hne : b ≠ a := fun he => hunregistered (he ▸ hb)
    have hd : s.heap b = some d := by
      rcases heap_eq hd with ⟨he, -⟩ | ⟨-, hd⟩
      · exact absurd he hne
      · rcases heap_eq (s := { s with serial := s.serial + 1 }) hd with ⟨he, -⟩ | ⟨-, hd⟩
        · exact absurd he hne
        · exact hd
    exact ⟨b, d, hb, hd, rfl⟩
  split at h
  · next hac => exact hfail (.inl hac) h
  next hac =>
  split at h
  · next hr => exact hfail (.inr hr) h
  next hr =>
  obtain ⟨rfl, rfl⟩ := Prod.mk.inj (Option.some.inj h)
  have hno : ¬ (st = 0 ∧ s.m_is_closing = false ∧ i = 0 ∧ (ac ≠ 0 ∨ r ≠ 0)) := fun hcond =>
    hcond.2.2.2.elim hac hr
  have hentries : entries s (.accept a st i ac r) [.OnNewConnection a s.serial] =
      [.call s.serial .opened] := by
    simp only [entries, refusedOf, if_neg hno]
    rfl
  rw [hentries]
  refine .open ?_
  rintro k ⟨b, d, hb, hd, rfl⟩
  rcases heap_eq (s := { s with serial := s.serial + 1 }) hd with ⟨-, rfl⟩ | ⟨hne, hd⟩
  · exact .inr rfl
  · have hb' : b ∈ s.m_clients := (List.mem_append.mp hb).resolve_right (by simpa using hne)
    exact .inl ⟨b, d, hb', hd, rfl⟩

/-- **A step of the server is a step of a service.** -/
theorem sessionStep_of_step (hreg : Registry s) (hs : s.step D act = some (s', es)) :
    SessionStep (Live s) s.serial (entries s act es) (Live s') s'.serial := by
  have hquiet : ∀ {s₁ : RJTcpServer}, SameConns s₁ s →
      SessionStep (Live s) s.serial ([] : List Entry) (Live s₁) s₁.serial := by
    intro s₁ hsame
    rw [hsame.2.1]
    exact .quiet fun _ => hsame.live
  have hset : ∀ {a c c'}, s.heap a = some c → c'.conn = c.conn → SameConns (s.setClient a c') s :=
    fun hc hconn => ⟨rfl, rfl, heap_of_setClient hc hconn⟩
  have hself : SameConns s s := ⟨rfl, rfl, fun _ d hd => ⟨d, hd, rfl⟩⟩
  by_cases haccept : ∃ a st i ac r, act = .accept a st i ac r
  · obtain ⟨a, st, i, ac, r, rfl⟩ := haccept
    simp only [step] at hs
    split at hs
    · exact sessionStep_of_accept hreg hs
    · cases hs
  cases moves_of_step hs with
  | acceptNone | acceptFailed | accepted => exact absurd ⟨_, _, _, _, _, rfl⟩ haccept
  | readEnd _ _ _ hd => exact sessionStep_of_drops hreg hself hd
  | passStop _ hc _ hh =>
      refine sessionStep_of_handles hreg ?_ hh
      exact ⟨rfl, rfl, heap_of_setClient hc rfl⟩
  | passNext _ hc _ hh =>
      refine sessionStep_of_handles hreg ?_ hh
      exact ⟨rfl, rfl, heap_of_setClient hc rfl⟩
  | drainFailed _ _ _ _ _ hd =>
      have hdrop := sessionStep_of_drops hreg (by exact hself) hd
      exact hdrop
  | sendFailed _ hc _ _ hd =>
      refine sessionStep_of_drops hreg ?_ hd
      exact ⟨rfl, rfl, heap_of_setClient hc rfl⟩
  | read _ hc | passMore _ hc | drainSent _ _ _ hc | walkClose _ hc | sent _ hc =>
      exact hquiet (hset hc rfl)
  | clientClose =>
      refine hquiet ⟨rfl, rfl, fun b d hd => ⟨d, ?_, rfl⟩⟩
      have hd : Function.update s.heap _ none b = some d := hd
      exact (of_update_none hd).2
  | _ => exact hquiet hself

end Live

end RJTcpServer

/-! ### The runs of the application -/

namespace MyServer

open RJTcpServer (Entry Event Registry Live entries refusedOf callOf)

/-- `MyServer` and its server with the callbacks as the history. -/
def lifecycle (D : DataModel) : Machine MyServer Act Entry where
  init := .init
  step := fun s act => (s.step D act).map fun p =>
    (p.1, match act with
      | .server act => entries s.m_server act p.2
      | _ => p.2.filterMap (callOf s.m_server))

/-- The history of callbacks is that of some run of the application. -/
theorem run_of_lifecycle {D : DataModel} {tr : List Entry} {s : MyServer}
    (h : (lifecycle D).Run AnyStep tr s) : ∃ es, (machine D).Run AnyStep es s := by
  induction h with
  | start => exact ⟨[], .start⟩
  | step _ _ hs ih =>
      obtain ⟨es, hrun⟩ := ih
      obtain ⟨⟨s', es'⟩, hstep, he⟩ := Option.map_eq_some_iff.mp hs
      obtain ⟨rfl, -⟩ := Prod.mk.inj he
      exact ⟨_, hrun.step trivial hstep⟩

structure Told (tr : List Entry) (s : MyServer) : Prop where
  registry : Registry s.m_server
  mirror : s.m_clients.map Prod.fst = s.m_server.m_clients
  sessions : Sessions tr (Live s.m_server) s.m_server.serial

namespace Told

variable {D : DataModel} {tr es : List Entry} {s s' : MyServer}

theorem init : Told [] MyServer.init where
  registry := .init
  mirror := rfl
  sessions := .init fun k hk => by
    obtain ⟨a, c, ha, -⟩ := hk
    cases ha

/-- A step of the server with its callbacks. -/
theorem server (h : Told tr s) {act : RJTcpServer.Act} {evs : List Event}
    (hs : s.server D act = some (s', evs)) : Told (tr ++ entries s.m_server act evs) s' := by
  obtain ⟨⟨srv, evs'⟩, hstep, he⟩ := Option.map_eq_some_iff.mp hs
  obtain ⟨rfl, rfl⟩ := Prod.mk.inj he
  have hm := RJTcpServer.moves_of_step hstep
  refine ⟨?_, ?_, ?_⟩
  · rw [callbacks_m_server]
    exact h.registry.step hm
  · rw [callbacks_m_server]
    exact mirror_of_moves h.registry h.mirror hm
  · rw [callbacks_m_server]
    exact h.sessions.step (RJTcpServer.sessionStep_of_step h.registry hstep)

/-- The application sends, which makes no callback. -/
theorem send (h : Told tr s) {t : Thread} {a : Addr} {msg : List Byte} {k : Nat} {evs : List Event}
    (hs : s.send D t a msg k = some (s', evs)) :
    Told (tr ++ evs.filterMap (callOf s.m_server)) s' :=
  h.server hs

theorem step (h : Told tr s) {act : Act} (hs : (lifecycle D).step s act = some (s', es)) :
    Told (tr ++ es) s' := by
  obtain ⟨⟨s₁, evs⟩, hstep, he⟩ := Option.map_eq_some_iff.mp hs
  obtain ⟨rfl, rfl⟩ := Prod.mk.inj he
  clear hs he
  cases act with
  | server act =>
      have hs : s.server D act = some (s₁, evs) := by
        cases act <;> first | exact hstep | simp [MyServer.step] at hstep
      exact h.server hs
  | swap =>
      simp only [MyServer.step] at hstep
      split at hstep
      · show Told (tr ++ evs.filterMap _) s₁
        split at hstep <;> obtain ⟨rfl, rfl⟩ := Prod.mk.inj (Option.some.inj hstep) <;>
          rw [List.filterMap_nil, List.append_nil]
        · exact ⟨h.registry, h.mirror, h.sessions⟩
        · exact h
      · cases hstep
  | despatch junk =>
      simp only [MyServer.step] at hstep
      split at hstep
      · next buf rest _ _ =>
        have hrest : Told tr { s with temp_bufs := rest } := ⟨h.registry, h.mirror, h.sessions⟩
        split at hstep
        · obtain ⟨frame, -, hstep⟩ := Option.bind_eq_some_iff.mp hstep
          exact hrest.send hstep
        · obtain ⟨rfl, rfl⟩ := Prod.mk.inj (Option.some.inj hstep)
          show Told (tr ++ []) _
          rw [List.append_nil]
          exact hrest
        · cases hstep
      · cases hstep
  | broadcast t client msg =>
      simp only [MyServer.step] at hstep
      split at hstep
      · split at hstep
        · exact h.send hstep
        · cases hstep
      · cases hstep

theorem of_run (h : (lifecycle D).Run AnyStep tr s) : Told tr s :=
  h.invariant Told .init fun ih _ hs => ih.step hs

end Told

end MyServer

end TestExamples
