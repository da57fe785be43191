/-
TestExamples/RJTcpServerPointers.lean

What a raw client pointer stands for.

The server knows a client by its address.  `Names s a k` says that the address
`a`, if a registered client is found there, is that of client number `k`; this
stays true until `AcceptConnection` registers another client at `a`
(`Names.step`).  `Sending s buf` says that a package is on its way to
`uv_write`, in a call of `Send` or in one of the two queues; only `Send`
makes one (`Sending.of_step`).
-/
import TestExamples.RJTcpServerSteps

namespace TestExamples

namespace RJTcpServer

variable {D : DataModel} {s s' : RJTcpServer} {act : Act} {es : List Event}

/-- A registered client found at `a` is client `k`. -/
def Names (s : RJTcpServer) (a : Addr) (k : Nat) : Prop :=
  a ∈ s.m_clients → ∀ c, s.heap a = some c → c.conn = k

/-- A package between the start of `Send` and `uv_write`. -/
def Sending (s : RJTcpServer) (buf : uv_tcp_send_buf) : Prop :=
  buf ∈ s.m_send_buf ∨ buf ∈ s.sendTemp ∨ ∃ t, s.pc t = .built buf

/-! ### Names -/

section Names

variable {a b : Addr} {k : Nat}

/-- Fewer registered clients, and the same numbers. -/
theorem Names.of_le (h : Names s a k) (hm : a ∈ s'.m_clients → a ∈ s.m_clients)
    (hh : ∀ c', s'.heap a = some c' → ∃ c, s.heap a = some c ∧ c.conn = c'.conn) :
    Names s' a k := by
  intro ha c' hc'
  obtain ⟨c, hc, hconn⟩ := hh c' hc'
  exact hconn ▸ h (hm ha) c hc

/-- A client changes and keeps its number. -/
theorem Names.setClient (h : Names s a k) {c c' : uv_tcp_client} (hc : s.heap b = some c)
    (hconn : c'.conn = c.conn) : Names (s.setClient b c') a k := by
  refine h.of_le id fun d hd => ?_
  rcases heap_eq hd with ⟨rfl, rfl⟩ | ⟨-, hold⟩
  · exact ⟨c, hc, hconn.symm⟩
  · exact ⟨d, hold, rfl⟩

theorem Names.drops (h : Names s a k) (hd : Drops s b es s') : Names s' a k := by
  cases hd with
  | unknown => exact h
  | known _ hc =>
      have herase : Names { s with m_clients := s.m_clients.erase b } a k :=
        h.of_le (fun ha => List.mem_of_mem_erase ha) fun d hd => ⟨d, hd, rfl⟩
      exact herase.setClient hc rfl

theorem Names.handles {call : OnMsgCall} (h : Names s a k) (hh : Handles s b call es s') :
    Names s' a k := by
  cases hh with
  | drop _ hd => exact h.drops hd
  | deliver => exact h
  | skip => exact h

/-- **A pointer goes on naming its client** until another client is registered
at the same address. -/
theorem Names.step (h : Names s a k) (hreg : Registry s) (hm : Moves D s act es s')
    (hnew : ∀ k', .OnNewConnection a k' ∉ es) : Names s' a k := by
  cases hm with
  | acceptNone => exact h
  | @acceptFailed b st i ac r _ hfresh =>
      intro ha c hc
      rcases heap_eq (s := { s with serial := s.serial + 1 }) hc with ⟨rfl, -⟩ | ⟨-, hold⟩
      · obtain ⟨d, hd⟩ := hreg.alive ha
        rw [hfresh] at hd
        cases hd
      · exact h ha c hold
  | @accepted b st i ac r _ _ _ _ _ =>
      have hne : a ≠ b := fun he => hnew s.serial (he ▸ List.mem_singleton_self _)
      intro ha c hc
      have hmem : a ∈ s.m_clients := (List.mem_append.mp ha).resolve_right (by simpa using hne)
      rcases heap_eq (s := { s with serial := s.serial + 1 }) hc with ⟨hab, -⟩ | ⟨-, hold⟩
      · exact absurd hab hne
      · exact h hmem c hold
  | read _ hc => exact h.setClient hc rfl
  | readEnd _ _ _ hd => exact h.drops hd
  | passExit => exact h
  | passMore _ hc => exact h.setClient hc rfl
  | @passStop b c r call _ _ _ hc _ hh =>
      have hidle : Names { s.setClient b { c with reader := r } with loop := .idle } a k :=
        h.setClient hc rfl
      exact hidle.handles hh
  | @passNext b c r call _ _ _ hc _ hh =>
      have hr : Names (s.setClient b { c with reader := r }) a k := h.setClient hc rfl
      exact hr.handles hh
  | asyncCallBack => exact h
  | swap => exact h
  | drainSent _ _ _ hc => exact Names.setClient (s := { s with sendTemp := _ }) h hc rfl
  | @drainFailed _ _ rest _ _ _ _ _ _ _ _ hd =>
      have hpop : Names { s with sendTemp := rest } a k := h
      exact hpop.drops hd
  | drainDropped => exact h
  | drained => exact h
  | walkClose _ hc => exact h.setClient hc rfl
  | walkSkip => exact h
  | walked => exact h
  | sent _ hc => exact h.setClient hc rfl
  | @sendFailed b c _ rest _ _ _ _ hc _ _ hd =>
      have hr : Names (s.setClient b { c with writes := rest }) a k := h.setClient hc rfl
      exact hr.drops hd
  | @clientClose b _ _ _ _ =>
      refine h.of_le id fun d hd => ⟨d, ?_, rfl⟩
      have hd : Function.update s.heap b none a = some d := hd
      exact (of_update_none hd).2
  | _ => exact h

/-- The pointer handed to `OnMsg` names its client. -/
theorem names_of_OnMsg {msg : List Byte} (hm : Moves D s act es s') (he : .OnMsg a k msg ∈ es) :
    Names s' a k := by
  have hhandle : ∀ {s b call es}, Handles s b call es s' → .OnMsg a k msg ∈ es → Names s' a k := by
    intro s b call es hh he
    cases hh with
    | drop _ hd => cases hd <;> simp at he
    | deliver _ _ _ hc =>
        obtain ⟨rfl, rfl, -⟩ : a = b ∧ k = _ ∧ msg = _ := by simpa using he
        exact fun _ d hd => Option.some.inj (hd.symm.trans hc) ▸ rfl
    | skip => simp at he
  cases hm with
  | readEnd _ _ _ hd => cases hd <;> simp at he
  | passStop _ _ _ hh => exact hhandle hh he
  | passNext _ _ _ hh => exact hhandle hh he
  | drainFailed _ _ _ _ _ hd => cases hd <;> simp at he
  | sendFailed _ _ _ _ hd => cases hd <;> simp at he
  | _ => simp at he

/-- The pointer handed to `OnNewConnection` names its client, and was not
registered before: `AcceptConnection` has created the client there. -/
theorem names_of_OnNewConnection (hreg : Registry s) (hm : Moves D s act es s')
    (he : .OnNewConnection a k ∈ es) :
    es = [.OnNewConnection a k] ∧ act = .accept a 0 0 0 0 ∧ s.m_is_closing = false ∧
      a ∉ s.m_clients ∧ Names s' a k := by
  cases hm with
  | accepted _ hfresh hok hopen =>
      obtain ⟨rfl, rfl⟩ : a = _ ∧ k = _ := by simpa using he
      obtain ⟨rfl, rfl, rfl, rfl⟩ := hok
      refine ⟨rfl, rfl, hopen, fun ha => ?_, fun _ d hd => ?_⟩
      · obtain ⟨d, hd⟩ := hreg.alive ha
        rw [hfresh] at hd
        cases hd
      · obtain rfl := heap_self (s := { s with serial := s.serial + 1 }) hd
        rfl
  | readEnd _ _ _ hd => cases hd <;> simp at he
  | passStop _ _ _ hh =>
      cases hh with
      | drop _ hd => cases hd <;> simp at he
      | _ => simp at he
  | passNext _ _ _ hh =>
      cases hh with
      | drop _ hd => cases hd <;> simp at he
      | _ => simp at he
  | drainFailed _ _ _ _ _ hd => cases hd <;> simp at he
  | sendFailed _ _ _ _ hd => cases hd <;> simp at he
  | _ => simp at he

end Names

/-! ### Packages -/

section Sending

variable {buf : uv_tcp_send_buf} {t : Thread} {a : Addr}

theorem Sending.of_drops (hd : Drops s a es s') (h : Sending s' buf) : Sending s buf := by
  cases hd <;> exact h

theorem Sending.of_handles {call : OnMsgCall} (hh : Handles s a call es s') (h : Sending s' buf) :
    Sending s buf := by
  cases hh with
  | drop _ hd => exact h.of_drops hd
  | deliver => exact h
  | skip => exact h

/-- A thread moves on to a place without a package. -/
theorem Sending.of_setPc {q : CallPc} (hq : ∀ b, q ≠ .built b) (h : Sending (s.setPc t q) buf) :
    Sending s buf := by
  rcases h with h | h | ⟨t', ht'⟩
  · exact Or.inl h
  · exact Or.inr (Or.inl h)
  · rw [setPc_pc] at ht'
    rcases eq_or_ne t' t with rfl | hne
    · rw [Function.update_self] at ht'
      exact absurd ht' (hq buf)
    · rw [Function.update_of_ne hne] at ht'
      exact Or.inr (Or.inr ⟨t', ht'⟩)

/-- **Only `Send` puts a package on its way.** -/
theorem Sending.of_step (h : Sending s' buf) (hm : Moves D s act es s') :
    Sending s buf ∨
      ∃ t client msg meant, act = .send t client msg meant ∧
        buf = ⟨client, Msg2Package msg, meant⟩ := by
  cases hm with
  | readEnd _ _ _ hd => exact Or.inl (h.of_drops hd)
  | passStop _ _ _ hh =>
      have hs := h.of_handles hh
      exact Or.inl hs
  | passNext _ _ _ hh =>
      have hs := h.of_handles hh
      exact Or.inl hs
  | swap =>
      rcases h with h | h | h
      · exact Or.inl (Or.inr (Or.inl h))
      · exact Or.inl (Or.inl h)
      · exact Or.inl (Or.inr (Or.inr h))
  | drainSent _ hq =>
      rcases h with h | h | h
      · exact Or.inl (Or.inl h)
      · exact Or.inl (Or.inr (Or.inl (hq ▸ List.mem_cons_of_mem _ h)))
      · exact Or.inl (Or.inr (Or.inr h))
  | drainFailed _ hq _ _ _ hd =>
      rcases h.of_drops hd with h | h | h
      · exact Or.inl (Or.inl h)
      · exact Or.inl (Or.inr (Or.inl (hq ▸ List.mem_cons_of_mem _ h)))
      · exact Or.inl (Or.inr (Or.inr h))
  | drainDropped _ hq =>
      rcases h with h | h | h
      · exact Or.inl (Or.inl h)
      · exact Or.inl (Or.inr (Or.inl (hq ▸ List.mem_cons_of_mem _ h)))
      · exact Or.inl (Or.inr (Or.inr h))
  | sendFailed _ _ _ _ hd =>
      have hs := h.of_drops hd
      exact Or.inl hs
  | @send t client msg meant =>
      rcases h with h | h | ⟨t', ht'⟩
      · exact Or.inl (Or.inl h)
      · exact Or.inl (Or.inr (Or.inl h))
      · rw [setPc_pc] at ht'
        rcases eq_or_ne t' t with rfl | hne
        · rw [Function.update_self] at ht'
          exact Or.inr ⟨t', client, msg, meant, rfl, (CallPc.built.inj ht').symm⟩
        · rw [Function.update_of_ne hne] at ht'
          exact Or.inl (Or.inr (Or.inr ⟨t', ht'⟩))
  | @push t b hpc =>
      rcases Sending.of_setPc (by simp) h with h | h | h
      · rcases List.mem_append.mp h with h | h
        · exact Or.inl (Or.inl h)
        · exact Or.inl (Or.inr (Or.inr ⟨t, List.mem_singleton.mp h ▸ hpc⟩))
      · exact Or.inl (Or.inr (Or.inl h))
      · exact Or.inl (Or.inr (Or.inr h))
  | signal =>
      have hs := Sending.of_setPc (by simp) h
      exact Or.inl hs
  | close =>
      have hs := Sending.of_setPc (by simp) h
      exact Or.inl hs
  | setClosing =>
      have hs := Sending.of_setPc (by simp) h
      exact Or.inl hs
  | _ => exact Or.inl h

/-- A package written was on its way, to the client found at its address. -/
theorem sending_of_write {k : Nat} {ret : Int} (hm : Moves D s act es s')
    (he : .uv_write k buf ret ∈ es) :
    Sending s buf ∧ buf.client ∈ s.m_clients ∧ ∃ c, s.heap buf.client = some c ∧ c.conn = k := by
  cases hm with
  | readEnd _ _ _ hd => cases hd <;> simp at he
  | passStop _ _ _ hh =>
      cases hh with
      | drop _ hd => cases hd <;> simp at he
      | _ => simp at he
  | passNext _ _ _ hh =>
      cases hh with
      | drop _ hd => cases hd <;> simp at he
      | _ => simp at he
  | drainSent _ hq hmem hc =>
      obtain ⟨rfl, rfl, -⟩ : k = _ ∧ buf = _ ∧ ret = _ := by simpa using he
      exact ⟨Or.inr (Or.inl (hq ▸ List.mem_cons_self ..)), hmem, _, hc, rfl⟩
  | drainFailed _ hq hmem hc _ hd =>
      obtain ⟨rfl, rfl, -⟩ : k = _ ∧ buf = _ ∧ ret = _ := by
        cases hd <;> simpa using he
      exact ⟨Or.inr (Or.inl (hq ▸ List.mem_cons_self ..)), hmem, _, hc, rfl⟩
  | sendFailed _ _ _ _ hd => cases hd <;> simp at he
  | _ => simp at he

end Sending

end RJTcpServer

end TestExamples
