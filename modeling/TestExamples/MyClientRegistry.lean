/-
TestExamples/MyClientRegistry.lean

The registry of the calls that wait for a reply.

`SyncSend` enters the address of a semaphore on its stack into `m_reqSemMap`
under its request id, and takes the entry out again before it returns; `OnMsg`
enters a reply into `m_reqResultMap` when the id of the reply is registered,
and releases the semaphore.  All of it happens in critical sections of
`m_reqSemLock`, and a step of `MyClient` is one of them, so every state between
two steps is one outside these sections.

Two facts carry the rest (`Registry`): no two calls hold the same id, and an
entry of `m_reqSemMap` is of the call that holds its key.  The counter of the
ids is an `int`; the model is that of the program as long as fewer than 2^31 ids
have been drawn.
-/
import TestExamples.MyClientSteps

namespace TestExamples

namespace MyClient

/-- **The registry is safe.**  A result is stored under registered ids only,
each registered id is that of exactly one `SyncSend` in progress, no message
makes `OnMsg` release a semaphore that is gone, and the id of a call that has
returned is in neither map. -/
structure SafeRegistry (tr : List Event) (s : MyClient) : Prop where
  results : ∀ k, s.m_reqResultMap k ≠ none → s.m_reqSemMap k ≠ none
  waiter : ∀ k, s.m_reqSemMap k ≠ none →
    ∃ i : Nat, k = i ∧ ∃! t, (s.pc t).reqId? = some i
  alive : ∀ msg, (s.OnMsg msg).isSome
  gone : ∀ (i : Nat) msg result, .syncReturned i msg result ∈ tr →
    s.m_reqSemMap i = none ∧ s.m_reqResultMap i = none

/-- What every step preserves. -/
structure Registry (tr : List Event) (s : MyClient) : Prop where
  range : ∀ t i, (s.pc t).reqId? = some i → i ≤ s.m_requestId
  inj : ∀ t t' i, (s.pc t).reqId? = some i → (s.pc t').reqId? = some i → t = t'
  sem : ∀ t i, (s.pc t).reqId? = some i → s.sems t ≠ none
  owner : ∀ k t, s.m_reqSemMap k = some t → ∃ i : Nat, k = i ∧ (s.pc t).reqId? = some i
  results : ∀ k, s.m_reqResultMap k ≠ none → s.m_reqSemMap k ≠ none
  returned : ∀ i msg result, .syncReturned i msg result ∈ tr →
    i ≤ s.m_requestId ∧ ∀ t, (s.pc t).reqId? ≠ some i

section Registry

variable {s s' : MyClient} {a : Act} {t : Thread} {tr es : List Event}

/-- A thread that moves on and keeps its id. -/
theorem reqId?_update {pc : Thread → SendPc} {q : SendPc} (hq : q.reqId? = (pc t).reqId?) :
    ∀ t', (Function.update pc t q t').reqId? = (pc t').reqId? := by
  apply forall_update (P := fun t' (p : SendPc) => p.reqId? = (pc t').reqId?)
  · exact hq
  · intro t' _
    rfl

/-- An entry that is there stays there when another one is made. -/
theorem update_ne_none {β : Type*} {f : Int → Option β} {k k' : Int} {v : β} (h : f k ≠ none) :
    Function.update f k' (some v) k ≠ none := by
  intro hnone
  rcases update_eq hnone with ⟨-, hnew⟩ | ⟨-, hold⟩
  · cases hnew
  · exact h hold

namespace Registry

theorem init : Registry [] MyClient.init where
  range := nofun
  inj := nofun
  sem := nofun
  owner := nofun
  results := fun _ h => absurd rfl h
  returned := nofun

/-- Every thread keeps its id, and no call returns. -/
theorem keep (h : Registry tr s) (hids : ∀ t, (s'.pc t).reqId? = (s.pc t).reqId?)
    (hle : s.m_requestId ≤ s'.m_requestId) (hsems : ∀ t, s.sems t ≠ none → s'.sems t ≠ none)
    (howner : ∀ k t, s'.m_reqSemMap k = some t → s.m_reqSemMap k = some t ∨
      ∃ i : Nat, k = i ∧ (s.pc t).reqId? = some i)
    (hstay : ∀ k, s.m_reqSemMap k ≠ none → s'.m_reqSemMap k ≠ none)
    (hresults : ∀ k, s'.m_reqResultMap k ≠ none →
      s.m_reqResultMap k ≠ none ∨ s.m_reqSemMap k ≠ none)
    (hes : ∀ i msg result, .syncReturned i msg result ∉ es) : Registry (tr ++ es) s' where
  range := by
    intro t i hi
    rw [hids] at hi
    exact (h.range t i hi).trans hle
  inj := by
    intro t t' i hi hi'
    rw [hids] at hi hi'
    exact h.inj t t' i hi hi'
  sem := by
    intro t i hi
    rw [hids] at hi
    exact hsems t (h.sem t i hi)
  owner := by
    intro k t hk
    rw [hids]
    rcases howner k t hk with hold | hnew
    · exact h.owner k t hold
    · exact hnew
  results := by
    intro k hk
    apply hstay
    rcases hresults k hk with hold | hreg
    · exact h.results k hold
    · exact hreg
  returned := by
    intro i msg result hmem
    rcases List.mem_append.mp hmem with hold | hnew
    · obtain ⟨hi, hno⟩ := h.returned i msg result hold
      refine ⟨hi.trans hle, fun t => ?_⟩
      rw [hids]
      exact hno t
    · exact absurd hnew (hes i msg result)

/-- One thread moves on and keeps its id, the maps stay as they are. -/
theorem move {q : SendPc} (h : Registry tr s) (hq : q.reqId? = (s.pc t).reqId?)
    (hes : ∀ i msg result, .syncReturned i msg result ∉ es) :
    Registry (tr ++ es) (s.setPc t q) :=
  h.keep (reqId?_update hq) (Nat.le_refl _) (fun _ => id) (fun _ _ => Or.inl) (fun _ => id)
    (fun _ => Or.inl) hes

/-- A `SyncSend` begins. -/
theorem syncSend (h : Registry tr s) (cmd msg : List Byte) (hpc : s.pc t = .idle) :
    Registry (tr ++ [.issued (s.m_requestId + 1) msg]) ({ s with
      m_requestId := s.m_requestId + 1
      sems := Function.update s.sems t (some 0) }.setPc t
        (.issued cmd msg (s.m_requestId + 1))) := by
  -- the new id is above all others
  have hids : ∀ t' i, (Function.update s.pc t (.issued cmd msg (s.m_requestId + 1)) t').reqId? =
      some i → t' = t ∧ i = s.m_requestId + 1 ∨ t' ≠ t ∧ (s.pc t').reqId? = some i := by
    apply forall_update (P := fun t' (p : SendPc) => ∀ i, p.reqId? = some i →
      t' = t ∧ i = s.m_requestId + 1 ∨ t' ≠ t ∧ (s.pc t').reqId? = some i)
    · intro i hi
      exact Or.inl ⟨rfl, (Option.some.inj hi).symm⟩
    · intro t' hne i hi
      exact Or.inr ⟨hne, hi⟩
  have hsmall : ∀ {t' i}, (s.pc t').reqId? = some i → i ≠ s.m_requestId + 1 := by
    intro t' i hi he
    have := h.range t' i hi
    omega
  refine ⟨fun t' i hi => ?_, fun t₁ t₂ i h₁ h₂ => ?_, fun t' i hi => ?_, fun k t' hk => ?_,
    h.results, fun i msg' result hmem => ?_⟩
  · rcases hids t' i hi with ⟨-, rfl⟩ | ⟨-, hold⟩
    · exact Nat.le_refl _
    · exact Nat.le_succ_of_le (h.range t' i hold)
  · rcases hids t₁ i h₁ with ⟨rfl, rfl⟩ | ⟨-, hold₁⟩
    · rcases hids t₂ _ h₂ with ⟨rfl, -⟩ | ⟨-, hold₂⟩
      · rfl
      · exact absurd rfl (hsmall hold₂)
    · rcases hids t₂ i h₂ with ⟨-, rfl⟩ | ⟨-, hold₂⟩
      · exact absurd rfl (hsmall hold₁)
      · exact h.inj t₁ t₂ i hold₁ hold₂
  · show Function.update s.sems t (some 0) t' ≠ none
    rcases hids t' i hi with ⟨rfl, -⟩ | ⟨hne, hold⟩
    · rw [Function.update_self]
      nofun
    · rw [Function.update_of_ne hne]
      exact h.sem t' i hold
  · obtain ⟨i, rfl, hi⟩ := h.owner k t' hk
    have hne : t' ≠ t := by
      rintro rfl
      rw [hpc] at hi
      cases hi
    refine ⟨i, rfl, ?_⟩
    show (Function.update s.pc t _ t').reqId? = _
    rw [Function.update_of_ne hne]
    exact hi
  · have hmem : .syncReturned i msg' result ∈ tr := by simpa using hmem
    obtain ⟨hi, hno⟩ := h.returned i msg' result hmem
    refine ⟨Nat.le_succ_of_le hi, fun t' ht' => ?_⟩
    rcases hids t' i ht' with ⟨-, rfl⟩ | ⟨-, hold⟩
    · exact absurd hi (Nat.not_succ_le_self _)
    · exact hno t' hold

/-- A `SyncSend` returns. -/
theorem leave {msg : List Byte} {i : Nat} {result : SyncSendRtn} (h : Registry tr s)
    (hpc : s.pc t = .leaving msg i result) :
    Registry (tr ++ [.syncReturned i msg result]) ((s.unregister t i).setPc t .idle) := by
  have hti : (s.pc t).reqId? = some i := by
    rw [hpc]
    rfl
  have hids : ∀ t' j, (Function.update s.pc t .idle t').reqId? = some j →
      t' ≠ t ∧ (s.pc t').reqId? = some j := by
    apply forall_update (P := fun t' (p : SendPc) => ∀ j, p.reqId? = some j →
      t' ≠ t ∧ (s.pc t').reqId? = some j)
    · exact nofun
    · intro t' hne j hj
      exact ⟨hne, hj⟩
  -- nobody else held the id
  have hfree : ∀ t', (Function.update s.pc t .idle t').reqId? ≠ some i := by
    intro t' hi
    obtain ⟨hne, hold⟩ := hids t' i hi
    exact hne (h.inj t' t i hold hti)
  refine ⟨fun t' j hj => ?_, fun t₁ t₂ j h₁ h₂ => ?_, fun t' j hj => ?_, fun k t' hk => ?_,
    fun k hk => ?_, fun j msg' result' hmem => ?_⟩
  · exact h.range t' j (hids t' j hj).2
  · exact h.inj t₁ t₂ j (hids t₁ j h₁).2 (hids t₂ j h₂).2
  · obtain ⟨hne, hold⟩ := hids t' j hj
    show Function.update s.sems t none t' ≠ none
    rw [Function.update_of_ne hne]
    exact h.sem t' j hold
  · rcases update_eq hk with ⟨-, hnew⟩ | ⟨hne, hold⟩
    · cases hnew
    · obtain ⟨j, rfl, hj⟩ := h.owner k t' hold
      have hne' : t' ≠ t := by
        rintro rfl
        exact hne (congrArg Int.ofNat (Option.some.inj (hj.symm.trans hti)))
      refine ⟨j, rfl, ?_⟩
      show (Function.update s.pc t _ t').reqId? = _
      rw [Function.update_of_ne hne']
      exact hj
  · -- both entries under the id go in the same section
    have hk : Function.update s.m_reqResultMap i none k ≠ none := hk
    show Function.update s.m_reqSemMap i none k ≠ none
    have hne : k ≠ i := by
      rintro rfl
      rw [Function.update_self] at hk
      exact hk rfl
    rw [Function.update_of_ne hne] at hk ⊢
    exact h.results k hk
  · rcases List.mem_append.mp hmem with hold | hnew
    · obtain ⟨hj, hno⟩ := h.returned j msg' result' hold
      exact ⟨hj, fun t' ht' => hno t' (hids t' j ht').2⟩
    · obtain ⟨rfl, -, -⟩ : j = i ∧ msg' = msg ∧ result' = result := by simpa using hnew
      exact ⟨h.range t j hti, hfree⟩

/-- A message comes in. -/
theorem onMsg {msg : List Byte} (h : Registry tr s) (hf : Files s msg s') :
    Registry (tr ++ []) s' := by
  cases hf with
  | short | queued =>
      exact h.keep (fun _ => rfl) (Nat.le_refl _) (fun _ => id) (fun _ _ => Or.inl) (fun _ => id)
        (fun _ => Or.inl) nofun
  | @stored t n hreg hsem =>
      refine h.keep (fun _ => rfl) (Nat.le_refl _) ?_ (fun _ _ => Or.inl) (fun _ => id) ?_ nofun
      · apply forall_update (P := fun t' (v : Option Nat) => s.sems t' ≠ none → v ≠ none)
        · exact fun _ => nofun
        · exact fun _ _ => id
      · intro k hk
        by_cases hki : k = replyId msg
        · right
          rw [hki, hreg]
          nofun
        · left
          show s.m_reqResultMap k ≠ none
          have hk : Function.update s.m_reqResultMap (replyId msg) _ k ≠ none := hk
          rwa [Function.update_of_ne hki] at hk

theorem step (h : Registry tr s) (hs : s.step a = some (s', es)) : Registry (tr ++ es) s' := by
  cases moves_of_step hs with
  | syncSend hpc => exact h.syncSend _ _ hpc
  | @register t cmd msg reqId hpc hnew =>
      have hid : (s.pc t).reqId? = some reqId := by
        rw [hpc]
        rfl
      refine h.keep (reqId?_update hid.symm) (Nat.le_refl _) (fun _ => id) (fun k t' hk => ?_)
        (fun k hk => update_ne_none hk) (fun _ => Or.inl) nofun
      rcases update_eq hk with ⟨rfl, hnew⟩ | ⟨-, hold⟩
      · obtain rfl := Option.some.inj hnew
        exact Or.inr ⟨reqId, rfl, hid⟩
      · exact Or.inl hold
  | registerAgain hpc | sent hpc | waitFailed hpc =>
      apply h.move
      · rw [hpc]
        rfl
      · simp
  | sendFailed hpc =>
      apply h.move
      · rw [hpc]
        rfl
      · intro i msg result
        split <;> simp
  | asyncSent hpc =>
      apply h.move
      · rw [hpc]
        rfl
      · intro i msg result
        split <;> simp
  | @granted t msg reqId n hpc hsem =>
      refine h.keep (reqId?_update ?_) (Nat.le_refl _) ?_ (fun _ _ => Or.inl) (fun _ => id)
        (fun _ => Or.inl) nofun
      · rw [hpc]
        rfl
      · apply forall_update (P := fun t' (v : Option Nat) => s.sems t' ≠ none → v ≠ none)
        · exact fun _ => nofun
        · exact fun _ _ => id
  | @take t msg reqId hpc =>
      refine h.keep (fun t' => ?_) ?_ (fun t' => ?_) (fun k t' hk => ?_) (fun k hk => ?_)
        (fun k hk => Or.inl (of_takeResult hk)) nofun
      · show (Function.update (s.takeResult reqId).2.pc t _ t').reqId? = _
        rw [takeResult_pc]
        apply reqId?_update
        rw [hpc]
        rfl
      · show s.m_requestId ≤ (s.takeResult reqId).2.m_requestId
        rw [takeResult_requestId]
      · show _ → (s.takeResult reqId).2.sems t' ≠ none
        rw [takeResult_sems]
        exact id
      · have hk : (s.takeResult reqId).2.m_reqSemMap k = some t' := hk
        rw [takeResult_m_reqSemMap] at hk
        exact Or.inl hk
      · show (s.takeResult reqId).2.m_reqSemMap k ≠ none
        rwa [takeResult_m_reqSemMap]
  | leave hpc => exact h.leave hpc
  | @asyncSend t cmd msg hpc =>
      refine h.keep (reqId?_update ?_) (Nat.le_succ _) (fun _ => id) (fun _ _ => Or.inl)
        (fun _ => id) (fun _ => Or.inl) (by simp)
      rw [hpc]
      rfl
  | onMsg hf => exact h.onMsg hf

theorem of_run (h : machine.Run AnyStep tr s) : Registry tr s :=
  h.invariant Registry init fun ih _ hs => ih.step hs

theorem safe (h : Registry tr s) : SafeRegistry tr s where
  results := h.results
  waiter := by
    intro k hk
    obtain ⟨t, ht⟩ := Option.ne_none_iff_exists'.mp hk
    obtain ⟨i, rfl, hi⟩ := h.owner k t ht
    exact ⟨i, rfl, t, hi, fun t' ht' => h.inj t' t i ht' hi⟩
  alive := by
    intro msg
    apply OnMsg_isSome
    intro t ht
    obtain ⟨i, -, hi⟩ := h.owner _ t ht
    exact h.sem t i hi
  gone := by
    intro i msg result hmem
    have hfree : s.m_reqSemMap i = none := by
      by_contra hreg
      obtain ⟨t, ht⟩ := Option.ne_none_iff_exists'.mp hreg
      obtain ⟨j, hij, hj⟩ := h.owner i t ht
      obtain rfl : i = j := by exact_mod_cast hij
      exact (h.returned i msg result hmem).2 t hj
    exact ⟨hfree, not_not.mp fun hres => h.results i hres hfree⟩

end Registry

/-- **The registry of waiters is safe in every run**, whatever the messages
received, the order of the steps and the ends of the waits. -/
theorem safeRegistry (h : machine.Run AnyStep tr s) : SafeRegistry tr s :=
  (Registry.of_run h).safe

end Registry

/-- A call that times out while its reply is on the way, which then comes
twice, before and after the call has returned; a second call waits all the
while. -/
theorem safeRegistry_two :
    ∃ tr s, machine.Run AnyStep tr s ∧
      .syncReturned 1 [65] ⟨RJ_E_TIMEOUT, [], []⟩ ∈ tr ∧ s.m_reqSemMap 2 = some 1 ∧
      s.m_receiveMsgVec.length = 1 ∧ SafeRegistry tr s := by
  let stx := SERVER_CMD_STX_COMMAND
  let reply : List Byte := (49 :: List.replicate 8 0) ++ (stx ++ List.replicate 20 0) ++ [65]
  obtain ⟨tr, s, hrun, hp⟩ := machine.run_of_exec AnyStep
    [.syncSend 0 stx [65], .register 0, .syncSend 1 stx [66], .register 1,
      .send 0 (fun _ => 0) true 0, .send 1 (fun _ => 0) true 0, .wait 0 .timeout,
      .onMsg reply, .leave 0, .onMsg reply]
    (fun q => decide (.syncReturned 1 [65] ⟨RJ_E_TIMEOUT, [], []⟩ ∈ q.2) &&
      (decide (q.1.m_reqSemMap 2 = some 1) && decide (q.1.m_receiveMsgVec.length = 1)))
    (by decide +kernel)
  obtain ⟨hret, hp⟩ := Bool.and_eq_true_iff.mp hp
  obtain ⟨hreg, hvec⟩ := Bool.and_eq_true_iff.mp hp
  exact ⟨tr, s, hrun, of_decide_eq_true hret, of_decide_eq_true hreg, of_decide_eq_true hvec,
    safeRegistry hrun⟩

end MyClient

end TestExamples
