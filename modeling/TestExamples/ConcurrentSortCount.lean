/-
TestExamples/ConcurrentSortCount.lean

What `g_cal_count` counts.

In every run the counter is the number of phases completed by all workers
together, whatever wakes them (`Counted`).
-/
import TestExamples.ConcurrentSort

namespace TestExamples

namespace ConcurrentSort

/-- The phases counted by a worker. -/
def FuncPc.completed (g_max_phase : Nat) : FuncPc → Nat
  | .sort phase _ => phase - 1
  | .notify phase | .lock phase | .wait phase | .blocked phase | .woken phase | .unlock phase =>
      phase
  | .done => g_max_phase

/-- A worker is in one of the phases. -/
def FuncPc.InRange (g_max_phase : Nat) : FuncPc → Prop
  | .sort p _ | .notify p | .lock p | .wait p | .blocked p | .woken p | .unlock p =>
      1 ≤ p ∧ p ≤ g_max_phase
  | .done => True

/-- The turn of its loop `main` is in. -/
def MainPc.turn : MainPc → Option Nat
  | .lock i | .test i | .wait i | .blocked i | .woken i | .unlock i | .print i | .notify i => some i
  | .join _ | .done => none

/-- The phases `main` has issued the `notify_all` of. -/
def MainPc.issued (g_max_phase : Nat) (pc : MainPc) : Nat := pc.turn.getD g_max_phase

section Pc

variable {size g_max_phase w : Nat} {pc : FuncPc}

theorem FuncPc.completed_wake : pc.wake.completed g_max_phase = pc.completed g_max_phase := by
  cases pc <;> rfl

theorem FuncPc.InRange.wake (h : pc.InRange g_max_phase) : pc.wake.InRange g_max_phase := by
  cases pc <;> exact h

theorem completed_whilePhase {p : Nat} (h : p ≤ g_max_phase) :
    (whilePhase size g_max_phase w (p + 1)).completed g_max_phase = p := by
  unfold whilePhase
  split
  · rfl
  · next hlt => exact Nat.le_antisymm (Nat.le_of_not_lt hlt) h

theorem inRange_whilePhase (p : Nat) :
    (whilePhase size g_max_phase w (p + 1)).InRange g_max_phase := by
  unfold whilePhase
  split
  · next hle => exact ⟨Nat.succ_le_succ (Nat.zero_le p), hle⟩
  · exact True.intro

theorem MainPc.turn_wake (pc : MainPc) : pc.wake.turn = pc.turn := by
  cases pc <;> rfl

theorem turn_forPhase {i j : Nat} (h : (forPhase g_max_phase i).turn = some j) :
    j = i ∧ i < g_max_phase := by
  unfold forPhase at h
  split at h
  · next hi => exact ⟨(Option.some.inj h).symm, hi⟩
  · cases h

theorem issued_forPhase {i : Nat} (hi : i ≤ g_max_phase) :
    (forPhase g_max_phase i).issued g_max_phase = i := by
  unfold forPhase
  split
  · rfl
  · next hlt => exact Nat.le_antisymm (Nat.le_of_not_lt hlt) hi

end Pc

/-! ### The invariant -/

/-- What holds in every run. -/
structure Counted (size g_max_phase : Nat) (s : ConcurrentSort) : Prop where
  count : s.g_cal_count = total size (FuncPc.completed g_max_phase) s.workers
  range : ∀ w, w < size → (s.workers w).InRange g_max_phase
  inLoop : ∀ i, s.main.turn = some i → i < g_max_phase

section Counted

variable {size g_max_phase w : Nat} {arr : Grid} {s s' : ConcurrentSort} {act : Act}
  {tr es : List Grid}

/-- One worker moves: what held of every worker holds again if it holds of
where this one is now. -/
theorem forall_workers_update {P : FuncPc → Prop} {pc : FuncPc}
    (h : ∀ i, i < size → P (s.workers i)) (hpc : P pc)
    (hworkers : s'.workers = Function.update s.workers w pc) :
    ∀ i, i < size → P (s'.workers i) := by
  rw [hworkers]
  apply forall_update (P := fun i pc => i < size → P pc)
  · intro _
    exact hpc
  · intro i _ hi
    exact h i hi

namespace Counted

theorem init : Counted size g_max_phase (init size g_max_phase arr) where
  count := (total_eq_zero.mpr fun _ _ => completed_whilePhase (Nat.zero_le _)).symm
  range := fun _ _ => inRange_whilePhase 0
  inLoop := fun i hi => by
    obtain ⟨rfl, hlt⟩ := turn_forPhase hi
    exact hlt

/-- One worker moves, and counts or does not. -/
theorem move {pc : FuncPc} (h : Counted size g_max_phase s) (hw : w < size)
    (hworkers : s'.workers = Function.update s.workers w pc) (hturn : s'.main.turn = s.main.turn)
    (hrange : pc.InRange g_max_phase)
    (hcount : s'.g_cal_count + (s.workers w).completed g_max_phase =
      s.g_cal_count + pc.completed g_max_phase) : Counted size g_max_phase s' := by
  refine ⟨?_, forall_workers_update h.range hrange hworkers, ?_⟩
  · have hmove := total_update hw (FuncPc.completed g_max_phase) s.workers pc
    have hold := h.count
    rw [hworkers]
    omega
  · rw [hturn]
    exact h.inLoop

theorem turn (h : Counted size g_max_phase s) (hw : w < size)
    (ht : Turn size g_max_phase s w s') : Counted size g_max_phase s' := by
  have hrange := h.range w hw
  cases ht with
  | cas hpc | lock hpc | block hpc | relock hpc =>
      rw [hpc] at hrange
      refine h.move hw rfl rfl hrange ?_
      rw [hpc]
      rfl
  | notify_one hpc =>
      rw [hpc] at hrange
      refine h.move hw rfl (MainPc.turn_wake _) hrange ?_
      rw [hpc]
      rfl
  -- one more on both sides
  | @count phase hpc =>
      rw [hpc] at hrange
      refine h.move hw rfl rfl hrange ?_
      rw [hpc]
      show s.g_cal_count + 1 + (phase - 1) = s.g_cal_count + phase
      have := hrange.1
      omega
  -- the next phase, or the end: the phases completed are the same
  | @unlock phase hpc =>
      rw [hpc] at hrange
      refine h.move hw rfl rfl (inRange_whilePhase phase) ?_
      rw [hpc, completed_whilePhase hrange.2]
      rfl

/-- `main` moves within a turn of its loop, or behind the loop. -/
theorem main (h : Counted size g_max_phase s) (hworkers : s'.workers = s.workers)
    (hcount : s'.g_cal_count = s.g_cal_count) (hturn : s'.main.turn = s.main.turn) :
    Counted size g_max_phase s' := by
  refine ⟨?_, ?_, ?_⟩
  · rw [hcount, hworkers]
    exact h.count
  · rw [hworkers]
    exact h.range
  · rw [hturn]
    exact h.inLoop

theorem mainTurn (h : Counted size g_max_phase s) (ht : MainTurn size g_max_phase s es s') :
    Counted size g_max_phase s' := by
  cases ht with
  | lock hm =>
      refine h.main rfl rfl ?_
      rcases hm with hm | hm <;> rw [hm] <;> rfl
  | short hm | block hm | join hm | exit hm | counted hm | unlock hm | print hm =>
      refine h.main rfl rfl ?_
      rw [hm]
      rfl
  | notify_all =>
      refine ⟨?_, fun w hw => (h.range w hw).wake, fun j hj => ?_⟩
      · show s.g_cal_count = _
        rw [h.count]
        exact total_congr fun w _ => FuncPc.completed_wake.symm
      · obtain ⟨rfl, hlt⟩ := turn_forPhase hj
        exact hlt

theorem step (h : Counted size g_max_phase s) (hm : Moves size g_max_phase s act es s') :
    Counted size g_max_phase s' := by
  cases hm with
  | worker hw ht => exact h.turn hw ht
  | @wakeWorker w phase hw hpc =>
      have hrange := h.range w hw
      rw [hpc] at hrange
      refine h.move hw rfl rfl hrange ?_
      rw [hpc]
      rfl
  | main ht => exact h.mainTurn ht
  | wakeMain hm =>
      refine h.main rfl rfl ?_
      rw [hm]
      rfl

end Counted

end Counted

end ConcurrentSort

end TestExamples
