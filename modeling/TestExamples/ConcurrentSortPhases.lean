/-
TestExamples/ConcurrentSortPhases.lean

The barrier between two phases.

A worker that has counted waits on `g_cv` without a predicate, so a wake-up
with no notification lets it go on at once.  `NoEarlyWake` excludes the
wake-ups that come before the `notify_all` of the phase the worker waits in;
in the last phase there is nothing to go on to, and none is excluded.  Under
this guard a worker is at most one phase ahead of the notifications `main` has
issued (`Timely`) and never behind them, and so `main` notifies only when every
worker has completed the phase.
-/
import TestExamples.ConcurrentSortCount

namespace TestExamples

namespace ConcurrentSort

/-- The turn `main` is in, when it has found the workers counted. -/
def MainPc.counted : MainPc → Option Nat
  | .unlock i | .print i | .notify i => some i
  | _ => none

/-- A worker is about to compare and swap, in this phase. -/
def FuncPc.Sorting (pc : FuncPc) (phase : Nat) : Prop := ∃ c rest, pc = .sort phase (c :: rest)

/-- A worker has finished the loops of this phase. -/
def FuncPc.Finished (phase : Nat) : FuncPc → Prop
  | .sort p rest => phase < p ∨ phase = p ∧ rest = []
  | .notify p | .lock p | .wait p | .blocked p | .woken p | .unlock p => phase ≤ p
  | .done => True

/-- **Phases are separated.**  Nobody is in phase `p + 1` before every other
worker has finished phase `p`, and while `main` prints the grid of a phase
every worker has finished it and none is in the next. -/
structure Separated (size : Nat) (s : ConcurrentSort) : Prop where
  workers : ∀ w w' p, w < size → w' < size → w ≠ w' → (s.workers w).Sorting (p + 1) →
    (s.workers w').Finished p
  printing : ∀ i, s.main = .print i → ∀ w, w < size →
    (s.workers w).Finished (i + 1) ∧ ∀ p, ¬ (s.workers w).Sorting p

/-- No worker is woken for no reason from the wait of a phase that has a next
one before `main` has issued the `notify_all` of it. -/
def NoEarlyWake (g_max_phase : Nat) (s : ConcurrentSort) (act : Act) : Prop :=
  ∀ w phase, act = .wakeWorker w → s.workers w = .blocked phase → phase < g_max_phase →
    phase ≤ s.main.issued g_max_phase

/-- Where a worker can be when `k` phases have been notified. -/
def FuncPc.Timely (g_max_phase k : Nat) : FuncPc → Prop
  | .sort p _ | .notify p | .lock p | .wait p | .blocked p => p ≤ k + 1
  | .woken p | .unlock p => p ≤ k + 1 ∧ (p < g_max_phase → p ≤ k)
  | .done => g_max_phase ≤ k + 1

/-- What holds in every run without an early wake-up. -/
structure Barrier (size g_max_phase : Nat) (s : ConcurrentSort) : Prop where
  base : Counted size g_max_phase s
  timely : ∀ w, w < size → (s.workers w).Timely g_max_phase (s.main.issued g_max_phase)
  reached : ∀ w, w < size → s.main.issued g_max_phase ≤ (s.workers w).completed g_max_phase
  counted : ∀ i, s.main.counted = some i → (i + 1) * size ≤ s.g_cal_count

section Pc

variable {size g_max_phase k w p : Nat} {pc : FuncPc}

theorem FuncPc.Timely.completed_le (h : pc.Timely g_max_phase k) :
    pc.completed g_max_phase ≤ k + 1 := by
  cases pc <;> simp only [Timely, completed] at h ⊢ <;> omega

theorem FuncPc.Timely.succ (h : pc.Timely g_max_phase k) : pc.wake.Timely g_max_phase (k + 1) := by
  cases pc <;> simp only [Timely, wake] at h ⊢ <;> omega

/-- A worker that has counted the phase has finished it. -/
theorem FuncPc.InRange.finished (h : pc.InRange g_max_phase)
    (hp : p ≤ pc.completed g_max_phase) : pc.Finished p := by
  cases pc with
  | sort q rest =>
      left
      exact Nat.lt_of_le_of_lt hp (Nat.sub_lt h.1 Nat.one_pos)
  | done => exact True.intro
  | notify | lock | wait | blocked | woken | unlock => exact hp

/-- A worker that compares and swaps has counted the phases before. -/
theorem FuncPc.InRange.completed_of_sorting (h : pc.InRange g_max_phase) (hs : pc.Sorting p) :
    pc.completed g_max_phase + 1 = p := by
  obtain ⟨c, rest, rfl⟩ := hs
  exact Nat.sub_add_cancel h.1

theorem timely_whilePhase (h : (FuncPc.unlock p).Timely g_max_phase k) :
    (whilePhase size g_max_phase w (p + 1)).Timely g_max_phase k := by
  unfold whilePhase
  simp only [FuncPc.Timely] at h
  split <;> simp only [FuncPc.Timely] <;> omega

theorem MainPc.counted_wake (pc : MainPc) : pc.wake.counted = pc.counted := by
  cases pc <;> rfl

theorem MainPc.turn_of_counted {pc : MainPc} {i : Nat} (h : pc.counted = some i) :
    pc.turn = some i := by
  cases pc <;> first | exact h | cases h

theorem counted_forPhase (i : Nat) : (forPhase g_max_phase i).counted = none := by
  unfold forPhase
  split <;> rfl

end Pc

/-! ### The barrier -/

section Barrier

variable {size g_max_phase w : Nat} {arr : Grid} {s s' : ConcurrentSort} {act : Act}
  {tr es : List Grid}

namespace Barrier

theorem init : Barrier size g_max_phase (init size g_max_phase arr) := by
  have hissued : (ConcurrentSort.init size g_max_phase arr).main.issued g_max_phase = 0 :=
    issued_forPhase (Nat.zero_le _)
  refine ⟨.init, fun w _ => ?_, fun w _ => ?_, fun i hi => ?_⟩
  · rw [hissued]
    show (whilePhase size g_max_phase w 1).Timely g_max_phase 0
    unfold whilePhase
    split <;> simp only [FuncPc.Timely] <;> omega
  · rw [hissued]
    exact Nat.zero_le _
  · exact absurd (counted_forPhase 0 ▸ hi) nofun

/-- One worker moves; the counter does not go down. -/
theorem move {pc : FuncPc} (h : Barrier size g_max_phase s) (hbase : Counted size g_max_phase s')
    (hw : w < size) (hworkers : s'.workers = Function.update s.workers w pc)
    (hturn : s'.main.turn = s.main.turn) (hcounted : s'.main.counted = s.main.counted)
    (htimely : pc.Timely g_max_phase (s.main.issued g_max_phase))
    (hmore : (s.workers w).completed g_max_phase ≤ pc.completed g_max_phase)
    (hcount : s.g_cal_count ≤ s'.g_cal_count) : Barrier size g_max_phase s' := by
  have hissued : s'.main.issued g_max_phase = s.main.issued g_max_phase := by
    unfold MainPc.issued
    rw [hturn]
  refine ⟨hbase, ?_, ?_, fun i hi => Nat.le_trans (h.counted i (hcounted ▸ hi)) hcount⟩
  · rw [hissued]
    exact forall_workers_update h.timely htimely hworkers
  · rw [hissued]
    refine forall_workers_update (P := fun pc => _ ≤ pc.completed g_max_phase) h.reached ?_ hworkers
    exact Nat.le_trans (h.reached w hw) hmore

theorem turn (h : Barrier size g_max_phase s) (hw : w < size)
    (ht : Turn size g_max_phase s w s') : Barrier size g_max_phase s' := by
  have htimely := h.timely w hw
  have hbase := h.base.turn hw ht
  cases ht with
  | cas hpc | lock hpc | block hpc | relock hpc =>
      rw [hpc] at htimely
      refine h.move hbase hw rfl rfl rfl htimely ?_ (Nat.le_refl _)
      rw [hpc]
      exact Nat.le_refl _
  | notify_one hpc =>
      rw [hpc] at htimely
      -- `main` may be woken by it, and stays in its turn
      refine h.move hbase hw rfl (MainPc.turn_wake _) (MainPc.counted_wake _) htimely ?_
        (Nat.le_refl _)
      rw [hpc]
      exact Nat.le_refl _
  | count hpc =>
      rw [hpc] at htimely
      refine h.move hbase hw rfl rfl rfl htimely ?_ (Nat.le_succ _)
      rw [hpc]
      exact Nat.sub_le ..
  | unlock hpc =>
      have hrange := h.base.range w hw
      rw [hpc] at htimely hrange
      -- the worker goes on to the next phase, or leaves
      refine h.move hbase hw rfl rfl rfl (timely_whilePhase htimely) ?_ (Nat.le_refl _)
      rw [hpc, completed_whilePhase hrange.2]
      exact Nat.le_refl _

/-- `main` moves within a turn of its loop, or behind the loop. -/
theorem main (h : Barrier size g_max_phase s) (hbase : Counted size g_max_phase s')
    (hworkers : s'.workers = s.workers) (hturn : s'.main.turn = s.main.turn)
    (hcounted : ∀ i, s'.main.counted = some i → (i + 1) * size ≤ s'.g_cal_count) :
    Barrier size g_max_phase s' := by
  have hissued : s'.main.issued g_max_phase = s.main.issued g_max_phase := by
    unfold MainPc.issued
    rw [hturn]
  refine ⟨hbase, ?_, ?_, hcounted⟩
  · rw [hworkers, hissued]
    exact h.timely
  · rw [hworkers, hissued]
    exact h.reached

/-- When `main` has found the workers counted, each has completed the phase. -/
theorem completed_of_counted (h : Barrier size g_max_phase s) {i : Nat}
    (hi : s.main.counted = some i) :
    s.main.issued g_max_phase = i ∧
      ∀ w, w < size → (s.workers w).completed g_max_phase = i + 1 := by
  have hissued : s.main.issued g_max_phase = i := by
    unfold MainPc.issued
    rw [MainPc.turn_of_counted hi]
    rfl
  -- nobody has completed more than `i + 1` phases, and together they have `(i + 1) * size`
  refine ⟨hissued, eq_of_total_ge (fun w hw => ?_) ?_⟩
  · have := (h.timely w hw).completed_le
    rwa [hissued] at this
  · have := h.counted i hi
    rw [h.base.count, Nat.mul_comm] at this
    exact this

/-- **The notification of a phase.**  Every worker has completed it, so each is
woken or on its way to block. -/
theorem notify_all {i : Nat} (h : Barrier size g_max_phase s) (hm : s.main = .notify i)
    (hbase : Counted size g_max_phase s') (hworkers : ∀ w, s'.workers w = (s.workers w).wake)
    (hmain : s'.main = forPhase g_max_phase (i + 1)) : Barrier size g_max_phase s' := by
  have hturn : s.main.turn = some i := by
    rw [hm]
    rfl
  obtain ⟨hissued, hcompleted⟩ := h.completed_of_counted (i := i) (by rw [hm]; rfl)
  have hnext : s'.main.issued g_max_phase = i + 1 := by
    rw [hmain]
    exact issued_forPhase (h.base.inLoop i hturn)
  refine ⟨hbase, fun w hw => ?_, fun w hw => ?_, fun j hj => ?_⟩
  · have := h.timely w hw
    rw [hissued] at this
    rw [hnext, hworkers]
    exact this.succ
  · rw [hnext, hworkers, FuncPc.completed_wake, hcompleted w hw]
  · rw [hmain, counted_forPhase] at hj
    cases hj

theorem mainTurn (h : Barrier size g_max_phase s) (ht : MainTurn size g_max_phase s es s') :
    Barrier size g_max_phase s' := by
  have hbase := h.base.mainTurn ht
  cases ht with
  | lock hm =>
      refine h.main hbase rfl ?_ nofun
      rcases hm with hm | hm <;> rw [hm] <;> rfl
  | short hm | block hm | join hm | exit hm =>
      refine h.main hbase rfl ?_ nofun
      rw [hm]
      rfl
  | counted hm hle =>
      refine h.main hbase rfl (by rw [hm]; rfl) fun i hi => ?_
      obtain rfl := Option.some.inj hi
      exact hle
  | unlock hm | print hm =>
      refine h.main hbase rfl (by rw [hm]; rfl) fun i hi => ?_
      obtain rfl := Option.some.inj hi
      exact h.counted _ (by rw [hm]; rfl)
  | notify_all hm => exact h.notify_all hm hbase (fun _ => rfl) rfl

theorem step (h : Barrier size g_max_phase s) (hok : NoEarlyWake g_max_phase s act)
    (hm : Moves size g_max_phase s act es s') : Barrier size g_max_phase s' := by
  have hbase := h.base.step hm
  cases hm with
  | worker hw ht => exact h.turn hw ht
  | @wakeWorker w phase hw hpc =>
      have htimely := h.timely w hw
      rw [hpc] at htimely
      -- here the guard is needed: the notification of the phase has been issued
      refine h.move hbase hw rfl rfl rfl ⟨htimely, hok w phase rfl hpc⟩ ?_ (Nat.le_refl _)
      rw [hpc]
      exact Nat.le_refl _
  | main ht => exact h.mainTurn ht
  | wakeMain hm => exact h.main hbase rfl (by rw [hm]; rfl) nofun

theorem of_run (h : (machine size g_max_phase arr).Run (NoEarlyWake g_max_phase) tr s) :
    Barrier size g_max_phase s :=
  h.invariant (fun _ s => Barrier size g_max_phase s) .init fun ih hok hs =>
    ih.step hok (moves_of_step hs)

theorem separated (h : Barrier size g_max_phase s) : Separated size s where
  workers := by
    intro w w' p hw hw' _ hsort
    have hcompleted := (h.base.range w hw).completed_of_sorting hsort
    have hle := (h.timely w hw)
    obtain ⟨c, rest, hpc⟩ := hsort
    rw [hpc] at hle
    -- a worker in phase `p + 1` shows that phase `p` has been notified
    have hissued : p ≤ s.main.issued g_max_phase := Nat.le_of_succ_le_succ hle
    exact (h.base.range w' hw').finished (Nat.le_trans hissued (h.reached w' hw'))
  printing := by
    intro i hm w hw
    obtain ⟨hissued, hcompleted⟩ := h.completed_of_counted (i := i) (by rw [hm]; rfl)
    have hrange := h.base.range w hw
    refine ⟨hrange.finished (Nat.le_of_eq (hcompleted w hw).symm), fun p hsort => ?_⟩
    have hphase := hrange.completed_of_sorting hsort
    have htimely := h.timely w hw
    obtain ⟨c, rest, hpc⟩ := hsort
    rw [hcompleted w hw] at hphase
    rw [hpc, hissued] at htimely
    -- it would be in phase `i + 2`, of which nobody may know before the notification
    exact absurd htimely (by simp only [FuncPc.Timely]; omega)

end Barrier

/-- **The barrier separates the phases.**  In a run without an early wake-up,
no worker compares and swaps in a phase before every other worker has finished
the phase before it, and `main` prints a grid nobody is modifying. -/
theorem separated_of_noEarlyWake
    (h : (machine size g_max_phase arr).Run (NoEarlyWake g_max_phase) tr s) : Separated size s :=
  (Barrier.of_run h).separated

end Barrier

/-- Two workers in the second phase, after `main` has printed the grid of the
first. -/
theorem separated_of_noEarlyWake_two :
    ∃ tr s, (machine 2 2 fun i j => i + j).Run (NoEarlyWake 2) tr s ∧
      tr.map (Grid.cells 2) = [[0, 1, 2, 1]] ∧ (s.workers 0).Sorting 2 ∧
      s.workers 1 = .notify 2 ∧ Separated 2 s := by
  have hstart : (machine 2 2 fun i j => i + j).Run (NoEarlyWake 2) [] _ := .start
  obtain ⟨tr, s, hrun, hp⟩ := hstart.extend
    (fun _ act => act ∈ [.worker 0, .worker 1, .main])
    (fun s act hact w phase he => by simp [he] at hact)
    [.worker 0, .worker 0, .worker 0, .worker 0, .worker 0, .main, .main, .main, .worker 1,
      .worker 1, .worker 1, .worker 1, .worker 1, .main, .main, .main, .main, .main, .worker 0,
      .worker 0, .worker 1, .worker 1, .worker 1, .worker 1]
    (fun q => decide (q.2.map (Grid.cells 2) = [[0, 1, 2, 1]] ∧
      q.1.workers 0 = .sort 2 (phaseLoop 2 0 2) ∧ q.1.workers 1 = .notify 2)) (by decide +kernel)
  obtain ⟨hprint, h₀, h₁⟩ := of_decide_eq_true hp
  exact ⟨tr, s, hrun, hprint, ⟨_, _, h₀⟩, h₁, separated_of_noEarlyWake hrun⟩

/-- A worker is woken for no reason and goes on while the other has not begun. -/
theorem not_separated :
    ¬ ∀ (size g_max_phase : Nat) (arr : Grid) (tr : List Grid) (s : ConcurrentSort),
      (machine size g_max_phase arr).Run AnyStep tr s → Separated size s := by
  intro h
  obtain ⟨tr, s, hrun, hp⟩ := (machine 2 2 fun _ _ => 0).run_of_exec AnyStep
    [.worker 0, .worker 0, .worker 0, .worker 0, .worker 0, .wakeWorker 0, .worker 0, .worker 0]
    (fun q => decide (q.1.workers 0 = .sort 2 (phaseLoop 2 0 2) ∧
      q.1.workers 1 = .sort 1 (phaseLoop 2 1 1))) (by decide +kernel)
  obtain ⟨h₀, h₁⟩ := of_decide_eq_true hp
  have hfinished := (h 2 2 _ tr s hrun).workers 0 1 1 (by decide) (by decide) (by decide) ⟨_, _, h₀⟩
  rw [show s.workers 1 = _ from h₁] at hfinished
  rcases hfinished with hlt | ⟨-, hrest⟩
  · exact absurd hlt (Nat.lt_irrefl 1)
  · exact absurd hrest (by decide)

end ConcurrentSort

end TestExamples
