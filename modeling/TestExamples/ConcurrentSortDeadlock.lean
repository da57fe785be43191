/-
TestExamples/ConcurrentSortDeadlock.lean

Lost wake-ups of the barrier.

The counter is incremented and `notify_one` is called without `g_lock`, and so
is `notify_all`.  A wake-up is lost in two places:

* the `notify_one` that follows the last increment of a phase comes when `main`
  has found the counter short and has not blocked yet;
* the `notify_all` of a phase comes when some worker has counted and has not
  blocked yet.

`Heard` excludes both, with exactly the rest they need: the first only when no
other worker is going to notify, the second only when there is a next phase for
which `main` will wait.  Under it there is no deadlock.
-/
import TestExamples.ConcurrentSortCount

namespace TestExamples

namespace ConcurrentSort

/-- Some thread is unfinished, and every unfinished thread is blocked in a
condition wait.  A thread that is woken or about to notify is not blocked. -/
def Deadlock (size : Nat) (s : ConcurrentSort) : Prop :=
  (s.main ≠ .done ∨ ∃ w, w < size ∧ s.workers w ≠ .done) ∧
    (s.main = .done ∨ ∃ i, s.main = .blocked i) ∧
    ∀ w, w < size → s.workers w = .done ∨ ∃ phase, s.workers w = .blocked phase

/-- The next wait of a worker is of a phase after the first `k`, or it is
waiting. -/
def FuncPc.Past (k : Nat) : FuncPc → Prop
  | .sort p _ | .notify p | .lock p | .wait p => k < p
  | .blocked _ => True
  | .woken p | .unlock p => k ≤ p
  | .done => True

/-- No notification is lost.  A `notify_one` that comes between the test of
`main` and its blocking leaves the counter short or another worker to notify;
at the `notify_all` of a phase that has a next one, no worker has still to block
in it. -/
structure Heard (size g_max_phase : Nat) (s : ConcurrentSort) (act : Act) : Prop where
  notify_one : ∀ w phase i, act = .worker w → s.workers w = .notify phase → s.main = .wait i →
    s.g_cal_count < (i + 1) * size ∨
      ∃ w' p, w' < size ∧ w' ≠ w ∧ s.workers w' = .notify p
  notify_all : ∀ i, act = .main → s.main = .notify i → i + 1 < g_max_phase →
    ∀ w, w < size → (s.workers w).Past (i + 1)

/-- Where a worker can be when `k` phases have been notified, and no
notification has been lost. -/
def FuncPc.Awake (k : Nat) : FuncPc → Prop
  | .sort p _ | .notify p | .lock p | .wait p | .blocked p => k < p
  | .woken p | .unlock p => k ≤ p
  | .done => True

/-- What holds in every run in which no notification is lost. -/
structure Live (size g_max_phase : Nat) (s : ConcurrentSort) : Prop where
  base : Counted size g_max_phase s
  awake : ∀ i, s.main.turn = some i → ∀ w, w < size → (s.workers w).Awake i
  short : ∀ i, s.main = .wait i ∨ s.main = .blocked i → (i + 1) * size ≤ s.g_cal_count →
    ∃ w p, w < size ∧ s.workers w = .notify p
  joined : ∀ i, s.main = .join i → ∀ w, w < i → s.workers w = .done
  exited : s.main = .done → ∀ w, w < size → s.workers w = .done

section Live

variable {size g_max_phase w : Nat} {arr : Grid} {s s' : ConcurrentSort} {act : Act}
  {tr es : List Grid}

theorem awake_whilePhase {k p : Nat} (h : k ≤ p) :
    (whilePhase size g_max_phase w (p + 1)).Awake k := by
  unfold whilePhase
  split
  · exact Nat.lt_succ_of_le h
  · exact True.intro

theorem FuncPc.Past.wake {pc : FuncPc} {i : Nat} (h : pc.Past (i + 1)) (ha : pc.Awake i) :
    pc.wake.Awake (i + 1) := by
  cases pc <;> first | exact h | exact ha

theorem MainPc.eq_of_wake {pc m : MainPc} (h : pc.wake = m) (hm : ∀ i, m ≠ .woken i) :
    pc = m := by
  cases pc with
  | blocked i => exact absurd h.symm (hm i)
  | _ => exact h

theorem MainPc.wake_ne_blocked (pc : MainPc) (i : Nat) : pc.wake ≠ .blocked i := by
  cases pc <;> nofun

theorem Turn.ne_done (h : Turn size g_max_phase s w s') : s.workers w ≠ .done := by
  cases h with
  | cas hpc | count hpc | notify_one hpc | lock hpc | block hpc | relock hpc | unlock hpc =>
      rw [hpc]
      nofun

/-- A worker that has left stays where it is. -/
theorem done_update {pc : FuncPc} (hw : s.workers w ≠ .done)
    (hworkers : s'.workers = Function.update s.workers w pc) :
    ∀ i, s.workers i = .done → s'.workers i = .done := by
  intro i hi
  have hne : i ≠ w := fun he => hw (he ▸ hi)
  rw [hworkers, Function.update_of_ne hne]
  exact hi

namespace Live

theorem init : Live size g_max_phase (init size g_max_phase arr) := by
  have hmain : ∀ m, (∀ i, m ≠ MainPc.lock i) → m ≠ .join 0 → forPhase g_max_phase 0 ≠ m := by
    intro m hlock hjoin he
    unfold forPhase at he
    split at he
    · exact hlock 0 he.symm
    · exact hjoin he.symm
  refine ⟨.init, fun i hi w _ => ?_, fun i hi => ?_, fun i hi w hw => ?_, fun hi => ?_⟩
  · obtain ⟨rfl, -⟩ := turn_forPhase hi
    exact awake_whilePhase (Nat.le_refl 0)
  · rcases hi with hi | hi <;> exact absurd hi (hmain _ nofun nofun)
  · by_cases h0 : i = 0
    · subst h0
      exact absurd hw (Nat.not_lt_zero w)
    · refine absurd hi (hmain _ nofun fun he => h0 (MainPc.join.inj he))
  · exact absurd hi (hmain _ nofun nofun)

/-- One worker moves, `main` does not, and a notification that is owed is still
owed. -/
theorem move {pc : FuncPc} (h : Live size g_max_phase s) (hbase : Counted size g_max_phase s')
    (hw : s.workers w ≠ .done) (hworkers : s'.workers = Function.update s.workers w pc)
    (hmain : s'.main = s.main)
    (hawake : ∀ i, s.main.turn = some i → pc.Awake i)
    (hshort : ∀ i, s.main = .wait i ∨ s.main = .blocked i → (i + 1) * size ≤ s'.g_cal_count →
      ∃ w p, w < size ∧ s'.workers w = .notify p) : Live size g_max_phase s' := by
  refine ⟨hbase, ?_, ?_, ?_, ?_⟩ <;> rw [hmain]
  · intro i hi
    exact forall_workers_update (h.awake i hi) (hawake i hi) hworkers
  · exact hshort
  · intro i hi j hj
    exact done_update hw hworkers j (h.joined i hi j hj)
  · intro hi j hj
    exact done_update hw hworkers j (h.exited hi j hj)

/-- The worker that moves was not about to notify. -/
theorem keep {pc : FuncPc} (h : Live size g_max_phase s) (hbase : Counted size g_max_phase s')
    (hw : s.workers w ≠ .done) (hnot : ∀ p, s.workers w ≠ .notify p)
    (hworkers : s'.workers = Function.update s.workers w pc) (hmain : s'.main = s.main)
    (hcount : s'.g_cal_count = s.g_cal_count)
    (hawake : ∀ i, s.main.turn = some i → pc.Awake i) : Live size g_max_phase s' := by
  refine h.move hbase hw hworkers hmain hawake fun i hi hle => ?_
  obtain ⟨w', p, hw', hp⟩ := h.short i hi (hcount ▸ hle)
  refine ⟨w', p, hw', ?_⟩
  have hne : w' ≠ w := fun he => hnot p (he ▸ hp)
  rw [hworkers, Function.update_of_ne hne]
  exact hp

theorem turn (h : Live size g_max_phase s) (hok : Heard size g_max_phase s (.worker w))
    (hw : w < size) (ht : Turn size g_max_phase s w s') : Live size g_max_phase s' := by
  have hbase := h.base.turn hw ht
  have hdone := ht.ne_done
  have hawake : ∀ i, s.main.turn = some i → (s.workers w).Awake i := fun i hi => h.awake i hi w hw
  cases ht with
  | cas hpc | lock hpc | block hpc | relock hpc =>
      rw [hpc] at hawake
      exact h.keep hbase hdone (by rw [hpc]; nofun) rfl rfl rfl hawake
  | @count phase hpc =>
      rw [hpc] at hawake
      -- the worker that has counted owes the notification
      refine h.move hbase hdone rfl rfl hawake fun i _ _ => ⟨w, phase, hw, ?_⟩
      exact Function.update_self ..
  | unlock hpc =>
      rw [hpc] at hawake
      refine h.keep hbase hdone (by rw [hpc]; nofun) rfl rfl rfl fun i hi => ?_
      exact awake_whilePhase (hawake i hi)
  | @notify_one phase hpc =>
      rw [hpc] at hawake
      -- `main` is woken, or is not blocked
      refine ⟨hbase, fun i hi => ?_, fun i hi hle => ?_, fun i hi j hj => ?_, fun hi j hj => ?_⟩
      · have hi : s.main.turn = some i := (MainPc.turn_wake s.main).symm.trans hi
        have hlock : (FuncPc.lock phase).Awake i := hawake i hi
        exact forall_workers_update (h.awake i hi) hlock rfl
      · have hwait : s.main = .wait i := by
          rcases hi with hi | hi
          · exact MainPc.eq_of_wake hi nofun
          · exact absurd hi (MainPc.wake_ne_blocked _ i)
        -- not heard: the counter is still short, or another worker will notify
        rcases hok.notify_one w phase i rfl hpc hwait with hlt | ⟨w', p, hw', hne, hp⟩
        · exact absurd hle (Nat.not_le.mpr hlt)
        · exact ⟨w', p, hw', (Function.update_of_ne hne ..).trans hp⟩
      · exact done_update hdone rfl j (h.joined i (MainPc.eq_of_wake hi nofun) j hj)
      · exact done_update hdone rfl j (h.exited (MainPc.eq_of_wake hi nofun) j hj)

/-- `main` moves within a turn of its loop, not to the wait. -/
theorem main (h : Live size g_max_phase s) (hbase : Counted size g_max_phase s')
    (hworkers : s'.workers = s.workers) (hturn : s'.main.turn = s.main.turn) {i : Nat}
    (hi : s.main.turn = some i)
    (hwait : ∀ j, s'.main ≠ .wait j ∧ s'.main ≠ .blocked j) : Live size g_max_phase s' := by
  refine ⟨hbase, fun j hj => ?_, fun j hj => ?_, fun j hj => ?_, fun hj => ?_⟩
  · rw [hworkers]
    exact h.awake j (hturn ▸ hj)
  · rcases hj with hj | hj
    · exact absurd hj (hwait j).1
    · exact absurd hj (hwait j).2
  · rw [← hturn, hj] at hi
    cases hi
  · rw [← hturn, hj] at hi
    cases hi

theorem mainTurn (h : Live size g_max_phase s) (hok : Heard size g_max_phase s .main)
    (ht : MainTurn size g_max_phase s es s') : Live size g_max_phase s' := by
  have hbase := h.base.mainTurn ht
  cases ht with
  | @lock i hm =>
      have hi : s.main.turn = some i := by rcases hm with hm | hm <;> rw [hm] <;> rfl
      exact h.main hbase rfl hi.symm hi fun _ => ⟨nofun, nofun⟩
  | @counted i hm | @unlock i hm | @print i hm =>
      have hi : s.main.turn = some i := by rw [hm]; rfl
      exact h.main hbase rfl hi.symm hi fun _ => ⟨nofun, nofun⟩
  | @short i hm hlt =>
      have hi : s.main.turn = some i := by rw [hm]; rfl
      refine ⟨hbase, fun j hj => h.awake j (hi.trans hj), fun j hj hle => ?_, nofun, nofun⟩
      rcases hj with hj | hj <;> cases hj
      exact absurd hle (Nat.not_le.mpr hlt)
  | @block i hm =>
      have hi : s.main.turn = some i := by rw [hm]; rfl
      refine ⟨hbase, fun j hj => h.awake j (hi.trans hj), fun j hj hle => ?_, nofun, nofun⟩
      rcases hj with hj | hj <;> cases hj
      -- what was owed before the blocking is owed after it
      exact h.short i (.inl hm) hle
  | @notify_all i hm =>
      have hi : s.main.turn = some i := by rw [hm]; rfl
      refine ⟨hbase, fun j hj w hw => ?_, fun j hj => ?_, fun j hj w hw => ?_, fun hj => ?_⟩
      · obtain ⟨rfl, hlt⟩ := turn_forPhase hj
        -- every worker is behind the wait of the phase, or in it and woken
        exact (hok.notify_all i rfl hm hlt w hw).wake (h.awake i hi w hw)
      all_goals
        simp only [forPhase] at hj
        split at hj
      · rcases hj with hj | hj <;> cases hj
      · rcases hj with hj | hj <;> cases hj
      · cases hj
      · cases hj
        exact absurd hw (Nat.not_lt_zero w)
      · cases hj
      · cases hj
  | @join i hm hi hdone =>
      refine ⟨hbase, nofun, by simp, fun j hj w hw => ?_, nofun⟩
      cases hj
      -- the threads joined before, and the one joined now
      rcases Nat.lt_succ_iff_lt_or_eq.mp hw with hw | rfl
      · exact h.joined i hm w hw
      · exact hdone
  | @exit i hm hi =>
      refine ⟨hbase, nofun, by simp, nofun, fun _ w hw => ?_⟩
      exact h.joined i hm w (Nat.lt_of_lt_of_le hw hi)

theorem step (h : Live size g_max_phase s) (hok : Heard size g_max_phase s act)
    (hm : Moves size g_max_phase s act es s') : Live size g_max_phase s' := by
  have hbase := h.base.step hm
  cases hm with
  | worker hw ht => exact h.turn hok hw ht
  | @wakeWorker w phase hw hpc =>
      have hawake : ∀ i, s.main.turn = some i → (s.workers w).Awake i := fun i hi =>
        h.awake i hi w hw
      rw [hpc] at hawake
      refine h.keep hbase (by rw [hpc]; nofun) (by rw [hpc]; nofun) rfl rfl rfl fun i hi => ?_
      exact Nat.le_of_lt (hawake i hi)
  | main ht => exact h.mainTurn hok ht
  | @wakeMain i hm =>
      have hi : s.main.turn = some i := by rw [hm]; rfl
      exact h.main hbase rfl hi.symm hi fun _ => ⟨nofun, nofun⟩

theorem of_run (h : (machine size g_max_phase arr).Run (Heard size g_max_phase) tr s) :
    Live size g_max_phase s :=
  h.invariant (fun _ s => Live size g_max_phase s) .init fun ih hok hs =>
    ih.step hok (moves_of_step hs)

/-- When all workers are blocked or have left, each has counted the phase
`main` waits for. -/
theorem not_deadlock (h : Live size g_max_phase s) : ¬ Deadlock size s := by
  rintro ⟨hsome, hmain, hworkers⟩
  rcases hmain with hdone | ⟨i, hblocked⟩
  · rcases hsome with hne | ⟨w, hw, hne⟩
    · exact hne hdone
    · exact hne (h.exited hdone w hw)
  · have hturn : s.main.turn = some i := by
      rw [hblocked]
      rfl
    have hcompleted : ∀ w, w < size → i + 1 ≤ (s.workers w).completed g_max_phase := by
      intro w hw
      have hawake := h.awake i hturn w hw
      rcases hworkers w hw with hpc | ⟨p, hpc⟩ <;> rw [hpc] at hawake ⊢
      · exact h.base.inLoop i hturn
      · exact hawake
    have hcount : (i + 1) * size ≤ s.g_cal_count := by
      rw [h.base.count, Nat.mul_comm]
      exact le_total_of_le hcompleted
    obtain ⟨w, p, hw, hp⟩ := h.short i (.inr hblocked) hcount
    rcases hworkers w hw with hpc | ⟨p', hpc⟩ <;> rw [hp] at hpc <;> cases hpc

end Live

/-- **The barrier does not deadlock.**  In a run in which no notification is
lost there is no state in which every unfinished thread is blocked. -/
theorem not_deadlock_of_heard
    (h : (machine size g_max_phase arr).Run (Heard size g_max_phase) tr s) : ¬ Deadlock size s :=
  (Live.of_run h).not_deadlock

end Live

/-- Two workers and two phases; `main` waits twice in the first and every
thread ends. -/
theorem not_deadlock_of_heard_two :
    ∃ tr s, (machine 2 2 fun i j => i + j).Run (Heard 2 2) tr s ∧
      tr.map (Grid.cells 2) = [[0, 1, 2, 1], [0, 1, 2, 1]] ∧ s.main = .done ∧
      ¬ Deadlock 2 s := by
  have hsharp : ∀ (s : ConcurrentSort) (act : Act),
      (∀ i ∈ s.main.turn, (act = .main ∨ s.main ≠ .wait i) ∧
        (s.main = .notify i → ∀ w < 2, (s.workers w).wake ≠ s.workers w)) →
      Heard 2 2 s act := by
    intro s act hok
    refine ⟨fun w phase i hact _ hm => ?_, fun i _ hm _ w hw => ?_⟩
    · rcases (hok i (by rw [hm]; rfl)).1 with hmain | hwait
      · rw [hact] at hmain
        cases hmain
      · exact absurd hm hwait
    · have hwake := (hok i (by rw [hm]; rfl)).2 hm w hw
      cases hpc : s.workers w with
      | blocked => exact True.intro
      | _ => exact absurd (by rw [hpc]; rfl) hwake
  have hstart : (machine 2 2 fun i j => i + j).Run (Heard 2 2) [] _ := .start
  obtain ⟨tr, s, hrun, hp⟩ := hstart.extend
    (fun s act => ∀ i ∈ s.main.turn, (act = .main ∨ s.main ≠ .wait i) ∧
      (s.main = .notify i → ∀ w < 2, (s.workers w).wake ≠ s.workers w))
    hsharp
    [.main, .main, .main, .worker 0, .worker 0, .worker 0, .worker 0, .worker 0, .main, .main,
      .main, .worker 1, .worker 1, .worker 1, .worker 1, .worker 1, .main, .main, .main, .main,
      .main, .worker 0, .worker 0, .worker 0, .worker 0, .worker 0, .worker 0, .worker 0,
      .worker 1, .worker 1, .worker 1, .worker 1, .worker 1, .worker 1, .worker 1, .main, .main,
      .main, .main, .main, .worker 0, .worker 0, .worker 1, .worker 1, .main, .main, .main]
    (fun q => decide (q.2.map (Grid.cells 2) = [[0, 1, 2, 1], [0, 1, 2, 1]] ∧ q.1.main = .done))
    (by decide +kernel)
  obtain ⟨hprint, hdone⟩ := of_decide_eq_true hp
  exact ⟨tr, s, hrun, hprint, hdone, not_deadlock_of_heard hrun⟩

/-- `main` finds the counter short, the only worker counts and notifies nobody,
and both block. -/
theorem deadlock :
    ¬ ∀ (size g_max_phase : Nat) (arr : Grid) (tr : List Grid) (s : ConcurrentSort), 1 ≤ size →
      (machine size g_max_phase arr).Run AnyStep tr s → ¬ Deadlock size s := by
  intro h
  obtain ⟨tr, s, hrun, hp⟩ := (machine 1 1 fun _ _ => 0).run_of_exec AnyStep
    [.main, .main, .worker 0, .worker 0, .main, .worker 0, .worker 0]
    (fun q => decide (q.1.main = .blocked 0 ∧ q.1.workers 0 = .blocked 1)) (by decide +kernel)
  obtain ⟨hm, hw⟩ := of_decide_eq_true hp
  refine h 1 1 _ tr s (Nat.le_refl 1) hrun ⟨.inl ?_, .inr ⟨0, hm⟩, fun w hw' => .inr ⟨1, ?_⟩⟩
  · rw [show s.main = _ from hm]
    nofun
  · rw [Nat.lt_one_iff.mp hw']
    exact hw

end ConcurrentSort

end TestExamples
