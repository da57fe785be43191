/-
TestExamples/ThreadPoolTasks.lean

Where the tasks of the thread pool are, and what `idlCount` returns.

A task that has been put into the queue is in the queue, in the hands of one
worker or executed, and never in two of these places.  `idlThrNum` is changed
outside `m_lock`, in two atomic steps around the task; it is the number of
workers that are not between them, at any time and not only when the pool is at
rest.

A worker calls `front()` in its section, some steps after the predicate has been
evaluated.  That the queue still holds something then rests on the lock: nobody
else takes a task in between, and `stoped` is never cleared (`Found`).
-/
import TestExamples.ThreadPoolWakeup

namespace TestExamples

/-- 1 for a worker between `idlThrNum--` and `idlThrNum++`. -/
def WorkerPc.busy : WorkerPc → Nat
  | .run _ | .inc => 1
  | _ => 0

@[simp] theorem WorkerPc.busy_wake (pc : WorkerPc) : pc.wake.busy = pc.busy := by
  cases pc <;> rfl

namespace ThreadPool

def idlCount (s : ThreadPool) : Int := s.idlThrNum

variable {size w : Nat} {tr es : List Event} {s s' : ThreadPool} {act : Act}

/-! ### The counter -/

/-- The counter and the workers that have taken themselves off it. -/
def Counted (n : Nat) (s : ThreadPool) : Prop :=
  s.idlThrNum + total n WorkerPc.busy s.workers = n

namespace Counted

variable {n : Nat}

theorem init : Counted (poolSize size) (init size) := by
  have hzero : total (poolSize size) WorkerPc.busy (ThreadPool.init size).workers = 0 :=
    total_eq_zero.mpr fun _ _ => rfl
  show (poolSize size : Int) + (total (poolSize size) WorkerPc.busy _ : Nat) = _
  rw [hzero]
  exact Int.add_zero _

/-- One worker moves, and the counter with it. -/
theorem move (h : Counted n s) (hw : w < n) {pc : WorkerPc}
    (hworkers : s'.workers = Function.update s.workers w pc)
    (hidl : s'.idlThrNum + pc.busy = s.idlThrNum + (s.workers w).busy) : Counted n s' := by
  unfold Counted at h ⊢
  have hmove := total_update hw WorkerPc.busy s.workers pc
  rw [hworkers]
  omega

theorem turn (h : Counted n s) (hw : w < n) (ht : Turn s w es s') : Counted n s' := by
  cases ht with
  | leave hpc | enter hpc | ready hpc | unready hpc | block hpc | quit hpc | go hpc
  | take hpc | run hpc =>
      refine h.move hw rfl ?_
      rw [hpc]
      rfl
  | acquire hpc =>
      refine h.move hw rfl ?_
      rcases hpc with hpc | hpc <;> rw [hpc] <;> rfl
  | dec hpc =>
      refine h.move hw rfl ?_
      rw [hpc]
      show s.idlThrNum - 1 + (1 : Nat) = s.idlThrNum + (0 : Nat)
      omega
  | inc hpc =>
      refine h.move hw rfl ?_
      rw [hpc]
      exact Int.add_zero _

theorem step (h : Counted (poolSize size) s) (hm : Moves size s act es s') :
    Counted (poolSize size) s' := by
  cases hm with
  | worker hw ht => exact h.turn hw ht
  | spurious hw hpc =>
      refine h.move hw rfl ?_
      rw [hpc]
      rfl
  | notified _ hw hpc =>
      refine h.move hw rfl ?_
      rw [hpc]
      rfl
  | notify_all =>
      have hsame : total (poolSize size) WorkerPc.busy (fun w => (s.workers w).wake)
          = total (poolSize size) WorkerPc.busy s.workers :=
        total_congr fun i _ => WorkerPc.busy_wake (s.workers i)
      show s.idlThrNum + (total (poolSize size) WorkerPc.busy _ : Nat) = _
      rw [hsame]
      exact h
  | threw | tested | emplace | unheard | stop | join | destroyed => exact h

end Counted

/-! ### The section -/

/-- The worker with the lock is in its section, and has found what it takes. -/
structure Found (s : ThreadPool) : Prop where
  lock : ∀ w, (s.workers w).locked ↔ s.m_lock = some w
  check : ∀ w, s.workers w = .check → s.predicate = true
  take : ∀ w, s.workers w = .take → s.tasks ≠ []

namespace Found

theorem init : Found (init size) where
  lock := fun _ => ⟨False.elim, nofun⟩
  check := nofun
  take := nofun

/-- Two workers are not in their sections at once. -/
theorem unique (h : Found s) {w w' : Nat} (hw : (s.workers w).locked)
    (hw' : (s.workers w').locked) : w' = w := by
  have hlock := (h.lock w).mp hw
  rw [(h.lock w').mp hw'] at hlock
  exact Option.some.inj hlock

theorem free (h : Found s) (hfree : s.m_lock = none) (w : Nat) : ¬ (s.workers w).locked := by
  intro hw
  rw [(h.lock w).mp hw] at hfree
  cases hfree

/-- One worker moves and neither comes nor goes; what it finds, it has found. -/
theorem move (h : Found s) {pc : WorkerPc}
    (hworkers : s'.workers = Function.update s.workers w pc) (htasks : s'.tasks = s.tasks)
    (hstoped : s'.stoped = s.stoped) (hm_lock : s'.m_lock = s.m_lock)
    (hlocked : pc.locked ↔ (s.workers w).locked) (hcheck : pc = .check → s.predicate = true)
    (htake : pc = .take → s.tasks ≠ []) : Found s' := by
  have hpredicate : s'.predicate = s.predicate := by
    unfold predicate
    rw [hstoped, htasks]
  constructor
  · rw [hworkers, hm_lock]
    exact forall_update (P := fun i (q : WorkerPc) => q.locked ↔ s.m_lock = some i)
      (hlocked.trans (h.lock w)) fun i _ => h.lock i
  · rw [hworkers, hpredicate]
    exact forall_update (P := fun _ (q : WorkerPc) => q = .check → s.predicate = true)
      hcheck fun i _ => h.check i
  · rw [hworkers, htasks]
    exact forall_update (P := fun _ (q : WorkerPc) => q = .take → s.tasks ≠ [])
      htake fun i _ => h.take i

/-- One worker leaves the section: nobody is in it. -/
theorem leave (h : Found s) {pc : WorkerPc} (hin : (s.workers w).locked)
    (hworkers : s'.workers = Function.update s.workers w pc) (hm_lock : s'.m_lock = none)
    (hout : ¬ pc.locked) : Found s' := by
  have hnobody : ∀ i, ¬ (s'.workers i).locked := by
    rw [hworkers]
    exact forall_update (P := fun _ (q : WorkerPc) => ¬ q.locked) hout
      fun i hne hi => hne (h.unique hin hi)
  refine ⟨fun i => ?_, fun i hi => ?_, fun i hi => ?_⟩
  · rw [hm_lock]
    exact ⟨fun hi => absurd hi (hnobody i), nofun⟩
  · exact absurd (by rw [hi]; trivial) (hnobody i)
  · exact absurd (by rw [hi]; trivial) (hnobody i)

theorem turn (h : Found s) (ht : Turn s w es s') : Found s' := by
  cases ht with
  | leave hpc | enter hpc | dec hpc | run hpc | inc hpc =>
      refine h.move rfl rfl rfl rfl ?_ nofun nofun
      rw [hpc]
      exact Iff.rfl
  | acquire hpc hfree =>
      refine ⟨?_, ?_, ?_⟩
      · refine forall_update (P := fun i (q : WorkerPc) => q.locked ↔ some w = some i)
          ⟨fun _ => rfl, fun _ => trivial⟩ fun i hne => ?_
        exact ⟨fun hi => absurd hi (h.free hfree i), fun he => absurd (Option.some.inj he).symm hne⟩
      · exact forall_update (P := fun _ (q : WorkerPc) => q = .check → s.predicate = true)
          nofun fun i _ => h.check i
      · exact forall_update (P := fun _ (q : WorkerPc) => q = .take → s.tasks ≠ [])
          nofun fun i _ => h.take i
  | ready hpc hpred =>
      refine h.move rfl rfl rfl rfl ?_ (fun _ => hpred) nofun
      rw [hpc]
      exact Iff.rfl
  | unready hpc =>
      refine h.move rfl rfl rfl rfl ?_ nofun nofun
      rw [hpc]
      exact Iff.rfl
  | block hpc | quit hpc | take hpc => exact h.leave (by rw [hpc]; trivial) rfl rfl id
  | go hpc hgo =>
      refine h.move rfl rfl rfl rfl ?_ nofun fun _ => ?_
      · rw [hpc]
        exact Iff.rfl
      -- the predicate was true, so the test that let the worker through says there is a task
      · rcases hgo with hopen | hne
        · have hpred := h.check w hpc
          unfold predicate at hpred
          rw [hopen, Bool.false_or, Bool.not_eq_true', List.isEmpty_eq_false_iff] at hpred
          exact hpred
        · exact hne

/-- A worker that waits is woken. -/
theorem wake (h : Found s) (hpc : s.workers w = .blocked) : Found (s.setWorker w .woken) := by
  refine h.move rfl rfl rfl rfl ?_ nofun nofun
  rw [hpc]
  exact Iff.rfl

theorem step (h : Found s) (hm : Moves size s act es s') : Found s' := by
  cases hm with
  | worker _ ht => exact h.turn ht
  | spurious _ hpc => exact h.wake hpc
  | notified _ _ hpc =>
      have hwoken := h.wake hpc
      exact ⟨hwoken.lock, hwoken.check, hwoken.take⟩
  | emplace _ hfree =>
      refine ⟨h.lock, fun w hw => ?_, fun w hw => ?_⟩
      · exact absurd (show (s.workers w).locked by rw [show s.workers w = _ from hw]; trivial)
          (h.free hfree w)
      · exact absurd (show (s.workers w).locked by rw [show s.workers w = _ from hw]; trivial)
          (h.free hfree w)
  | stop => exact ⟨h.lock, fun _ _ => rfl, h.take⟩
  | notify_all =>
      refine ⟨fun w => (WorkerPc.locked_wake _).trans (h.lock w), fun w hw => ?_, fun w hw => ?_⟩
      · have hpc : s.workers w = .check := by
          cases hq : s.workers w <;> simp [hq, WorkerPc.wake] at hw ⊢
        exact h.check w hpc
      · have hpc : s.workers w = .take := by
          cases hq : s.workers w <;> simp [hq, WorkerPc.wake] at hw ⊢
        exact h.take w hpc
  | threw | tested | unheard | join | destroyed => exact ⟨h.lock, h.check, h.take⟩

end Found

/-! ### The run -/

/-- A task that has been put into the queue is in one place. -/
theorem Queue.one_place {n : Nat} (h : Queue n tr s) (k : Nat) :
    s.tasks.count k + total n (WorkerPc.holds k) s.workers + tr.count (.executed k) =
      if k < s.serial then 1 else 0 := by
  have honce := h.once k
  have hle := h.le
  have hpopped : s.popped + s.tasks.length = s.serial := Nat.sub_add_cancel h.le
  have hcount : s.tasks.count k = if s.popped ≤ k ∧ k < s.serial then 1 else 0 := by
    rw [h.tasks, ← hpopped]
    split_ifs with hk
    · exact List.count_eq_one_of_mem List.nodup_range' (List.mem_range'_1.mpr hk)
    · exact List.count_eq_zero_of_not_mem fun hm => hk (List.mem_range'_1.mp hm)
  rw [hcount]
  split_ifs at honce ⊢ <;> omega

/-- **Every task in one place, every worker counted.**  In every run a task that
has been put into the queue is in the queue, in the hands of one worker or
executed; the queue holds the tasks in the order they were put there;
`idlCount` is the number of workers that are not between `idlThrNum--` and
`idlThrNum++`; the worker that holds `m_lock` is the one in the section, and
`front()` is not called on an empty queue. -/
theorem tasks_of_run (h : (machine size).Run AnyStep tr s) :
    (∀ k, s.tasks.count k + total (poolSize size) (WorkerPc.holds k) s.workers +
      tr.count (.executed k) = if k < s.serial then 1 else 0) ∧
    s.tasks.Pairwise (· < ·) ∧
    s.idlCount + total (poolSize size) WorkerPc.busy s.workers = poolSize size ∧
    (∀ w, (s.workers w).locked ↔ s.m_lock = some w) ∧
    ∀ w, s.workers w = .take → s.tasks ≠ [] := by
  have hinv : Counted (poolSize size) s ∧ Found s :=
    h.invariant (fun _ s => Counted (poolSize size) s ∧ Found s) ⟨Counted.init, Found.init⟩
      fun ⟨hc, hf⟩ _ hs => ⟨hc.step (moves_of_step hs), hf.step (moves_of_step hs)⟩
  have hqueue := (Ledger.of_run h).queue
  refine ⟨hqueue.one_place, ?_, hinv.1, hinv.2.lock, hinv.2.take⟩
  rw [hqueue.tasks]
  exact List.pairwise_lt_range'

/-- One worker is busy with the first task, and the other has the lock and is about
to take the second. -/
theorem tasks_of_run_two :
    ∃ tr s, (machine 2).Run AnyStep tr s ∧ s.workers 0 = .run 0 ∧ s.workers 1 = .take ∧
      s.idlCount + total (poolSize 2) WorkerPc.busy s.workers = 2 ∧ s.m_lock = some 1 ∧
      s.tasks ≠ [] := by
  obtain ⟨tr, s, hrun, hp⟩ := (machine 2).run_of_exec AnyStep
    [.commit 0, .emplace 0, .commit 1, .emplace 1, .worker 0, .worker 0, .worker 0, .worker 0,
      .worker 0, .worker 0, .worker 1, .worker 1, .worker 1, .worker 1]
    (fun q => decide (q.1.workers 0 = .run 0 ∧ q.1.workers 1 = .take)) (by decide)
  obtain ⟨hrunning, htake⟩ := of_decide_eq_true hp
  obtain ⟨-, -, hidle, hlock, hfront⟩ := tasks_of_run hrun
  refine ⟨tr, s, hrun, hrunning, htake, hidle, (hlock 1).mp ?_, hfront 1 htake⟩
  rw [show s.workers 1 = _ from htake]
  trivial

end ThreadPool

end TestExamples
