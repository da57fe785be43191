/-
TestExamples/ThreadPoolShutdown.lean

The destructor of the thread pool.

A worker that is inside its loop when `stoped` is stored (past the outer test
and without a task) takes one more task if there is one; then, like a worker
that is busy with a task, it finds `stoped` set at the outer test and leaves.
So the tasks executed after the store are as many as there are workers inside,
and the rest of the queue is left behind.  `Drained` asks, where `stoped` is
stored, that every task whose `commit` has returned stands in the queue before
that place; under this guard the destructor returns with each of them executed
exactly once (`executesAll_of_drained`), and where it is violated it never does
(`not_executesAll_of_undrained`).

The store and the `notify_all` are made without `m_lock`.  `Heard` asks that no
worker stands between its predicate and its blocking when `notify_all` is
issued; under this guard no worker is left blocked (`noHang_of_heard`).
-/
import TestExamples.ThreadPool

namespace TestExamples

namespace WorkerPc

/-- 1 for a worker past the outer test and without a task. -/
def inside : WorkerPc → Nat
  | .lock | .wait | .block | .blocked | .woken | .check | .take => 1
  | _ => 0

/-- 1 for a worker that has taken task `k` and not executed it. -/
def holds (k : Nat) : WorkerPc → Nat
  | .dec task | .run task => if task = k then 1 else 0
  | _ => 0

@[simp] theorem inside_wake (pc : WorkerPc) : pc.wake.inside = pc.inside := by
  cases pc <;> rfl

@[simp] theorem holds_wake (k : Nat) (pc : WorkerPc) : pc.wake.holds k = pc.holds k := by
  cases pc <;> rfl

theorem wake_eq_block {pc : WorkerPc} : pc.wake = .block ↔ pc = .block := by
  cases pc <;> simp [wake]

theorem wake_ne_blocked (pc : WorkerPc) : pc.wake ≠ .blocked := by
  cases pc <;> simp [wake]

end WorkerPc

/-- The threads that have been joined. -/
def DestructorPc.joined : DestructorPc → Nat → Prop
  | .joining i, w => w < i
  | .returned, _ => True
  | _, _ => False

namespace ThreadPool

variable {size n w : Nat} {tr es : List Event} {s s' : ThreadPool} {act : Act}

/-- What a turn of a worker leaves alone. -/
theorem Turn.frame (h : Turn s w es s') :
    s'.committers = s.committers ∧ s'.serial = s.serial ∧ s'.stoped = s.stoped ∧
      s'.destructor = s.destructor := by
  cases h <;> exact ⟨rfl, rfl, rfl, rfl⟩

/-- A turn of a worker reports at most an execution. -/
theorem Turn.events (h : Turn s w es s') : es = [] ∨ ∃ k, es = [.executed k] := by
  cases h
  case run task hw => exact .inr ⟨task, rfl⟩
  all_goals exact .inl rfl

/-- The other workers stay where they are. -/
theorem Turn.workers (h : Turn s w es s') :
    ∃ pc, s'.workers = Function.update s.workers w pc := by
  cases h <;> exact ⟨_, rfl⟩

theorem Turn.ne_done (h : Turn s w es s') : s.workers w ≠ .done := by
  cases h with
  | acquire hpc => rcases hpc with hpc | hpc <;> rw [hpc] <;> nofun
  | leave hpc | enter hpc | ready hpc | unready hpc | block hpc | quit hpc | go hpc | take hpc
  | dec hpc | run hpc | inc hpc =>
      rw [hpc]
      nofun

/-! ### The queue

The tasks in the queue are the last ones numbered, and a task that has left it
is held by one worker or was executed once. -/

/-- The number of tasks that have left the queue. -/
def popped (s : ThreadPool) : Nat := s.serial - s.tasks.length

structure Queue (n : Nat) (tr : List Event) (s : ThreadPool) : Prop where
  le : s.tasks.length ≤ s.serial
  tasks : s.tasks = List.range' s.popped s.tasks.length
  once : ∀ k, tr.count (.executed k) + total n (WorkerPc.holds k) s.workers =
    if k < s.popped then 1 else 0

namespace Queue

theorem init : Queue n [] (init size) where
  le := Nat.le_refl 0
  tasks := rfl
  once := fun k => by
    have hzero : total n (WorkerPc.holds k) (ThreadPool.init size).workers = 0 :=
      total_eq_zero.mpr fun _ _ => rfl
    rw [hzero]
    rfl

/-- The queue stays as it is, and so do the tasks held. -/
theorem keep (h : Queue n tr s) (htasks : s'.tasks = s.tasks) (hserial : s'.serial = s.serial)
    (hes : ∀ k, es.count (.executed k) = 0)
    (hholds : ∀ k, total n (WorkerPc.holds k) s'.workers = total n (WorkerPc.holds k) s.workers) :
    Queue n (tr ++ es) s' := by
  have hpopped : s'.popped = s.popped := by
    unfold popped
    rw [htasks, hserial]
  refine ⟨?_, ?_, fun k => ?_⟩
  · rw [htasks, hserial]
    exact h.le
  · rw [hpopped, htasks]
    exact h.tasks
  · rw [List.count_append, hes, hholds, hpopped]
    exact h.once k

/-- One worker moves and holds what it held. -/
theorem move (h : Queue n tr s) {pc : WorkerPc} (hw : w < n) (htasks : s'.tasks = s.tasks)
    (hserial : s'.serial = s.serial) (hworkers : s'.workers = Function.update s.workers w pc)
    (hes : ∀ k, es.count (.executed k) = 0) (hpc : ∀ k, pc.holds k = (s.workers w).holds k) :
    Queue n (tr ++ es) s' := by
  refine h.keep htasks hserial hes fun k => ?_
  rw [hworkers]
  exact total_update_eq hw (hpc k)

theorem turn (h : Queue n tr s) (hw : w < n) (ht : Turn s w es s') : Queue n (tr ++ es) s' := by
  cases ht with
  -- no task before and none after
  | leave hpc | enter hpc | ready hpc | unready hpc | block hpc | quit hpc | go hpc | inc hpc =>
      refine h.move hw rfl rfl rfl (fun _ => rfl) fun k => ?_
      rw [hpc]
      rfl
  | acquire hpc =>
      refine h.move hw rfl rfl rfl (fun _ => rfl) fun k => ?_
      rcases hpc with hpc | hpc <;> rw [hpc] <;> rfl
  -- the task in hand is the same
  | dec hpc =>
      refine h.move hw rfl rfl rfl (fun _ => rfl) fun k => ?_
      rw [hpc]
      rfl
  -- the front of the queue is the next number: it goes from the queue to the worker
  | @take task rest hpc htasks =>
      have hle : rest.length + 1 ≤ s.serial := by
        have := h.le
        rw [htasks] at this
        exact this
      have hpopped : s.popped = s.serial - (rest.length + 1) := by
        unfold popped
        rw [htasks]
        rfl
      have hq := h.tasks
      rw [htasks, List.length_cons, List.range'_succ, List.cons.injEq] at hq
      obtain ⟨hfront, hrest⟩ := hq
      have hnext : popped ({ s with tasks := rest, m_lock := none }.setWorker w (.dec task)) =
          s.popped + 1 := by
        show s.serial - rest.length = s.popped + 1
        omega
      refine ⟨Nat.le_of_succ_le hle, ?_, fun k => ?_⟩
      · rw [hnext]
        exact hrest
      · have hmove := total_update hw (WorkerPc.holds k) s.workers (.dec task)
        have hold := h.once k
        have hpc' : (s.workers w).holds k = 0 := by
          rw [hpc]
          rfl
        have hnew : (WorkerPc.dec task).holds k = if task = k then 1 else 0 := rfl
        rw [List.append_nil, hnext]
        show tr.count (.executed k) + total n (WorkerPc.holds k)
          (Function.update s.workers w (.dec task)) = _
        rw [hpc', hnew] at hmove
        split_ifs at hold hmove ⊢ <;> omega
  -- from the worker to the history
  | @run task hpc =>
      refine ⟨h.le, h.tasks, fun k => ?_⟩
      have hmove := total_update hw (WorkerPc.holds k) s.workers .inc
      have hold := h.once k
      have hpc' : (s.workers w).holds k = if task = k then 1 else 0 := by
        rw [hpc]
        rfl
      have hnew : WorkerPc.inc.holds k = 0 := rfl
      rw [hpc', hnew] at hmove
      rw [List.count_append, List.count_singleton]
      show _ + _ + total n (WorkerPc.holds k) (Function.update s.workers w .inc) =
        if k < s.popped then 1 else 0
      rw [← hold]
      by_cases hk : task = k
      · subst hk
        rw [if_pos rfl] at hmove
        rw [if_pos (beq_self_eq_true _)]
        omega
      · rw [if_neg hk] at hmove
        rw [if_neg (by simpa using hk)]
        omega

theorem step (h : Queue (poolSize size) tr s) (hm : Moves size s act es s') :
    Queue (poolSize size) (tr ++ es) s' := by
  cases hm with
  | worker hw ht => exact h.turn hw ht
  | spurious hw hpc =>
      refine h.move hw rfl rfl rfl (fun _ => rfl) fun k => ?_
      rw [hpc]
      rfl
  | notified _ hw hpc =>
      refine h.move hw rfl rfl rfl (fun _ => rfl) fun k => ?_
      rw [hpc]
      rfl
  | threw | tested | unheard | stop | join | destroyed =>
      exact h.keep rfl rfl (fun _ => rfl) fun _ => rfl
  | notify_all =>
      refine h.keep rfl rfl (fun _ => rfl) fun k => ?_
      exact total_congr fun i _ => WorkerPc.holds_wake k (s.workers i)
  | @emplace t =>
      have hlen : (s.tasks ++ [s.serial]).length = s.tasks.length + 1 := by simp
      have hpopped : s.serial + 1 - (s.tasks.length + 1) = s.popped :=
        Nat.add_sub_add_right ..
      have hback : s.popped + s.tasks.length = s.serial := Nat.sub_add_cancel h.le
      refine ⟨?_, ?_, fun k => ?_⟩
      · show (s.tasks ++ [s.serial]).length ≤ s.serial + 1
        rw [hlen]
        exact Nat.succ_le_succ h.le
      · show s.tasks ++ [s.serial] = List.range' (s.serial + 1 - (s.tasks ++ [s.serial]).length)
          (s.tasks ++ [s.serial]).length
        rw [hlen, hpopped, List.range'_1_concat, hback, ← h.tasks]
      · show (tr ++ _).count _ + _ =
          if k < s.serial + 1 - (s.tasks ++ [s.serial]).length then 1 else 0
        rw [hlen, hpopped, List.count_append]
        exact h.once k

end Queue

/-! ### The committers -/

/-- The tasks whose `commit` has returned are those put into the queue for
which nobody is about to notify. -/
structure Commits (tr : List Event) (s : ThreadPool) : Prop where
  returned : ∀ k, .returned k ∈ tr ↔ k < s.serial ∧ ∀ t, s.committers t ≠ .notifying k
  notifying : ∀ {t k}, s.committers t = .notifying k → k < s.serial
  unique : ∀ {t t' k}, s.committers t = .notifying k → s.committers t' = .notifying k → t = t'

namespace Commits

theorem init : Commits [] (init size) where
  returned := fun k => ⟨nofun, fun h => absurd h.1 (Nat.not_lt_zero k)⟩
  notifying := nofun
  unique := nofun

/-- Nothing is put into the queue, and nobody notifies. -/
theorem keep (h : Commits tr s) (hserial : s'.serial = s.serial)
    (hcommitters : ∀ t k, s'.committers t = .notifying k ↔ s.committers t = .notifying k)
    (hes : ∀ k, .returned k ∉ es) : Commits (tr ++ es) s' := by
  refine ⟨fun k => ?_, fun hk => ?_, fun hk hk' => ?_⟩
  · rw [List.mem_append, or_iff_left (hes k), hserial, h.returned]
    refine and_congr_right fun _ => forall_congr' fun t => ?_
    exact not_congr (hcommitters t k).symm
  · rw [hserial]
    exact h.notifying ((hcommitters _ _).mp hk)
  · exact h.unique ((hcommitters _ _).mp hk) ((hcommitters _ _).mp hk')

/-- A committer notifies and returns. -/
theorem finish {t : Thread} {task : Nat} (h : Commits tr s) (ht : s.committers t = .notifying task)
    (hserial : s'.serial = s.serial)
    (hcommitters : s'.committers = Function.update s.committers t .idle) :
    Commits (tr ++ [.returned task]) s' := by
  have hother : ∀ t' k, s'.committers t' = .notifying k ↔
      t' ≠ t ∧ s.committers t' = .notifying k := by
    intro t' k
    rw [hcommitters]
    constructor
    · intro hk
      exact (update_eq hk).resolve_left fun hnew => nomatch hnew.2
    · rintro ⟨hne, hk⟩
      rw [Function.update_of_ne hne]
      exact hk
  refine ⟨fun k => ⟨fun hk => ?_, fun ⟨hlt, hno⟩ => ?_⟩, fun hk => ?_, fun hk hk' => ?_⟩
  · rw [hserial]
    rcases List.mem_append.mp hk with hk | hk
    -- the tasks returned before, and the one returned now: nobody else notifies for it
    · obtain ⟨hlt, hno⟩ := (h.returned k).mp hk
      exact ⟨hlt, fun t' ht' => hno t' ((hother t' k).mp ht').2⟩
    · obtain rfl : k = task := by simpa using hk
      refine ⟨h.notifying ht, fun t' ht' => ?_⟩
      obtain ⟨hne, ht'⟩ := (hother t' k).mp ht'
      exact hne (h.unique ht' ht)
  · by_cases hk : k = task
    · subst hk
      simp
    · refine List.mem_append_left _ ((h.returned k).mpr ⟨hserial ▸ hlt, fun t' ht' => ?_⟩)
      refine hno t' ((hother t' k).mpr ⟨fun he => hk ?_, ht'⟩)
      rw [he, ht] at ht'
      exact (CommitPc.notifying.inj ht').symm
  · rw [hserial]
    exact h.notifying ((hother _ _).mp hk).2
  · exact h.unique ((hother _ _).mp hk).2 ((hother _ _).mp hk').2

theorem enqueue {t : Thread} (h : Commits tr s) (ht : s.committers t = .tested)
    (hserial : s'.serial = s.serial + 1)
    (hcommitters : s'.committers = Function.update s.committers t (.notifying s.serial)) :
    Commits (tr ++ [.enqueued s.serial]) s' := by
  have hother : ∀ t' k, s'.committers t' = .notifying k ↔
      t' = t ∧ k = s.serial ∨ s.committers t' = .notifying k := by
    intro t' k
    rw [hcommitters]
    constructor
    · intro hk
      rcases update_eq hk with ⟨he, hnew⟩ | ⟨-, hold⟩
      · exact .inl ⟨he, (CommitPc.notifying.inj hnew).symm⟩
      · exact .inr hold
    · rintro (⟨rfl, rfl⟩ | hk)
      · exact Function.update_self ..
      · have hne : t' ≠ t := by
          intro he
          rw [he, ht] at hk
          cases hk
        rw [Function.update_of_ne hne]
        exact hk
  have hmem : ∀ k, .returned k ∈ tr ++ [Event.enqueued s.serial] ↔ .returned k ∈ tr := by simp
  refine ⟨fun k => ?_, fun {t' k} hk => ?_, fun {t₁ t₂ k} hk₁ hk₂ => ?_⟩
  · rw [hmem, h.returned, hserial]
    constructor
    · rintro ⟨hlt, hno⟩
      refine ⟨Nat.lt_succ_of_lt hlt, fun t' ht' => ?_⟩
      rcases (hother t' k).mp ht' with ⟨-, he⟩ | ht'
      · exact Nat.ne_of_lt hlt he
      · exact hno t' ht'
    · rintro ⟨hlt, hno⟩
      refine ⟨?_, fun t' ht' => hno t' ((hother t' k).mpr (.inr ht'))⟩
      refine (Nat.lt_succ_iff_lt_or_eq.mp hlt).resolve_right fun he => ?_
      exact hno t ((hother t k).mpr (.inl ⟨rfl, he⟩))
  · rw [hserial]
    rcases (hother t' k).mp hk with ⟨-, rfl⟩ | hk
    · exact Nat.lt_succ_self _
    · exact Nat.lt_succ_of_lt (h.notifying hk)
  · rcases (hother t₁ k).mp hk₁ with ⟨ht₁, hs₁⟩ | ho₁ <;>
      rcases (hother t₂ k).mp hk₂ with ⟨ht₂, hs₂⟩ | ho₂
    · exact ht₁.trans ht₂.symm
    · exact absurd (h.notifying ho₂) (hs₁ ▸ Nat.lt_irrefl _)
    · exact absurd (h.notifying ho₁) (hs₂ ▸ Nat.lt_irrefl _)
    · exact h.unique ho₁ ho₂

theorem step (h : Commits tr s) (hm : Moves size s act es s') : Commits (tr ++ es) s' := by
  cases hm with
  | worker _ ht =>
      obtain ⟨hcommitters, hserial, -, -⟩ := ht.frame
      refine h.keep hserial (fun t k => by rw [hcommitters]) fun k hk => ?_
      rcases ht.events with rfl | ⟨k', rfl⟩
      · cases hk
      · simp at hk
  | spurious | notify_all | join | threw | stop | destroyed =>
      exact h.keep rfl (fun _ _ => Iff.rfl) (by simp)
  | @tested t ht =>
      refine h.keep rfl (fun t' k => ?_) (by simp)
      show Function.update s.committers t .tested t' = _ ↔ s.committers t' = _
      have hiff : ∀ t', Function.update s.committers t .tested t' = .notifying k ↔
          s.committers t' = .notifying k := by
        apply forall_update
          (P := fun t' (pc : CommitPc) => pc = .notifying k ↔ s.committers t' = .notifying k)
        · rw [ht]
          exact ⟨nofun, nofun⟩
        · intro t' _
          exact Iff.rfl
      exact hiff t'
  | notified ht => exact h.finish ht rfl rfl
  | unheard ht => exact h.finish ht rfl rfl
  | emplace ht => exact h.enqueue ht rfl rfl

end Commits

/-! ### The destructor -/

structure Stops (n : Nat) (tr : List Event) (s : ThreadPool) : Prop where
  stopped : .stopped ∈ tr ↔ s.stoped = true
  stoped : s.stoped = true ↔ s.destructor ≠ .idle
  joined : ∀ w, w < n → s.destructor.joined w → s.workers w = .done

namespace Stops

theorem init : Stops n [] (init size) where
  stopped := ⟨nofun, nofun⟩
  stoped := ⟨nofun, fun h => absurd rfl h⟩
  joined := nofun

/-- The destructor does nothing. -/
theorem keep (h : Stops n tr s) (hes : .stopped ∉ es) (hstoped : s'.stoped = s.stoped)
    (hdestructor : s'.destructor = s.destructor)
    (hdone : ∀ w, s.workers w = .done → s'.workers w = .done) : Stops n (tr ++ es) s' := by
  refine ⟨?_, ?_, fun w hw hj => ?_⟩
  · rw [hstoped, ← h.stopped, List.mem_append, or_iff_left hes]
  · rw [hstoped, hdestructor]
    exact h.stoped
  · rw [hdestructor] at hj
    exact hdone w (h.joined w hw hj)

theorem update_done {w : Nat} {pc : WorkerPc} (hw : s.workers w ≠ .done) :
    ∀ i, s.workers i = .done → Function.update s.workers w pc i = .done := by
  intro i hi
  have hne : i ≠ w := fun he => hw (he ▸ hi)
  rw [Function.update_of_ne hne]
  exact hi

theorem step (h : Stops (poolSize size) tr s) (hm : Moves size s act es s') :
    Stops (poolSize size) (tr ++ es) s' := by
  cases hm with
  | @worker w _ _ _ ht =>
      obtain ⟨-, -, hstoped, hdestructor⟩ := ht.frame
      refine h.keep ?_ hstoped hdestructor ?_
      · rcases ht.events with rfl | ⟨k, rfl⟩ <;> simp
      · obtain ⟨pc, hworkers⟩ := ht.workers
        rw [hworkers]
        exact update_done ht.ne_done
  | spurious _ hpc =>
      exact h.keep (by simp) rfl rfl (update_done (by rw [hpc]; nofun))
  | notified _ _ hpc =>
      exact h.keep (by simp) rfl rfl (update_done (by rw [hpc]; nofun))
  | threw | tested | emplace | unheard => exact h.keep (by simp) rfl rfl fun _ => id
  | stop hd =>
      refine ⟨by simp, by simp, nofun⟩
  | notify_all hd =>
      refine ⟨?_, ?_, fun w _ hw => absurd hw (Nat.not_lt_zero w)⟩
      · rw [List.append_nil]
        exact h.stopped
      · refine ⟨fun _ => nofun, fun _ => ?_⟩
        exact h.stoped.mpr (by rw [hd]; nofun)
  | @join i hd hi hdone =>
      refine ⟨?_, ?_, fun w hw hj => ?_⟩
      · rw [List.append_nil]
        exact h.stopped
      · refine ⟨fun _ => nofun, fun _ => ?_⟩
        exact h.stoped.mpr (by rw [hd]; nofun)
      · rcases Nat.lt_succ_iff_lt_or_eq.mp hj with hlt | rfl
        · exact h.joined w hw (by rw [hd]; exact hlt)
        · exact hdone
  -- the last thread has been joined, so all are done
  | @destroyed i hd hi =>
      refine ⟨?_, ?_, fun w hw _ => ?_⟩
      · rw [List.mem_append, or_iff_left (by simp)]
        exact h.stopped
      · refine ⟨fun _ => nofun, fun _ => ?_⟩
        exact h.stoped.mpr (by rw [hd]; nofun)
      · exact h.joined w hw (by rw [hd]; exact Nat.lt_of_lt_of_le hw hi)

end Stops

/-- What holds in every run. -/
structure Ledger (n : Nat) (tr : List Event) (s : ThreadPool) : Prop where
  queue : Queue n tr s
  commits : Commits tr s
  stops : Stops n tr s

namespace Ledger

theorem init : Ledger n [] (init size) := ⟨.init, .init, .init⟩

theorem step (h : Ledger (poolSize size) tr s) (hm : Moves size s act es s') :
    Ledger (poolSize size) (tr ++ es) s' :=
  ⟨h.queue.step hm, h.commits.step hm, h.stops.step hm⟩

theorem of_run (h : (machine size).Run AnyStep tr s) : Ledger (poolSize size) tr s :=
  h.invariant (Ledger (poolSize size)) .init fun ih _ hs => ih.step (moves_of_step hs)

/-- When the destructor has returned, the tasks that left the queue have been
executed, once, and no others. -/
theorem count_of_returned (h : Ledger n tr s) (hd : s.destructor = .returned) (k : Nat) :
    tr.count (.executed k) = if k < s.popped then 1 else 0 := by
  have hzero : total n (WorkerPc.holds k) s.workers = 0 := total_eq_zero.mpr fun w hw => by
    rw [h.stops.joined w hw (by rw [hd]; exact True.intro)]
    rfl
  have honce := h.queue.once k
  rw [hzero] at honce
  exact honce

end Ledger

/-! ### The tasks accepted before the store -/

/-- The `commit` of task `k` returned before `stoped` was stored. -/
def Accepted (tr : List Event) (k : Nat) : Prop :=
  ∃ pre post, tr = pre ++ .stopped :: post ∧ .returned k ∈ pre

/-- Every task accepted has been executed exactly once. -/
def ExecutesAll (tr : List Event) : Prop :=
  ∀ k, Accepted tr k → tr.count (.executed k) = 1

theorem Accepted.stopped_mem {k : Nat} (h : Accepted tr k) : .stopped ∈ tr := by
  obtain ⟨pre, post, rfl, -⟩ := h
  simp

theorem Accepted.returned_mem {k : Nat} (h : Accepted tr k) : .returned k ∈ tr := by
  obtain ⟨pre, post, rfl, hk⟩ := h
  exact List.mem_append_left _ hk

theorem accepted_append {k : Nat} (hes : .stopped ∉ es) :
    Accepted (tr ++ es) k ↔ Accepted tr k := by
  constructor
  · rintro ⟨pre, post, he, hk⟩
    rcases List.append_eq_append_iff.mp he with ⟨as, -, hes'⟩ | ⟨bs, htr, hbs⟩
    · exact absurd (hes' ▸ List.mem_append_right as (List.mem_cons_self ..)) hes
    · rcases bs with - | ⟨b, bs⟩
      · exact absurd (by rw [List.nil_append] at hbs; exact hbs ▸ List.mem_cons_self ..) hes
      · obtain ⟨rfl, -⟩ := List.cons.inj hbs
        exact ⟨pre, bs, htr, hk⟩
  · rintro ⟨pre, post, rfl, hk⟩
    exact ⟨pre, post ++ es, by simp, hk⟩

theorem accepted_stopped {k : Nat} : Accepted (tr ++ [.stopped]) k ↔ .returned k ∈ tr := by
  constructor
  · intro h
    simpa using h.returned_mem
  · intro hk
    exact ⟨tr, [], rfl, hk⟩

/-- The tasks that have left the queue or will be taken by a worker inside. -/
def reach (n : Nat) (s : ThreadPool) : Nat := s.popped + total n WorkerPc.inside s.workers

theorem reach_move {pc : WorkerPc} (hw : w < n) (htasks : s'.tasks = s.tasks)
    (hserial : s'.serial = s.serial) (hworkers : s'.workers = Function.update s.workers w pc)
    (hpc : pc.inside = (s.workers w).inside) : reach n s' = reach n s := by
  unfold reach popped
  rw [htasks, hserial, hworkers, total_update_eq hw hpc]

/-- **After the store**, the tasks in reach stay the same, except that a worker
leaves an empty queue. -/
theorem reach_of_moves (hq : Queue (poolSize size) tr s) (hstop : s.stoped = true)
    (hm : Moves size s act es s') :
    reach (poolSize size) s' = reach (poolSize size) s ∨
      s.tasks = [] ∧ s'.tasks = [] ∧ s'.serial = s.serial := by
  cases hm with
  | @worker w _ _ hw ht =>
      cases ht with
      | leave hpc | ready hpc | unready hpc | block hpc | go hpc | dec hpc | run hpc | inc hpc =>
          refine .inl (reach_move hw rfl rfl rfl ?_)
          rw [hpc]
          rfl
      | acquire hpc =>
          refine .inl (reach_move hw rfl rfl rfl ?_)
          rcases hpc with hpc | hpc <;> rw [hpc] <;> rfl
      -- nobody enters any more
      | enter _ hopen =>
          rw [hopen] at hstop
          cases hstop
      | quit _ _ hempty => exact .inr ⟨hempty, hempty, rfl⟩
      | @take task rest hpc htasks =>
          -- one more task has left the queue, one worker less is inside
          left
          have hmove := total_update hw WorkerPc.inside s.workers (.dec task)
          rw [hpc] at hmove
          have hle := hq.le
          have hpopped : s.popped = s.serial - s.tasks.length := rfl
          rw [htasks, List.length_cons] at hle hpopped
          show s.serial - rest.length + total (poolSize size) WorkerPc.inside
            (Function.update s.workers w (.dec task)) = s.popped + _
          have h₁ : WorkerPc.take.inside = 1 := rfl
          have h₀ : (WorkerPc.dec task).inside = 0 := rfl
          omega
  | spurious hw hpc =>
      refine .inl (reach_move hw rfl rfl rfl ?_)
      rw [hpc]
      rfl
  | notified _ hw hpc =>
      refine .inl (reach_move hw rfl rfl rfl ?_)
      rw [hpc]
      rfl
  | threw | tested | unheard | stop | join | destroyed => exact .inl rfl
  | notify_all =>
      left
      show s.popped + _ = s.popped + _
      rw [total_congr fun i _ => WorkerPc.inside_wake (s.workers i)]
  | emplace =>
      left
      show s.serial + 1 - (s.tasks ++ [s.serial]).length + total (poolSize size) _ s.workers =
        s.serial - s.tasks.length + _
      rw [List.length_append, List.length_singleton, Nat.add_sub_add_right]

/-! ### The guard at the store -/

/-- Every task whose `commit` has returned stands in the queue before as many
places as there are workers inside. -/
def Drainable (size : Nat) (s : ThreadPool) : Prop :=
  ∀ i k, s.tasks[i]? = some k → (∀ t, s.committers t ≠ .notifying k) →
    i < total (poolSize size) WorkerPc.inside s.workers

/-- `stoped` is stored only where the queue is drainable. -/
def Drained (size : Nat) (s : ThreadPool) (act : Act) : Prop := act = .stop → Drainable size s

/-- `stoped` is stored only where the queue is not drainable. -/
def Undrained (size : Nat) (s : ThreadPool) (act : Act) : Prop := act = .stop → ¬ Drainable size s

theorem Moves.stopped_notMem (hm : Moves size s act es s') (hact : act ≠ .stop) :
    .stopped ∉ es := by
  cases hm with
  | worker _ ht => rcases ht.events with rfl | ⟨k, rfl⟩ <;> simp
  | stop => exact absurd rfl hact
  | _ => simp

/-- A task in the queue is the one its place gives. -/
theorem Queue.getElem? (h : Queue n tr s) {i k : Nat} :
    s.tasks[i]? = some k ↔ k = s.popped + i ∧ k < s.serial := by
  have hback : s.popped + s.tasks.length = s.serial := Nat.sub_add_cancel h.le
  rw [h.tasks]
  constructor
  · intro hk
    obtain ⟨hi, hk⟩ := List.getElem?_eq_some_iff.mp hk
    rw [List.length_range'] at hi
    rw [List.getElem_range'] at hk
    omega
  · rintro ⟨rfl, hlt⟩
    rw [List.getElem?_range' (by omega)]
    simp

/-- Every task accepted is in reach. -/
def Kept (size : Nat) (tr : List Event) (s : ThreadPool) : Prop :=
  ∀ k, Accepted tr k → k < reach (poolSize size) s

/-- Some task accepted is out of reach. -/
def Lost (size : Nat) (tr : List Event) (s : ThreadPool) : Prop :=
  s.stoped = true → ∃ k, Accepted tr k ∧ reach (poolSize size) s ≤ k

namespace Ledger

/-- At a drainable store every task whose `commit` has returned is in reach. -/
theorem lt_reach (h : Ledger (poolSize size) tr s) (hd : Drainable size s) {k : Nat}
    (hk : .returned k ∈ tr) : k < reach (poolSize size) s := by
  obtain ⟨hlt, hno⟩ := (h.commits.returned k).mp hk
  show k < s.popped + total (poolSize size) WorkerPc.inside s.workers
  by_cases hleft : k < s.popped
  · exact Nat.lt_add_right _ hleft
  · have hi := hd (k - s.popped) k (h.queue.getElem?.mpr (by omega)) hno
    omega

/-- At any other store one of them is not. -/
theorem exists_reach_le (h : Ledger (poolSize size) tr s) (hd : ¬ Drainable size s) :
    ∃ k, .returned k ∈ tr ∧ reach (poolSize size) s ≤ k := by
  unfold Drainable at hd
  push Not at hd
  obtain ⟨i, k, hk, hno, hi⟩ := hd
  obtain ⟨rfl, hlt⟩ := h.queue.getElem?.mp hk
  exact ⟨_, (h.commits.returned _).mpr ⟨hlt, hno⟩, Nat.add_le_add_left hi _⟩

/-- Before the store no task is accepted. -/
theorem not_accepted (h : Ledger n tr s) (hopen : s.stoped = false) (k : Nat) :
    ¬ Accepted tr k := by
  intro hk
  rw [h.stops.stopped.mp hk.stopped_mem] at hopen
  cases hopen

/-- After the store a task accepted stays on its side of the tasks in reach. -/
theorem reach_step (h : Ledger (poolSize size) tr s) (hstop : s.stoped = true)
    (hm : Moves size s act es s') {k : Nat} (hk : Accepted tr k) :
    k < reach (poolSize size) s' ↔ k < reach (poolSize size) s := by
  rcases reach_of_moves h.queue hstop hm with he | ⟨hempty, hempty', hserial⟩
  · rw [he]
  · -- the queue is empty, so the task is not in it
    have hlt := ((h.commits.returned k).mp hk.returned_mem).1
    have hpopped : s.popped = s.serial := by
      unfold popped
      rw [hempty]
      rfl
    have hpopped' : s'.popped = s.serial := by
      unfold popped
      rw [hempty', hserial]
      rfl
    unfold reach
    rw [hpopped, hpopped']
    exact iff_of_true (Nat.lt_add_right _ hlt) (Nat.lt_add_right _ hlt)

/-- The store is made once. -/
theorem ne_stop (h : Ledger n tr s) (hstop : s.stoped = true) (hm : Moves size s act es s') :
    act ≠ .stop := by
  rintro rfl
  cases hm with
  | stop hd => exact h.stops.stoped.mp hstop hd

/-- Before the store only the store itself sets `stoped`. -/
theorem eq_stop (h : Ledger (poolSize size) tr s) (hopen : s.stoped = false)
    (hm : Moves size s act es s') : act = .stop ∨ s'.stoped = false := by
  by_cases hact : act = .stop
  · exact .inl hact
  · right
    have hno : s'.stoped ≠ true := fun hstop => by
      have hmem := (h.step hm).stops.stopped.mpr hstop
      rcases List.mem_append.mp hmem with hmem | hmem
      · rw [h.stops.stopped.mp hmem] at hopen
        cases hopen
      · exact hm.stopped_notMem hact hmem
    exact Bool.not_eq_true _ ▸ hno

end Ledger

theorem Kept.step (hl : Ledger (poolSize size) tr s) (h : Kept size tr s)
    (hok : Drained size s act) (hm : Moves size s act es s') : Kept size (tr ++ es) s' := by
  intro k hk
  rcases Bool.eq_false_or_eq_true s.stoped with hstop | hopen
  · have hact := hl.ne_stop hstop hm
    have hk := (accepted_append (hm.stopped_notMem hact)).mp hk
    exact (hl.reach_step hstop hm hk).mpr (h k hk)
  · rcases hl.eq_stop hopen hm with rfl | hopen'
    · cases hm with
      | stop =>
          exact hl.lt_reach (hok rfl) (accepted_stopped.mp hk)
    · exact absurd hk ((hl.step hm).not_accepted hopen' k)

theorem Lost.step (hl : Ledger (poolSize size) tr s) (h : Lost size tr s)
    (hok : Undrained size s act) (hm : Moves size s act es s') : Lost size (tr ++ es) s' := by
  intro hstop'
  rcases Bool.eq_false_or_eq_true s.stoped with hstop | hopen
  -- after the store the same task stays out of reach
  · obtain ⟨k, hk, hle⟩ := h hstop
    have hnot : ¬ k < reach (poolSize size) s' := fun hlt =>
      Nat.not_lt.mpr hle ((hl.reach_step hstop hm hk).mp hlt)
    have hact := hl.ne_stop hstop hm
    exact ⟨k, (accepted_append (hm.stopped_notMem hact)).mpr hk, Nat.not_lt.mp hnot⟩
  · rcases hl.eq_stop hopen hm with rfl | hopen'
    · cases hm with
      | stop =>
          obtain ⟨k, hk, hle⟩ := hl.exists_reach_le (hok rfl)
          exact ⟨k, accepted_stopped.mpr hk, hle⟩
    · rw [hopen'] at hstop'
      cases hstop'

/-- When the destructor has returned, the tasks in reach are those executed. -/
theorem Ledger.count_eq (h : Ledger (poolSize size) tr s) (hd : s.destructor = .returned)
    (k : Nat) : tr.count (.executed k) = if k < reach (poolSize size) s then 1 else 0 := by
  have hinside : total (poolSize size) WorkerPc.inside s.workers = 0 :=
    total_eq_zero.mpr fun w hw => by
      rw [h.stops.joined w hw (by rw [hd]; exact True.intro)]
      rfl
  unfold reach
  rw [hinside]
  exact h.count_of_returned hd k

/-- **The shutdown runs every accepted task.**  In a run in which `stoped` is
stored only where the queue is drainable, each task whose `commit` returned
before that has been executed exactly once when the destructor returns. -/
theorem executesAll_of_drained (h : (machine size).Run (Drained size) tr s)
    (hd : s.destructor = .returned) : ExecutesAll tr := by
  have hinv : Ledger (poolSize size) tr s ∧ Kept size tr s := by
    refine h.invariant (fun tr s => Ledger (poolSize size) tr s ∧ Kept size tr s)
      ⟨.init, fun k hk => absurd hk.stopped_mem (by simp)⟩ ?_
    intro tr s act s' es ih hok hs
    have hm := moves_of_step hs
    exact ⟨ih.1.step hm, Kept.step ih.1 ih.2 hok hm⟩
  intro k hk
  rw [hinv.1.count_eq hd, if_pos (hinv.2 k hk)]

/-- One task is being executed and one is in the queue, before which the second
worker waits, when `stoped` is stored. -/
theorem executesAll_of_drained_two :
    ∃ tr s, (machine 2).Run (Drained 2) tr s ∧ s.destructor = .returned ∧
      Accepted tr 0 ∧ Accepted tr 1 ∧ ExecutesAll tr := by
  have hstart : (machine 2).Run (Drained 2) [] _ := .start
  obtain ⟨tr, s, hrun, hp⟩ := hstart.extend
    (fun s act => act = .stop → s.tasks.length ≤ total 2 WorkerPc.inside s.workers)
    (fun s act hok hact i k hk _ =>
      Nat.lt_of_lt_of_le (List.getElem?_eq_some_iff.mp hk).1 (hok hact))
    [.worker 0, .worker 0, .worker 0, .worker 0, .worker 1, .worker 1, .worker 1, .worker 1,
      .commit 5, .emplace 5, .notify_one 5 (some 0), .worker 0, .worker 0, .worker 0, .worker 0,
      .commit 5, .emplace 5, .notify_one 5 (some 1), .stop, .notify_all, .worker 0, .worker 0,
      .worker 0, .worker 0, .worker 1, .worker 1, .worker 1, .worker 1, .worker 1, .worker 1,
      .worker 1, .worker 1, .join, .join, .join]
    (fun q => decide (q.1.destructor = .returned ∧ q.2 =
      [.enqueued 0, .returned 0, .enqueued 1, .returned 1] ++ .stopped ::
        [.executed 0, .executed 1, .destroyed])) (by decide +kernel)
  obtain ⟨hd, htr⟩ := of_decide_eq_true hp
  have hacc : ∀ k, k < 2 → Accepted tr k := by
    intro k hk
    refine ⟨_, _, htr, ?_⟩
    rcases Nat.lt_succ_iff_lt_or_eq.mp hk with hk | rfl
    · rw [Nat.lt_one_iff.mp hk]
      simp
    · simp
  exact ⟨tr, s, hrun, hd, hacc 0 (by decide), hacc 1 (by decide), executesAll_of_drained hrun hd⟩

/-- **The condition is exact.**  When `stoped` is stored where the queue is not
drainable, a task accepted is never executed. -/
theorem not_executesAll_of_undrained (h : (machine size).Run (Undrained size) tr s)
    (hd : s.destructor = .returned) : ∃ k, Accepted tr k ∧ tr.count (.executed k) = 0 := by
  have hinv : Ledger (poolSize size) tr s ∧ Lost size tr s := by
    refine h.invariant (fun tr s => Ledger (poolSize size) tr s ∧ Lost size tr s)
      ⟨.init, nofun⟩ ?_
    intro tr s act s' es ih hok hs
    have hm := moves_of_step hs
    exact ⟨ih.1.step hm, Lost.step ih.1 ih.2 hok hm⟩
  obtain ⟨k, hk, hle⟩ := hinv.2 (hinv.1.stops.stoped.mpr (by rw [hd]; nofun))
  refine ⟨k, hk, ?_⟩
  rw [hinv.1.count_eq hd, if_neg (Nat.not_lt.mpr hle)]

/-- The only worker executes one task while another is put into the queue. -/
theorem not_executesAll :
    ¬ ∀ (size : Nat) (tr : List Event) (s : ThreadPool), (machine size).Run AnyStep tr s →
      s.destructor = .returned → ExecutesAll tr := by
  intro h
  obtain ⟨tr, s, hrun, hp⟩ := (machine 1).run_of_exec AnyStep
    [.commit 5, .emplace 5, .notify_one 5 none, .worker 0, .worker 0, .worker 0, .worker 0,
      .worker 0, .worker 0, .commit 5, .emplace 5, .notify_one 5 none, .stop, .notify_all,
      .worker 0, .worker 0, .worker 0, .join, .join]
    (fun q => decide (q.1.destructor = .returned ∧ q.2 =
      [.enqueued 0, .returned 0, .enqueued 1, .returned 1] ++ .stopped ::
        [.executed 0, .destroyed])) (by decide +kernel)
  obtain ⟨hd, rfl⟩ := of_decide_eq_true hp
  exact absurd (h 1 _ s hrun hd 1 ⟨_, _, rfl, by simp⟩) (by decide)

/-! ### Workers left behind by `notify_all` -/

/-- It is not so that `stoped` is set, the destructor has issued `notify_all`
and some worker is blocked with no notification under way. -/
def NoHang (size : Nat) (s : ThreadPool) : Prop :=
  ¬ (s.stoped = true ∧ s.destructor ≠ .idle ∧ s.destructor ≠ .stored ∧
    (∃ w, w < poolSize size ∧ s.workers w = .blocked) ∧ ∀ t k, s.committers t ≠ .notifying k)

/-- `notify_all` is issued only where no worker stands between its predicate
and its blocking. -/
def Heard (size : Nat) (s : ThreadPool) (act : Act) : Prop :=
  act = .notify_all → ∀ w, w < poolSize size → s.workers w ≠ .block

/-- Once `notify_all` has been issued no worker is blocked or about to. -/
structure Awake (size : Nat) (s : ThreadPool) : Prop where
  stoped : s.destructor ≠ .idle → s.stoped = true
  awake : s.destructor ≠ .idle → s.destructor ≠ .stored →
    ∀ w, w < poolSize size → s.workers w ≠ .block ∧ s.workers w ≠ .blocked

namespace Awake

theorem init : Awake size (init size) := ⟨fun h => absurd rfl h, fun h => absurd rfl h⟩

/-- One worker moves, and neither blocks nor is about to. -/
theorem move {pc : WorkerPc} (h : Awake size s)
    (hworkers : s'.workers = Function.update s.workers w pc)
    (hstoped : s'.stoped = s.stoped) (hdestructor : s'.destructor = s.destructor)
    (hpc : s.destructor ≠ .idle → s.destructor ≠ .stored → pc ≠ .block ∧ pc ≠ .blocked) :
    Awake size s' := by
  refine ⟨?_, ?_⟩
  · rw [hstoped, hdestructor]
    exact h.stoped
  · rw [hdestructor, hworkers]
    intro hidle hstored
    apply forall_update
      (P := fun i (pc : WorkerPc) => i < poolSize size → pc ≠ .block ∧ pc ≠ .blocked)
    · intro _
      exact hpc hidle hstored
    · intro i _ hi
      exact h.awake hidle hstored i hi

theorem step (h : Awake size s) (hok : Heard size s act) (hm : Moves size s act es s') :
    Awake size s' := by
  cases hm with
  | @worker w _ _ hw ht =>
      cases ht with
      | leave | enter | acquire | ready | quit | go | take | dec | run | inc =>
          exact h.move rfl rfl rfl fun _ _ => ⟨nofun, nofun⟩
      | unready _ hpred =>
          -- the predicate is true as soon as `stoped` is set
          refine h.move rfl rfl rfl fun hidle _ => ?_
          unfold predicate at hpred
          rw [h.stoped hidle] at hpred
          cases hpred
      | block hpc =>
          refine h.move rfl rfl rfl fun hidle hstored => ?_
          exact absurd hpc (h.awake hidle hstored w hw).1
  | spurious => exact h.move rfl rfl rfl fun _ _ => ⟨nofun, nofun⟩
  | notified =>
      exact h.move rfl rfl rfl fun _ _ => ⟨nofun, nofun⟩
  | threw | tested | emplace | unheard => exact ⟨h.stoped, h.awake⟩
  | stop => exact ⟨fun _ => rfl, fun _ hstored => absurd rfl hstored⟩
  | notify_all hd =>
      refine ⟨fun _ => h.stoped (by rw [hd]; nofun), fun _ _ w hw => ?_⟩
      refine ⟨fun hblock => ?_, WorkerPc.wake_ne_blocked _⟩
      exact hok rfl w hw (WorkerPc.wake_eq_block.mp hblock)
  | join hd | destroyed hd =>
      have hidle : s.destructor ≠ .idle := by rw [hd]; nofun
      have hstored : s.destructor ≠ .stored := by rw [hd]; nofun
      exact ⟨fun _ => h.stoped hidle, fun _ _ => h.awake hidle hstored⟩

end Awake

/-- **The shutdown does not hang.**  In a run in which `notify_all` is issued
only where no worker stands between its predicate and its blocking, no worker is
left blocked after it. -/
theorem noHang_of_heard (h : (machine size).Run (Heard size) tr s) : NoHang size s := by
  have hawake : Awake size s :=
    h.invariant (fun _ s => Awake size s) .init fun ih hok hs => ih.step hok (moves_of_step hs)
  rintro ⟨-, hidle, hstored, ⟨w, hw, hblocked⟩, -⟩
  exact (hawake.awake hidle hstored w hw).2 hblocked

/-- One worker is blocked when `notify_all` is issued and one before its
predicate. -/
theorem noHang_of_heard_two :
    ∃ tr s, (machine 2).Run (Heard 2) tr s ∧ s.destructor = .joining 0 ∧ s.workers 0 = .woken ∧
      s.workers 1 = .check ∧ NoHang 2 s := by
  have hstart : (machine 2).Run (Heard 2) [] _ := .start
  obtain ⟨tr, s, hrun, hp⟩ := hstart.extend
    (fun s act => act = .notify_all → ∀ w < 2, s.workers w ≠ .block)
    (fun s act hok => hok)
    [.worker 0, .worker 0, .worker 0, .worker 0, .worker 1, .worker 1, .stop, .notify_all,
      .worker 1]
    (fun q => decide (q.1.destructor = .joining 0 ∧ q.1.workers 0 = .woken ∧
      q.1.workers 1 = .check)) (by decide +kernel)
  obtain ⟨hd, h₀, h₁⟩ := of_decide_eq_true hp
  exact ⟨tr, s, hrun, hd, h₀, h₁, noHang_of_heard hrun⟩

/-- The store and the notification fall between the predicate of a worker and
its blocking. -/
theorem not_noHang :
    ¬ ∀ (size : Nat) (tr : List Event) (s : ThreadPool), (machine size).Run AnyStep tr s →
      NoHang size s := by
  intro h
  obtain ⟨tr, s, hrun, hp⟩ := (machine 1).run_of_exec AnyStep
    [.worker 0, .worker 0, .worker 0, .stop, .notify_all, .worker 0]
    (fun q => decide (q.1.stoped = true ∧ q.1.destructor = .joining 0 ∧ q.1.workers 0 = .blocked ∧
      q.1.serial = 0)) (by decide +kernel)
  obtain ⟨hstop, hd, hblocked, hserial⟩ := of_decide_eq_true hp
  refine h 1 tr s hrun ⟨hstop, ?_, ?_, ⟨0, by decide, hblocked⟩, fun t k ht => ?_⟩
  · rw [show s.destructor = _ from hd]
    nofun
  · rw [show s.destructor = _ from hd]
    nofun
  · -- nothing has been put into the queue, so nobody notifies
    have hlt := (Ledger.of_run hrun).commits.notifying ht
    rw [show s.serial = 0 from hserial] at hlt
    exact Nat.not_lt_zero k hlt

end ThreadPool

end TestExamples
