/-
TestExamples/ThreadPoolWakeup.lean

The notifications of the thread pool, while it runs.

A worker blocks only when the queue is empty, and every task put into the queue
is followed by a `notify_one`.  So while some worker is blocked, every task in
the queue has its wake-up on the way: a `commit` that has not notified yet, a
worker that has been notified, or the worker that was notified and has taken
`m_lock` again but no task yet (`noLostWakeup`).  A busy worker that takes the
task away also takes the need for the wake-up away.

The ghost `Wakeups` remembers which workers were woken by a notification, and
not for no reason, and which worker took which task.
-/
import Mathlib.Data.Set.Card
import TestExamples.Lib.Simulation
import TestExamples.ThreadPoolShutdown

namespace TestExamples

namespace WorkerPc

/-- The worker holds `m_lock`. -/
def locked : WorkerPc → Prop
  | .wait | .block | .check | .take => True
  | _ => False

theorem locked_wake (pc : WorkerPc) : pc.wake.locked ↔ pc.locked := by
  cases pc <;> exact Iff.rfl

end WorkerPc

/-- 1 for a `commit` that has put its task into the queue and not notified. -/
def CommitPc.isNotifying : CommitPc → Nat
  | .notifying _ => 1
  | _ => 0

namespace ThreadPool

/-- `notified` are the workers that a notification has woken and that have
neither taken a task nor blocked again since; `taken` are the tasks taken, with
the worker, in the order they were taken. -/
structure Wakeups where
  notified : Nat → Bool
  taken : List (Nat × Nat)

namespace Wakeups

def init : Wakeups := ⟨fun _ => false, []⟩

def next (s : ThreadPool) (act : Act) (g : Wakeups) : Wakeups :=
  match act with
  | .notify_one _ (some w) => { g with notified := Function.update g.notified w true }
  | .notify_all => { g with notified := fun w => g.notified w || s.workers w = .blocked }
  | .worker w =>
      match s.workers w, s.tasks with
      | .block, _ => { g with notified := Function.update g.notified w false }
      | .take, task :: _ =>
          { notified := Function.update g.notified w false, taken := g.taken ++ [(w, task)] }
      | _, _ => g
  | _ => g

end Wakeups

/-- The pool with the ghost. -/
def observed (size : Nat) : Machine (ThreadPool × Wakeups) Act Event :=
  (machine size).withGhost Wakeups.init Wakeups.next

/-- 1 for a worker notified and not yet back under the lock. -/
def isNotified : WorkerPc × Bool → Nat
  | (.woken, true) => 1
  | _ => 0

/-- The number of workers notified and not yet back under the lock. -/
def notified (size : Nat) (s : ThreadPool) (g : Wakeups) : Nat :=
  total (poolSize size) isNotified fun w => (s.workers w, g.notified w)

/-- The `commit`s that have put their task into the queue and not notified. -/
def notifying (s : ThreadPool) : Set Thread := {t | ∃ k, s.committers t = .notifying k}

/-- 1 while `m_lock` is held by a worker that was notified and has no task yet. -/
def holding (s : ThreadPool) (g : Wakeups) : Nat :=
  match s.m_lock with
  | some w => (g.notified w).toNat
  | none => 0

/-- The tasks put into the queue, in this order. -/
def enqueued (tr : List Event) : List Nat :=
  tr.filterMap fun | .enqueued k => some k | _ => none

/-- **No wake-up is lost while the pool runs**, and the tasks leave the queue in
the order they were put into it, each to one worker. -/
structure NoLostWakeup (size : Nat) (tr : List Event) (s : ThreadPool) (g : Wakeups) : Prop where
  balance : s.stoped = false → (∃ w, w < poolSize size ∧ s.workers w = .blocked) →
    s.tasks.length ≤ s.notified size g + s.notifying.ncard + s.holding g
  order : g.taken.map Prod.snd ++ s.tasks = enqueued tr
  once : (g.taken.map Prod.snd).Nodup

section Wakeup

variable {size w : Nat} {tr es : List Event} {s s' : ThreadPool} {g g' : Wakeups} {act : Act}

/-! ### The counts -/

theorem notified_move {r : ThreadPool} {f : Wakeups} {pc : WorkerPc} {b : Bool}
    (hw : w < poolSize size)
    (hworkers : r.workers = Function.update s.workers w pc)
    (hnotified : f.notified = Function.update g.notified w b) :
    r.notified size f + isNotified (s.workers w, g.notified w) =
      s.notified size g + isNotified (pc, b) := by
  have hpair : (fun i => (r.workers i, f.notified i)) =
      Function.update (fun i => (s.workers i, g.notified i)) w (pc, b) := by
    funext i
    rw [hworkers, hnotified]
    rcases eq_or_ne i w with rfl | hne
    · simp
    · simp [hne]
  unfold notified
  rw [hpair]
  exact total_update hw isNotified _ _

theorem isNotified_of_ne {pc : WorkerPc} (b : Bool) (hpc : pc ≠ .woken) :
    isNotified (pc, b) = 0 := by
  unfold isNotified
  split
  · next he => exact absurd (Prod.mk.inj he).1 hpc
  · rfl

theorem holding_le (s : ThreadPool) (g : Wakeups) : s.holding g ≤ 1 := by
  unfold holding
  split
  · exact Bool.toNat_le _
  · exact Nat.zero_le 1

/-- Without the thread `t` the `commit`s about to notify are as many, less one
if it is one of them. -/
theorem notifying_ncard (hfin : s.notifying.Finite) (t : Thread) :
    s.notifying.ncard = (s.notifying \ {t}).ncard + (s.committers t).isNotifying := by
  cases ht : s.committers t with
  | notifying k =>
      have hmem : t ∈ s.notifying := ⟨k, ht⟩
      exact (Set.ncard_sdiff_singleton_add_one hmem hfin).symm
  | idle | tested =>
      have hnot : t ∉ s.notifying := by
        rintro ⟨k, hk⟩
        rw [ht] at hk
        cases hk
      rw [Set.sdiff_singleton_eq_self hnot]
      rfl

/-- **One `commit` moves.** -/
theorem notifying_move {r : ThreadPool} {t : Thread} {pc : CommitPc} (hfin : s.notifying.Finite)
    (hcommitters : r.committers = Function.update s.committers t pc) :
    r.notifying.Finite ∧ r.notifying.ncard + (s.committers t).isNotifying =
      s.notifying.ncard + pc.isNotifying := by
  have hrest : r.notifying \ {t} = s.notifying \ {t} := by
    ext t'
    show (∃ k, r.committers t' = .notifying k) ∧ t' ≠ t ↔
      (∃ k, s.committers t' = .notifying k) ∧ t' ≠ t
    refine and_congr_left fun hne => ?_
    rw [hcommitters, Function.update_of_ne hne]
  have hfin' : r.notifying.Finite := by
    apply Set.Finite.of_sdiff _ (Set.finite_singleton t)
    rw [hrest]
    exact hfin.sdiff
  refine ⟨hfin', ?_⟩
  rw [notifying_ncard hfin t, notifying_ncard hfin' t, hrest, hcommitters, Function.update_self]
  omega

/-! ### The invariant -/

structure Balance (size : Nat) (s : ThreadPool) (g : Wakeups) : Prop where
  finite : s.notifying.Finite
  lock : ∀ w, (s.workers w).locked → s.m_lock = some w
  empty : s.stoped = false → ∀ w, s.workers w = .block → s.tasks = []
  balance : s.stoped = false → (∃ w, w < poolSize size ∧ s.workers w = .blocked) →
    s.tasks.length ≤ s.notified size g + s.notifying.ncard + s.holding g

namespace Balance

theorem init : Balance size (init size) Wakeups.init where
  finite := by
    have hnone : (ThreadPool.init size).notifying = ∅ := by
      apply Set.eq_empty_of_forall_notMem
      rintro t ⟨k, ht⟩
      cases ht
    rw [hnone]
    exact Set.finite_empty
  lock := nofun
  empty := fun _ _ _ => rfl
  balance := fun _ _ => Nat.zero_le _

/-- With the lock free nobody is in the section. -/
theorem free (h : Balance size s g) (hfree : s.m_lock = none) (w : Nat) :
    ¬ (s.workers w).locked := by
  intro hlocked
  rw [h.lock w hlocked] at hfree
  cases hfree

/-- One worker moves: who holds the lock. -/
theorem lock_move {pc : WorkerPc} (h : Balance size s g)
    (hworkers : s'.workers = Function.update s.workers w pc)
    (hself : pc.locked → s'.m_lock = some w)
    (hother : s'.m_lock = s.m_lock ∨ s.m_lock = none ∨ s.m_lock = some w) :
    ∀ w', (s'.workers w').locked → s'.m_lock = some w' := by
  rw [hworkers]
  apply forall_update (P := fun w' (pc : WorkerPc) => pc.locked → s'.m_lock = some w')
  · exact hself
  · intro w' hne hlocked
    have hmine := h.lock w' hlocked
    rcases hother with hsame | hnone | hsome
    · rw [hsame]
      exact hmine
    · exact absurd hlocked (h.free hnone w')
    · rw [hsome] at hmine
      exact absurd (Option.some.inj hmine).symm hne

/-- What the queue gains, the wake-ups gain. -/
theorem balance_of (h : Balance size s g) (hstoped : s'.stoped = s.stoped)
    (hblocked : ∀ w, s'.workers w = .blocked → s.workers w = .blocked)
    (hle : s'.tasks.length + (s.notified size g + s.notifying.ncard + s.holding g) ≤
      s.tasks.length + (s'.notified size g' + s'.notifying.ncard + s'.holding g')) :
    s'.stoped = false → (∃ w, w < poolSize size ∧ s'.workers w = .blocked) →
      s'.tasks.length ≤ s'.notified size g' + s'.notifying.ncard + s'.holding g' := by
  rintro hopen ⟨w, hw, hpc⟩
  have hold := h.balance (hstoped ▸ hopen) ⟨w, hw, hblocked w hpc⟩
  omega

/-- A worker moves outside the wait: the lock stays where it is. -/
theorem move {pc : WorkerPc} (h : Balance size s g) (hw : w < poolSize size)
    (hworkers : s'.workers = Function.update s.workers w pc) (htasks : s'.tasks = s.tasks)
    (hm_lock : s'.m_lock = s.m_lock) (hstoped : s'.stoped = s.stoped)
    (hcommitters : s'.committers = s.committers) (hold : s.workers w ≠ .woken)
    (hwoken : pc ≠ .woken) (hblocked : pc ≠ .blocked) (hblock : pc = .block → s.predicate = false)
    (hlocked : pc.locked → (s.workers w).locked) : Balance size s' g := by
  have hnotifying : s'.notifying = s.notifying := by
    unfold notifying
    rw [hcommitters]
  have hholding : s'.holding g = s.holding g := by
    unfold holding
    rw [hm_lock]
  refine ⟨?_, ?_, ?_, ?_⟩
  · rw [hnotifying]
    exact h.finite
  · refine h.lock_move hworkers (fun hl => ?_) (Or.inl hm_lock)
    rw [hm_lock]
    exact h.lock w (hlocked hl)
  · rw [hstoped, hworkers, htasks]
    intro hopen
    apply forall_update (P := fun _ (pc : WorkerPc) => pc = .block → s.tasks = [])
    · intro hpc
      obtain ⟨-, hempty⟩ := Bool.or_eq_false_iff.mp (hblock hpc)
      simpa using hempty
    · exact fun w' _ => h.empty hopen w'
  · refine h.balance_of hstoped ?_ ?_
    · rw [hworkers]
      apply forall_update (P := fun w (pc : WorkerPc) => pc = .blocked → s.workers w = .blocked)
      · exact fun hpc => absurd hpc hblocked
      · exact fun _ _ => id
    · have hmove := notified_move (s := s) (g := g) (f := g) (b := g.notified w) hw hworkers
        (Function.update_eq_self w _).symm
      rw [isNotified_of_ne _ hold, isNotified_of_ne _ hwoken, Nat.add_zero, Nat.add_zero] at hmove
      rw [htasks, hnotifying, hholding, hmove]

/-- A worker takes the lock: if it was notified, it is the holder that counts. -/
theorem acquire (h : Balance size s g) (hw : w < poolSize size)
    (hpc : s.workers w = .lock ∨ s.workers w = .woken) (hfree : s.m_lock = none) :
    Balance size ({ s with m_lock := some w }.setWorker w .wait) g := by
  refine ⟨h.finite, ?_, fun hopen => ?_, ?_⟩
  · exact h.lock_move rfl (fun _ => rfl) (Or.inr (Or.inl hfree))
  · show ∀ i, Function.update s.workers w .wait i = .block → s.tasks = []
    apply forall_update (P := fun _ (pc : WorkerPc) => pc = .block → s.tasks = [])
    · exact nofun
    · exact fun w' _ => h.empty hopen w'
  · refine h.balance_of rfl ?_ ?_
    · show ∀ i, Function.update s.workers w .wait i = .blocked → _
      apply forall_update (P := fun w (pc : WorkerPc) => pc = .blocked → s.workers w = .blocked)
      · exact nofun
      · exact fun _ _ => id
    · have hmove := notified_move (s := s) (r := { s with m_lock := some w }.setWorker w .wait)
        (g := g) (f := g) (b := g.notified w) hw rfl (Function.update_eq_self w _).symm
      have hone : isNotified (s.workers w, g.notified w) ≤ (g.notified w).toNat := by
        rcases hpc with hpc | hpc <;> rw [hpc] <;> cases g.notified w <;> decide
      have hzero : isNotified (.wait, g.notified w) = 0 := isNotified_of_ne _ nofun
      have hnone : s.holding g = 0 := by
        unfold holding
        rw [hfree]
      show s.tasks.length + (s.notified size g + s.notifying.ncard + s.holding g) ≤
        s.tasks.length + (_ + s.notifying.ncard + (g.notified w).toNat)
      omega

/-- A worker that has found nothing blocks. -/
theorem block (h : Balance size s g) (hpc : s.workers w = .block) :
    Balance size ({ s with m_lock := none }.setWorker w .blocked)
      { g with notified := Function.update g.notified w false } := by
  have hmine : s.m_lock = some w := h.lock w (by rw [hpc]; exact True.intro)
  refine ⟨h.finite, ?_, fun hopen _ _ => h.empty hopen w hpc, fun hopen _ => ?_⟩
  · exact h.lock_move rfl nofun (Or.inr (Or.inr hmine))
  · show s.tasks.length ≤ _
    rw [h.empty hopen w hpc]
    exact Nat.zero_le _

/-- A worker takes the front of the queue: the wake-up it may have been goes
with the task. -/
theorem take {task : Nat} {rest : List Nat} (h : Balance size s g) (hw : w < poolSize size)
    (hpc : s.workers w = .take) (htasks : s.tasks = task :: rest)
    (hnotified : g'.notified = Function.update g.notified w false) :
    Balance size ({ s with tasks := rest, m_lock := none }.setWorker w (.dec task)) g' := by
  have hmine : s.m_lock = some w := h.lock w (by rw [hpc]; exact True.intro)
  refine ⟨h.finite, ?_, fun _ => ?_, ?_⟩
  · exact h.lock_move rfl False.elim (Or.inr (Or.inr hmine))
  · show ∀ i, Function.update s.workers w (.dec task) i = .block → rest = []
    -- nobody else has the lock
    apply forall_update (P := fun _ (pc : WorkerPc) => pc = .block → rest = [])
    · exact nofun
    · intro i hne hi
      have hother := h.lock i (by rw [hi]; exact True.intro)
      rw [hmine] at hother
      exact absurd (Option.some.inj hother).symm hne
  · refine h.balance_of rfl ?_ ?_
    · show ∀ i, Function.update s.workers w (.dec task) i = .blocked → _
      apply forall_update (P := fun w (pc : WorkerPc) => pc = .blocked → s.workers w = .blocked)
      · exact nofun
      · exact fun _ _ => id
    · have hmove : notified size ({ s with tasks := rest, m_lock := none }.setWorker w (.dec task))
          g' + isNotified (s.workers w, g.notified w) =
            s.notified size g + isNotified (.dec task, false) := notified_move hw rfl hnotified
      have hholding := holding_le s g
      rw [hpc] at hmove
      change _ + 0 = _ + 0 at hmove
      rw [htasks]
      show rest.length + _ ≤ rest.length + 1 + (_ + s.notifying.ncard + _)
      omega

theorem turn (h : Balance size s g) (hw : w < poolSize size) (ht : Turn s w es s') :
    Balance size s' (g.next s (.worker w)) := by
  have hnext : s.workers w ≠ .block → s.workers w ≠ .take → g.next s (.worker w) = g := by
    intro hblock htake
    simp only [Wakeups.next]
    split
    · next hpc => exact absurd hpc hblock
    · next hpc _ => exact absurd hpc htake
    · rfl
  cases ht with
  | leave hpc | enter hpc | go hpc | ready hpc | dec hpc | run hpc | inc hpc =>
      rw [hnext (by rw [hpc]; nofun) (by rw [hpc]; nofun)]
      refine h.move hw rfl rfl rfl rfl rfl ?_ nofun nofun nofun ?_
      all_goals rw [hpc]
      · nofun
      · exact fun hl => hl
  | unready hpc hpred =>
      rw [hnext (by rw [hpc]; nofun) (by rw [hpc]; nofun)]
      refine h.move hw rfl rfl rfl rfl rfl ?_ nofun nofun (fun _ => hpred) ?_
      all_goals rw [hpc]
      · nofun
      · exact fun hl => hl
  | acquire hpc hfree =>
      rw [hnext (by rcases hpc with hpc | hpc <;> rw [hpc] <;> nofun)
        (by rcases hpc with hpc | hpc <;> rw [hpc] <;> nofun)]
      exact h.acquire hw hpc hfree
  | block hpc =>
      have hblock : g.next s (.worker w) =
          { g with notified := Function.update g.notified w false } := by
        simp only [Wakeups.next, hpc]
      rw [hblock]
      exact h.block hpc
  | quit hpc hstop =>
      rw [hnext (by rw [hpc]; nofun) (by rw [hpc]; nofun)]
      have hmine : s.m_lock = some w := h.lock w (by rw [hpc]; exact True.intro)
      refine ⟨h.finite, ?_, fun hopen => ?_, fun hopen => ?_⟩
      · exact h.lock_move rfl nofun (Or.inr (Or.inr hmine))
      all_goals exact absurd hstop (by rw [show s.stoped = false from hopen]; nofun)
  | @take task rest hpc htasks =>
      refine h.take hw hpc htasks ?_
      simp only [Wakeups.next, hpc, htasks]

/-- A blocked worker is woken, for no reason or by a notification. -/
theorem wake {b : Bool} (h : Balance size s g) (hw : w < poolSize size)
    (hpc : s.workers w = .blocked) (hworkers : s'.workers = Function.update s.workers w .woken)
    (hnotified : g'.notified = Function.update g.notified w b) (htasks : s'.tasks = s.tasks)
    (hm_lock : s'.m_lock = s.m_lock) (hstoped : s'.stoped = s.stoped)
    (hfinite : s'.notifying.Finite) (hb : g.notified w = true → b = true)
    (hle : s.notifying.ncard ≤ s'.notifying.ncard + isNotified (.woken, b)) :
    Balance size s' g' := by
  refine ⟨hfinite, h.lock_move hworkers False.elim (Or.inl hm_lock), ?_, ?_⟩
  · rw [hstoped, hworkers, htasks]
    intro hopen
    apply forall_update (P := fun _ (pc : WorkerPc) => pc = .block → s.tasks = [])
    · exact nofun
    · exact fun w' _ => h.empty hopen w'
  · refine h.balance_of hstoped ?_ ?_
    · rw [hworkers]
      apply forall_update (P := fun w (pc : WorkerPc) => pc = .blocked → s.workers w = .blocked)
      · exact nofun
      · exact fun _ _ => id
    · have hmove := notified_move hw hworkers hnotified
      rw [hpc] at hmove
      change _ + 0 = _ at hmove
      have hholding : s.holding g ≤ s'.holding g' := by
        unfold holding
        rw [hm_lock, hnotified]
        split
        · next i _ =>
          have hmono : ∀ i, (g.notified i).toNat ≤ (Function.update g.notified w b i).toNat := by
            apply forall_update (P := fun i (b : Bool) => (g.notified i).toNat ≤ b.toNat)
            · exact Bool.toNat_le_toNat hb
            · exact fun _ _ => Nat.le_refl _
          exact hmono i
        · exact Nat.le_refl 0
      rw [htasks]
      omega

/-- A `commit` moves, and the queue with it. -/
theorem commit {t : Thread} {pc : CommitPc} (h : Balance size s g)
    (hcommitters : s'.committers = Function.update s.committers t pc)
    (hworkers : s'.workers = s.workers) (hm_lock : s'.m_lock = s.m_lock)
    (hstoped : s'.stoped = s.stoped) (htasks : s'.tasks = s.tasks ∨ s.m_lock = none)
    (hle : s'.tasks.length + (s.committers t).isNotifying ≤ s.tasks.length + pc.isNotifying) :
    Balance size s' g := by
  obtain ⟨hfinite, hnotifying⟩ := notifying_move h.finite hcommitters
  refine ⟨hfinite, ?_, ?_, ?_⟩
  · rw [hworkers, hm_lock]
    exact h.lock
  · rw [hstoped, hworkers]
    intro hopen w hpc
    rcases htasks with hsame | hfree
    · rw [hsame]
      exact h.empty hopen w hpc
    · exact absurd (by rw [hpc]; exact True.intro) (h.free hfree w)
  · refine h.balance_of hstoped (by rw [hworkers]; exact fun _ => id) ?_
    have hnotified : s'.notified size g = s.notified size g := by
      unfold notified
      rw [hworkers]
    have hholding : s'.holding g = s.holding g := by
      unfold holding
      rw [hm_lock]
    rw [hnotified, hholding]
    omega

theorem step (h : Balance size s g) (hm : Moves size s act es s') :
    Balance size s' (g.next s act) := by
  cases hm with
  | worker hw ht => exact h.turn hw ht
  | spurious hw hpc =>
      exact h.wake hw hpc rfl (Function.update_eq_self _ _).symm rfl rfl rfl h.finite id
        (Nat.le_add_right _ _)
  | threw => exact h
  | tested ht =>
      refine h.commit rfl rfl rfl rfl (Or.inl rfl) ?_
      rw [ht]
      exact Nat.le_refl _
  | emplace ht hfree =>
      refine h.commit rfl rfl rfl rfl (Or.inr hfree) ?_
      rw [ht]
      show (s.tasks ++ [s.serial]).length ≤ s.tasks.length + 1
      rw [List.length_append, List.length_singleton]
  | @notified t w _ ht hw hpc =>
      obtain ⟨hfinite, hnotifying⟩ := notifying_move
        (r := (s.setWorker w .woken).setCommitter t .idle) h.finite rfl
      rw [ht] at hnotifying
      exact h.wake hw hpc rfl rfl rfl rfl rfl hfinite (fun _ => rfl) (Nat.le_of_eq hnotifying.symm)
  | unheard _ hnone =>
      refine ⟨(notifying_move h.finite rfl).1, h.lock, h.empty, ?_⟩
      rintro - ⟨w, hw, hpc⟩
      exact absurd hpc (hnone w hw)
  | stop => exact ⟨h.finite, h.lock, nofun, nofun⟩
  | notify_all =>
      refine ⟨h.finite, fun w hl => ?_, fun hopen w hpc => ?_, ?_⟩
      · apply h.lock
        exact (WorkerPc.locked_wake (s.workers w)).mp hl
      · exact h.empty hopen w (WorkerPc.wake_eq_block.mp hpc)
      · rintro - ⟨w, -, hpc⟩
        exact absurd hpc (WorkerPc.wake_ne_blocked (s.workers w))
  | join | destroyed => exact ⟨h.finite, h.lock, h.empty, h.balance⟩

end Balance

/-! ### The order of the tasks -/

/-- The tasks taken and the tasks waiting are the tasks put into the queue. -/
structure Order (tr : List Event) (s : ThreadPool) (g : Wakeups) : Prop where
  order : g.taken.map Prod.snd ++ s.tasks = enqueued tr
  serial : enqueued tr = List.range s.serial

namespace Order

/-- Nothing is taken and nothing put. -/
theorem keep (h : Order tr s g) (hes : enqueued es = []) (htasks : s'.tasks = s.tasks)
    (hserial : s'.serial = s.serial) (htaken : g'.taken = g.taken) : Order (tr ++ es) s' g' := by
  have htr : enqueued (tr ++ es) = enqueued tr := by
    unfold enqueued at hes ⊢
    rw [List.filterMap_append, hes, List.append_nil]
  refine ⟨?_, ?_⟩
  · rw [htr, htasks, htaken]
    exact h.order
  · rw [htr, hserial]
    exact h.serial

theorem turn (h : Order tr s g) (ht : Turn s w es s') :
    Order (tr ++ es) s' (g.next s (.worker w)) := by
  have htaken : s.workers w ≠ .take → (g.next s (.worker w)).taken = g.taken := by
    intro htake
    simp only [Wakeups.next]
    split
    · rfl
    · next hpc _ => exact absurd hpc htake
    · rfl
  cases ht with
  | leave hpc | enter hpc | ready hpc | unready hpc | block hpc | quit hpc | go hpc | dec hpc
  | run hpc | inc hpc => exact h.keep rfl rfl rfl (htaken (by rw [hpc]; nofun))
  | acquire hpc =>
      refine h.keep rfl rfl rfl (htaken ?_)
      rcases hpc with hpc | hpc <;> rw [hpc] <;> nofun
  | @take task rest hpc htasks =>
      have hnext : (g.next s (.worker w)).taken = g.taken ++ [(w, task)] := by
        simp only [Wakeups.next, hpc, htasks]
      have horder := h.order
      rw [htasks] at horder
      rw [List.append_nil]
      refine ⟨?_, h.serial⟩
      rw [hnext, ← horder, List.map_append, List.append_assoc]
      rfl

theorem step (h : Order tr s g) (hm : Moves size s act es s') :
    Order (tr ++ es) s' (g.next s act) := by
  cases hm with
  | worker _ ht => exact h.turn ht
  | spurious | threw | tested | notified | unheard | stop | notify_all | join | destroyed =>
      exact h.keep rfl rfl rfl rfl
  | emplace =>
      have htr : enqueued (tr ++ [.enqueued s.serial]) = enqueued tr ++ [s.serial] :=
        List.filterMap_append
      refine ⟨?_, ?_⟩
      · rw [htr, ← h.order, List.append_assoc]
        rfl
      · rw [htr, h.serial]
        exact List.range_succ.symm

theorem once (h : Order tr s g) : (g.taken.map Prod.snd).Nodup := by
  have hnodup : (g.taken.map Prod.snd ++ s.tasks).Nodup := by
    rw [h.order, h.serial]
    exact List.nodup_range
  exact (List.nodup_append.mp hnodup).1

end Order

theorem NoLostWakeup.of_run {q : ThreadPool × Wakeups} (h : (observed size).Run AnyStep tr q) :
    NoLostWakeup size tr q.1 q.2 := by
  have hinv : Balance size q.1 q.2 ∧ Order tr q.1 q.2 := by
    refine h.invariant (fun tr q => Balance size q.1 q.2 ∧ Order tr q.1 q.2)
      ⟨Balance.init, rfl, rfl⟩ fun ⟨hb, ho⟩ _ hs => ?_
    obtain ⟨hs, hg⟩ := Machine.withGhost_step.mp hs
    have hm := moves_of_step hs
    rw [hg]
    exact ⟨hb.step hm, ho.step hm⟩
  exact ⟨hinv.1.balance, hinv.2.order, hinv.2.once⟩

/-- **No wake-up is lost**, for every pool size and every interleaving. -/
theorem noLostWakeup {q : ThreadPool × Wakeups} (h : (observed size).Run AnyStep tr q) :
    NoLostWakeup size tr q.1 q.2 := NoLostWakeup.of_run h

/-- In every run of the pool itself there is a wake-up on its way for every task,
or nobody is blocked. -/
theorem exists_wakeups (h : (machine size).Run AnyStep tr s) : ∃ g, NoLostWakeup size tr s g := by
  obtain ⟨g, hrun⟩ := h.remember Wakeups.init Wakeups.next
  exact ⟨g, NoLostWakeup.of_run hrun⟩

end Wakeup

/-- Both workers block; of two `commit`s the second notifies first, and the worker
it wakes takes the task of the first. -/
theorem noLostWakeup_two :
    ∃ tr q, (observed 2).Run AnyStep tr q ∧ q.1.stoped = false ∧ q.1.workers 1 = .blocked ∧
      q.1.tasks = [1] ∧ q.2.taken = [(0, 0)] ∧ NoLostWakeup 2 tr q.1 q.2 := by
  obtain ⟨tr, q, hrun, hp⟩ := (observed 2).run_of_exec AnyStep
    [.worker 0, .worker 0, .worker 0, .worker 0, .worker 1, .worker 1, .worker 1, .worker 1,
      .commit 0, .emplace 0, .commit 1, .emplace 1, .notify_one 1 (some 0),
      .worker 0, .worker 0, .worker 0, .worker 0]
    (fun q => decide (q.1.1.stoped = false ∧ q.1.1.workers 1 = .blocked ∧ q.1.1.tasks = [1] ∧
      q.1.2.taken = [(0, 0)])) (by decide +kernel)
  obtain ⟨hopen, hblocked, htasks, htaken⟩ := of_decide_eq_true hp
  exact ⟨tr, q, hrun, hopen, hblocked, htasks, htaken, noLostWakeup hrun⟩

/-- Worker 0 has been notified and has taken the lock again, but no task yet:
one task, no worker on its way to the lock, nobody about to notify. -/
theorem not_bounded_by_notified : ¬ ∀ size tr q, (observed size).Run AnyStep tr q →
    q.1.stoped = false → (∃ w, w < poolSize size ∧ q.1.workers w = .blocked) →
      q.1.tasks.length ≤ q.1.notified size q.2 + q.1.notifying.ncard := by
  intro h
  obtain ⟨tr, q, hrun, hp⟩ := (observed 2).run_of_exec AnyStep
    [.worker 0, .worker 0, .worker 0, .worker 0, .worker 1, .worker 1, .worker 1, .worker 1,
      .commit 0, .emplace 0, .notify_one 0 (some 0), .worker 0]
    (fun q => decide (q.1.1.stoped = false ∧ q.1.1.workers 1 = .blocked ∧ q.1.1.tasks = [0] ∧
      q.1.1.serial = 1 ∧ q.1.1.notified 2 q.1.2 = 0 ∧ .returned 0 ∈ q.2)) (by decide +kernel)
  obtain ⟨hopen, hblocked, htasks, hserial, hnotified, hreturned⟩ := of_decide_eq_true hp
  have hpool : (machine 2).Run AnyStep tr q.1 := Machine.Run.forget hrun
  have hcommits := (Ledger.of_run hpool).commits
  have hnone : q.1.notifying = ∅ := by
    apply Set.eq_empty_of_forall_notMem
    rintro t ⟨k, hk⟩
    have hlt := hcommits.notifying hk
    rw [show q.1.serial = 1 from hserial, Nat.lt_one_iff] at hlt
    rw [hlt] at hk
    exact ((hcommits.returned 0).mp hreturned).2 t hk
  have hle := h 2 tr q hrun hopen ⟨1, Nat.one_lt_two, hblocked⟩
  rw [show q.1.notified 2 q.2 = 0 from hnotified, hnone, Set.ncard_empty,
    show q.1.tasks = [0] from htasks] at hle
  exact absurd hle (by decide)

end ThreadPool

end TestExamples
