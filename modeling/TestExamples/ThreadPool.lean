/-
TestExamples/ThreadPool.lean

The thread pool of CXXTest/threadpool_test/ThreadPool.h.

The workers run the loop of the constructor, any number of other threads call
`commit`, and one thread runs the destructor.  A step is one access to a shared
object: a load or a store of `stoped`, a lock or an unlock of `m_lock` with
what is done under it, a notification, a join.  `cv_task.wait(lock, pred)` is
the loop it is specified as: the predicate is evaluated under the lock, then
the lock is released and the worker blocked in one step, and a worker that is
woken takes the lock again and starts over.  A blocked worker may wake up for
no reason (`spurious`).

The predicate and the inner test of the source read `stoped` and then
`tasks`, both while the worker holds `m_lock`; nobody else touches `tasks`
then, so each of them is one step, the load of `stoped`.

Tasks are numbered in the order they are put into the queue.  The numbers are
ghosts, as is `serial`.  The values the tasks return are left out.
-/
import Mathlib.Logic.Function.Basic
import TestExamples.Lib.Machine
import TestExamples.Lib.Threads

namespace TestExamples

/-- Where a worker is. -/
inductive WorkerPc
  | test             -- at `while (!this->stoped)`
  | lock             -- before the `unique_lock`
  | wait             -- in `cv_task.wait`, before the predicate
  | block            -- the predicate was false, `m_lock` is still held
  | blocked
  | woken            -- before it takes `m_lock` again
  | check            -- the predicate was true, before the inner test
  | take             -- before `tasks.front()`
  | dec (task : Nat) -- before `idlThrNum--`
  | run (task : Nat) -- before `task()`
  | inc              -- before `idlThrNum++`
  | done
  deriving DecidableEq, Repr

/-- What a notification does to a worker. -/
def WorkerPc.wake : WorkerPc → WorkerPc
  | .blocked => .woken
  | pc => pc

/-- Where a thread is in `commit`. -/
inductive CommitPc
  | idle
  | tested                -- `stoped` was false
  | notifying (task : Nat) -- the task is in the queue, before `notify_one`
  deriving DecidableEq, Repr

/-- Where the destructor is. -/
inductive DestructorPc
  | idle
  | stored             -- before `cv_task.notify_all()`
  | joining (i : Nat)  -- before the join of thread `i`
  | returned
  deriving DecidableEq, Repr

structure ThreadPool where
  tasks : List Nat
  m_lock : Option Nat
  stoped : Bool
  idlThrNum : Int
  workers : Nat → WorkerPc
  committers : Thread → CommitPc
  destructor : DestructorPc
  serial : Nat

namespace ThreadPool

inductive Act
  | worker (w : Nat)
  | spurious (w : Nat)
  | commit (t : Thread)
  | emplace (t : Thread)
  | notify_one (t : Thread) (w : Option Nat)
  | stop
  | notify_all
  | join
  deriving DecidableEq, Repr

/-- `enqueued` and `returned` are the two ends of a `commit`, `threw` is its
exception; `stopped` is the store of `stoped`, `destroyed` the return of the
destructor. -/
inductive Event
  | enqueued (task : Nat)
  | returned (task : Nat)
  | threw
  | executed (task : Nat)
  | stopped
  | destroyed
  deriving DecidableEq, Repr

/-- The number of workers: `size < 1 ? 1 : size`. -/
def poolSize (size : Nat) : Nat := if size < 1 then 1 else size

/-- After the constructor. -/
def init (size : Nat) : ThreadPool where
  tasks := []
  m_lock := none
  stoped := false
  idlThrNum := poolSize size
  workers := fun _ => .test
  committers := fun _ => .idle
  destructor := .idle
  serial := 0

abbrev Outcome := Option (ThreadPool × List Event)

def setWorker (s : ThreadPool) (w : Nat) (pc : WorkerPc) : ThreadPool :=
  { s with workers := Function.update s.workers w pc }

def setCommitter (s : ThreadPool) (t : Thread) (pc : CommitPc) : ThreadPool :=
  { s with committers := Function.update s.committers t pc }

/-- The predicate of `cv_task.wait`. -/
def predicate (s : ThreadPool) : Bool := s.stoped || !s.tasks.isEmpty

/-- One step of the loop of a worker. -/
def workerStep (s : ThreadPool) (w : Nat) : Outcome :=
  match s.workers w with
  -- `while (!this->stoped)`: the function ends here whatever is in the queue
  | .test => some (s.setWorker w (if s.stoped then .done else .lock), [])
  -- the `unique_lock`, and the lock taken again inside `wait`
  | .lock | .woken =>
      if s.m_lock = none then some ({ s with m_lock := some w }.setWorker w .wait, []) else none
  | .wait => some (s.setWorker w (if s.predicate then .check else .block), [])
  | .block => some ({ s with m_lock := none }.setWorker w .blocked, [])
  | .blocked => none
  -- `if (this->stoped && this->tasks.empty()) return;`
  | .check =>
      if s.stoped && s.tasks.isEmpty then
        some ({ s with m_lock := none }.setWorker w .done, [])
      else some (s.setWorker w .take, [])
  | .take =>
      match s.tasks with
      | [] => none  -- `front()` of an empty queue
      | task :: rest => some ({ s with tasks := rest, m_lock := none }.setWorker w (.dec task), [])
  -- outside the lock
  | .dec task => some ({ s with idlThrNum := s.idlThrNum - 1 }.setWorker w (.run task), [])
  | .run task => some (s.setWorker w .inc, [.executed task])
  | .inc => some ({ s with idlThrNum := s.idlThrNum + 1 }.setWorker w .test, [])
  | .done => none

/-- One step. -/
def step (size : Nat) (s : ThreadPool) : Act → Outcome
  | .worker w => if w < poolSize size then s.workerStep w else none
  | .spurious w =>
      if w < poolSize size ∧ s.workers w = .blocked then some (s.setWorker w .woken, []) else none
  | .commit t =>
      match s.committers t with
      -- `if (stoped.load()) throw ...`
      | .idle => if s.stoped then some (s, [.threw]) else some (s.setCommitter t .tested, [])
      | _ => none
  | .emplace t =>
      match s.committers t with
      | .tested =>
          if s.m_lock = none then
            some ({ s with
              tasks := s.tasks ++ [s.serial]
              serial := s.serial + 1 }.setCommitter t (.notifying s.serial), [.enqueued s.serial])
          else none
      | _ => none
  | .notify_one t w =>
      match s.committers t with
      | .notifying task =>
          match w with
          -- one of the blocked workers, if there is any
          | some w =>
              if w < poolSize size ∧ s.workers w = .blocked then
                some ((s.setWorker w .woken).setCommitter t .idle, [.returned task])
              else none
          | none =>
              if ∀ w < poolSize size, s.workers w ≠ .blocked then
                some (s.setCommitter t .idle, [.returned task])
              else none
      | _ => none
  | .stop =>
      if s.destructor = .idle then
        some ({ s with stoped := true, destructor := .stored }, [.stopped])
      else none
  | .notify_all =>
      if s.destructor = .stored then
        some ({ s with
          workers := fun w => (s.workers w).wake
          destructor := .joining 0 }, [])
      else none
  | .join =>
      match s.destructor with
      | .joining i =>
          -- `thread.join()` comes back when the thread has left its function
          if i < poolSize size then
            if s.workers i = .done then some ({ s with destructor := .joining (i + 1) }, [])
            else none
          else some ({ s with destructor := .returned }, [.destroyed])
      | _ => none

/-- `threadpool` as a machine. -/
def machine (size : Nat) : Machine ThreadPool Act Event := ⟨init size, step size⟩

/-! ### The steps, branch by branch -/

/-- What a worker does in its loop. -/
inductive Turn (s : ThreadPool) (w : Nat) : List Event → ThreadPool → Prop
  | leave (hw : s.workers w = .test) (hstop : s.stoped = true) :
      Turn s w [] (s.setWorker w .done)
  | enter (hw : s.workers w = .test) (hstop : s.stoped = false) :
      Turn s w [] (s.setWorker w .lock)
  | acquire (hw : s.workers w = .lock ∨ s.workers w = .woken) (hfree : s.m_lock = none) :
      Turn s w [] ({ s with m_lock := some w }.setWorker w .wait)
  | ready (hw : s.workers w = .wait) (hpred : s.predicate = true) :
      Turn s w [] (s.setWorker w .check)
  | unready (hw : s.workers w = .wait) (hpred : s.predicate = false) :
      Turn s w [] (s.setWorker w .block)
  | block (hw : s.workers w = .block) :
      Turn s w [] ({ s with m_lock := none }.setWorker w .blocked)
  | quit (hw : s.workers w = .check) (hstop : s.stoped = true) (hempty : s.tasks = []) :
      Turn s w [] ({ s with m_lock := none }.setWorker w .done)
  | go (hw : s.workers w = .check) (hgo : s.stoped = false ∨ s.tasks ≠ []) :
      Turn s w [] (s.setWorker w .take)
  | take {task rest} (hw : s.workers w = .take) (htasks : s.tasks = task :: rest) :
      Turn s w [] ({ s with tasks := rest, m_lock := none }.setWorker w (.dec task))
  | dec {task} (hw : s.workers w = .dec task) :
      Turn s w [] ({ s with idlThrNum := s.idlThrNum - 1 }.setWorker w (.run task))
  | run {task} (hw : s.workers w = .run task) :
      Turn s w [.executed task] (s.setWorker w .inc)
  | inc (hw : s.workers w = .inc) :
      Turn s w [] ({ s with idlThrNum := s.idlThrNum + 1 }.setWorker w .test)

theorem turn_of_workerStep {s s' : ThreadPool} {w : Nat} {es : List Event}
    (h : s.workerStep w = some (s', es)) : Turn s w es s' := by
  unfold workerStep at h
  split at h
  case h_1 hw =>
    obtain ⟨rfl, rfl⟩ := Prod.mk.inj (Option.some.inj h)
    split
    · next hstop => exact .leave hw hstop
    · next hstop => exact .enter hw (Bool.not_eq_true _ ▸ hstop)
  case h_2 hw =>
    split at h
    · next hfree =>
      obtain ⟨rfl, rfl⟩ := Prod.mk.inj (Option.some.inj h)
      exact .acquire (.inl hw) hfree
    · cases h
  case h_3 hw =>
    split at h
    · next hfree =>
      obtain ⟨rfl, rfl⟩ := Prod.mk.inj (Option.some.inj h)
      exact .acquire (.inr hw) hfree
    · cases h
  case h_4 hw =>
    obtain ⟨rfl, rfl⟩ := Prod.mk.inj (Option.some.inj h)
    split
    · next hpred => exact .ready hw hpred
    · next hpred => exact .unready hw (Bool.not_eq_true _ ▸ hpred)
  case h_5 hw =>
    obtain ⟨rfl, rfl⟩ := Prod.mk.inj (Option.some.inj h)
    exact .block hw
  case h_6 => cases h
  case h_7 hw =>
    split at h
    · next hquit =>
      obtain ⟨hstop, hempty⟩ := Bool.and_eq_true_iff.mp hquit
      obtain ⟨rfl, rfl⟩ := Prod.mk.inj (Option.some.inj h)
      exact .quit hw hstop (List.isEmpty_iff.mp hempty)
    · next hgo =>
      obtain ⟨rfl, rfl⟩ := Prod.mk.inj (Option.some.inj h)
      refine .go hw ?_
      rw [Bool.and_eq_true, not_and_or, Bool.not_eq_true, List.isEmpty_iff] at hgo
      exact hgo
  case h_8 hw =>
    split at h
    · cases h
    · next htasks =>
      obtain ⟨rfl, rfl⟩ := Prod.mk.inj (Option.some.inj h)
      exact .take hw htasks
  case h_9 hw =>
    obtain ⟨rfl, rfl⟩ := Prod.mk.inj (Option.some.inj h)
    exact .dec hw
  case h_10 hw =>
    obtain ⟨rfl, rfl⟩ := Prod.mk.inj (Option.some.inj h)
    exact .run hw
  case h_11 hw =>
    obtain ⟨rfl, rfl⟩ := Prod.mk.inj (Option.some.inj h)
    exact .inc hw
  case h_12 => cases h

/-- What a step does. -/
inductive Moves (size : Nat) (s : ThreadPool) : Act → List Event → ThreadPool → Prop
  | worker {w es s'} (hw : w < poolSize size) (hturn : Turn s w es s') :
      Moves size s (.worker w) es s'
  | spurious {w} (hw : w < poolSize size) (hblocked : s.workers w = .blocked) :
      Moves size s (.spurious w) [] (s.setWorker w .woken)
  | threw {t} (ht : s.committers t = .idle) (hstop : s.stoped = true) :
      Moves size s (.commit t) [.threw] s
  | tested {t} (ht : s.committers t = .idle) (hstop : s.stoped = false) :
      Moves size s (.commit t) [] (s.setCommitter t .tested)
  | emplace {t} (ht : s.committers t = .tested) (hfree : s.m_lock = none) :
      Moves size s (.emplace t) [.enqueued s.serial]
        ({ s with
          tasks := s.tasks ++ [s.serial]
          serial := s.serial + 1 }.setCommitter t (.notifying s.serial))
  | notified {t w task} (ht : s.committers t = .notifying task) (hw : w < poolSize size)
      (hblocked : s.workers w = .blocked) :
      Moves size s (.notify_one t (some w)) [.returned task]
        ((s.setWorker w .woken).setCommitter t .idle)
  | unheard {t task} (ht : s.committers t = .notifying task)
      (hnone : ∀ w < poolSize size, s.workers w ≠ .blocked) :
      Moves size s (.notify_one t none) [.returned task] (s.setCommitter t .idle)
  | stop (hd : s.destructor = .idle) :
      Moves size s .stop [.stopped] { s with stoped := true, destructor := .stored }
  | notify_all (hd : s.destructor = .stored) :
      Moves size s .notify_all []
        { s with
          workers := fun w => (s.workers w).wake
          destructor := .joining 0 }
  | join {i} (hd : s.destructor = .joining i) (hi : i < poolSize size)
      (hdone : s.workers i = .done) :
      Moves size s .join [] { s with destructor := .joining (i + 1) }
  | destroyed {i} (hd : s.destructor = .joining i) (hi : poolSize size ≤ i) :
      Moves size s .join [.destroyed] { s with destructor := .returned }

theorem moves_of_step {size : Nat} {s s' : ThreadPool} {act : Act} {es : List Event}
    (h : step size s act = some (s', es)) : Moves size s act es s' := by
  cases act with
  | worker w =>
      obtain ⟨hw, h⟩ := Option.ite_none_right_eq_some.mp h
      exact .worker hw (turn_of_workerStep h)
  | spurious w =>
      obtain ⟨⟨hw, hblocked⟩, h⟩ := Option.ite_none_right_eq_some.mp h
      obtain ⟨rfl, rfl⟩ := Prod.mk.inj (Option.some.inj h)
      exact .spurious hw hblocked
  | commit t =>
      simp only [step] at h
      split at h
      · next ht =>
        split at h
        · next hstop =>
          obtain ⟨rfl, rfl⟩ := Prod.mk.inj (Option.some.inj h)
          exact .threw ht hstop
        · next hstop =>
          obtain ⟨rfl, rfl⟩ := Prod.mk.inj (Option.some.inj h)
          exact .tested ht (Bool.not_eq_true _ ▸ hstop)
      · cases h
  | emplace t =>
      simp only [step] at h
      split at h
      · next ht =>
        obtain ⟨hfree, h⟩ := Option.ite_none_right_eq_some.mp h
        obtain ⟨rfl, rfl⟩ := Prod.mk.inj (Option.some.inj h)
        exact .emplace ht hfree
      · cases h
  | notify_one t w =>
      simp only [step] at h
      split at h
      · next task ht =>
        cases w with
        | some w =>
            obtain ⟨⟨hw, hblocked⟩, h⟩ := Option.ite_none_right_eq_some.mp h
            obtain ⟨rfl, rfl⟩ := Prod.mk.inj (Option.some.inj h)
            exact .notified ht hw hblocked
        | none =>
            obtain ⟨hnone, h⟩ := Option.ite_none_right_eq_some.mp h
            obtain ⟨rfl, rfl⟩ := Prod.mk.inj (Option.some.inj h)
            exact .unheard ht hnone
      · cases h
  | stop =>
      obtain ⟨hd, h⟩ := Option.ite_none_right_eq_some.mp h
      obtain ⟨rfl, rfl⟩ := Prod.mk.inj (Option.some.inj h)
      exact .stop hd
  | notify_all =>
      obtain ⟨hd, h⟩ := Option.ite_none_right_eq_some.mp h
      obtain ⟨rfl, rfl⟩ := Prod.mk.inj (Option.some.inj h)
      exact .notify_all hd
  | join =>
      simp only [step] at h
      split at h
      · next i hd =>
        split at h
        · next hi =>
          obtain ⟨hdone, h⟩ := Option.ite_none_right_eq_some.mp h
          obtain ⟨rfl, rfl⟩ := Prod.mk.inj (Option.some.inj h)
          exact .join hd hi hdone
        · next hi =>
          obtain ⟨rfl, rfl⟩ := Prod.mk.inj (Option.some.inj h)
          exact .destroyed hd (Nat.le_of_not_lt hi)
      · cases h

end ThreadPool

end TestExamples
