/-
TestExamples/ConcurrentSort.lean

The parallel sort of CXXTest/concurrent_sort_test/main.cpp.

`size` workers run `thread_func` over one grid, one phase after another; in
between they wait on `g_cv`, and `main` counts them with `g_cal_count` and
wakes them.  A step is one comparison with its swap, one access to the
counter, a lock or an unlock of `g_lock`, a notification, the two halves of a
condition wait (release and block; take the lock again), a `print` or a join.
A blocked thread may be woken for no reason (`wakeWorker`, `wakeMain`).  `main`
is the only thread that waits on its `cv`, so `notify_one` wakes `main` or
nobody.

The machine starts where the workers have been created: one that is created
later is one that has not moved yet.  Its history is the grids `main` prints.

`num` is an `int`, so a grid has a side of at most 46340, the root of the largest
`int` (`size_le_of_initIntVals`), and `log` gives at most 31 phases; `g_cal_count`
is a number that stays below 2^31.
-/
import Mathlib.Data.Nat.Sqrt
import Mathlib.Logic.Function.Basic
import TestExamples.Lib.Bytes
import TestExamples.Lib.Machine
import TestExamples.Lib.Threads

namespace TestExamples

/-! ### The grid -/

/-- `int** g_arr`, row by row. -/
abbrev Grid := Nat → Nat → Int

namespace Grid

def set (arr : Grid) (row col : Nat) (x : Int) : Grid :=
  Function.update arr row (Function.update (arr row) col x)

/-- The elements of the first `size` rows, in the order `print` takes them. -/
def cells (size : Nat) (arr : Grid) : List Int :=
  (List.range size).flatMap fun row => (List.range size).map (arr row)

end Grid

/-- `initIntVals`, behind `splitIntString`: `elementNum` and the grid.  There is no
grid where the number of elements is not a square, and none where it is negative as
an `int`: the root is not a number then, and no `int` stands for it. -/
def initIntVals (vals : List Int) : Option (Nat × Grid) :=
  let num := toInt32 (vals.length % 2 ^ 32)
  if 0 ≤ num then
    let size := Nat.sqrt num.toNat
    if num = size * size then some (num.toNat, fun i j => vals.getD (i * size + j) 0) else none
  else none

/-- The side that `main` takes, `sqrt(elementNum)`, is that of an `int` of elements. -/
theorem size_le_of_initIntVals {vals : List Int} {elementNum : Nat} {arr : Grid}
    (h : initIntVals vals = some (elementNum, arr)) : Nat.sqrt elementNum ≤ 46340 := by
  have hbounds := toInt32_bounds (Nat.mod_lt vals.length (by decide : 0 < 2 ^ 32))
  unfold initIntVals at h
  dsimp only at h
  split at h
  · obtain ⟨-, h⟩ := Option.ite_none_right_eq_some.mp h
    obtain ⟨rfl, -⟩ := Prod.mk.inj (Option.some.inj h)
    refine Nat.le_of_lt_succ (Nat.sqrt_lt.mpr ?_)
    omega
  · cases h

/-! ### The loops of `thread_func` -/

/-- One turn of an inner loop: two cells, and whether `>` (else `<`) makes them
swap. -/
structure Cas where
  row : Nat
  col : Nat
  row' : Nat
  col' : Nat
  ascending : Bool
  deriving DecidableEq, Repr

/-- The test: `x > y`, or `x < y` in the odd rows. -/
def Cas.test (c : Cas) (x y : Int) : Bool := if c.ascending then x > y else x < y

/-- `if (arr[row][col] > arr[row'][col']) swap(...)`. -/
def Cas.run (c : Cas) (arr : Grid) : Grid :=
  let x := arr c.row c.col
  let y := arr c.row' c.col'
  if c.test x y then (arr.set c.row c.col y).set c.row' c.col' x else arr

/-- The values the inner index takes: `for (i = size - 1; i > 0; i--)`
`for (col = 0; col < i; col++)`. -/
def bubble (size : Nat) : List Nat := (List.range size).reverse.flatMap List.range

/-- The two loops of one phase of `thread_func`. -/
def phaseLoop (size id phase : Nat) : List Cas :=
  if phase % 2 = 1 then
    (bubble size).map fun col =>
      { row := id, col := col, row' := id, col' := col + 1, ascending := id % 2 = 0 }
  else
    (bubble size).map fun row =>
      { row := row, col := id, row' := row + 1, col' := id, ascending := true }

/-! ### The threads -/

namespace ConcurrentSort

/-- Where a worker is, and in which phase. -/
inductive FuncPc
  | sort (phase : Nat) (rest : List Cas)  -- in the loops, with what is left of them
  | notify (phase : Nat)                  -- counted, before `notify_one`
  | lock (phase : Nat)
  | wait (phase : Nat)                    -- holds `g_lock`, before it blocks on `g_cv`
  | blocked (phase : Nat)
  | woken (phase : Nat)                   -- before it takes `g_lock` again
  | unlock (phase : Nat)
  | done
  deriving DecidableEq, Repr

/-- Where `main` is, and in which turn of its loop. -/
inductive MainPc
  | lock (i : Nat)
  | test (i : Nat)     -- holds `g_lock`, before `g_cal_count < (i + 1) * size`
  | wait (i : Nat)     -- the test was true, before it blocks on `cv`
  | blocked (i : Nat)
  | woken (i : Nat)
  | unlock (i : Nat)   -- the test was false
  | print (i : Nat)
  | notify (i : Nat)   -- before `g_cv.notify_all()`
  | join (i : Nat)
  | done
  deriving DecidableEq, Repr

/-- A holder of `g_lock`. -/
inductive Holder
  | main
  | worker (w : Nat)
  deriving DecidableEq, Repr

/-- What `g_cv.notify_all()` does to a worker. -/
def FuncPc.wake : FuncPc → FuncPc
  | .blocked phase => .woken phase
  | pc => pc

/-- What `pcv->notify_one()` does to `main`. -/
def MainPc.wake : MainPc → MainPc
  | .blocked i => .woken i
  | pc => pc

end ConcurrentSort

open ConcurrentSort in
structure ConcurrentSort where
  g_arr : Grid
  g_lock : Option Holder
  g_cal_count : Nat
  workers : Nat → FuncPc
  main : MainPc

namespace ConcurrentSort

inductive Act
  | worker (w : Nat)
  | wakeWorker (w : Nat)
  | main
  | wakeMain
  deriving DecidableEq, Repr

/-- The head of the loop of `thread_func`. -/
def whilePhase (size g_max_phase id phase : Nat) : FuncPc :=
  if phase ≤ g_max_phase then .sort phase (phaseLoop size id phase) else .done

/-- The head of the loop of `main`. -/
def forPhase (g_max_phase i : Nat) : MainPc := if i < g_max_phase then .lock i else .join 0

/-- The workers have been created. -/
def init (size g_max_phase : Nat) (arr : Grid) : ConcurrentSort where
  g_arr := arr
  g_lock := none
  g_cal_count := 0
  workers := fun id => whilePhase size g_max_phase id 1
  main := forPhase g_max_phase 0

abbrev Outcome := Option (ConcurrentSort × List Grid)

def setWorker (s : ConcurrentSort) (w : Nat) (pc : FuncPc) : ConcurrentSort :=
  { s with workers := Function.update s.workers w pc }

/-- One step of `thread_func`. -/
def workerStep (size g_max_phase : Nat) (s : ConcurrentSort) (w : Nat) : Outcome :=
  match s.workers w with
  -- the loops; `g_cal_count++` is behind them
  | .sort phase (c :: rest) =>
      some ({ s with g_arr := c.run s.g_arr }.setWorker w (.sort phase rest), [])
  | .sort phase [] =>
      some ({ s with g_cal_count := s.g_cal_count + 1 }.setWorker w (.notify phase), [])
  | .notify phase => some ({ s with main := s.main.wake }.setWorker w (.lock phase), [])
  -- `unique_lock lock{ g_lock }; g_cv.wait(lock);`
  | .lock phase =>
      if s.g_lock = none then
        some ({ s with g_lock := some (.worker w) }.setWorker w (.wait phase), [])
      else none
  | .wait phase => some ({ s with g_lock := none }.setWorker w (.blocked phase), [])
  | .blocked _ => none
  -- nothing is tested again: the worker goes on to the next phase
  | .woken phase =>
      if s.g_lock = none then
        some ({ s with g_lock := some (.worker w) }.setWorker w (.unlock phase), [])
      else none
  | .unlock phase =>
      some ({ s with g_lock := none }.setWorker w (whilePhase size g_max_phase w (phase + 1)), [])
  | .done => none

/-- One step of `main`, from its loop on. -/
def mainStep (size g_max_phase : Nat) (s : ConcurrentSort) : Outcome :=
  match s.main with
  -- `while (g_cal_count < (i + 1) * size) cv.wait(lock);`
  | .lock i | .woken i =>
      if s.g_lock = none then some ({ s with g_lock := some .main, main := .test i }, [])
      else none
  | .test i =>
      some ({ s with main := if s.g_cal_count < (i + 1) * size then .wait i else .unlock i }, [])
  | .wait i => some ({ s with g_lock := none, main := .blocked i }, [])
  | .blocked _ => none
  | .unlock i => some ({ s with g_lock := none, main := .print i }, [])
  -- without the lock
  | .print i => some ({ s with main := .notify i }, [s.g_arr])
  | .notify i =>
      some ({ s with
        workers := fun w => (s.workers w).wake
        main := forPhase g_max_phase (i + 1) }, [])
  -- `pthread_arr[i]->join()`
  | .join i =>
      if i < size then
        if s.workers i = .done then some ({ s with main := .join (i + 1) }, []) else none
      else some ({ s with main := .done }, [])
  | .done => none

def step (size g_max_phase : Nat) (s : ConcurrentSort) : Act → Outcome
  | .worker w => if w < size then workerStep size g_max_phase s w else none
  | .wakeWorker w =>
      match s.workers w with
      | .blocked phase => if w < size then some (s.setWorker w (.woken phase), []) else none
      | _ => none
  | .main => mainStep size g_max_phase s
  | .wakeMain =>
      match s.main with
      | .blocked i => some ({ s with main := .woken i }, [])
      | _ => none

/-- The program as a machine. -/
def machine (size g_max_phase : Nat) (arr : Grid) : Machine ConcurrentSort Act Grid :=
  ⟨init size g_max_phase arr, step size g_max_phase⟩

/-! ### The steps, branch by branch -/

/-- What a worker does. -/
inductive Turn (size g_max_phase : Nat) (s : ConcurrentSort) (w : Nat) : ConcurrentSort → Prop
  | cas {phase c rest} (hw : s.workers w = .sort phase (c :: rest)) :
      Turn size g_max_phase s w ({ s with g_arr := c.run s.g_arr }.setWorker w (.sort phase rest))
  | count {phase} (hw : s.workers w = .sort phase []) :
      Turn size g_max_phase s w
        ({ s with g_cal_count := s.g_cal_count + 1 }.setWorker w (.notify phase))
  | notify_one {phase} (hw : s.workers w = .notify phase) :
      Turn size g_max_phase s w ({ s with main := s.main.wake }.setWorker w (.lock phase))
  | lock {phase} (hw : s.workers w = .lock phase) (hfree : s.g_lock = none) :
      Turn size g_max_phase s w
        ({ s with g_lock := some (.worker w) }.setWorker w (.wait phase))
  | block {phase} (hw : s.workers w = .wait phase) :
      Turn size g_max_phase s w ({ s with g_lock := none }.setWorker w (.blocked phase))
  | relock {phase} (hw : s.workers w = .woken phase) (hfree : s.g_lock = none) :
      Turn size g_max_phase s w
        ({ s with g_lock := some (.worker w) }.setWorker w (.unlock phase))
  | unlock {phase} (hw : s.workers w = .unlock phase) :
      Turn size g_max_phase s w
        ({ s with g_lock := none }.setWorker w (whilePhase size g_max_phase w (phase + 1)))

theorem turn_of_workerStep {size g_max_phase w : Nat} {s s' : ConcurrentSort} {es : List Grid}
    (h : workerStep size g_max_phase s w = some (s', es)) :
    Turn size g_max_phase s w s' ∧ es = [] := by
  unfold workerStep at h
  split at h
  case h_1 hw =>
    obtain ⟨rfl, rfl⟩ := Prod.mk.inj (Option.some.inj h)
    exact ⟨.cas hw, rfl⟩
  case h_2 hw =>
    obtain ⟨rfl, rfl⟩ := Prod.mk.inj (Option.some.inj h)
    exact ⟨.count hw, rfl⟩
  case h_3 hw =>
    obtain ⟨rfl, rfl⟩ := Prod.mk.inj (Option.some.inj h)
    exact ⟨.notify_one hw, rfl⟩
  case h_4 hw =>
    obtain ⟨hfree, h⟩ := Option.ite_none_right_eq_some.mp h
    obtain ⟨rfl, rfl⟩ := Prod.mk.inj (Option.some.inj h)
    exact ⟨.lock hw hfree, rfl⟩
  case h_5 hw =>
    obtain ⟨rfl, rfl⟩ := Prod.mk.inj (Option.some.inj h)
    exact ⟨.block hw, rfl⟩
  case h_6 => cases h
  case h_7 hw =>
    obtain ⟨hfree, h⟩ := Option.ite_none_right_eq_some.mp h
    obtain ⟨rfl, rfl⟩ := Prod.mk.inj (Option.some.inj h)
    exact ⟨.relock hw hfree, rfl⟩
  case h_8 hw =>
    obtain ⟨rfl, rfl⟩ := Prod.mk.inj (Option.some.inj h)
    exact ⟨.unlock hw, rfl⟩
  case h_9 => cases h

/-- What `main` does. -/
inductive MainTurn (size g_max_phase : Nat) (s : ConcurrentSort) :
    List Grid → ConcurrentSort → Prop
  | lock {i} (hm : s.main = .lock i ∨ s.main = .woken i) (hfree : s.g_lock = none) :
      MainTurn size g_max_phase s [] { s with g_lock := some .main, main := .test i }
  | short {i} (hm : s.main = .test i) (hlt : s.g_cal_count < (i + 1) * size) :
      MainTurn size g_max_phase s [] { s with main := .wait i }
  | counted {i} (hm : s.main = .test i) (hle : (i + 1) * size ≤ s.g_cal_count) :
      MainTurn size g_max_phase s [] { s with main := .unlock i }
  | block {i} (hm : s.main = .wait i) :
      MainTurn size g_max_phase s [] { s with g_lock := none, main := .blocked i }
  | unlock {i} (hm : s.main = .unlock i) :
      MainTurn size g_max_phase s [] { s with g_lock := none, main := .print i }
  | print {i} (hm : s.main = .print i) :
      MainTurn size g_max_phase s [s.g_arr] { s with main := .notify i }
  | notify_all {i} (hm : s.main = .notify i) :
      MainTurn size g_max_phase s []
        { s with
          workers := fun w => (s.workers w).wake
          main := forPhase g_max_phase (i + 1) }
  | join {i} (hm : s.main = .join i) (hi : i < size) (hdone : s.workers i = .done) :
      MainTurn size g_max_phase s [] { s with main := .join (i + 1) }
  | exit {i} (hm : s.main = .join i) (hi : size ≤ i) :
      MainTurn size g_max_phase s [] { s with main := .done }

theorem mainTurn_of_mainStep {size g_max_phase : Nat} {s s' : ConcurrentSort} {es : List Grid}
    (h : mainStep size g_max_phase s = some (s', es)) : MainTurn size g_max_phase s es s' := by
  unfold mainStep at h
  split at h
  case h_1 hm =>
    obtain ⟨hfree, h⟩ := Option.ite_none_right_eq_some.mp h
    obtain ⟨rfl, rfl⟩ := Prod.mk.inj (Option.some.inj h)
    exact .lock (.inl hm) hfree
  case h_2 hm =>
    obtain ⟨hfree, h⟩ := Option.ite_none_right_eq_some.mp h
    obtain ⟨rfl, rfl⟩ := Prod.mk.inj (Option.some.inj h)
    exact .lock (.inr hm) hfree
  case h_3 hm =>
    obtain ⟨rfl, rfl⟩ := Prod.mk.inj (Option.some.inj h)
    split
    · next hlt => exact .short hm hlt
    · next hge => exact .counted hm (Nat.le_of_not_lt hge)
  case h_4 hm =>
    obtain ⟨rfl, rfl⟩ := Prod.mk.inj (Option.some.inj h)
    exact .block hm
  case h_5 => cases h
  case h_6 hm =>
    obtain ⟨rfl, rfl⟩ := Prod.mk.inj (Option.some.inj h)
    exact .unlock hm
  case h_7 hm =>
    obtain ⟨rfl, rfl⟩ := Prod.mk.inj (Option.some.inj h)
    exact .print hm
  case h_8 hm =>
    obtain ⟨rfl, rfl⟩ := Prod.mk.inj (Option.some.inj h)
    exact .notify_all hm
  case h_9 hm =>
    split at h
    · next hi =>
      obtain ⟨hdone, h⟩ := Option.ite_none_right_eq_some.mp h
      obtain ⟨rfl, rfl⟩ := Prod.mk.inj (Option.some.inj h)
      exact .join hm hi hdone
    · next hi =>
      obtain ⟨rfl, rfl⟩ := Prod.mk.inj (Option.some.inj h)
      exact .exit hm (Nat.le_of_not_lt hi)
  case h_10 => cases h

/-- What a step does. -/
inductive Moves (size g_max_phase : Nat) (s : ConcurrentSort) :
    Act → List Grid → ConcurrentSort → Prop
  | worker {w s'} (hw : w < size) (hturn : Turn size g_max_phase s w s') :
      Moves size g_max_phase s (.worker w) [] s'
  | wakeWorker {w phase} (hw : w < size) (hblocked : s.workers w = .blocked phase) :
      Moves size g_max_phase s (.wakeWorker w) [] (s.setWorker w (.woken phase))
  | main {es s'} (hturn : MainTurn size g_max_phase s es s') :
      Moves size g_max_phase s .main es s'
  | wakeMain {i} (hblocked : s.main = .blocked i) :
      Moves size g_max_phase s .wakeMain [] { s with main := .woken i }

theorem moves_of_step {size g_max_phase : Nat} {s s' : ConcurrentSort} {act : Act}
    {es : List Grid} (h : step size g_max_phase s act = some (s', es)) :
    Moves size g_max_phase s act es s' := by
  cases act with
  | worker w =>
      obtain ⟨hw, h⟩ := Option.ite_none_right_eq_some.mp h
      obtain ⟨hturn, rfl⟩ := turn_of_workerStep h
      exact .worker hw hturn
  | wakeWorker w =>
      simp only [step] at h
      split at h
      · next phase hblocked =>
        obtain ⟨hw, h⟩ := Option.ite_none_right_eq_some.mp h
        obtain ⟨rfl, rfl⟩ := Prod.mk.inj (Option.some.inj h)
        exact .wakeWorker hw hblocked
      · cases h
  | main => exact .main (mainTurn_of_mainStep h)
  | wakeMain =>
      simp only [step] at h
      split at h
      · next i hblocked =>
        obtain ⟨rfl, rfl⟩ := Prod.mk.inj (Option.some.inj h)
        exact .wakeMain hblocked
      · cases h

end ConcurrentSort

end TestExamples
