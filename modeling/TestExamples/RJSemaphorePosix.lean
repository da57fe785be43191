/-
TestExamples/RJSemaphorePosix.lean

The semaphore of RJCommon/RJSemaphore.cpp on top of pthreads.

`m_lEventCount` holds the permits and, below zero, the threads that have asked
for one in vain: `Wait` takes one off before it blocks on `m_hEvent`, `Release`
puts them back one by one and signals as long as somebody is owed a permit, and
a wait that times out puts its own back.

A section of `m_hMutex` in which nothing can happen to the thread is one step:
`Wait` up to its return or its blocking, and `Wait` from its way back under the
mutex on.  The loops of `Release` and `ReleaseAll` are one step for each turn,
since waits may end between two signals.  A thread inside `pthread_cond_wait`
or `pthread_cond_timedwait` is `waiting`; it becomes `woken`, by a signal or for
no reason, or `timedOut`.  A signal wakes one waiting thread if there is one;
it may be consumed by a thread that has timed out and is on its way back to the
mutex.  The two calls do not fail otherwise.

`Wait` has no loop around its condition wait, so a thread that is woken for no
reason returns with a permit nobody has released.  `Covered` allows that only
while more threads wait than `m_lEventCount` is below zero, so that a permit is
left over; under it no run grants more permits than there are
(`bounded_of_covered`).

The threads are numbered below `N`; the counters stay in the range of an `int`.
-/
import Mathlib.Logic.Function.Basic
import TestExamples.Lib.Machine
import TestExamples.Lib.Threads

namespace TestExamples

namespace Posix

/-- Where a thread is. -/
inductive WaitPc
  | idle
  | waiting (timed : Bool)
  | woken (signalled : Bool)
  | timedOut
  | releasing (lCount : Nat) -- in the loop of `Release`
  | releasingAll             -- in the loop of `ReleaseAll`
  deriving DecidableEq, Repr

/-- 1 for a thread in the wait that no signal has woken. -/
def WaitPc.isWaiting : WaitPc → Nat
  | .waiting _ | .timedOut | .woken false => 1
  | _ => 0

/-- 1 for a thread in the wait that a signal has woken. -/
def WaitPc.isSignalled : WaitPc → Nat
  | .woken true => 1
  | _ => 0

/-- The thread holds `m_hMutex` between two steps. -/
def WaitPc.holds : WaitPc → Prop
  | .releasing _ | .releasingAll => True
  | _ => False

/-- The fields, who holds `m_hMutex`, and where the threads are. -/
structure RJSemaphore where
  m_lWaiterCount : Int
  m_lEventCount : Int
  m_hMutex : Option Nat
  pc : Nat → WaitPc

namespace RJSemaphore

inductive Act
  | wait (t : Nat) (timed : Bool)
  | spurious (t : Nat)
  | timeout (t : Nat)
  | resume (t : Nat)
  | release (t : Nat) (lCount : Int)
  | releaseAll (t : Nat)
  | turn (t : Nat) (signalled : Option Nat)
  deriving DecidableEq, Repr

/-- `granted` and `timedOut` are the returns of `Wait`, `permit` is one turn of
the loop of `Release`, and `all` the beginning of a `ReleaseAll` with the number
of the threads then waiting. -/
inductive Event
  | granted (t : Nat)
  | timedOut (t : Nat)
  | permit
  | all (waiters : Nat)
  deriving DecidableEq, Repr

/-- The constructor. -/
def init (nInitCount : Nat) : RJSemaphore where
  m_lWaiterCount := -nInitCount
  m_lEventCount := nInitCount
  m_hMutex := none
  pc := fun _ => .idle

abbrev Outcome := Option (RJSemaphore × List Event)

def setPc (s : RJSemaphore) (t : Nat) (pc : WaitPc) : RJSemaphore :=
  { s with pc := Function.update s.pc t pc }

/-- The number of threads waiting: in the wait, and no signal has woken them. -/
def waiters (N : Nat) (s : RJSemaphore) : Nat := total N WaitPc.isWaiting s.pc

/-- `Wait` up to its return or its blocking. -/
def Wait (s : RJSemaphore) (t : Nat) (timed : Bool) : RJSemaphore × List Event :=
  let s' := { s with
    m_lWaiterCount := s.m_lWaiterCount + 1
    m_lEventCount := s.m_lEventCount - 1 }
  if s'.m_lEventCount ≥ 0 then (s', [.granted t]) else (s'.setPc t (.waiting timed), [])

/-- `pthread_cond_signal(&m_hEvent)`; the label says who gets it. -/
def pthread_cond_signal (N : Nat) (s : RJSemaphore) : Option Nat → Option RJSemaphore
  | some w =>
      match s.pc w with
      | .waiting _ => if w < N then some (s.setPc w (.woken true)) else none
      -- consumed by a thread that has timed out
      | .timedOut => if w < N then some s else none
      | _ => none
  | none => if ∀ w < N, ∀ timed, s.pc w ≠ .waiting timed then some s else none

/-- `m_lEventCount++; if (m_lEventCount <= 0) pthread_cond_signal(&m_hEvent);` -/
def putBack (N : Nat) (s : RJSemaphore) (signalled : Option Nat) : Option RJSemaphore :=
  let s' := { s with m_lEventCount := s.m_lEventCount + 1 }
  if s'.m_lEventCount ≤ 0 then s'.pthread_cond_signal N signalled else some s'

/-- One step. -/
def step (N : Nat) (s : RJSemaphore) : Act → Outcome
  | .wait t timed =>
      if t < N ∧ s.pc t = .idle ∧ s.m_hMutex = none then some (s.Wait t timed) else none
  | .spurious t =>
      match s.pc t with
      | .waiting _ => if t < N then some (s.setPc t (.woken false), []) else none
      | _ => none
  | .timeout t =>
      if t < N ∧ s.pc t = .waiting true then some (s.setPc t .timedOut, []) else none
  | .resume t =>
      if t < N ∧ s.m_hMutex = none then
        match s.pc t with
        -- nothing is tested again
        | .woken _ => some (s.setPc t .idle, [.granted t])
        | .timedOut =>
            some ({ s with
              m_lWaiterCount := s.m_lWaiterCount - 1
              m_lEventCount := s.m_lEventCount + 1 }.setPc t .idle, [.timedOut t])
        | _ => none
      else none
  | .release t lCount =>
      if t < N ∧ s.pc t = .idle ∧ s.m_hMutex = none then
        some ({ s with
          m_lWaiterCount := s.m_lWaiterCount - lCount
          m_hMutex := some t }.setPc t (.releasing lCount.toNat), [])
      else none
  | .releaseAll t =>
      if t < N ∧ s.pc t = .idle ∧ s.m_hMutex = none then
        some ({ s with m_hMutex := some t }.setPc t .releasingAll, [.all (s.waiters N)])
      else none
  | .turn t signalled =>
      if t < N then
        match s.pc t with
        -- `while (lCount > 0)`
        | .releasing (lCount + 1) =>
            (s.putBack N signalled).map fun s' => (s'.setPc t (.releasing lCount), [.permit])
        | .releasing 0 => some ({ s with m_hMutex := none }.setPc t .idle, [])
        -- `while (m_lEventCount < 0)`
        | .releasingAll =>
            if s.m_lEventCount < 0 then (s.putBack N signalled).map fun s' => (s', [])
            else some ({ s with m_lWaiterCount := 0, m_hMutex := none }.setPc t .idle, [])
        | _ => none
      else none

/-- The semaphore and `N` threads as a machine. -/
def machine (N nInitCount : Nat) : Machine RJSemaphore Act Event := ⟨init nInitCount, step N⟩

/-! ### The permits -/

/-- The waits that have returned with a permit. -/
def granted (tr : List Event) : Nat := tr.countP fun | .granted _ => true | _ => false

/-- The permits an entry of the history releases. -/
def Event.permits : Event → Nat
  | .permit => 1
  | .all waiters => waiters
  | _ => 0

/-- The permits released: one for each turn of a `Release`, and the number of
threads then waiting for each `ReleaseAll`. -/
def released (tr : List Event) : Nat := (tr.map Event.permits).sum

/-- **No more permits are granted than there are.** -/
def Bounded (n : Nat) (tr : List Event) : Prop := granted tr ≤ n + released tr

/-- A thread that no signal has woken returns with a permit only while more
threads wait than `m_lEventCount` is below zero. -/
def Covered (N : Nat) (s : RJSemaphore) : Act → Prop
  | .resume t => s.pc t = .woken false → 0 < s.m_lEventCount + s.waiters N
  | _ => True

instance (N : Nat) (s : RJSemaphore) : ∀ act, Decidable (s.Covered N act)
  | .resume t => inferInstanceAs (Decidable (s.pc t = .woken false → _))
  | .wait _ _ | .spurious _ | .timeout _ | .release _ _ | .releaseAll _ | .turn _ _ =>
      inferInstanceAs (Decidable True)

/-- The number of threads signalled and not back under the mutex. -/
def signalled (N : Nat) (s : RJSemaphore) : Nat := total N WaitPc.isSignalled s.pc

/-- What holds in every run in which no return without a signal goes
uncovered.  A `ReleaseAll` under way still owes what `m_lEventCount` is below
zero; it has been entered as released already. -/
structure Balance (N n : Nat) (tr : List Event) (s : RJSemaphore) : Prop where
  account : granted tr + s.m_lEventCount + s.waiters N + s.signalled N ≤ (n : Int) + released tr
  all : ∀ t, s.pc t = .releasingAll → granted tr + s.waiters N + s.signalled N ≤ n + released tr
  covered : 0 ≤ s.m_lEventCount + s.waiters N
  holder : ∀ t, (s.pc t).holds → s.m_hMutex = some t

section Balance

variable {N n t : Nat} {s s' : RJSemaphore} {act : Act} {tr es : List Event}

theorem granted_append (tr es : List Event) : granted (tr ++ es) = granted tr + granted es :=
  List.countP_append

theorem released_append (tr es : List Event) : released (tr ++ es) = released tr + released es := by
  unfold released
  rw [List.map_append, List.sum_append]

/-- One thread moves: what it adds to the two sums. -/
theorem sums_update {r : RJSemaphore} {q : WaitPc} (ht : t < N)
    (hpc : r.pc = Function.update s.pc t q) :
    r.waiters N + (s.pc t).isWaiting = s.waiters N + q.isWaiting ∧
      r.signalled N + (s.pc t).isSignalled = s.signalled N + q.isSignalled := by
  unfold waiters signalled
  rw [hpc]
  exact ⟨total_update ht _ s.pc q, total_update ht _ s.pc q⟩

/-- What a signal does: it wakes a waiting thread or is heard by nobody. -/
inductive Signals (N : Nat) (s : RJSemaphore) : RJSemaphore → Prop
  | woken {w timed} (hw : w < N) (hpc : s.pc w = .waiting timed) :
      Signals N s (s.setPc w (.woken true))
  | unheard : Signals N s s

theorem signals_of_putBack {signalled : Option Nat} (h : s.putBack N signalled = some s') :
    Signals N { s with m_lEventCount := s.m_lEventCount + 1 } s' := by
  unfold putBack at h
  dsimp only at h
  split at h
  · unfold pthread_cond_signal at h
    split at h
    · split at h
      · next timed hpc =>
        obtain ⟨hw, h⟩ := Option.ite_none_right_eq_some.mp h
        rw [← Option.some.inj h]
        exact .woken hw hpc
      · obtain ⟨-, h⟩ := Option.ite_none_right_eq_some.mp h
        rw [← Option.some.inj h]
        exact .unheard
      · cases h
    · obtain ⟨-, h⟩ := Option.ite_none_right_eq_some.mp h
      rw [← Option.some.inj h]
      exact .unheard
  · rw [← Option.some.inj h]
    exact .unheard

/-- A permit is put back: the counter goes up, and no more than one waiting
thread is woken. -/
structure PutBack (N : Nat) (s s' : RJSemaphore) : Prop where
  count : s'.m_lEventCount = s.m_lEventCount + 1
  mutex : s'.m_hMutex = s.m_hMutex
  sum : s'.waiters N + s'.signalled N = s.waiters N + s.signalled N
  lost : s.waiters N ≤ s'.waiters N + 1
  pc : ∀ t, s'.pc t = s.pc t ∨ (∃ timed, s.pc t = .waiting timed) ∧ s'.pc t = .woken true

theorem putBack_spec {signalled : Option Nat} (h : s.putBack N signalled = some s') :
    PutBack N s s' := by
  cases signals_of_putBack h with
  | @woken w timed hw hpc =>
      have hpc : s.pc w = .waiting timed := hpc
      obtain ⟨hwaiters, hsignalled⟩ := sums_update (s := s) (r := { s with
        m_lEventCount := s.m_lEventCount + 1 }.setPc w (.woken true)) hw rfl
      rw [hpc] at hwaiters hsignalled
      simp only [WaitPc.isWaiting, WaitPc.isSignalled] at hwaiters hsignalled
      refine ⟨rfl, rfl, by omega, by omega, ?_⟩
      apply forall_update (P := fun t (p : WaitPc) => p = s.pc t ∨
        (∃ timed, s.pc t = .waiting timed) ∧ p = .woken true)
      · exact Or.inr ⟨⟨timed, hpc⟩, rfl⟩
      · exact fun _ _ => Or.inl rfl
  | unheard => exact ⟨rfl, rfl, rfl, Nat.le_succ _, fun _ => Or.inl rfl⟩

namespace Balance

theorem init (N n : Nat) : Balance N n [] (init n) := by
  have hwaiters : (RJSemaphore.init n).waiters N = 0 := total_eq_zero.mpr fun _ _ => rfl
  have hsignalled : (RJSemaphore.init n).signalled N = 0 := total_eq_zero.mpr fun _ _ => rfl
  refine ⟨?_, nofun, ?_, nofun⟩
  · rw [hwaiters, hsignalled]
    show ((0 : Nat) : Int) + n + _ + _ ≤ _
    simp
  · rw [hwaiters]
    show 0 ≤ (n : Int) + _
    omega

/-- With the mutex free nobody is in a loop. -/
theorem free (h : Balance N n tr s) (hfree : s.m_hMutex = none) (t : Nat) : ¬ (s.pc t).holds := by
  intro hholds
  rw [h.holder t hholds] at hfree
  cases hfree

/-- One thread moves in the wait, or in or out of it. -/
theorem move {q : WaitPc} (h : Balance N n tr s)
    (hpc : s'.pc = Function.update s.pc t q) (hq : q.holds → s'.m_hMutex = some t)
    (hmutex : s'.m_hMutex = s.m_hMutex ∨ s.m_hMutex = none)
    (haccount : granted (tr ++ es) + s'.m_lEventCount + s'.waiters N + s'.signalled N ≤
      (n : Int) + released (tr ++ es))
    (hall : ∀ t', s'.pc t' = .releasingAll →
      granted (tr ++ es) + s'.waiters N + s'.signalled N ≤ n + released (tr ++ es))
    (hcovered : 0 ≤ s'.m_lEventCount + s'.waiters N) : Balance N n (tr ++ es) s' := by
  refine ⟨haccount, hall, hcovered, ?_⟩
  rw [hpc]
  apply forall_update (P := fun t' (p : WaitPc) => p.holds → s'.m_hMutex = some t')
  · exact hq
  · intro t' _ hholds
    rcases hmutex with hsame | hfree
    · rw [hsame]
      exact h.holder t' hholds
    · exact absurd hholds (h.free hfree t')

/-- Nobody is in the loop of `ReleaseAll` when one thread has moved elsewhere
and the mutex was free. -/
theorem no_all {q : WaitPc} (h : Balance N n tr s) (hfree : s.m_hMutex = none)
    (hq : q ≠ .releasingAll) : ∀ t', Function.update s.pc t q t' ≠ .releasingAll := by
  apply forall_update (P := fun _ (p : WaitPc) => p ≠ .releasingAll)
  · exact hq
  · intro t' _ hall
    exact h.free hfree t' (by rw [hall]; exact True.intro)

/-- The same without the mutex: whoever is in the loop was there before. -/
theorem all_of {q : WaitPc} (hq : q ≠ .releasingAll) :
    ∀ t', Function.update s.pc t q t' = .releasingAll → s.pc t' = .releasingAll := by
  apply forall_update (P := fun t' (p : WaitPc) => p = .releasingAll → s.pc t' = .releasingAll)
  · exact fun hall => absurd hall hq
  · exact fun _ _ => id

theorem wait {timed : Bool} (h : Balance N n tr s) (ht : t < N) (hpc : s.pc t = .idle)
    (hfree : s.m_hMutex = none) (hs : s.Wait t timed = (s', es)) : Balance N n (tr ++ es) s' := by
  have haccount := h.account
  have hcovered := h.covered
  unfold Wait at hs
  dsimp only at hs
  split at hs
  · next hpos =>
    obtain ⟨rfl, rfl⟩ := Prod.mk.inj hs
    refine ⟨?_, fun t' hall => ?_, ?_, h.holder⟩
    · rw [granted_append, released_append]
      show ((granted tr + 1 : Nat) : Int) + (s.m_lEventCount - 1) + s.waiters N + s.signalled N ≤
        (n : Int) + (released tr + 0 : Nat)
      omega
    · exact absurd (by rw [show s.pc t' = _ from hall]; exact True.intro) (h.free hfree t')
    · show 0 ≤ s.m_lEventCount - 1 + s.waiters N
      omega
  · obtain ⟨rfl, rfl⟩ := Prod.mk.inj hs
    obtain ⟨hwaiters, hsignalled⟩ := sums_update (s := s) (r := ({ s with
      m_lWaiterCount := s.m_lWaiterCount + 1
      m_lEventCount := s.m_lEventCount - 1 } : RJSemaphore).setPc t (.waiting timed)) ht rfl
    rw [hpc] at hwaiters hsignalled
    simp only [WaitPc.isWaiting, WaitPc.isSignalled] at hwaiters hsignalled
    refine h.move (t := t) rfl nofun (Or.inl rfl) ?_ (fun t' hall => ?_) ?_
    · rw [List.append_nil]
      show (granted tr : Int) + (s.m_lEventCount - 1) + _ + _ ≤ _
      omega
    · exact absurd hall (h.no_all hfree WaitPc.noConfusion t')
    · show 0 ≤ s.m_lEventCount - 1 + _
      omega

/-- A thread in the wait wakes for no reason or times out: it is counted as
waiting all the same. -/
theorem leaveQueue {q : WaitPc} {timed : Bool} (h : Balance N n tr s) (ht : t < N)
    (hpc : s.pc t = .waiting timed) (hq : q.isWaiting = 1 ∧ q.isSignalled = 0)
    (hheld : ¬ q.holds) : Balance N n (tr ++ []) (s.setPc t q) := by
  have haccount := h.account
  have hcovered := h.covered
  obtain ⟨hwaiters, hsignalled⟩ := sums_update (s := s) (r := s.setPc t q) ht rfl
  rw [hpc, hq.1] at hwaiters
  rw [hpc, hq.2] at hsignalled
  simp only [WaitPc.isWaiting, WaitPc.isSignalled] at hwaiters hsignalled
  have hne : q ≠ .releasingAll := by
    rintro rfl
    exact hheld True.intro
  refine h.move (t := t) rfl (fun hq => absurd hq hheld) (Or.inl rfl) ?_ (fun t' hall => ?_) ?_
  · rw [List.append_nil]
    show (granted tr : Int) + s.m_lEventCount + _ + _ ≤ _
    omega
  · rw [List.append_nil]
    have := h.all t' (all_of hne t' hall)
    omega
  · show 0 ≤ s.m_lEventCount + _
    omega

/-- A thread back under the mutex returns.  If no signal has woken it, the
permit it takes is one of those nobody was signalled for. -/
theorem resume (h : Balance N n tr s) (ht : t < N) (hfree : s.m_hMutex = none)
    (hok : s.Covered N (.resume t)) (hs : s.step N (.resume t) = some (s', es)) :
    Balance N n (tr ++ es) s' := by
  have haccount := h.account
  have hcovered := h.covered
  obtain ⟨-, hs⟩ := Option.ite_none_right_eq_some.mp hs
  split at hs
  · next sig hpc =>
    obtain ⟨rfl, rfl⟩ := Prod.mk.inj (Option.some.inj hs)
    obtain ⟨hwaiters, hsignalled⟩ := sums_update (s := s) (r := s.setPc t .idle) ht rfl
    have hone : (WaitPc.woken sig).isWaiting + (WaitPc.woken sig).isSignalled = 1 := by
      cases sig <;> rfl
    have hleft : (WaitPc.woken sig).isWaiting ≤ s.m_lEventCount + s.waiters N := by
      cases sig with
      | false => exact hok hpc
      | true => exact hcovered
    rw [hpc] at hwaiters hsignalled
    change _ = _ + 0 at hwaiters hsignalled
    refine h.move (t := t) rfl nofun (Or.inl rfl) ?_ (fun t' hall => ?_) ?_
    · rw [granted_append, released_append]
      show ((granted tr + 1 : Nat) : Int) + s.m_lEventCount + _ + _ ≤
        (n : Int) + (released tr + 0 : Nat)
      omega
    · exact absurd hall (h.no_all hfree WaitPc.noConfusion t')
    · show 0 ≤ s.m_lEventCount + _
      omega
  · next hpc =>
    -- the thread puts its own permit back
    obtain ⟨rfl, rfl⟩ := Prod.mk.inj (Option.some.inj hs)
    obtain ⟨hwaiters, hsignalled⟩ := sums_update (s := s) (r := ({ s with
      m_lWaiterCount := s.m_lWaiterCount - 1
      m_lEventCount := s.m_lEventCount + 1 } : RJSemaphore).setPc t .idle) ht rfl
    rw [hpc] at hwaiters hsignalled
    simp only [WaitPc.isWaiting, WaitPc.isSignalled] at hwaiters hsignalled
    refine h.move (t := t) rfl nofun (Or.inl rfl) ?_ (fun t' hall => ?_) ?_
    · rw [granted_append, released_append]
      show ((granted tr + 0 : Nat) : Int) + (s.m_lEventCount + 1) + _ + _ ≤
        (n : Int) + (released tr + 0 : Nat)
      omega
    · exact absurd hall (h.no_all hfree WaitPc.noConfusion t')
    · show 0 ≤ s.m_lEventCount + 1 + _
      omega
  · cases hs

/-- A thread enters one of the two loops, or leaves it. -/
theorem loop {q : WaitPc} {mutex : Option Nat} {k : Int} (h : Balance N n tr s) (ht : t < N)
    (hsum : (s.pc t).isWaiting = 0 ∧ (s.pc t).isSignalled = 0 ∧
      q.isWaiting = 0 ∧ q.isSignalled = 0)
    (hq : q.holds → mutex = some t) (hother : ∀ t', t' ≠ t → ¬ (s.pc t').holds)
    (hes : granted es = 0) (hall : q = .releasingAll → s.waiters N ≤ released es) :
    Balance N n (tr ++ es)
      ({ s with m_lWaiterCount := k, m_hMutex := mutex }.setPc t q) := by
  have haccount := h.account
  have hcovered := h.covered
  obtain ⟨hwaiters, hsignalled⟩ := sums_update (s := s)
    (r := { s with m_lWaiterCount := k, m_hMutex := mutex }.setPc t q) ht rfl
  obtain ⟨h₁, h₂, h₃, h₄⟩ := hsum
  refine ⟨?_, ?_, ?_, ?_⟩
  · rw [granted_append, released_append]
    show ((granted tr + granted es : Nat) : Int) + s.m_lEventCount + _ + _ ≤ _
    omega
  · intro t' hpc
    rw [granted_append, released_append]
    have hpc : Function.update s.pc t q t' = .releasingAll := hpc
    rcases update_eq hpc with ⟨-, hnew⟩ | ⟨hne, hold⟩
    · have := hall hnew
      omega
    · exact absurd (by rw [hold]; exact True.intro) (hother t' hne)
  · show 0 ≤ s.m_lEventCount + _
    omega
  · apply forall_update (P := fun t' (p : WaitPc) => p.holds → mutex = some t')
    · exact hq
    · exact fun t' hne hholds => absurd hholds (hother t' hne)

/-- The thread in a loop is the only one. -/
theorem alone (h : Balance N n tr s) (hholds : (s.pc t).holds) :
    ∀ t', t' ≠ t → ¬ (s.pc t').holds := by
  intro t' hne hholds'
  have hmutex := h.holder t hholds
  rw [h.holder t' hholds'] at hmutex
  exact hne (Option.some.inj hmutex)

/-- A thread in a loop has put a permit back: where the others are now, they
were before. -/
theorem others (h : Balance N n tr s) (hholds : (s.pc t).holds) (hput : PutBack N s s') :
    s'.pc t = s.pc t ∧ ∀ t', t' ≠ t → ¬ (s'.pc t').holds := by
  constructor
  · rcases hput.pc t with hsame | ⟨⟨timed, hpc⟩, -⟩
    · exact hsame
    · rw [hpc] at hholds
      exact absurd hholds id
  · intro t' hne hholds'
    rcases hput.pc t' with hsame | ⟨-, hpc⟩
    · rw [hsame] at hholds'
      exact h.alone hholds t' hne hholds'
    · rw [hpc] at hholds'
      exact hholds'

/-- One turn of the loop of `Release`. -/
theorem turnRelease {lCount : Nat} (h : Balance N n tr s) (ht : t < N)
    (hpc : s.pc t = .releasing (lCount + 1)) (hput : PutBack N s s') :
    Balance N n (tr ++ [.permit]) (s'.setPc t (.releasing lCount)) := by
  have hholds : (s.pc t).holds := by rw [hpc]; exact True.intro
  have haccount := h.account
  have hcovered := h.covered
  have hlost := hput.lost
  have hsum := hput.sum
  have hcount := hput.count
  obtain ⟨hself, hother⟩ := h.others hholds hput
  obtain ⟨hwaiters, hsignalled⟩ :=
    sums_update (s := s') (r := s'.setPc t (.releasing lCount)) ht rfl
  rw [hself, hpc] at hwaiters hsignalled
  simp only [WaitPc.isWaiting, WaitPc.isSignalled] at hwaiters hsignalled
  refine ⟨?_, ?_, ?_, ?_⟩
  · rw [granted_append, released_append]
    show ((granted tr + 0 : Nat) : Int) + s'.m_lEventCount + _ + _ ≤
      (n : Int) + (released tr + 1 : Nat)
    omega
  · intro t' hall
    have hall : Function.update s'.pc t (.releasing lCount) t' = .releasingAll := hall
    rcases update_eq hall with ⟨-, hnew⟩ | ⟨hne, hold⟩
    · cases hnew
    · exact absurd (by rw [hold]; exact True.intro) (hother t' hne)
  · show 0 ≤ s'.m_lEventCount + _
    omega
  · show ∀ t', (Function.update s'.pc t (.releasing lCount) t').holds → s'.m_hMutex = some t'
    rw [hput.mutex]
    apply forall_update (P := fun t' (p : WaitPc) => p.holds → s.m_hMutex = some t')
    · exact fun _ => h.holder t hholds
    · exact fun t' hne hholds' => absurd hholds' (hother t' hne)

/-- One turn of the loop of `ReleaseAll`: its permits have been entered. -/
theorem turnReleaseAll (h : Balance N n tr s) (hpc : s.pc t = .releasingAll)
    (hneg : s.m_lEventCount < 0) (hput : PutBack N s s') : Balance N n (tr ++ []) s' := by
  have hholds : (s.pc t).holds := by rw [hpc]; exact True.intro
  have hall := h.all t hpc
  have hcovered := h.covered
  have hlost := hput.lost
  have hsum := hput.sum
  have hcount := hput.count
  obtain ⟨hself, hother⟩ := h.others hholds hput
  rw [List.append_nil]
  refine ⟨?_, fun _ _ => ?_, ?_, ?_⟩
  · omega
  · omega
  · omega
  · intro t' hholds'
    rw [hput.mutex]
    rcases eq_or_ne t' t with rfl | hne
    · exact h.holder t' hholds
    · exact absurd hholds' (hother t' hne)

theorem step (h : Balance N n tr s) (hok : s.Covered N act) (hs : s.step N act = some (s', es)) :
    Balance N n (tr ++ es) s' := by
  cases act with
  | wait t timed =>
      obtain ⟨⟨ht, hpc, hfree⟩, hs⟩ := Option.ite_none_right_eq_some.mp hs
      exact h.wait ht hpc hfree (Option.some.inj hs)
  | spurious t =>
      simp only [RJSemaphore.step] at hs
      split at hs
      · next timed hpc =>
        obtain ⟨ht, hs⟩ := Option.ite_none_right_eq_some.mp hs
        obtain ⟨rfl, rfl⟩ := Prod.mk.inj (Option.some.inj hs)
        exact h.leaveQueue ht hpc ⟨rfl, rfl⟩ id
      · cases hs
  | timeout t =>
      obtain ⟨⟨ht, hpc⟩, hs⟩ := Option.ite_none_right_eq_some.mp hs
      obtain ⟨rfl, rfl⟩ := Prod.mk.inj (Option.some.inj hs)
      exact h.leaveQueue ht hpc ⟨rfl, rfl⟩ id
  | resume t =>
      obtain ⟨⟨ht, hfree⟩, -⟩ := Option.ite_none_right_eq_some.mp hs
      exact h.resume ht hfree hok hs
  | release t lCount =>
      obtain ⟨⟨ht, hpc, hfree⟩, hs⟩ := Option.ite_none_right_eq_some.mp hs
      obtain ⟨rfl, rfl⟩ := Prod.mk.inj (Option.some.inj hs)
      refine h.loop ht ?_ (fun _ => rfl) (fun t' _ => h.free hfree t') rfl nofun
      rw [hpc]
      exact ⟨rfl, rfl, rfl, rfl⟩
  | releaseAll t =>
      obtain ⟨⟨ht, hpc, hfree⟩, hs⟩ := Option.ite_none_right_eq_some.mp hs
      obtain ⟨rfl, rfl⟩ := Prod.mk.inj (Option.some.inj hs)
      refine h.loop (k := s.m_lWaiterCount) ht ?_ (fun _ => rfl)
        (fun t' _ => h.free hfree t') rfl fun _ => ?_
      · rw [hpc]
        exact ⟨rfl, rfl, rfl, rfl⟩
      · exact Nat.le_refl _
  | turn t signalled =>
      obtain ⟨ht, hs⟩ := Option.ite_none_right_eq_some.mp hs
      split at hs
      · next lCount hpc =>
        obtain ⟨s₁, hput, hs⟩ := Option.map_eq_some_iff.mp hs
        obtain ⟨rfl, rfl⟩ := Prod.mk.inj hs
        exact h.turnRelease ht hpc (putBack_spec hput)
      · next hpc =>
        obtain ⟨rfl, rfl⟩ := Prod.mk.inj (Option.some.inj hs)
        refine h.loop (k := s.m_lWaiterCount) ht ?_ nofun (h.alone ?_) rfl nofun
        · rw [hpc]
          exact ⟨rfl, rfl, rfl, rfl⟩
        · rw [hpc]
          exact True.intro
      · next hpc =>
        split at hs
        · next hneg =>
          obtain ⟨s₁, hput, hs⟩ := Option.map_eq_some_iff.mp hs
          obtain ⟨rfl, rfl⟩ := Prod.mk.inj hs
          exact h.turnReleaseAll hpc hneg (putBack_spec hput)
        · obtain ⟨rfl, rfl⟩ := Prod.mk.inj (Option.some.inj hs)
          refine h.loop ht ?_ nofun (h.alone ?_) rfl nofun
          · rw [hpc]
            exact ⟨rfl, rfl, rfl, rfl⟩
          · rw [hpc]
            exact True.intro
      · cases hs

theorem of_run (h : (machine N n).Run (Covered N) tr s) : Balance N n tr s :=
  h.invariant (fun tr s => Balance N n tr s) (Balance.init N n) fun ih hok hs => ih.step hok hs

theorem bounded (h : Balance N n tr s) : Bounded n tr := by
  have haccount := h.account
  have hcovered := h.covered
  unfold Bounded
  omega

end Balance

/-- **No run with covered wake-ups grants more permits than there are**, for
every number of threads, initial count and interleaving. -/
theorem bounded_of_covered (h : (machine N n).Run (Covered N) tr s) : Bounded n tr :=
  (Balance.of_run h).bounded

end Balance

/-- Two threads wait, one of them with a timeout that expires; a `Release` signals
nobody but the thread that has timed out, and the other thread, which wakes for
no reason, takes its permit. -/
theorem bounded_of_covered_two :
    ∃ tr s, (machine 3 0).Run (Covered 3) tr s ∧
      tr = [.permit, .granted 1, .timedOut 0] ∧ Bounded 0 tr := by
  obtain ⟨tr, s, hrun, hp⟩ := (machine 3 0).run_of_exec (Covered 3)
    [.wait 0 true, .wait 1 false, .timeout 0, .release 2 1, .turn 2 (some 0), .turn 2 none,
      .spurious 1, .resume 1, .resume 0]
    (fun q => decide (q.2 = [.permit, .granted 1, .timedOut 0])) (by decide +kernel)
  exact ⟨tr, s, hrun, of_decide_eq_true hp, bounded_of_covered hrun⟩

/-- One thread waits, and wakes for no reason. -/
theorem not_bounded : ¬ ∀ N n tr s, (machine N n).Run AnyStep tr s → Bounded n tr := by
  intro h
  obtain ⟨tr, s, hrun, hp⟩ := (machine 1 0).run_of_exec AnyStep
    [.wait 0 false, .spurious 0, .resume 0]
    (fun q => decide (q.2 = [.granted 0])) (by decide +kernel)
  have hbounded : granted tr ≤ 0 + released tr := h 1 0 tr s hrun
  rw [show tr = [.granted 0] from of_decide_eq_true hp] at hbounded
  exact absurd hbounded (by decide)

end RJSemaphore

end Posix

end TestExamples
