/-
TestExamples/RJSemaphoreWin32.lean

The semaphore of RJCommon/RJSemaphore.cpp, compiled for Windows.

The kernel's semaphore holds the permits; next to it the object counts its
waiters in `m_lWaiterCount`, so that `ReleaseAll` knows how many permits to
release.  The sections of `m_lockCount` are one step each: the increment in
`Wait`, `Release` and `ReleaseAll`.  Between its increment and
`WaitForSingleObject` a thread is `counted`, inside the call it is `blocked`,
and the label of `wake` says how the call ends.  It may end with a timeout only
if it was given one; a permit it ends with is taken from the kernel's count.

A thread that takes a permit was counted by one and takes one away, so the
difference of blocked threads and permits does not change, and neither does the
counter.  A thread whose wait times out is still counted when it has gone:
nothing takes its increment back, as the other branch of the file does.
`Adjusted` names the steps after which the counter is right; in a run of such
steps it is (`accurate_of_adjusted`).

The threads are numbered below `N`.  `m_hSemaphore` has been created; the
counters are numbers that stay in the range of an `int`.
-/
import Mathlib.Logic.Function.Basic
import TestExamples.Lib.Machine
import TestExamples.Lib.Threads

namespace TestExamples

namespace Win32

/-- The limit given to `CreateSemaphore`. -/
def MAXLONG : Int := 2 ^ 31 - 1

/-- What `WaitForSingleObject` returns. -/
inductive WaitCode
  | WAIT_OBJECT_0
  | WAIT_TIMEOUT
  | WAIT_FAILED
  deriving DecidableEq, Repr

/-- Where a thread is in `Wait`, and whether it waits with a timeout. -/
inductive WaitPc
  | idle
  | counted (timed : Bool)
  | blocked (timed : Bool)
  deriving DecidableEq, Repr

/-- 1 for a thread between its increment and `WaitForSingleObject`. -/
def WaitPc.isCounted : WaitPc → Nat
  | .counted _ => 1
  | _ => 0

/-- 1 for a thread inside `WaitForSingleObject`. -/
def WaitPc.isBlocked : WaitPc → Nat
  | .blocked _ => 1
  | _ => 0

structure RJSemaphore where
  m_lWaiterCount : Int
  /-- the count of `m_hSemaphore` -/
  permits : Int
  pc : Nat → WaitPc

namespace RJSemaphore

inductive Act
  | wait (t : Nat) (timed : Bool)
  | block (t : Nat)
  | wake (t : Nat) (code : WaitCode)
  | release (lCount : Int)
  | releaseAll
  deriving DecidableEq, Repr

inductive RJHRESULT
  | RJ_NOERROR
  | RJ_E_TIMEOUT
  | RJ_E_FAIL
  deriving DecidableEq, Repr

/-- What a call has returned. -/
inductive Event
  | waited (t : Nat) (hr : RJHRESULT)
  | released (hr : RJHRESULT)
  deriving DecidableEq, Repr

/-- The constructor. -/
def init (nInitCount : Nat) : RJSemaphore where
  m_lWaiterCount := -nInitCount
  permits := nInitCount
  pc := fun _ => .idle

abbrev Outcome := Option (RJSemaphore × List Event)

def setPc (s : RJSemaphore) (t : Nat) (pc : WaitPc) : RJSemaphore :=
  { s with pc := Function.update s.pc t pc }

/-- `::ReleaseSemaphore(m_hSemaphore, lCount, NULL)` succeeds. -/
def CanRelease (s : RJSemaphore) (lCount : Int) : Prop := 0 < lCount ∧ s.permits + lCount ≤ MAXLONG

instance (s : RJSemaphore) (lCount : Int) : Decidable (s.CanRelease lCount) :=
  inferInstanceAs (Decidable (_ ∧ _))

/-- `::ReleaseSemaphore`: on failure the count is unchanged. -/
def ReleaseSemaphore (s : RJSemaphore) (lCount : Int) : RJSemaphore × RJHRESULT :=
  if s.CanRelease lCount then ({ s with permits := s.permits + lCount }, .RJ_NOERROR)
  else (s, .RJ_E_FAIL)

/-- `Release`.  It returns `RJ_NOERROR` whatever `hr` is. -/
def Release (s : RJSemaphore) (lCount : Int) : RJSemaphore :=
  let (s', _) := s.ReleaseSemaphore lCount
  { s' with m_lWaiterCount := s'.m_lWaiterCount - lCount }

def ReleaseAll (s : RJSemaphore) : RJSemaphore × RJHRESULT :=
  let (s', hr) := if s.m_lWaiterCount > 0 then s.ReleaseSemaphore s.m_lWaiterCount
    else (s, .RJ_NOERROR)
  ({ s' with m_lWaiterCount := 0 }, hr)

/-- One step. -/
def step (N : Nat) (s : RJSemaphore) : Act → Outcome
  | .wait t timed =>
      if t < N ∧ s.pc t = .idle then
        some ({ s with m_lWaiterCount := s.m_lWaiterCount + 1 }.setPc t (.counted timed), [])
      else none
  | .block t =>
      match s.pc t with
      | .counted timed => if t < N then some (s.setPc t (.blocked timed), []) else none
      | _ => none
  | .wake t code =>
      match s.pc t with
      | .blocked timed =>
          if t < N then
            match code with
            | .WAIT_OBJECT_0 =>
                if 0 < s.permits then
                  some ({ s with permits := s.permits - 1 }.setPc t .idle, [.waited t .RJ_NOERROR])
                else none
            -- the counter is left as it is
            | .WAIT_TIMEOUT =>
                if timed then some (s.setPc t .idle, [.waited t .RJ_E_TIMEOUT]) else none
            | .WAIT_FAILED => some (s.setPc t .idle, [.waited t .RJ_E_FAIL])
          else none
      | _ => none
  | .release lCount => some (s.Release lCount, [.released .RJ_NOERROR])
  | .releaseAll => some (s.ReleaseAll.1, [.released s.ReleaseAll.2])

/-- The semaphore and `N` threads as a machine. -/
def machine (N nInitCount : Nat) : Machine RJSemaphore Act Event := ⟨init nInitCount, step N⟩

/-! ### The counter -/

/-- The number of threads blocked in `Wait`. -/
def blocked (N : Nat) (s : RJSemaphore) : Nat := total N WaitPc.isBlocked s.pc

/-- No thread is between its increment and `WaitForSingleObject`. -/
def Settled (N : Nat) (s : RJSemaphore) : Prop := ∀ t, t < N → ∀ timed, s.pc t ≠ .counted timed

/-- The steps that keep the counter right: a wait that ends with a permit, a
`Release` whose permits the kernel accepts, a `ReleaseAll` when the counter is
not negative and the kernel accepts as many permits. -/
def Adjusted (s : RJSemaphore) : Act → Prop
  | .wake _ code => code = .WAIT_OBJECT_0
  | .release lCount => lCount = 0 ∨ s.CanRelease lCount
  | .releaseAll => s.m_lWaiterCount = 0 ∨ s.CanRelease s.m_lWaiterCount
  | .wait _ _ | .block _ => True

instance (s : RJSemaphore) : ∀ act, Decidable (s.Adjusted act)
  | .wake _ code => inferInstanceAs (Decidable (code = _))
  | .release lCount => inferInstanceAs (Decidable (lCount = 0 ∨ _))
  | .releaseAll => inferInstanceAs (Decidable (s.m_lWaiterCount = 0 ∨ _))
  | .wait _ _ | .block _ => inferInstanceAs (Decidable True)

/-- **The counter of the waiters is accurate**: in a settled state it is the
number of threads blocked less the permits available.  Then a `ReleaseAll`
leaves a permit for every thread blocked and no more, and when nobody waits the
counter is back where the permits put it. -/
structure Accurate (N : Nat) (s : RJSemaphore) : Prop where
  count : s.Settled N → s.m_lWaiterCount = s.blocked N - s.permits
  releaseAll : s.Settled N → s.Adjusted .releaseAll → s.ReleaseAll.1.permits = s.blocked N
  rest : (∀ t, t < N → s.pc t = .idle) → s.m_lWaiterCount = -s.permits

/-- The counter in all states of a run. -/
def Counts (N : Nat) (s : RJSemaphore) : Prop :=
  s.m_lWaiterCount + s.permits = s.blocked N + total N WaitPc.isCounted s.pc

section Counts

variable {N n : Nat} {s s' : RJSemaphore} {act : Act} {tr es : List Event}

theorem not_canRelease_zero : ¬ s.CanRelease 0 := fun h => Int.lt_irrefl 0 h.1

theorem Release_pc (s : RJSemaphore) (lCount : Int) : (s.Release lCount).pc = s.pc := by
  unfold Release ReleaseSemaphore
  dsimp only
  split <;> rfl

/-- A `Release` keeps the sum of the two counts if the kernel accepts it. -/
theorem Release_sum (s : RJSemaphore) (lCount : Int) :
    (s.Release lCount).m_lWaiterCount + (s.Release lCount).permits =
      s.m_lWaiterCount + s.permits ↔ lCount = 0 ∨ s.CanRelease lCount := by
  unfold Release ReleaseSemaphore
  dsimp only
  split
  · next hcan =>
    refine iff_of_true ?_ (Or.inr hcan)
    show s.m_lWaiterCount - lCount + (s.permits + lCount) = _
    omega
  · next hcan =>
    rw [or_iff_left hcan]
    show s.m_lWaiterCount - lCount + s.permits = _ ↔ _
    omega

theorem ReleaseAll_pc (s : RJSemaphore) : s.ReleaseAll.1.pc = s.pc := by
  unfold ReleaseAll ReleaseSemaphore
  dsimp only
  split_ifs <;> rfl

theorem ReleaseAll_m_lWaiterCount (s : RJSemaphore) : s.ReleaseAll.1.m_lWaiterCount = 0 := rfl

/-- A `ReleaseAll` keeps the sum if the counter is not negative and the kernel
accepts it. -/
theorem ReleaseAll_sum (s : RJSemaphore) :
    s.ReleaseAll.1.permits = s.m_lWaiterCount + s.permits ↔
      s.m_lWaiterCount = 0 ∨ s.CanRelease s.m_lWaiterCount := by
  unfold ReleaseAll ReleaseSemaphore
  dsimp only
  split_ifs with hpos hcan
  · refine iff_of_true ?_ (Or.inr hcan)
    show s.permits + s.m_lWaiterCount = _
    omega
  · rw [or_iff_left hcan]
    show s.permits = _ ↔ _
    omega
  · rw [or_iff_left fun hcan => hpos hcan.1]
    show s.permits = _ ↔ _
    omega

namespace Counts

theorem init (N n : Nat) : Counts N (init n) := by
  have hblocked : (RJSemaphore.init n).blocked N = 0 := total_eq_zero.mpr fun _ _ => rfl
  have hcounted : total N WaitPc.isCounted (RJSemaphore.init n).pc = 0 :=
    total_eq_zero.mpr fun _ _ => rfl
  unfold Counts
  rw [hblocked, hcounted]
  show -(n : Int) + n = _
  omega

/-- One thread moves, and the counters with it. -/
theorem move_iff {t : Nat} {q : WaitPc} (h : Counts N s) (ht : t < N)
    (hpc : s'.pc = Function.update s.pc t q) :
    Counts N s' ↔
      s'.m_lWaiterCount + s'.permits + (s.pc t).isBlocked + (s.pc t).isCounted =
        s.m_lWaiterCount + s.permits + q.isBlocked + q.isCounted := by
  have hblocked := total_update ht WaitPc.isBlocked s.pc q
  have hcounted := total_update ht WaitPc.isCounted s.pc q
  unfold Counts blocked at h ⊢
  rw [hpc]
  omega

/-- The threads stay where they are. -/
theorem keep_iff (h : Counts N s) (hpc : s'.pc = s.pc) :
    Counts N s' ↔ s'.m_lWaiterCount + s'.permits = s.m_lWaiterCount + s.permits := by
  unfold Counts blocked at h ⊢
  rw [hpc, h]

/-- **The counter stays right exactly in the adjusted steps.** -/
theorem step_iff (h : Counts N s) (hs : s.step N act = some (s', es)) :
    Counts N s' ↔ s.Adjusted act := by
  cases act with
  | wait t timed =>
      obtain ⟨⟨ht, hpc⟩, hs⟩ := Option.ite_none_right_eq_some.mp hs
      obtain ⟨rfl, -⟩ := Prod.mk.inj (Option.some.inj hs)
      refine iff_of_true ?_ True.intro
      apply (h.move_iff ht rfl).mpr
      rw [hpc]
      simp [setPc, WaitPc.isBlocked, WaitPc.isCounted]
      omega
  | block t =>
      simp only [RJSemaphore.step] at hs
      split at hs
      · next timed hpc =>
        obtain ⟨ht, hs⟩ := Option.ite_none_right_eq_some.mp hs
        obtain ⟨rfl, -⟩ := Prod.mk.inj (Option.some.inj hs)
        refine iff_of_true ?_ True.intro
        apply (h.move_iff ht rfl).mpr
        rw [hpc]
        simp [setPc, WaitPc.isBlocked, WaitPc.isCounted]
      · cases hs
  | wake t code =>
      simp only [RJSemaphore.step] at hs
      split at hs
      · next timed hpc =>
        obtain ⟨ht, hs⟩ := Option.ite_none_right_eq_some.mp hs
        cases code with
        | WAIT_OBJECT_0 =>
            obtain ⟨-, hs⟩ := Option.ite_none_right_eq_some.mp hs
            obtain ⟨rfl, -⟩ := Prod.mk.inj (Option.some.inj hs)
            -- the permit goes with the thread
            refine iff_of_true ?_ rfl
            apply (h.move_iff ht rfl).mpr
            rw [hpc]
            simp [setPc, WaitPc.isBlocked, WaitPc.isCounted]
            omega
        | WAIT_TIMEOUT =>
            obtain ⟨-, hs⟩ := Option.ite_none_right_eq_some.mp hs
            obtain ⟨rfl, -⟩ := Prod.mk.inj (Option.some.inj hs)
            refine iff_of_false ?_ nofun
            rw [h.move_iff ht rfl, hpc]
            simp [setPc, WaitPc.isBlocked, WaitPc.isCounted]
        | WAIT_FAILED =>
            obtain ⟨rfl, -⟩ := Prod.mk.inj (Option.some.inj hs)
            refine iff_of_false ?_ nofun
            rw [h.move_iff ht rfl, hpc]
            simp [setPc, WaitPc.isBlocked, WaitPc.isCounted]
      · cases hs
  | release lCount =>
      obtain ⟨rfl, -⟩ := Prod.mk.inj (Option.some.inj hs)
      rw [h.keep_iff (Release_pc s lCount)]
      exact Release_sum s lCount
  | releaseAll =>
      obtain ⟨rfl, -⟩ := Prod.mk.inj (Option.some.inj hs)
      rw [h.keep_iff (ReleaseAll_pc s), ReleaseAll_m_lWaiterCount, Int.zero_add]
      exact ReleaseAll_sum s

theorem of_settled (h : s.Settled N) :
    Counts N s ↔ s.m_lWaiterCount = s.blocked N - s.permits := by
  have hzero : total N WaitPc.isCounted s.pc = 0 := by
    apply total_eq_zero.mpr
    intro t ht
    cases hpc : s.pc t with
    | counted timed => exact absurd hpc (h t ht timed)
    | idle | blocked => rfl
  unfold Counts
  omega

theorem accurate (h : Counts N s) : Accurate N s := by
  refine ⟨fun hsettled => (of_settled hsettled).mp h, fun hsettled hok => ?_, fun hidle => ?_⟩
  · rw [(ReleaseAll_sum s).mpr hok, (of_settled hsettled).mp h]
    omega
  · have hnone : s.blocked N = 0 := total_eq_zero.mpr fun t ht => by
      rw [hidle t ht]
      rfl
    have hsettled : s.Settled N := fun t ht timed => by
      rw [hidle t ht]
      nofun
    rw [(of_settled hsettled).mp h, hnone]
    omega

end Counts

/-- **The counter is accurate in every run of adjusted steps**, for every number
of threads, initial count and interleaving. -/
theorem accurate_of_adjusted (h : (machine N n).Run Adjusted tr s) : Accurate N s := by
  apply Counts.accurate
  exact h.invariant (fun _ s => Counts N s) (Counts.init N n) fun ih hok hs =>
    (ih.step_iff hs).mpr hok

/-- The condition is exact: behind the first step that is not adjusted the
counter is wrong as soon as no thread is on its way into the wait. -/
theorem not_accurate_of_not_adjusted (h : (machine N n).Run Adjusted tr s)
    (hs : s.step N act = some (s', es)) (hok : ¬ s.Adjusted act) (hsettled : s'.Settled N) :
    ¬ Accurate N s' := by
  intro hacc
  have hcounts : Counts N s :=
    h.invariant (fun _ s => Counts N s) (Counts.init N n) fun ih hok hs =>
      (ih.step_iff hs).mpr hok
  apply hok
  apply (hcounts.step_iff hs).mp
  exact (Counts.of_settled hsettled).mpr (hacc.count hsettled)

end Counts

/-- Two threads block, one gets the permit of a `Release`, and a third thread
blocks with a timeout. -/
theorem accurate_of_adjusted_two :
    ∃ tr s, (machine 3 0).Run Adjusted tr s ∧ s.m_lWaiterCount = 2 ∧ s.blocked 3 = 2 ∧
      Accurate 3 s := by
  obtain ⟨tr, s, hrun, hp⟩ := (machine 3 0).run_of_exec Adjusted
    [.wait 0 false, .wait 1 false, .block 0, .block 1, .release 1, .wake 0 .WAIT_OBJECT_0,
      .wait 2 true, .block 2]
    (fun q => decide (q.1.m_lWaiterCount = 2 ∧ q.1.blocked 3 = 2)) (by decide +kernel)
  obtain ⟨hcount, hblocked⟩ := of_decide_eq_true hp
  exact ⟨tr, s, hrun, hcount, hblocked, accurate_of_adjusted hrun⟩

/-- One thread waits, and its wait times out. -/
theorem not_accurate : ¬ ∀ N n tr s, (machine N n).Run AnyStep tr s → Accurate N s := by
  intro h
  obtain ⟨tr, s, hrun, hp⟩ := (machine 1 0).run_of_exec AnyStep
    [.wait 0 true, .block 0, .wake 0 .WAIT_TIMEOUT]
    (fun q => decide (q.1.m_lWaiterCount = 1 ∧ q.1.permits = 0 ∧ q.1.pc 0 = .idle))
    (by decide +kernel)
  obtain ⟨hcount, hpermits, hidle⟩ := of_decide_eq_true hp
  have hrest := (h 1 0 tr s hrun).rest fun t ht => by
    rw [Nat.lt_one_iff.mp ht]
    exact hidle
  rw [show s.m_lWaiterCount = 1 from hcount, show s.permits = 0 from hpermits] at hrest
  exact absurd hrest (by decide)

end RJSemaphore

end Win32

end TestExamples
