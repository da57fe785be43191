/-
TestExamples/RJLock.lean

The timed lock of RJCommon/RJLock.cpp and the deadline of
`RJSysUtil::GetAbsTimeByRelTime`, in the POSIX branches without `__APPLE__`.

Both turn a timeout in milliseconds into a `timespec`: a number of seconds and
the nanoseconds of a second that has begun.  A `timespec` stands for a number
of nanoseconds (`Timespec.nanos`), and a valid one is determined by it
(`Timespec.ext_nanos`).  `GetAbsTimeByRelTime` adds the timeout to the clock
(`nanos_GetAbsTimeByRelTime`).  `Lock` counts the milliseconds below a second
as microseconds and does not carry, so its deadline is early or invalid unless
the timeout is a whole number of seconds (`deadlinesAgree_iff`).

`MS_2_NS` and `SECOND_2_NS` are what their names say.  `time_t` is a number; a
clock is far from its end.
-/
import Mathlib.Data.Int.Basic

namespace TestExamples

/-- `struct timespec`. -/
@[ext]
structure Timespec where
  tv_sec : Int
  tv_nsec : Int
  deriving DecidableEq, Repr

def MS_2_NS : UInt32 := 1000000
def SECOND_2_NS : Int := 1000000000

namespace Timespec

/-- The nanoseconds lie in one second. -/
def Valid (spec : Timespec) : Prop := 0 ≤ spec.tv_nsec ∧ spec.tv_nsec < SECOND_2_NS

instance (spec : Timespec) : Decidable spec.Valid := inferInstanceAs (Decidable (_ ∧ _))

/-- The time in nanoseconds. -/
def nanos (spec : Timespec) : Int := spec.tv_sec * SECOND_2_NS + spec.tv_nsec

/-- A time has one valid `timespec`. -/
theorem ext_nanos {a b : Timespec} (ha : a.Valid) (hb : b.Valid) (h : a.nanos = b.nanos) :
    a = b := by
  obtain ⟨ha, ha'⟩ := ha
  obtain ⟨hb, hb'⟩ := hb
  unfold nanos at h
  unfold SECOND_2_NS at *
  ext <;> omega

end Timespec

/-- `clock_gettime(CLOCK_REALTIME, ...)`, or `time()` where that fails. -/
def realTime (clock_gettime : Option Timespec) (time : Int) : Timespec :=
  clock_gettime.getD { tv_sec := time, tv_nsec := 0 }

/-! ### RJSysUtil -/

/-- `GetAbsTimeByRelTime`, behind the reading of the clock. -/
def GetAbsTimeByRelTime (now : Timespec) (ulTimeout : UInt32) : Timespec :=
  let spec : Timespec :=
    { tv_sec := now.tv_sec + (ulTimeout / 1000).toNat
      tv_nsec := now.tv_nsec + (ulTimeout % 1000 * MS_2_NS).toNat }
  if spec.tv_nsec ≥ SECOND_2_NS then
    { tv_sec := spec.tv_sec + 1, tv_nsec := spec.tv_nsec - SECOND_2_NS }
  else spec

/-! ### RJLock -/

namespace RJLock

def RJ_INFINITE : UInt32 := 0xFFFFFFFF
def RJ_S_OK : Int := 0
def RJ_E_FAIL : Int := -1
def RJ_E_TIMEOUT : Int := -13

def EAGAIN : Int := 11
def ETIMEDOUT : Int := 110

/-- `theTimeout`, behind the reading of the clock. -/
def theTimeout (now : Timespec) (ulTimeout : UInt32) : Timespec where
  tv_sec := now.tv_sec + (ulTimeout / 1000).toNat
  -- milliseconds by 1000: these are microseconds
  tv_nsec := now.tv_nsec + (ulTimeout % 1000 * 1000).toNat

/-- The calls of pthreads. -/
inductive Call
  | pthread_mutex_lock
  | pthread_mutex_timedlock (theTimeout : Timespec)
  deriving DecidableEq, Repr

/-- The call `Lock` makes. -/
def call (now : Timespec) (ulTimeout : UInt32) : Call :=
  if ulTimeout = RJ_INFINITE then .pthread_mutex_lock
  else .pthread_mutex_timedlock (theTimeout now ulTimeout)

/-- `pthread` is what the call returns. -/
def Lock (pthread : Call → Int) (now : Timespec) (ulTimeout : UInt32) : Int :=
  let rc := pthread (call now ulTimeout)
  if rc = 0 then RJ_S_OK
  else if rc = ETIMEDOUT ∨ rc = EAGAIN then RJ_E_TIMEOUT
  else RJ_E_FAIL

end RJLock

/-- The lock and `GetAbsTimeByRelTime` wait until the same time, which is valid
and lies the timeout behind the clock. -/
structure DeadlinesAgree (now : Timespec) (ulTimeout : UInt32) : Prop where
  same : RJLock.call now ulTimeout =
    .pthread_mutex_timedlock (GetAbsTimeByRelTime now ulTimeout)
  valid : (GetAbsTimeByRelTime now ulTimeout).Valid
  exact : (GetAbsTimeByRelTime now ulTimeout).nanos =
    now.nanos + ulTimeout.toNat * MS_2_NS.toNat

section Deadline

variable {clock_gettime : Option Timespec} {now : Timespec}

theorem valid_realTime (h : ∀ spec ∈ clock_gettime, spec.Valid) (time : Int) :
    (realTime clock_gettime time).Valid := by
  cases clock_gettime with
  | none =>
      have hpos : 0 < SECOND_2_NS := by decide
      exact ⟨Int.le_refl 0, hpos⟩
  | some spec => exact h spec rfl

/-- No product leaves 32 bits. -/
theorem toNat_millis (ulTimeout : UInt32) (factor : UInt32) (h : factor.toNat ≤ 1000000) :
    (ulTimeout % 1000 * factor).toNat = ulTimeout.toNat % 1000 * factor.toNat := by
  have hlt : ulTimeout.toNat % 1000 < 1000 := Nat.mod_lt _ (by decide)
  rw [UInt32.toNat_mul, UInt32.toNat_mod]
  apply Nat.mod_eq_of_lt
  calc ulTimeout.toNat % 1000 * factor.toNat ≤ 999 * 1000000 :=
        Nat.mul_le_mul (Nat.le_of_lt_succ hlt) h
    _ < 2 ^ 32 := by decide

theorem toNat_div_1000 (ulTimeout : UInt32) : (ulTimeout / 1000).toNat = ulTimeout.toNat / 1000 :=
  UInt32.toNat_div ..

theorem GetAbsTimeByRelTime_valid (h : now.Valid) (ulTimeout : UInt32) :
    (GetAbsTimeByRelTime now ulTimeout).Valid := by
  obtain ⟨h₀, h₁⟩ := h
  have hms := toNat_millis ulTimeout MS_2_NS (by decide)
  have hlt : ulTimeout.toNat % 1000 < 1000 := Nat.mod_lt _ (by decide)
  have hfactor : MS_2_NS.toNat = 1000000 := rfl
  rw [hfactor] at hms
  unfold GetAbsTimeByRelTime
  rw [hms]
  unfold Timespec.Valid SECOND_2_NS at *
  dsimp only
  split_ifs <;> dsimp only <;> omega

/-- **`GetAbsTimeByRelTime` adds the timeout to the clock.** -/
theorem nanos_GetAbsTimeByRelTime (now : Timespec) (ulTimeout : UInt32) :
    (GetAbsTimeByRelTime now ulTimeout).nanos =
      now.nanos + ulTimeout.toNat * MS_2_NS.toNat := by
  have hms := toNat_millis ulTimeout MS_2_NS (by decide)
  have hdiv := Nat.div_add_mod ulTimeout.toNat 1000
  have hfactor : MS_2_NS.toNat = 1000000 := rfl
  rw [hfactor] at hms ⊢
  unfold GetAbsTimeByRelTime Timespec.nanos
  rw [hms, toNat_div_1000]
  unfold SECOND_2_NS
  dsimp only
  split_ifs <;> dsimp only <;> omega

/-- The deadline of the lock is early by the part of the timeout below a second,
but for its microseconds. -/
theorem nanos_theTimeout (now : Timespec) (ulTimeout : UInt32) :
    (RJLock.theTimeout now ulTimeout).nanos =
      now.nanos + ulTimeout.toNat * MS_2_NS.toNat - (ulTimeout.toNat % 1000 * 999000 : Nat) := by
  have hms := toNat_millis ulTimeout 1000 (by decide)
  have hdiv := Nat.div_add_mod ulTimeout.toNat 1000
  have hfactor : MS_2_NS.toNat = 1000000 := rfl
  have hthousand : (1000 : UInt32).toNat = 1000 := rfl
  rw [hthousand] at hms
  rw [hfactor]
  unfold RJLock.theTimeout Timespec.nanos
  rw [hms, toNat_div_1000]
  unfold SECOND_2_NS
  dsimp only
  omega

/-- Without a carry the deadline of the lock may leave the second. -/
theorem theTimeout_valid_iff (h : now.Valid) (ulTimeout : UInt32) :
    (RJLock.theTimeout now ulTimeout).Valid ↔
      now.tv_nsec + (ulTimeout.toNat % 1000 * 1000 : Nat) < SECOND_2_NS := by
  have hms := toNat_millis ulTimeout 1000 (by decide)
  have hthousand : (1000 : UInt32).toNat = 1000 := rfl
  rw [hthousand] at hms
  unfold RJLock.theTimeout Timespec.Valid
  rw [hms]
  exact and_iff_right (Int.add_nonneg h.1 (Int.natCast_nonneg _))

/-- **The deadlines agree exactly for whole seconds.** -/
theorem deadlinesAgree_iff (h : ∀ spec ∈ clock_gettime, spec.Valid) (time : Int)
    (ulTimeout : UInt32) :
    DeadlinesAgree (realTime clock_gettime time) ulTimeout ↔ ulTimeout.toNat % 1000 = 0 := by
  have hnow := valid_realTime h time
  have hvalid := GetAbsTimeByRelTime_valid hnow ulTimeout
  have hexact := nanos_GetAbsTimeByRelTime (realTime clock_gettime time) ulTimeout
  have hlock := nanos_theTimeout (realTime clock_gettime time) ulTimeout
  constructor
  · rintro ⟨hsame, -, -⟩
    unfold RJLock.call at hsame
    split at hsame
    · cases hsame
    · rw [RJLock.Call.pthread_mutex_timedlock.inj hsame, hexact] at hlock
      omega
  · intro hwhole
    -- the largest timeout is no whole number of seconds
    have hfinite : ulTimeout ≠ RJLock.RJ_INFINITE := by
      rintro rfl
      cases hwhole
    have hlockvalid : (RJLock.theTimeout (realTime clock_gettime time) ulTimeout).Valid := by
      rw [theTimeout_valid_iff hnow, hwhole]
      simpa using hnow.2
    rw [hwhole] at hlock
    refine ⟨?_, hvalid, hexact⟩
    unfold RJLock.call
    rw [if_neg hfinite]
    congr 1
    refine Timespec.ext_nanos hlockvalid hvalid ?_
    rw [hlock, hexact]
    simp

/-- Two seconds behind a clock at the end of a second. -/
theorem deadlinesAgree_iff_two :
    DeadlinesAgree (realTime (some ⟨1, 999999999⟩) 0) 2000 ∧
      RJLock.call (realTime (some ⟨1, 999999999⟩) 0) 2000 =
        .pthread_mutex_timedlock ⟨3, 999999999⟩ := by
  have hclock : ∀ spec ∈ some (⟨1, 999999999⟩ : Timespec), spec.Valid := by decide
  exact ⟨(deadlinesAgree_iff hclock 0 2000).mpr (by decide), by decide⟩

/-- One millisecond: the lock waits for one microsecond. -/
theorem not_deadlinesAgree :
    ¬ ∀ (clock_gettime : Option Timespec) (time : Int) (ulTimeout : UInt32),
      (∀ spec ∈ clock_gettime, spec.Valid) → ulTimeout ≠ RJLock.RJ_INFINITE →
      DeadlinesAgree (realTime clock_gettime time) ulTimeout := by
  intro h
  have hsame := (h (some ⟨0, 0⟩) 0 1 (by decide) (by decide)).same
  exact absurd hsame (by decide)

end Deadline

end TestExamples
