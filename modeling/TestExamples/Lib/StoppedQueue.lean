/-
TestExamples/Lib/StoppedQueue.lean

A queue with a stop mark.

What is put into the queue comes out in the same order, until an element that
is a stop mark reaches the front; nothing comes out after that.  The producer
may also throw away the part of the queue the consumer has not taken over yet
and put a stop mark in its place.

`Tracks` relates everything put in, `log`, everything taken out, `out`, and
what is in the queue, `pending`.  It says enough of the queue to be kept by
every operation, and that `out` is a prefix of `log` up to its first stop mark
(`Tracks.prefix_log`).
-/
import Mathlib.Data.List.TakeWhile

namespace TestExamples

variable {ρ : Type*} {stop : ρ → Bool}

/-- The elements before the first stop mark. -/
def beforeStop (stop : ρ → Bool) (rs : List ρ) : List ρ := rs.takeWhile fun r => !stop r

/-- Nothing stops in front of the whole list. -/
theorem beforeStop_eq_self {rs : List ρ} (h : ∀ r ∈ rs, stop r = false) :
    beforeStop stop rs = rs :=
  List.takeWhile_eq_self_iff.mpr fun r hr => by rw [h r hr]; rfl

/-- A list that stops stops before what is appended. -/
theorem beforeStop_append_of_stop {rs : List ρ} (h : ∃ r ∈ rs, stop r = true) (qs : List ρ) :
    beforeStop stop (rs ++ qs) = beforeStop stop rs := by
  induction rs with
  | nil => obtain ⟨r, hr, -⟩ := h; cases hr
  | cons x rs ih =>
      rcases hx : stop x with - | -
      · have h' : ∃ r ∈ rs, stop r = true := by
          obtain ⟨r, hr, hs⟩ := h
          rcases List.mem_cons.mp hr with rfl | hr
          · rw [hx] at hs
            cases hs
          · exact ⟨r, hr, hs⟩
        simp only [beforeStop, List.cons_append, List.takeWhile_cons, hx, Bool.not_false, if_true]
        exact congrArg (x :: ·) (ih h')
      · simp [beforeStop, hx]

theorem beforeStop_append_of_not_stop {rs : List ρ} (h : ∀ r ∈ rs, stop r = false)
    (qs : List ρ) : beforeStop stop (rs ++ qs) = rs ++ beforeStop stop qs := by
  induction rs with
  | nil => rfl
  | cons x rs ih =>
      have hx := h x (List.mem_cons_self ..)
      simp only [beforeStop, List.cons_append, List.takeWhile_cons, hx, Bool.not_false, if_true]
      exact congrArg (x :: ·) (ih fun r hr => h r (List.mem_cons_of_mem _ hr))

/-- A list stops, or it does not. -/
theorem stops_or (stop : ρ → Bool) (rs : List ρ) :
    (∃ r ∈ rs, stop r = true) ∨ ∀ r ∈ rs, stop r = false := by
  by_cases h : ∃ r ∈ rs, stop r = true
  · exact Or.inl h
  · refine Or.inr fun r hr => ?_
    rw [← Bool.not_eq_true]
    exact fun hs => h ⟨r, hr, hs⟩

/-- What is in front of the first stop mark stays there. -/
theorem beforeStop_prefix_append (rs qs : List ρ) :
    beforeStop stop rs <+: beforeStop stop (rs ++ qs) := by
  rcases stops_or stop rs with h | h
  · rewrite [beforeStop_append_of_stop h]
    exact List.prefix_refl _
  · rw [beforeStop_append_of_not_stop h, beforeStop_eq_self h]
    exact List.prefix_append _ _

/-- A stop mark adds nothing in front of itself. -/
theorem beforeStop_concat_stop {r : ρ} (hr : stop r = true) (rs : List ρ) :
    beforeStop stop (rs ++ [r]) = beforeStop stop rs := by
  rcases stops_or stop rs with h | h
  · exact beforeStop_append_of_stop h [r]
  · rw [beforeStop_append_of_not_stop h, beforeStop_eq_self h]
    simp [beforeStop, hr]

/-- **The queue**: `pending` is what of `log` has not come `out` yet. -/
structure Tracks (stop : ρ → Bool) (log out pending : List ρ) : Prop where
  front : out ++ beforeStop stop pending <+: beforeStop stop log
  exact : (∀ r ∈ log, stop r = false) → out ++ pending = log
  stopped : (∃ r ∈ log, stop r = true) → ∃ r ∈ pending, stop r = true

namespace Tracks

variable {log out pending : List ρ}

theorem empty : Tracks stop [] [] [] := ⟨List.prefix_refl _, fun _ => rfl, nofun⟩

/-- What has come out is a prefix of what was put in before the first stop
mark. -/
theorem prefix_log (h : Tracks stop log out pending) : out <+: beforeStop stop log :=
  (List.prefix_append _ _).trans h.front

/-- An element is put in. -/
theorem push (h : Tracks stop log out pending) (r : ρ) :
    Tracks stop (log ++ [r]) out (pending ++ [r]) := by
  rcases stops_or stop log with hlog | hlog
  · -- behind a stop mark nothing changes
    have hpend := h.stopped hlog
    refine ⟨?_, fun hall => ?_, fun _ => ?_⟩
    · rw [beforeStop_append_of_stop hlog, beforeStop_append_of_stop hpend]
      exact h.front
    · obtain ⟨q, hq, hs⟩ := hlog
      rw [hall q (List.mem_append_left _ hq)] at hs
      cases hs
    · obtain ⟨q, hq, hs⟩ := hpend
      exact ⟨q, List.mem_append_left _ hq, hs⟩
  · have hsplit := h.exact hlog
    have hpend : ∀ q ∈ pending, stop q = false := fun q hq =>
      hlog q (hsplit ▸ List.mem_append_right _ hq)
    refine ⟨?_, fun _ => ?_, fun hex => ?_⟩
    · rewrite [beforeStop_append_of_not_stop hlog, beforeStop_append_of_not_stop hpend,
        ← List.append_assoc, hsplit]
      exact List.prefix_refl _
    · rw [← List.append_assoc, hsplit]
    · obtain ⟨q, hq, hs⟩ := hex
      rcases List.mem_append.mp hq with hq | hq
      · rw [hlog q hq] at hs
        cases hs
      · exact ⟨q, List.mem_append_right _ hq, hs⟩

/-- The end of the queue is replaced by a stop mark. -/
theorem replace {rest buf : List ρ} (h : Tracks stop log out (rest ++ buf)) {r : ρ}
    (hr : stop r = true) : Tracks stop (log ++ [r]) out (rest ++ [r]) where
  front := by
    rw [beforeStop_concat_stop hr, beforeStop_concat_stop hr]
    exact ((List.prefix_append_right_inj out).mpr (beforeStop_prefix_append rest buf)).trans h.front
  exact := fun hall => by
    rw [hall r (List.mem_append_right _ (List.mem_singleton_self r))] at hr
    cases hr
  stopped := fun _ => ⟨r, List.mem_append_right _ (List.mem_singleton_self r), hr⟩

/-- The element at the front comes out. -/
theorem pop {r : ρ} (h : Tracks stop log out (r :: pending)) (hr : stop r = false) :
    Tracks stop log (out ++ [r]) pending where
  front := by
    have hcons : beforeStop stop (r :: pending) = r :: beforeStop stop pending := by
      simp [beforeStop, hr]
    have hfront := h.front
    rw [hcons] at hfront
    rwa [List.append_assoc]
  exact := fun hall => by
    rw [List.append_assoc]
    exact h.exact hall
  stopped := fun hex => by
    obtain ⟨q, hq, hs⟩ := h.stopped hex
    rcases List.mem_cons.mp hq with rfl | hq
    · rw [hr] at hs
      cases hs
    · exact ⟨q, hq, hs⟩

end Tracks

end TestExamples
