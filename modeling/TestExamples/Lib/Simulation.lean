/-
TestExamples/Lib/Simulation.lean

Machines that follow other machines.

Four ways to read the runs of one machine as runs of another:

* A ghost is a value that is carried along a run and never looked at by a step:
  `next` computes it from the state before the step, the label and the ghost
  before.  It remembers what a statement about the run has to speak of and the
  state does not keep.  The runs of the machine with a ghost are the runs of the
  machine (`Run.forget`, `Run.remember`).
* `recorded` keeps the transitions themselves as the history, so that a property
  of every step of a run, of the state before, the label, what the step emits and
  the state after, is one of the history.  A transition of a recorded run is a step
  from a reached state (`Run.reached`), which reduces such a property to a lemma on
  one step (`Run.forall_recorded`).
* A step of a whole takes a part of it through any number of its own steps
  (`Continues`).  Where every step does, a run of the whole shows a run of the part
  (`Run.part`).
* A relation between the states of two machines is a simulation if the second one
  answers every step of the first with a stretch of its own, of any length, that
  emits what the step says (`Run.simulate`).  The relation may speak of the history,
  and of histories of one kind only, as long as what comes before a history of this
  kind is of it too.
-/
import TestExamples.Lib.Machine

namespace TestExamples

/-- One step of a machine. -/
structure Transition (σ α ε : Type*) where
  source : σ
  label : α
  events : List ε
  target : σ

namespace Machine

/-! ### Ghosts -/

section Ghost

variable {σ α ε γ : Type*}

/-- The machine that carries the ghost `g` along. -/
def withGhost (M : Machine σ α ε) (g : γ) (next : σ → α → γ → γ) : Machine (σ × γ) α ε where
  init := (M.init, g)
  step := fun q a => (M.step q.1 a).map fun r => ((r.1, next q.1 a q.2), r.2)

variable {M : Machine σ α ε} {g : γ} {next : σ → α → γ → γ} {ok : σ → α → Prop} {tr es : List ε}
variable {s s' : σ} {q q' : σ × γ} {a : α}

/-- A step of the machine with its ghost: the step and the next ghost. -/
theorem withGhost_step :
    (M.withGhost g next).step q a = some (q', es) ↔
      M.step q.1 a = some (q'.1, es) ∧ q'.2 = next q.1 a q.2 := by
  show (M.step q.1 a).map _ = _ ↔ _
  rw [Option.map_eq_some_iff]
  constructor
  · rintro ⟨r, hr, he⟩
    obtain ⟨rfl, rfl⟩ := Prod.mk.inj he
    exact ⟨hr, rfl⟩
  · rintro ⟨hr, he⟩
    refine ⟨_, hr, ?_⟩
    show ((q'.1, _), es) = (q', es)
    rw [← he]

/-- A run with a ghost is a run. -/
theorem Run.forget (h : (M.withGhost g next).Run (fun q a => ok q.1 a) tr q) :
    M.Run ok tr q.1 := by
  induction h with
  | start => exact .start
  | step _ hok hs ih => exact ih.step hok (withGhost_step.mp hs).1

/-- Every run has its ghost. -/
theorem Run.remember (h : M.Run ok tr s) (g : γ) (next : σ → α → γ → γ) :
    ∃ g', (M.withGhost g next).Run (fun q a => ok q.1 a) tr (s, g') := by
  induction h with
  | start => exact ⟨g, .start⟩
  | step _ hok hs ih =>
      obtain ⟨g', hrun⟩ := ih
      exact ⟨_, hrun.step hok (withGhost_step.mpr ⟨hs, rfl⟩)⟩

end Ghost

/-! ### Transitions -/

section Recorded

variable {σ α ε : Type*}

/-- The machine that emits its transitions. -/
def recorded (M : Machine σ α ε) : Machine σ α (Transition σ α ε) where
  init := M.init
  step := fun s a => (M.step s a).map fun r => (r.1, [⟨s, a, r.2, r.1⟩])

variable {M : Machine σ α ε} {ok : σ → α → Prop} {ts : List (Transition σ α ε)} {s : σ}

theorem recorded_step {a : α} {s' : σ} {es : List (Transition σ α ε)} :
    M.recorded.step s a = some (s', es) ↔
      ∃ evs, M.step s a = some (s', evs) ∧ es = [⟨s, a, evs, s'⟩] := by
  show (M.step s a).map _ = _ ↔ _
  rw [Option.map_eq_some_iff]
  constructor
  · rintro ⟨r, hr, he⟩
    obtain ⟨rfl, rfl⟩ := Prod.mk.inj he
    exact ⟨r.2, hr, rfl⟩
  · rintro ⟨evs, hs, rfl⟩
    exact ⟨_, hs, rfl⟩

/-- A recorded run is a run; its history is what its transitions emit. -/
theorem Run.of_recorded (h : M.recorded.Run ok ts s) :
    M.Run ok (ts.flatMap Transition.events) s := by
  induction h with
  | start => exact .start
  | step _ hok hs ih =>
      obtain ⟨evs, hstep, rfl⟩ := recorded_step.mp hs
      have hstep := ih.step hok hstep
      simpa using hstep

/-- **A recorded transition is a step from a reached state.** -/
theorem Run.reached (h : M.recorded.Run ok ts s) {t : Transition σ α ε} (ht : t ∈ ts) :
    (∃ tr, M.Run ok tr t.source) ∧ ok t.source t.label ∧
      M.step t.source t.label = some (t.target, t.events) := by
  induction h with
  | start => cases ht
  | step hrun hok hs ih =>
      obtain ⟨evs, hstep, rfl⟩ := recorded_step.mp hs
      rcases List.mem_append.mp ht with hold | hnew
      · exact ih hold
      · obtain rfl := List.mem_singleton.mp hnew
        exact ⟨⟨_, hrun.of_recorded⟩, hok, hstep⟩

/-- A property of every step from a reached state is one of every transition
of a run. -/
theorem Run.forall_recorded (h : M.recorded.Run ok ts s) {P Q : Transition σ α ε → Prop}
    (hstep : ∀ {tr} (t : Transition σ α ε), M.Run ok tr t.source →
      M.step t.source t.label = some (t.target, t.events) → (P t ↔ Q t)) :
    (∀ t ∈ ts, P t) ↔ ∀ t ∈ ts, Q t := by
  refine forall₂_congr fun t ht => ?_
  obtain ⟨⟨tr, hrun⟩, -, hs⟩ := h.reached ht
  exact hstep t hrun hs

end Recorded

/-! ### Parts -/

section Part

variable {σ α ε τ β δ : Type*} {M : Machine σ α ε} {N : Machine τ β δ}
variable {t t' t'' : τ} {ds ds' : List δ}

/-- Every run of `N` to `t` goes on to `t'` and emits `ds` on the way. -/
def Continues (N : Machine τ β δ) (t : τ) (ds : List δ) (t' : τ) : Prop :=
  ∀ tr, N.Run AnyStep tr t → N.Run AnyStep (tr ++ ds) t'

theorem Continues.refl (N : Machine τ β δ) (t : τ) : N.Continues t [] t := by
  intro tr h
  rwa [List.append_nil]

theorem Continues.of_step {b : β} (h : N.step t b = some (t', ds)) : N.Continues t ds t' :=
  fun _ hrun => hrun.step trivial h

theorem Continues.trans (h : N.Continues t ds t') (h' : N.Continues t' ds' t'') :
    N.Continues t (ds ++ ds') t'' := by
  intro tr hrun
  rw [← List.append_assoc]
  exact h' _ (h _ hrun)

/-- **A run of the whole shows a run of the part.** -/
theorem Run.part {f : σ → τ} {g : ε → Option δ} (h0 : f M.init = N.init)
    (hstep : ∀ {s a s' es}, M.step s a = some (s', es) →
      N.Continues (f s) (es.filterMap g) (f s'))
    {tr : List ε} {s : σ} (h : M.Run AnyStep tr s) : N.Run AnyStep (tr.filterMap g) (f s) := by
  refine h.invariant (fun tr s => N.Run AnyStep (tr.filterMap g) (f s)) ?_ fun ih _ hs => ?_
  · rw [h0]
    exact .start
  · rw [List.filterMap_append]
    exact hstep hs _ ih

end Part

/-! ### Stretches and simulations -/

section Simulation

variable {σ α ε τ β δ : Type*} {M : Machine σ α ε} {N : Machine τ β δ}
variable {ok : σ → α → Prop} {ok' : τ → β → Prop}

/-- One step is a stretch. -/
theorem Run.one {s s' : σ} {a : α} {es : List ε} (hok : ok s a)
    (hs : M.step s a = some (s', es)) : (M.startAt s).Run ok es s' :=
  show (M.startAt s).Run ok ([] ++ es) s' from .step .start hok hs

/-- A stretch goes on with another one. -/
theorem Run.append {s s' : σ} {tr es : List ε} (h : M.Run ok tr s)
    (hs : (M.startAt s).Run ok es s') : M.Run ok (tr ++ es) s' := by
  induction hs with
  | start =>
      rw [List.append_nil]
      exact h
  | step _ hok hstep ih =>
      rw [← List.append_assoc]
      exact ih.step hok hstep

/-- **Simulation rule.**  The step lemma may use that the state of the second
machine is reached. -/
theorem Run.simulate {tr : List ε} {s : σ} (h : M.Run ok tr s) (view : List ε → List δ)
    (P : List ε → Prop) (R : List ε → σ → τ → Prop)
    (hcut : ∀ tr es, P (tr ++ es) → P tr) (hnil : view [] = []) (hinit : R [] M.init N.init)
    (hstep : ∀ {tr s a s' es t}, N.Run ok' (view tr) t → R tr s t → P (tr ++ es) → ok s a →
      M.step s a = some (s', es) → ∃ ds t', view (tr ++ es) = view tr ++ ds ∧
        (N.startAt t).Run ok' ds t' ∧ R (tr ++ es) s' t')
    (hP : P tr) : ∃ t, N.Run ok' (view tr) t ∧ R tr s t := by
  induction h with
  | start =>
      rw [hnil]
      exact ⟨N.init, .start, hinit⟩
  | @step tr s a s' es _ hok hs ih =>
      obtain ⟨t, hrun, hR⟩ := ih (hcut tr es hP)
      obtain ⟨ds, t', hview, hstretch, hR'⟩ := hstep hrun hR hP hok hs
      rw [hview]
      exact ⟨t', hrun.append hstretch, hR'⟩

end Simulation

end Machine

end TestExamples
