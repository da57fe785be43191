/-
TestExamples/Lib/Machine.lean

Machines with outputs, their guarded runs and the histories of these runs.

A machine is a partial step function.  The label of a step resolves every
choice the environment has (which thread moves, what a library call returns,
which address an allocator picks), so one label gives at most one successor.
A step also emits a list of events; the events of a run, in order, are its
history.

Two things are asked of a run:

* an invariant that ties the history to the state reached
  (`Run.invariant`), and
* a guard `ok` on the state before a step and the label taken.  `AnyStep` is
  the guard that lets every step through; a sharper guard restricts a
  theorem to the runs all of whose steps meet a condition.

`exec` replays a list of labels, so that a concrete run is found by
evaluation (`run_of_exec`).

The maps of a program and the places of its threads are functions; a step
changes one of their values with `Function.update`.  A value read afterwards is
the new one or an old one (`update_eq`), and what holds of all values after the
change is what holds of the new one and of the others (`forall_update`).  Where a
map loses an entry, those that are left were there (`of_update_none`).
-/
import Mathlib.Data.List.Basic
import Mathlib.Logic.Function.Basic

namespace TestExamples

variable {σ α ε : Type*}

/-- Threads are numbered. -/
abbrev Thread := Nat

/-- A machine: its initial state and its step function.  `step s a` is the
successor of `s` under the label `a` together with the events of the step;
it is `none` where the label is not enabled. -/
structure Machine (σ α ε : Type*) where
  init : σ
  step : σ → α → Option (σ × List ε)

/-- The guard that every step meets. -/
def AnyStep : σ → α → Prop := fun _ _ => True

instance (s : σ) (a : α) : Decidable (AnyStep s a) :=
  inferInstanceAs (Decidable True)

namespace Machine

variable {M : Machine σ α ε} {ok ok' : σ → α → Prop}

/-- `M.Run ok tr s`: a run of `M` from its initial state, all of whose steps
meet the guard `ok`, has the history `tr` and ends in `s`. -/
inductive Run (M : Machine σ α ε) (ok : σ → α → Prop) : List ε → σ → Prop
  | start : Run M ok [] M.init
  | step {tr s a s' es} : Run M ok tr s → ok s a → M.step s a = some (s', es) →
      Run M ok (tr ++ es) s'

/-- A weaker guard has more runs. -/
theorem Run.mono {tr : List ε} {s : σ} (h : M.Run ok tr s)
    (himp : ∀ s a, ok s a → ok' s a) : M.Run ok' tr s := by
  induction h with
  | start => exact .start
  | step _ hok hstep ih => exact .step ih (himp _ _ hok) hstep

/-- **Invariant rule.**  What holds at the start and is preserved by every
step the guard lets through holds after every run. -/
theorem Run.invariant {tr : List ε} {s : σ} (h : M.Run ok tr s) (Inv : List ε → σ → Prop)
    (h0 : Inv [] M.init)
    (hstep : ∀ {tr s a s' es}, Inv tr s → ok s a → M.step s a = some (s', es) →
      Inv (tr ++ es) s') : Inv tr s := by
  induction h with
  | start => exact h0
  | step _ hok hs ih => exact hstep ih hok hs

/-- The machine started in another state: a stretch of a run of `M` that begins
in `s` is a run of `M.startAt s`. -/
def startAt (M : Machine σ α ε) (s : σ) : Machine σ α ε := { M with init := s }

/-! ### Replaying labels -/

section Exec

variable [∀ s a, Decidable (ok s a)]

/-- Take the steps of a list of labels, checking the guard before each. -/
def exec (M : Machine σ α ε) (ok : σ → α → Prop) [∀ s a, Decidable (ok s a)] :
    σ → List ε → List α → Option (σ × List ε)
  | s, tr, [] => some (s, tr)
  | s, tr, a :: as =>
      if ok s a then
        match M.step s a with
        | some (s', es) => exec M ok s' (tr ++ es) as
        | none => none
      else none

/-- A replay goes on behind its first step. -/
theorem exec_cons {s s' : σ} {tr es : List ε} {a : α} {as : List α} (hok : ok s a)
    (hs : M.step s a = some (s', es)) :
    M.exec ok s tr (a :: as) = M.exec ok s' (tr ++ es) as := by
  simp only [exec, hok, hs, if_true]

/-- A replay stops at a label that is not enabled. -/
theorem exec_cons_none {s : σ} {tr : List ε} {a : α} {as : List α} (hs : M.step s a = none) :
    M.exec ok s tr (a :: as) = none := by
  simp [exec, hs]

/-- A run goes on with the steps of a replay, the guard of which may be
sharper. -/
theorem run_of_exec_from {as : List α} {tr : List ε} {s : σ} (h : M.Run ok' tr s)
    (himp : ∀ s a, ok s a → ok' s a) {s' : σ} {tr' : List ε}
    (he : M.exec ok s tr as = some (s', tr')) : M.Run ok' tr' s' := by
  induction as generalizing s tr with
  | nil =>
      obtain ⟨rfl, rfl⟩ : s = s' ∧ tr = tr' := by simpa [exec] using he
      exact h
  | cons a as ih =>
      by_cases hok : ok s a
      · rcases hs : M.step s a with - | ⟨s₁, es⟩
        · simp [exec, hok, hs] at he
        · simp only [exec, hok, hs, if_true] at he
          exact ih (h.step (himp _ _ hok) hs) he
      · simp [exec, hok] at he

/-- A replay that goes through to a state and a history with the property `p`
is the end of a run. -/
theorem Run.extend {tr : List ε} {s : σ} (h : M.Run ok' tr s) (ok : σ → α → Prop)
    [∀ s a, Decidable (ok s a)] (himp : ∀ s a, ok s a → ok' s a) (as : List α)
    (p : σ × List ε → Bool) (he : (M.exec ok s tr as).any p = true) :
    ∃ tr s, M.Run ok' tr s ∧ p (s, tr) = true := by
  rcases hr : M.exec ok s tr as with - | ⟨s', tr'⟩
  · simp [hr] at he
  · exact ⟨tr', s', run_of_exec_from h himp hr, by simpa [hr] using he⟩

/-- The same from the initial state. -/
theorem run_of_exec (M : Machine σ α ε) (ok : σ → α → Prop) [∀ s a, Decidable (ok s a)]
    (as : List α) (p : σ × List ε → Bool) (he : (M.exec ok M.init [] as).any p = true) :
    ∃ tr s, M.Run ok tr s ∧ p (s, tr) = true :=
  Run.start.extend ok (fun _ _ => id) as p he

/-- **Ranking rule.**  Where every state short of the goal has a step that the
guard lets through, keeps the invariant and lowers the rank, some replay
reaches the goal. -/
theorem exec_of_rank (ok : σ → α → Prop) [∀ s a, Decidable (ok s a)] (Inv : List ε → σ → Prop)
    (goal : σ → Prop) (rank : σ → Nat)
    (hstep : ∀ {tr s}, Inv tr s → ¬ goal s → ∃ a s' es, ok s a ∧ M.step s a = some (s', es) ∧
      Inv (tr ++ es) s' ∧ rank s' < rank s)
    {tr : List ε} {s : σ} (h : Inv tr s) :
    ∃ as s' tr', M.exec ok s tr as = some (s', tr') ∧ Inv tr' s' ∧ goal s' := by
  induction hn : rank s using Nat.strongRecOn generalizing tr s with
  | ind n ih =>
      by_cases hgoal : goal s
      · exact ⟨[], s, tr, rfl, h, hgoal⟩
      · obtain ⟨a, s₁, es, hok, hs, h₁, hlt⟩ := hstep h hgoal
        rw [hn] at hlt
        obtain ⟨as, s', tr', he, h', hgoal'⟩ := ih _ hlt h₁ rfl
        exact ⟨a :: as, s', tr', by rw [exec_cons hok hs, he], h', hgoal'⟩

end Exec

/-! ### Histories

A history invariant often speaks of every event together with what came
before it. -/

/-- Every event of the history satisfies `P` with the history before it. -/
def Each (P : List ε → ε → Prop) (tr : List ε) : Prop :=
  ∀ pre e post, tr = pre ++ e :: post → P pre e

variable {P : List ε → ε → Prop}

@[simp] theorem each_nil : Each P [] := by
  intro pre e post h
  simp at h

/-- `Each` of a longer history: of the old part, and of every new event with
the old part and the new events before it. -/
theorem each_append {tr es : List ε} :
    Each P (tr ++ es) ↔
      Each P tr ∧ ∀ pre e post, es = pre ++ e :: post → P (tr ++ pre) e := by
  constructor
  · intro h
    refine ⟨fun pre e post he => h pre e (post ++ es) (by simp [he]), ?_⟩
    intro pre e post he
    exact h (tr ++ pre) e post (by simp [he])
  · rintro ⟨hold, hnew⟩ pre e post he
    rcases List.append_eq_append_iff.mp he with ⟨as, rfl, hes⟩ | ⟨bs, htr, hbs⟩
    · exact hnew as e post hes
    · rcases bs with - | ⟨b, bs⟩
      · have := hnew [] e post (by simpa using hbs.symm)
        simpa [htr] using this
      · obtain ⟨rfl, -⟩ := List.cons.inj hbs
        exact hold pre e bs htr

/-- `Each` of a history longer by one event. -/
theorem each_concat {tr : List ε} {e : ε} :
    Each P (tr ++ [e]) ↔ Each P tr ∧ P tr e := by
  rw [each_append]
  refine and_congr_right fun _ => ⟨fun h => by simpa using h [] e [] rfl, ?_⟩
  intro h pre e' post he
  rcases pre with - | ⟨x, pre⟩
  · obtain ⟨rfl, -⟩ := List.cons.inj he
    simpa using h
  · simp at he

end Machine

/-! ### Maps that change in one place -/

section Update

variable {κ β : Type*} [DecidableEq κ] {f : κ → β} {a b : κ} {v w : β}

/-- Reading an updated map: the new entry or an old one. -/
theorem update_eq (h : Function.update f a v b = w) : b = a ∧ v = w ∨ b ≠ a ∧ f b = w := by
  rcases eq_or_ne b a with rfl | hne
  · rw [Function.update_self] at h
    exact Or.inl ⟨rfl, h⟩
  · rw [Function.update_of_ne hne] at h
    exact Or.inr ⟨hne, h⟩

/-- An entry that is there after one has been erased was there before. -/
theorem of_update_none {f : κ → Option β} (h : Function.update f a none b = some v) :
    b ≠ a ∧ f b = some v := by
  rcases update_eq h with ⟨-, hnone⟩ | hold
  · cases hnone
  · exact hold

/-- What holds of every value still does when one changes, if it holds of the
new value. -/
theorem forall_update {P : κ → β → Prop} (hv : P a v) (h : ∀ b, b ≠ a → P b (f b)) :
    ∀ b, P b (Function.update f a v b) := by
  intro b
  rcases eq_or_ne b a with rfl | hne
  · rwa [Function.update_self]
  · rw [Function.update_of_ne hne]
    exact h b hne

end Update

end TestExamples
