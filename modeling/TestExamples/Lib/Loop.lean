/-
TestExamples/Lib/Loop.lean

Loops with a bound on their turns.

A computation with fuel returns `r` (`Returns`) when it gives `r` from some
fuel on; it returns at most one value (`Returns.unique`), and computations one
behind the other return what the last returns (`Returns.bind`).

One turn of a loop (`LoopTurn`) goes on with a new state, leaves the loop with
a result, or has no defined meaning.  `whileLoop` runs turns while there is
fuel.  An invariant of the turns and a measure that falls with every turn make
a loop return (`returns_loop`).
-/
import Mathlib.Data.Nat.Init

namespace TestExamples

variable {σ ρ τ : Type*}

/-! ### Computations with fuel -/

/-- From some fuel on the computation gives `r`. -/
def Returns (f : Nat → Option ρ) (r : ρ) : Prop := ∃ bound, ∀ fuel, bound ≤ fuel → f fuel = some r

section Returns

variable {f : Nat → Option ρ} {g : ρ → Nat → Option τ} {r r' : ρ} {q : τ}

/-- **A computation returns one value.** -/
theorem Returns.unique (h : Returns f r) (h' : Returns f r') : r = r' := by
  obtain ⟨b, h⟩ := h
  obtain ⟨b', h'⟩ := h'
  have heq := h (max b b') (Nat.le_max_left b b')
  rw [h' (max b b') (Nat.le_max_right b b')] at heq
  exact (Option.some.inj heq).symm

theorem returns_pure (r : ρ) : Returns (fun _ => some r) r := ⟨0, fun _ _ => rfl⟩

/-- One computation behind the other. -/
theorem Returns.bind (h : Returns f r) (hg : Returns (g r) q) :
    Returns (fun fuel => (f fuel).bind fun r => g r fuel) q := by
  obtain ⟨b, h⟩ := h
  obtain ⟨b', hg⟩ := hg
  refine ⟨max b b', fun fuel hle => ?_⟩
  show (f fuel).bind _ = _
  rw [h fuel (Nat.le_trans (Nat.le_max_left b b') hle)]
  exact hg fuel (Nat.le_trans (Nat.le_max_right b b') hle)

theorem Returns.map {F : ρ → τ} (h : Returns f r) :
    Returns (fun fuel => (f fuel).map F) (F r) := by
  obtain ⟨b, h⟩ := h
  refine ⟨b, fun fuel hle => ?_⟩
  show (f fuel).map F = _
  rw [h fuel hle]
  rfl

/-- One unit of fuel spent on the way. -/
theorem Returns.succ {f' : Nat → Option ρ} (h : Returns f r)
    (hf : ∀ fuel, f' (fuel + 1) = f fuel) : Returns f' r := by
  obtain ⟨b, h⟩ := h
  refine ⟨b + 1, fun fuel hle => ?_⟩
  obtain ⟨k, rfl⟩ := Nat.exists_eq_add_of_le' (Nat.le_trans (Nat.le_add_left 1 b) hle)
  rw [hf]
  exact h k (Nat.le_of_succ_le_succ hle)

end Returns

/-! ### Loops -/

/-- One turn of a loop: round again, out of the loop, or undefined. -/
inductive LoopTurn (σ ρ : Type*)
  | next (s : σ)
  | exit (r : ρ)
  | undefined
  deriving DecidableEq, Repr

/-- The loop, with a bound on its turns; `none` where they do not suffice or
have no meaning. -/
def whileLoop (turn : σ → LoopTurn σ ρ) (s : σ) : Nat → Option ρ
  | 0 => none
  | fuel + 1 =>
      match turn s with
      | .next s' => whileLoop turn s' fuel
      | .exit r => some r
      | .undefined => none

section Loop

variable {turn : σ → LoopTurn σ ρ} {s s' : σ} {r : ρ} {fuel : Nat}

theorem loop_exit (h : turn s = .exit r) : whileLoop turn s (fuel + 1) = some r := by
  unfold whileLoop
  rw [h]

theorem loop_next (h : turn s = .next s') :
    whileLoop turn s (fuel + 1) = whileLoop turn s' fuel := by
  rw [whileLoop]
  rw [h]

theorem returns_of_exit (h : turn s = .exit r) : Returns (whileLoop turn s) r :=
  (returns_pure r).succ fun _ => loop_exit h

theorem returns_of_next (h : turn s = .next s') (hr : Returns (whileLoop turn s') r) :
    Returns (whileLoop turn s) r := hr.succ fun _ => loop_next h

/-- **Total correctness.**  The turns keep `I`, `m` falls with each, and the way
out of the loop gives `Q`. -/
theorem returns_loop (I : σ → Prop) (m : σ → Nat) (Q : ρ → Prop) (hs : I s)
    (hturn : ∀ s, I s → (∃ s', turn s = .next s' ∧ I s' ∧ m s' < m s) ∨
      ∃ r, turn s = .exit r ∧ Q r) :
    ∃ r, Returns (whileLoop turn s) r ∧ Q r := by
  induction hm : m s using Nat.strong_induction_on generalizing s with
  | _ k ih =>
      rcases hturn s hs with ⟨s', hnext, hI, hlt⟩ | ⟨r, hexit, hQ⟩
      · obtain ⟨r, hr, hQ⟩ := ih (m s') (hm ▸ hlt) hI rfl
        exact ⟨r, returns_of_next hnext hr, hQ⟩
      · exact ⟨r, returns_of_exit hexit, hQ⟩

end Loop

end TestExamples
