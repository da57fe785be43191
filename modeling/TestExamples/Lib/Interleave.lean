/-
TestExamples/Lib/Interleave.lean

Interleavings of threads that each work through a list of operations.

`Interleaves n run start g₀ rest g` says that the first `n` threads, which
began with the lists `start` on the state `g₀`, have taken some of their
operations, in some order, and are left with the lists `rest` and the state
`g`.  Two facts are asked of such a run:

* what every operation preserves holds at its end (`Interleaves.keep`), and
* where each thread works on a part of the state of its own, a part ends as if
  its thread had run alone (`Interleaves.view_eq`).

Every such run can be completed (`Interleaves.exists_complete`), and running
one thread behind the other is such a run (`Interleaves.inOrder`).
-/
import Mathlib.Logic.Function.Basic
import TestExamples.Lib.Threads

namespace TestExamples

variable {ω γ β : Type*}

inductive Interleaves (n : Nat) (run : ω → γ → γ) (start : Nat → List ω) (g₀ : γ) :
    (Nat → List ω) → γ → Prop
  | start : Interleaves n run start g₀ start g₀
  | step {rest g w op ops} : Interleaves n run start g₀ rest g → w < n → rest w = op :: ops →
      Interleaves n run start g₀ (Function.update rest w ops) (run op g)

namespace Interleaves

variable {n : Nat} {run : ω → γ → γ} {start rest : Nat → List ω} {g₀ g : γ}

/-- A thread has taken the front of its list. -/
theorem suffix (h : Interleaves n run start g₀ rest g) (w : Nat) : rest w <:+ start w := by
  induction h with
  | start => exact List.suffix_rfl
  | @step rest g w' op ops _ _ hop ih =>
      by_cases hw : w = w'
      · subst hw
        rw [Function.update_self]
        rw [hop] at ih
        exact (List.suffix_cons op ops).trans ih
      · rw [Function.update_of_ne hw]
        exact ih

theorem mem_start (h : Interleaves n run start g₀ rest g) {w : Nat} {op : ω} {ops : List ω}
    (hop : rest w = op :: ops) : op ∈ start w :=
  (h.suffix w).subset (by rw [hop]; exact List.mem_cons_self ..)

/-- What every operation preserves. -/
theorem keep (h : Interleaves n run start g₀ rest g) (P : γ → Prop) (h₀ : P g₀)
    (hrun : ∀ w op g, w < n → op ∈ start w → P g → P (run op g)) : P g := by
  induction h with
  | start => exact h₀
  | step hi hw hop ih => exact hrun _ _ _ hw (hi.mem_start hop) ih

/-- **Threads on their own parts.**  `view w` is the part of thread `w`; its
operations act on it by `act`, and leave the other parts alone.  What a thread
has still to do to its part leads where the whole list leads from the start. -/
theorem view_eq (h : Interleaves n run start g₀ rest g) (view : Nat → γ → β) (act : ω → β → β)
    (hown : ∀ w op g, w < n → op ∈ start w → view w (run op g) = act op (view w g))
    (hother : ∀ w op g, w < n → op ∈ start w → ∀ w', w' ≠ w → view w' (run op g) = view w' g)
    (w : Nat) :
    (rest w).foldl (fun x op => act op x) (view w g) =
      (start w).foldl (fun x op => act op x) (view w g₀) := by
  induction h with
  | start => rfl
  | @step rest g w' op ops hi hw' hop ih =>
      have hmem := hi.mem_start hop
      rw [← ih]
      by_cases hw : w = w'
      · subst hw
        rw [Function.update_self, hop, hown w op g hw' hmem, List.foldl_cons]
      · rw [Function.update_of_ne hw, hother w' op g hw' hmem w hw]

/-- **Every run can be completed.** -/
theorem exists_complete (h : Interleaves n run start g₀ rest g) :
    ∃ rest' g', Interleaves n run start g₀ rest' g' ∧ ∀ w, w < n → rest' w = [] := by
  induction hlen : total n List.length rest using Nat.strong_induction_on generalizing rest g with
  | _ len ih =>
      by_cases hall : ∀ w, w < n → rest w = []
      · exact ⟨rest, g, h, hall⟩
      · push Not at hall
        obtain ⟨w, hw, hne⟩ := hall
        obtain ⟨op, ops, hop⟩ := List.exists_cons_of_ne_nil hne
        -- one operation fewer is left
        have hmove := total_update hw List.length rest ops
        rw [hop, List.length_cons] at hmove
        exact ih _ (by omega) (h.step hw hop) rfl

/-- A thread may run on its own to its end. -/
theorem runAll (h : Interleaves n run start g₀ rest g) {w : Nat} (hw : w < n) :
    Interleaves n run start g₀ (Function.update rest w [])
      ((rest w).foldl (fun g op => run op g) g) := by
  induction hops : rest w generalizing rest g with
  | nil =>
      rw [← hops, Function.update_eq_self, hops]
      exact h
  | cons op ops ih =>
      have hrun := ih (h.step hw hops) (Function.update_self ..)
      rw [Function.update_idem] at hrun
      exact hrun

/-- **One thread behind the other**, the first `m` of them. -/
theorem inOrder (run : ω → γ → γ) (start : Nat → List ω) (g₀ : γ) :
    ∀ m, m ≤ n → Interleaves n run start g₀ (fun w => if w < m then [] else start w)
      ((List.range m).foldl (fun g w => (start w).foldl (fun g op => run op g) g) g₀) := by
  intro m
  induction m with
  | zero =>
      intro _
      exact .start
  | succ m ih =>
      intro hm
      have hrun := (ih (Nat.le_of_succ_le hm)).runAll hm
      rw [if_neg (Nat.lt_irrefl m)] at hrun
      have hrest : (fun w => if w < m + 1 then [] else start w) =
          Function.update (fun w => if w < m then [] else start w) m [] := by
        funext w
        rw [Function.update_apply]
        by_cases hw : w = m
        · rw [if_pos hw, if_pos (hw ▸ Nat.lt_succ_self m)]
        · rw [if_neg hw]
          exact if_congr (by omega) rfl rfl
      rw [List.range_succ, List.foldl_append, hrest]
      exact hrun

end Interleaves

end TestExamples
