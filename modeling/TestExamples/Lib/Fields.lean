/-
TestExamples/Lib/Fields.lean

The fields of a line.

A line is cut at every separator (`List.splitOn`); its fields are the pieces
that are not empty.  A line has no separator, or a first one
(`field_induction`), and the fields follow that (`fields_of_not_mem`,
`fields_cut`).  The first pieces of a line are all the pieces of a front of it
(`exists_front`).
-/
import Mathlib.Data.List.Basic
import Mathlib.Data.Nat.Init

namespace TestExamples

variable {α : Type*} [DecidableEq α] {sep : α} {xs ys : List α}

/-- The pieces of a line between separators that are not empty. -/
def fields (sep : α) (xs : List α) : List (List α) := (xs.splitOn sep).filter (· ≠ [])

/-- Induction on the first separator. -/
theorem field_induction {P : List α → Prop} (sep : α) (last : ∀ xs, sep ∉ xs → P xs)
    (cut : ∀ xs ys, sep ∉ xs → P ys → P (xs ++ sep :: ys)) : ∀ xs, P xs := by
  intro xs
  induction hn : xs.length using Nat.strong_induction_on generalizing xs with
  | _ n ih =>
      by_cases hmem : sep ∈ xs
      · obtain ⟨ys, zs, rfl, hys⟩ := List.eq_append_cons_of_mem hmem
        refine cut ys zs hys (ih zs.length ?_ zs rfl)
        rw [← hn, List.length_append, List.length_cons]
        omega
      · exact last xs hmem

theorem fields_of_not_mem (h : sep ∉ xs) : fields sep xs = if xs = [] then [] else [xs] := by
  unfold fields
  rw [List.splitOn_eq_singleton h]
  by_cases hxs : xs = []
  · rw [if_pos hxs, hxs]
    rfl
  · rw [if_neg hxs]
    exact List.filter_cons_of_pos (decide_eq_true hxs)

theorem fields_cut (h : sep ∉ xs) (ys : List α) :
    fields sep (xs ++ sep :: ys) = (if xs = [] then [] else [xs]) ++ fields sep ys := by
  rw [← fields_of_not_mem h]
  unfold fields
  rw [List.splitOn_append_cons_self_of_not_mem h, List.splitOn_eq_singleton h, ← List.filter_append,
    List.singleton_append]

/-- The first pieces of a line are the pieces of a front of it. -/
theorem exists_front {ps qs : List (List α)} (h : xs.splitOn sep = ps ++ qs) (hps : ps ≠ []) :
    ∃ front, front.splitOn sep = ps ∧
      (qs = [] ∧ front = xs ∨ ∃ rest, xs = front ++ sep :: rest ∧ rest.splitOn sep = qs) := by
  induction xs using field_induction sep generalizing ps with
  | last xs hxs =>
      obtain ⟨p, ps, rfl⟩ := List.exists_cons_of_ne_nil hps
      rw [List.splitOn_eq_singleton hxs] at h
      obtain ⟨rfl, hnil⟩ := List.cons.inj h
      obtain ⟨rfl, rfl⟩ := List.append_eq_nil_iff.mp hnil.symm
      exact ⟨xs, List.splitOn_eq_singleton hxs, .inl ⟨rfl, rfl⟩⟩
  | cut xs ys hxs ih =>
      obtain ⟨p, ps, rfl⟩ := List.exists_cons_of_ne_nil hps
      rw [List.splitOn_append_cons_self_of_not_mem hxs] at h
      obtain ⟨rfl, htail⟩ := List.cons.inj h
      by_cases hnil : ps = []
      · subst hnil
        exact ⟨xs, List.splitOn_eq_singleton hxs, .inr ⟨ys, rfl, htail⟩⟩
      · obtain ⟨front, hfront, hrest⟩ := ih htail hnil
        refine ⟨xs ++ sep :: front, ?_, ?_⟩
        · rw [List.splitOn_append_cons_self_of_not_mem hxs, hfront]
        · rcases hrest with ⟨hqs, rfl⟩ | ⟨rest, rfl, hqs⟩
          · exact .inl ⟨hqs, rfl⟩
          · exact .inr ⟨rest, by simp, hqs⟩

omit [DecidableEq α] in
/-- A line cut at its last separator. -/
theorem eq_append_cons_of_mem_last (h : sep ∈ xs) :
    ∃ front last, xs = front ++ sep :: last ∧ sep ∉ last := by
  obtain ⟨as, bs, hrev, has⟩ := List.eq_append_cons_of_mem (List.mem_reverse.mpr h)
  refine ⟨bs.reverse, as.reverse, ?_, fun hmem => has (List.mem_reverse.mp hmem)⟩
  rw [← List.reverse_reverse xs, hrev]
  simp

end TestExamples
