/-
TestExamples/Lib/Since.lean

Entries of a history that switch something on and off.

`Stays on off xs` says that an entry of `xs` has switched it on and none behind
that has switched it off.  It was switched on behind `pre` for the first time
since it was last off if `FirstSince on off xs pre`.  How one more entry changes
them is `stays_concat` and `firstSince_concat`.

Entries of one kind are numbered by the entries of that kind before them, and the
number tells which one it is (`cut_unique`).
-/
import Mathlib.Data.List.Basic
import Mathlib.Data.List.Induction

namespace TestExamples

variable {α : Type*}

/-- Switched on, and not off since. -/
def Stays (on off : α → Prop) (xs : List α) : Prop :=
  ∃ pre x post, xs = pre ++ x :: post ∧ on x ∧ ∀ y ∈ post, ¬ off y

/-- Switched on behind `pre`, where it was not on, and not off since. -/
def FirstSince (on off : α → Prop) (xs pre : List α) : Prop :=
  ∃ x post, xs = pre ++ x :: post ∧ on x ∧ (∀ y ∈ post, ¬ off y) ∧ ¬ Stays on off pre

section Since

variable {on off : α → Prop} {xs pre : List α} {x : α}

theorem not_stays_nil : ¬ Stays on off [] := by
  rintro ⟨pre, x, post, h, -⟩
  exact List.append_ne_nil_of_right_ne_nil pre (List.cons_ne_nil x post) h.symm

theorem not_firstSince_nil : ¬ FirstSince on off [] pre := by
  rintro ⟨x, post, h, -⟩
  exact List.append_ne_nil_of_right_ne_nil pre (List.cons_ne_nil x post) h.symm

/-- Where a longer history is cut. -/
theorem concat_cut {y : α} {post : List α} (h : xs ++ [x] = pre ++ y :: post) :
    pre = xs ∧ y = x ∧ post = [] ∨ ∃ post', post = post' ++ [x] ∧ xs = pre ++ y :: post' := by
  rcases List.eq_nil_or_concat post with rfl | ⟨post', z, rfl⟩
  · obtain ⟨rfl, hx⟩ := List.append_inj' h rfl
    exact .inl ⟨rfl, (List.cons.inj hx).1.symm, rfl⟩
  · rw [List.concat_eq_append] at h ⊢
    rw [← List.cons_append, ← List.append_assoc] at h
    obtain ⟨rfl, hz⟩ := List.append_inj' h rfl
    exact .inr ⟨post', by rw [(List.cons.inj hz).1], rfl⟩

theorem stays_concat : Stays on off (xs ++ [x]) ↔ on x ∨ Stays on off xs ∧ ¬ off x := by
  constructor
  · rintro ⟨pre, y, post, h, hon, hpost⟩
    rcases concat_cut h with ⟨-, rfl, -⟩ | ⟨post', rfl, rfl⟩
    · exact .inl hon
    · exact .inr ⟨⟨pre, y, post', rfl, hon, fun z hz => hpost z (List.mem_append_left _ hz)⟩,
        hpost x (by simp)⟩
  · rintro (hon | ⟨⟨pre, y, post, rfl, hon, hpost⟩, hoff⟩)
    · exact ⟨xs, x, [], rfl, hon, fun y hy => absurd hy List.not_mem_nil⟩
    · refine ⟨pre, y, post ++ [x], by simp, hon, fun z hz => ?_⟩
      rcases List.mem_append.mp hz with hz | hz
      · exact hpost z hz
      · rwa [List.mem_singleton.mp hz]

theorem firstSince_concat : FirstSince on off (xs ++ [x]) pre ↔
    pre = xs ∧ on x ∧ ¬ Stays on off xs ∨ FirstSince on off xs pre ∧ ¬ off x := by
  constructor
  · rintro ⟨y, post, h, hon, hpost, hpre⟩
    rcases concat_cut h with ⟨rfl, rfl, -⟩ | ⟨post', rfl, rfl⟩
    · exact .inl ⟨rfl, hon, hpre⟩
    · exact .inr ⟨⟨y, post', rfl, hon, fun z hz => hpost z (List.mem_append_left _ hz), hpre⟩,
        hpost x (by simp)⟩
  · rintro (⟨rfl, hon, hpre⟩ | ⟨⟨y, post, rfl, hon, hpost, hpre⟩, hoff⟩)
    · exact ⟨x, [], rfl, hon, fun y hy => absurd hy List.not_mem_nil, hpre⟩
    · refine ⟨y, post ++ [x], by simp, hon, fun z hz => ?_, hpre⟩
      rcases List.mem_append.mp hz with hz | hz
      · exact hpost z hz
      · rwa [List.mem_singleton.mp hz]

/-- What stays on was switched on for the first time somewhere. -/
theorem stays_iff (h : ∀ x, on x → ¬ off x) :
    Stays on off xs ↔ ∃ pre, FirstSince on off xs pre := by
  induction xs using List.reverseRecOn with
  | nil => exact iff_of_false not_stays_nil fun ⟨pre, hpre⟩ => not_firstSince_nil hpre
  | append_singleton xs x ih =>
      simp only [stays_concat, firstSince_concat]
      constructor
      · rintro (hon | ⟨hstays, hoff⟩)
        · by_cases hstays : Stays on off xs
          · obtain ⟨pre, hpre⟩ := ih.mp hstays
            exact ⟨pre, .inr ⟨hpre, h x hon⟩⟩
          · exact ⟨xs, .inl ⟨rfl, hon, hstays⟩⟩
        · obtain ⟨pre, hpre⟩ := ih.mp hstays
          exact ⟨pre, .inr ⟨hpre, hoff⟩⟩
      · rintro ⟨pre, ⟨-, hon, -⟩ | ⟨hpre, hoff⟩⟩
        · exact .inl hon
        · exact .inr ⟨ih.mpr ⟨pre, hpre⟩, hoff⟩

/-- What is switched on while it is out is on from there. -/
theorem firstSince_new (h : ∀ x, on x → ¬ off x) (hon : on x) (hout : ¬ Stays on off xs) :
    FirstSince on off (xs ++ [x]) pre ↔ pre = xs := by
  rw [firstSince_concat]
  constructor
  · rintro (⟨rfl, -⟩ | ⟨hpre, -⟩)
    · rfl
    · exact absurd ((stays_iff h).mpr ⟨pre, hpre⟩) hout
  · exact fun hpre => .inl ⟨hpre, hon, hout⟩

/-- Switching it on while it stays on changes nothing. -/
theorem firstSince_again (h : ∀ x, on x → ¬ off x) (hon : on x) (hstays : Stays on off xs) :
    FirstSince on off (xs ++ [x]) pre ↔ FirstSince on off xs pre := by
  rw [firstSince_concat]
  constructor
  · rintro (⟨-, -, hnot⟩ | ⟨hpre, -⟩)
    · exact absurd hstays hnot
    · exact hpre
  · exact fun hpre => .inr ⟨hpre, h x hon⟩

/-- An entry that does not switch it on. -/
theorem firstSince_other (hon : ¬ on x) :
    FirstSince on off (xs ++ [x]) pre ↔ FirstSince on off xs pre ∧ ¬ off x := by
  rw [firstSince_concat]
  constructor
  · rintro (⟨-, hx, -⟩ | hpre)
    · exact absurd hx hon
    · exact hpre
  · exact .inr

end Since

/-- **The number of an entry tells which one it is.** -/
theorem cut_unique {p : α → Bool} {pre pre' post post' : List α} {x x' : α} (hx : p x = true)
    (hx' : p x' = true) (h : pre ++ x :: post = pre' ++ x' :: post')
    (hcount : pre.countP p = pre'.countP p) : pre = pre' ∧ x = x' := by
  -- an entry between the two would be counted
  have hnil : ∀ (front as : List α) (y : α), p y = true →
      front.countP p ≠ (front ++ y :: as).countP p := by
    intro front as y hy
    rw [List.countP_append, List.countP_cons_of_pos hy]
    omega
  rcases List.append_eq_append_iff.mp h with ⟨as, rfl, has⟩ | ⟨as, rfl, has⟩
  · cases as with
    | nil => exact ⟨(List.append_nil _).symm, (List.cons.inj has).1⟩
    | cons y as =>
        obtain ⟨rfl, -⟩ := List.cons.inj has
        exact absurd hcount (hnil pre as x hx)
  · cases as with
    | nil => exact ⟨List.append_nil _, (List.cons.inj has).1.symm⟩
    | cons y as =>
        obtain ⟨rfl, -⟩ := List.cons.inj has
        exact absurd hcount.symm (hnil pre' as x' hx')

end TestExamples
