/-
TestExamples/GraphTestSelection.lean

The selection of CsharpExams/graph_test under clicks and drags.

All points are the points of the marks, and the selected ones are among them with
their number, whatever the mouse does (`consistent_of_run`).  A drag takes the old
point out of both collections and puts the new one into both.  That keeps the
size of the selection if the old point was selected; if it was not, the new one is
added to the selection behind the back of `AddSelectPoint`.
-/
import Mathlib.Data.List.Perm.Subperm
import TestExamples.GraphTest

namespace TestExamples

namespace GraphTest

namespace MainWindow

/-- What the two collections are for. -/
structure SelectionModel (w : MainWindow) : Prop where
  bound : w.dataModel.SelectPoints.length ≤ 3
  selected : ∀ p ∈ w.dataModel.SelectPoints, p ∈ w.dataModel.AllPoints
  number : w.dataModel.AllPoints.length = init.dataModel.AllPoints.length

/-- A selection follows the move of a point: the point is replaced if it was
selected, and nothing else happens. -/
def Follows (old new : Point) (selection selection' : List Point) : Prop :=
  if old ∈ selection then selection'.Perm (new :: selection.erase old)
  else selection' = selection

/-- Only mark points are clicked on and dragged. -/
def OnMarks : MainWindow → Act → Prop
  | _, .click _ => True
  | _, .dragPoint _ _ => True
  | _, .dragLine _ _ _ => False

/-- A drag of a mark point that is not selected leaves it where it is. -/
def DragsSelected (w : MainWindow) : Act → Prop
  | .click _ => True
  | .dragPoint i p => ∀ old ∈ w.markPoints[i]?, p = old ∨ old ∈ w.dataModel.SelectPoints
  | .dragLine _ _ _ => False

instance (w : MainWindow) (act : Act) : Decidable (OnMarks w act) :=
  match act with
  | .click _ => inferInstanceAs (Decidable True)
  | .dragPoint _ _ => inferInstanceAs (Decidable True)
  | .dragLine _ _ _ => inferInstanceAs (Decidable False)

instance (w : MainWindow) (act : Act) : Decidable (DragsSelected w act) :=
  match act with
  | .click _ => inferInstanceAs (Decidable True)
  | .dragPoint i p => inferInstanceAs
      (Decidable (∀ old ∈ w.markPoints[i]?, p = old ∨ old ∈ w.dataModel.SelectPoints))
  | .dragLine _ _ _ => inferInstanceAs (Decidable False)

/-! ### What no drag breaks -/

structure Consistent (w : MainWindow) : Prop where
  marks : w.markPoints.Perm w.dataModel.AllPoints
  selected : w.dataModel.SelectPoints.Subperm w.dataModel.AllPoints
  number : w.markPoints.length = init.markPoints.length

section Collections

variable {w w' : MainWindow} {act : Act} {tr es : List Act} {ok : MainWindow → Act → Prop}
  {i : Nat} {p old : Point}

theorem set_perm_erase_append {α : Type*} [DecidableEq α] {xs : List α} {a : α} (b : α)
    (h : xs[i]? = some a) : (xs.set i b).Perm (xs.erase a ++ [b]) := by
  obtain ⟨hi, rfl⟩ := List.getElem?_eq_some_iff.mp h
  have herase : (xs.erase xs[i]).Perm (xs.eraseIdx i) := by
    have hperm := (List.getElem_cons_eraseIdx_perm hi).erase xs[i]
    rw [List.erase_cons_head] at hperm
    exact hperm.symm
  calc
    (xs.set i b).Perm (b :: xs.eraseIdx i) := List.set_perm_cons_eraseIdx hi b
    (b :: xs.eraseIdx i).Perm (b :: xs.erase xs[i]) := herase.symm.cons b
    (b :: xs.erase xs[i]).Perm (xs.erase xs[i] ++ [b]) := (List.perm_append_singleton b _).symm

theorem Consistent.mem_AllPoints (h : Consistent w) (hi : w.markPoints[i]? = some old) :
    old ∈ w.dataModel.AllPoints :=
  h.marks.mem_iff.mp (List.mem_of_getElem? hi)

/-- A move of a mark point, where it is one. -/
theorem Consistent.setPoint_eq (h : Consistent w) (hi : w.markPoints[i]? = some old)
    (hne : p ≠ old) : w.setPoint i p =
      { w with
        markPoints := w.markPoints.set i p
        dataModel :=
          { SelectPoints := w.dataModel.SelectPoints.erase old ++ [p]
            AllPoints := w.dataModel.AllPoints.erase old ++ [p] } } := by
  unfold setPoint
  rw [hi]
  show (if p = old then w else _) = _
  rw [if_neg hne]
  exact if_pos (h.mem_AllPoints hi)

theorem setPoint_self (hi : w.markPoints[i]? = some p) : w.setPoint i p = w := by
  unfold setPoint
  rw [hi]
  exact if_pos rfl

theorem Consistent.setPoint (h : Consistent w) (i : Nat) (p : Point) :
    Consistent (w.setPoint i p) := by
  rcases hi : w.markPoints[i]? with - | old
  · unfold MainWindow.setPoint
    rw [hi]
    exact h
  · rcases eq_or_ne p old with rfl | hne
    · rw [setPoint_self hi]
      exact h
    · rw [h.setPoint_eq hi hne]
      refine ⟨?_, ?_, ?_⟩
      · exact (set_perm_erase_append p hi).trans ((h.marks.erase old).append_right [p])
      · exact (List.subperm_append_right [p]).mpr (h.selected.erase old)
      · exact List.length_set.trans h.number

/-- A click that changes the selection adds a point that it has room for. -/
theorem AddSelectPoint_cases (m : SelectPointsDataModel) (p : Point) :
    m.AddSelectPoint p = m ∨ m.SelectPoints.length < 3 ∧ p ∉ m.SelectPoints ∧
      m.AddSelectPoint p = { m with SelectPoints := m.SelectPoints ++ [p] } := by
  unfold SelectPointsDataModel.AddSelectPoint
  by_cases hfull : 3 ≤ m.SelectPoints.length
  · exact .inl (if_pos hfull)
  · by_cases hp : p ∈ m.SelectPoints
    · exact .inl ((if_neg hfull).trans (if_pos hp))
    · exact .inr ⟨Nat.lt_of_not_le hfull, hp, (if_neg hfull).trans (if_neg hp)⟩

/-- `DrawLines` changes nothing here. -/
theorem click_eq (w : MainWindow) (p : Point) :
    (w.Point_PreviewMouseLeftButtonUp p).markPoints = w.markPoints ∧
      ((w.Point_PreviewMouseLeftButtonUp p).dataModel = w.dataModel ∨
        (w.Point_PreviewMouseLeftButtonUp p).dataModel = w.dataModel.AddSelectPoint p) := by
  unfold Point_PreviewMouseLeftButtonUp
  split
  · exact ⟨rfl, .inl rfl⟩
  · split
    · exact ⟨rfl, .inr rfl⟩
    · exact ⟨rfl, .inr rfl⟩

/-- What a click does to the selection. -/
theorem click_cases (w : MainWindow) (p : Point) :
    (w.Point_PreviewMouseLeftButtonUp p).dataModel = w.dataModel ∨
      w.dataModel.SelectPoints.length < 3 ∧ p ∉ w.dataModel.SelectPoints ∧
        (w.Point_PreviewMouseLeftButtonUp p).dataModel =
          { w.dataModel with SelectPoints := w.dataModel.SelectPoints ++ [p] } := by
  rcases (click_eq w p).2 with h | h
  · exact .inl h
  · rw [h]
    exact AddSelectPoint_cases w.dataModel p

theorem Consistent.click (h : Consistent w) (hi : w.markPoints[i]? = some p) :
    Consistent (w.Point_PreviewMouseLeftButtonUp p) := by
  obtain ⟨hall, hsel⟩ : (w.Point_PreviewMouseLeftButtonUp p).dataModel.AllPoints =
        w.dataModel.AllPoints ∧
      (w.Point_PreviewMouseLeftButtonUp p).dataModel.SelectPoints.Subperm
        w.dataModel.AllPoints := by
    rcases click_cases w p with heq | ⟨-, hp, heq⟩
    · rw [heq]
      exact ⟨rfl, h.selected⟩
    · rw [heq]
      have hcons : (p :: w.dataModel.SelectPoints).Subperm w.dataModel.AllPoints :=
        List.cons_subperm_of_not_mem_of_mem hp (h.mem_AllPoints hi) h.selected
      exact ⟨rfl, (List.perm_append_singleton p _).subperm.trans hcons⟩
  have hmarks := (click_eq w p).1
  refine ⟨?_, ?_, ?_⟩
  · rw [hmarks, hall]
    exact h.marks
  · rwa [hall]
  · rw [hmarks]
    exact h.number

/-- A line moves the mark points at its old end one by one. -/
theorem Consistent.movePoints (h : Consistent w) (args : LinePointMovedRoutedEventArgs)
    (is : List Nat) : Consistent (w.movePoints args is) := by
  induction is generalizing w with
  | nil => exact h
  | cons i is ih =>
      refine ih (w := w.MovePoint i args.OldValue args.NewValue) ?_
      unfold MainWindow.MovePoint
      split
      · exact h.setPoint i args.NewValue
      · exact h

theorem Consistent.step (h : Consistent w) (hs : machine.step w act = some (w', es)) :
    Consistent w' := by
  apply step_induction ?_ ?_ ?_ hs
  · intro i p hi
    exact h.click hi
  · exact h.setPoint
  · intro i line thm p _
    -- the lines are no part of it
    have hlines : ∀ lines, Consistent { w with markLines := lines } :=
      fun lines => ⟨h.marks, h.selected, h.number⟩
    exact (hlines _).movePoints _ _

theorem consistent_init : Consistent init := ⟨.refl _, List.nil_subperm, rfl⟩

/-- **All points are the points of the marks, and the selected ones are among
them.** -/
theorem consistent_of_run (hrun : machine.Run ok tr w) : Consistent w :=
  hrun.invariant (fun _ w => Consistent w) consistent_init fun ih _ hs => ih.step hs

/-- A point that is not selected is dragged, then one that is: there are four points
selected, of seven. -/
theorem consistent_of_run_dragged :
    ∃ tr w, machine.Run AnyStep tr w ∧ w.dataModel.SelectPoints.length = 4 ∧ Consistent w := by
  obtain ⟨tr, w, hrun, hw⟩ := Machine.run_of_exec machine AnyStep
    [.click 0, .click 1, .click 2, .dragPoint 3 ⟨200, 200⟩, .dragPoint 0 ⟨20, 90⟩]
    (fun r => r.1.dataModel.SelectPoints.length = 4) (by decide)
  exact ⟨tr, w, hrun, of_decide_eq_true hw, consistent_of_run hrun⟩

/-! ### Drags of selected points -/

/-- The selection follows a drag exactly if the point was selected or stays. -/
theorem Consistent.follows_iff (h : Consistent w) (hi : w.markPoints[i]? = some old) :
    Follows old p w.dataModel.SelectPoints (w.setPoint i p).dataModel.SelectPoints ↔
      p = old ∨ old ∈ w.dataModel.SelectPoints := by
  unfold Follows
  by_cases hold : old ∈ w.dataModel.SelectPoints
  · rw [if_pos hold, iff_true_right (.inr hold)]
    rcases eq_or_ne p old with rfl | hne
    · rw [setPoint_self hi]
      exact List.perm_cons_erase hold
    · rw [h.setPoint_eq hi hne]
      exact List.perm_append_singleton p _
  · rw [if_neg hold, or_iff_left hold]
    constructor
    · intro heq
      by_contra hne
      rw [h.setPoint_eq hi hne, List.erase_of_not_mem hold] at heq
      exact List.cons_ne_nil p [] (List.append_right_eq_self.mp heq)
    · rintro rfl
      rw [setPoint_self hi]

theorem Follows.length_eq {xs ys : List Point} (h : Follows old p xs ys) :
    ys.length = xs.length := by
  unfold Follows at h
  split at h
  · next hold => rw [h.length_eq, (List.perm_cons_erase hold).length_eq]; rfl
  · rw [h]

/-- One step on the mark points keeps the bound. -/
theorem length_step (h : Consistent w) (hlen : w.dataModel.SelectPoints.length ≤ 3)
    (hok : DragsSelected w act) (hs : machine.step w act = some (w', es)) :
    w'.dataModel.SelectPoints.length ≤ 3 := by
  cases act with
  | click i =>
      obtain ⟨p, -, rfl, -⟩ := step_click hs
      rcases click_cases w p with heq | ⟨hroom, -, heq⟩
      · rwa [heq]
      · rw [heq, List.length_append]
        exact hroom
  | dragPoint i p =>
      obtain ⟨⟨old, hi⟩, rfl, -⟩ := step_dragPoint hs
      have hfollows := (h.follows_iff hi).mpr (hok old hi)
      rwa [hfollows.length_eq]
  | dragLine i thm p => exact hok.elim

/-- **The selection under clicks and drags of selected points.**  It never holds
more than three points, all of them among all points, of which there are as many
as at first.  A further drag is followed by the selection exactly if the point
was selected or stays where it is. -/
theorem selectionModel_of_run (hrun : machine.Run DragsSelected tr w) :
    SelectionModel w ∧
      ∀ i p old w' es, w.markPoints[i]? = some old →
        machine.step w (.dragPoint i p) = some (w', es) →
        (Follows old p w.dataModel.SelectPoints w'.dataModel.SelectPoints ↔
          DragsSelected w (.dragPoint i p)) := by
  obtain ⟨hcons, hbound⟩ : Consistent w ∧ w.dataModel.SelectPoints.length ≤ 3 := by
    refine hrun.invariant (fun _ w => Consistent w ∧ w.dataModel.SelectPoints.length ≤ 3) ?_ ?_
    · exact ⟨consistent_init, Nat.zero_le 3⟩
    · intro tr w act w' es ⟨hcons, hlen⟩ hok hs
      exact ⟨hcons.step hs, length_step hcons hlen hok hs⟩
  refine ⟨⟨hbound, fun p hp => hcons.selected.subset hp, ?_⟩, ?_⟩
  · exact hcons.marks.length_eq.symm.trans hcons.number
  · intro i p old w' es hi hs
    obtain ⟨-, rfl, -⟩ := step_dragPoint hs
    rw [hcons.follows_iff hi]
    show _ ↔ ∀ old ∈ w.markPoints[i]?, p = old ∨ old ∈ w.dataModel.SelectPoints
    rw [hi]
    exact ⟨fun h q hq => Option.some.inj hq ▸ h, fun h => h old rfl⟩

/-- Three points are selected, and the second of them is dragged onto the first. -/
theorem selectionModel_of_run_dragged :
    ∃ tr w, machine.Run DragsSelected tr w ∧ SelectionModel w ∧
      w.dataModel.SelectPoints = [⟨20, 30⟩, ⟨120, 30⟩, ⟨20, 30⟩] := by
  obtain ⟨tr, w, hrun, hw⟩ := Machine.run_of_exec machine DragsSelected
    [.click 0, .click 1, .click 2, .dragPoint 1 ⟨20, 30⟩]
    (fun r => r.1.dataModel.SelectPoints = [⟨20, 30⟩, ⟨120, 30⟩, ⟨20, 30⟩]) (by decide)
  exact ⟨tr, w, hrun, (selectionModel_of_run hrun).1, of_decide_eq_true hw⟩

/-- Three points are selected, and a fourth is dragged: now it is selected as
well. -/
theorem not_selectionModel :
    ∃ tr w, machine.Run OnMarks tr w ∧ 3 < w.dataModel.SelectPoints.length := by
  obtain ⟨tr, w, hrun, hw⟩ := Machine.run_of_exec machine OnMarks
    [.click 0, .click 1, .click 2, .dragPoint 3 ⟨200, 200⟩]
    (fun r => 3 < r.1.dataModel.SelectPoints.length) (by decide)
  exact ⟨tr, w, hrun, of_decide_eq_true hw⟩

end Collections

end MainWindow

end GraphTest

end TestExamples
