/-
TestExamples/GraphTestLines.lean

The three lines of CsharpExams/graph_test under drags of their thumbs.

`DrawLines` draws the edges of a triangle on the three selected points, of which
each line has its own copies.  A drag of a thumb is passed on to the other lines
by the old value.  So it moves the corner that the thumb shows if no other corner
lies there (`lines_dragLine`); if one does, the two are taken for each other and
no triangle is left (`apart_of_triangle`).
-/
import TestExamples.GraphTest

namespace TestExamples

namespace GraphTest

/-- What the lines are drawn on. -/
structure Triangle where
  a : Point
  b : Point
  c : Point
  deriving DecidableEq

namespace Triangle

def lines (t : Triangle) : List MarkLine := [(t.a, t.b), (t.a, t.c), (t.b, t.c)]

/-- The corner that a thumb of line `i` shows is moved. -/
def drag (t : Triangle) (i : Nat) (thm : Thumb) (p : Point) : Triangle :=
  match i, thm with
  | 0, .thmStart => { t with a := p }
  | 0, .thmEnd => { t with b := p }
  | 1, .thmStart => { t with a := p }
  | 1, .thmEnd => { t with c := p }
  | 2, .thmStart => { t with b := p }
  | 2, .thmEnd => { t with c := p }
  | _, _ => t

/-- Only a drag of a line moves a corner. -/
def after (t : Triangle) : MainWindow.Act → Triangle
  | .dragLine i thm p => t.drag i thm p
  | _ => t

/-! ### The triangle as a drawing -/

inductive Corner
  | a
  | b
  | c
  deriving DecidableEq, Repr

def place (t : Triangle) : Corner → Point
  | .a => t.a
  | .b => t.b
  | .c => t.c

def edges : List (Corner × Corner) := Drawing.pairs [.a, .b, .c]

end Triangle

def Thumb.side : Thumb → Drawing.Side
  | .thmStart => .first
  | .thmEnd => .second

namespace MainWindow

/-- The lines are those of a triangle. -/
def IsTriangle (w : MainWindow) : Prop :=
  ∃ a b c : Point, w.markLines = [(a, b), (a, c), (b, c)]

/-- Only thumbs of lines are dragged. -/
def OnLines : MainWindow → Act → Prop
  | _, .dragLine _ _ _ => True
  | _, _ => False

/-- A drag of a thumb that moves it leaves a point that not all lines hold. -/
def Apart (w : MainWindow) : Act → Prop
  | .dragLine i thm p => ∀ line ∈ w.markLines[i]?, p = line.pointAt thm ∨
      ∃ item ∈ w.markLines, ¬ item.Contains (line.pointAt thm)
  | _ => True

instance (w : MainWindow) (act : Act) : Decidable (OnLines w act) :=
  match act with
  | .click _ => inferInstanceAs (Decidable False)
  | .dragPoint _ _ => inferInstanceAs (Decidable False)
  | .dragLine _ _ _ => inferInstanceAs (Decidable True)

instance (w : MainWindow) (act : Act) : Decidable (Apart w act) :=
  match act with
  | .click _ => inferInstanceAs (Decidable True)
  | .dragPoint _ _ => inferInstanceAs (Decidable True)
  | .dragLine i thm p => inferInstanceAs (Decidable (∀ line ∈ w.markLines[i]?,
      p = line.pointAt thm ∨ ∃ item ∈ w.markLines, ¬ item.Contains (line.pointAt thm)))

section Lines

variable {w w' : MainWindow} {t t' : Triangle} {act : Act} {tr es : List Act} {i : Nat}
  {line : MarkLine} {thm : Thumb} {p q : Point} {v : Triangle.Corner}

/-! ### A drag of a line -/

theorem pointAt_eq (line : MarkLine) (thm : Thumb) :
    line.pointAt thm = Drawing.endAt line thm.side := by
  cases thm <;> rfl

theorem DragDelta_eq (line : MarkLine) (thm : Thumb) (p : Point) :
    line.DragDelta thm p = (Drawing.putEnd line p thm.side, ⟨line.pointAt thm, p⟩) := by
  cases thm <;> rfl

/-- `Line_MarkPointMoved` leaves out what `MovePoint` would leave as it is. -/
theorem movePoint_eq (item : MarkLine) (old new : Point) :
    (if item.Contains old then item.MovePoint old new else item) =
      Drawing.replaceEnd old new item := by
  split
  · rfl
  · next h =>
    obtain ⟨h₁, h₂⟩ := not_or.mp h
    exact (Drawing.replaceEnd_of_ne h₁ h₂).symm

/-- The mark points are no part of the lines. -/
theorem setPoint_markLines (w : MainWindow) (i : Nat) (p : Point) :
    (w.setPoint i p).markLines = w.markLines ∧
      (w.setPoint i p).hasDrawLines = w.hasDrawLines := by
  unfold setPoint
  split
  · exact ⟨rfl, rfl⟩
  · split
    · exact ⟨rfl, rfl⟩
    · unfold Point_PointMove
      split
      · exact ⟨rfl, rfl⟩
      · exact ⟨rfl, rfl⟩

theorem movePoints_markLines (w : MainWindow) (args : LinePointMovedRoutedEventArgs)
    (is : List Nat) :
    (w.movePoints args is).markLines = w.markLines ∧
      (w.movePoints args is).hasDrawLines = w.hasDrawLines := by
  induction is generalizing w with
  | nil => exact ⟨rfl, rfl⟩
  | cons i is ih =>
      have hstep : (w.MovePoint i args.OldValue args.NewValue).markLines = w.markLines ∧
          (w.MovePoint i args.OldValue args.NewValue).hasDrawLines = w.hasDrawLines := by
        unfold MainWindow.MovePoint
        split
        · exact setPoint_markLines w i args.NewValue
        · exact ⟨rfl, rfl⟩
      obtain ⟨hlines, hdrawn⟩ := ih (w.MovePoint i args.OldValue args.NewValue)
      exact ⟨hlines.trans hstep.1, hdrawn.trans hstep.2⟩

/-- **A drag of a thumb drags the end of its line.** -/
theorem dragLine_markLines (hi : w.markLines[i]? = some line) :
    (w.dragLine i line thm p).markLines = Drawing.dragEnd w.markLines i thm.side p ∧
      (w.dragLine i line thm p).hasDrawLines = w.hasDrawLines := by
  unfold dragLine
  rw [DragDelta_eq]
  unfold Line_MarkPointMoved
  refine ⟨(movePoints_markLines _ _ _).1.trans ?_, (movePoints_markLines _ _ _).2⟩
  rw [Drawing.dragEnd_of_getElem? hi, ← pointAt_eq]
  apply List.ext_getElem?
  intro k
  simp only [movePoint_eq, List.getElem?_mapIdx, List.getElem?_set]
  by_cases hk : i = k
  · subst hk
    obtain ⟨hlt, hget⟩ := List.getElem?_eq_some_iff.mp hi
    simp [hlt, hget]
  · simp [hk, Ne.symm hk]

/-! ### The triangle -/

theorem lines_eq_draw (t : Triangle) : t.lines = Drawing.draw t.place Triangle.edges := rfl

theorem pairs_eq_lines (t : Triangle) : Drawing.pairs [t.a, t.b, t.c] = t.lines :=
  Drawing.pairs_map t.place [.a, .b, .c]

theorem edges_ne : ∀ e ∈ Triangle.edges, e.1 ≠ e.2 := Drawing.ne_of_mem_pairs (by decide)

/-- Every edge ends in one of any two corners. -/
theorem edge_of_ne : ∀ u v : Triangle.Corner, u ≠ v → ∀ e ∈ Triangle.edges,
    e.1 = u ∨ e.1 = v ∨ e.2 = u ∨ e.2 = v := by
  intro u v hne
  cases u <;> cases v <;> first | exact absurd rfl hne | decide

/-- A corner lies alone if not all lines hold its point. -/
theorem alone_of_not_contains (hline : line ∈ t.lines) (hnot : ¬ line.Contains (t.place v)) :
    Drawing.Alone t.place v := by
  intro u hu heq
  rw [lines_eq_draw] at hline
  obtain ⟨e, he, rfl⟩ := List.mem_map.mp hline
  obtain ⟨h₁, h₂⟩ := not_or.mp hnot
  rcases edge_of_ne u v hu e he with h | h | h | h
  · exact h₁ ((congrArg t.place h).trans heq)
  · exact h₁ (congrArg t.place h)
  · exact h₂ ((congrArg t.place h).trans heq)
  · exact h₂ (congrArg t.place h)

/-- A drag of a thumb puts its corner elsewhere and no other. -/
theorem place_drag {e : Triangle.Corner × Triangle.Corner} (he : Triangle.edges[i]? = some e) :
    (t.drag i thm p).place = Function.update t.place (Drawing.endAt e thm.side) p := by
  match i, thm with
  | 0, .thmStart | 0, .thmEnd | 1, .thmStart | 1, .thmEnd | 2, .thmStart | 2, .thmEnd =>
    cases he
    funext u
    cases u <;> rfl
  | _ + 3, _ => cases he

/-- A drag of a corner that lies alone moves it. -/
theorem lines_dragLine (hw : w.markLines = t.lines) (hi : w.markLines[i]? = some line)
    (hok : Apart w (.dragLine i thm p)) :
    (w.dragLine i line thm p).markLines = (t.drag i thm p).lines := by
  rw [(dragLine_markLines hi).1]
  have happart := hok line hi
  rw [hw] at hi happart ⊢
  obtain ⟨e, he, rfl⟩ : ∃ e, Triangle.edges[i]? = some e ∧ Drawing.drawEdge t.place e = line := by
    rw [lines_eq_draw, Drawing.draw, List.getElem?_map] at hi
    exact Option.map_eq_some_iff.mp hi
  rw [pointAt_eq, Drawing.endAt_drawEdge] at happart
  rw [lines_eq_draw (t.drag i thm p), place_drag he]
  rcases happart with rfl | ⟨item, hitem, hnot⟩
  · have hend : t.place (Drawing.endAt e thm.side) =
        Drawing.endAt (Drawing.drawEdge t.place e) thm.side := Drawing.endAt_drawEdge.symm
    rw [Function.update_eq_self, hend, Drawing.dragEnd_endAt hi]
    exact lines_eq_draw t
  · exact Drawing.dragEnd_draw edges_ne he (alone_of_not_contains hitem hnot)

/-- Every corner is the end of two lines. -/
theorem count_ends_lines (t : Triangle) (q : Point) :
    (Drawing.ends t.lines).count q = 2 * [t.a, t.b, t.c].count q := by
  simp only [Triangle.lines, Drawing.ends, List.flatMap_cons, List.flatMap_nil, List.cons_append,
    List.nil_append, List.count_cons, List.count_nil]
  omega

/-- **A corner that does not lie alone leaves the triangle**: three lines would
each show its old place once less, but a place is shown by two lines for each
corner there. -/
theorem apart_of_triangle (hw : w.markLines = t.lines) (hi : w.markLines[i]? = some line)
    (h : (w.dragLine i line thm p).markLines = t'.lines) : Apart w (.dragLine i thm p) := by
  intro l hl
  obtain rfl : line = l := Option.some.inj (hi.symm.trans hl)
  by_contra hshared
  obtain ⟨hne, hall⟩ := not_or.mp hshared
  rw [pointAt_eq] at hne hall
  have hcount := Drawing.count_ends_dragEnd hi hne
  rw [← (dragLine_markLines hi).1, h, hw, count_ends_lines, count_ends_lines] at hcount
  have hthree : t.lines.countP (Drawing.Holds (Drawing.endAt line thm.side) ·) = 3 := by
    rw [List.countP_eq_length.mpr]
    · rfl
    · intro item hitem
      rw [hw] at hall
      by_contra hnot
      exact hall ⟨item, hitem, fun hcontains => hnot (decide_eq_true hcontains)⟩
  omega

/-! ### Runs -/

/-- A click after `DrawLines` does nothing. -/
theorem click_drawn (hdrawn : w.hasDrawLines = true) (p : Point) :
    w.Point_PreviewMouseLeftButtonUp p = w := if_pos hdrawn

/-- Lines come from `DrawLines` only. -/
theorem markLines_of_run {ok : MainWindow → Act → Prop} (hrun : machine.Run ok tr w) :
    w.hasDrawLines = false → w.markLines = [] := by
  refine hrun.invariant (fun _ w => w.hasDrawLines = false → w.markLines = [])
    (fun _ => rfl) ?_
  intro tr w act w' es hw _ hs
  apply step_induction ?_ ?_ ?_ hs
  · intro i p _
    unfold Point_PreviewMouseLeftButtonUp
    split
    · exact hw
    · split
      · intro hnot
        cases hnot
      · exact hw
  · intro i p
    rwa [(setPoint_markLines w i p).1, (setPoint_markLines w i p).2]
  · intro i line thm p hi
    rw [(dragLine_markLines hi).2]
    intro hnot
    rw [hw hnot] at hi
    cases hi

/-- **The click that draws**: there were no lines, and three points are selected. -/
theorem drawLines_of_click {ok : MainWindow → Act → Prop} (hrun : machine.Run ok tr w)
    (hnot : w.hasDrawLines = false) (hs : machine.step w (.click i) = some (w', es))
    (hdrawn : w'.hasDrawLines = true) :
    ∃ (v : MainWindow) (a b c : Point), w' = v.DrawLines ∧ v.markLines = [] ∧
      v.dataModel.SelectPoints = [a, b, c] := by
  obtain ⟨p, -, rfl, -⟩ := step_click hs
  have hclick : w.Point_PreviewMouseLeftButtonUp p = _ := if_neg (Bool.eq_false_iff.mp hnot)
  rw [hclick] at hdrawn ⊢
  split at hdrawn
  · next hcheck =>
    rw [if_pos hcheck]
    obtain ⟨a, b, c, hsel⟩ := List.length_eq_three.mp (of_decide_eq_true hcheck)
    have hnone : w.markLines = [] := markLines_of_run hrun hnot
    exact ⟨_, a, b, c, rfl, hnone, hsel⟩
  · rw [hnot] at hdrawn
    cases hdrawn

/-- One step moves at most the corner that is dragged. -/
theorem lines_step (hdrawn : w.hasDrawLines = true) (hw : w.markLines = t.lines)
    (hok : Apart w act) (hs : machine.step w act = some (w', es)) :
    es = [act] ∧ w'.hasDrawLines = true ∧ w'.markLines = (t.after act).lines := by
  cases act with
  | click i =>
      obtain ⟨p, -, rfl, rfl⟩ := step_click hs
      rw [click_drawn hdrawn]
      exact ⟨rfl, hdrawn, hw⟩
  | dragPoint i p =>
      obtain ⟨-, rfl, rfl⟩ := step_dragPoint hs
      obtain ⟨hlines, hflag⟩ := setPoint_markLines w i p
      exact ⟨rfl, hflag.trans hdrawn, hlines.trans hw⟩
  | dragLine i thm p =>
      obtain ⟨line, hi, rfl, rfl⟩ := step_dragLine hs
      exact ⟨rfl, (dragLine_markLines hi).2.trans hdrawn, lines_dragLine hw hi hok⟩

/-- **The triangle stays a triangle** while no corner is dragged off another: the
lines are those of the triangle of `DrawLines` with the dragged corners moved.  A
further drag leaves a triangle exactly if it does not drag a corner off another. -/
theorem triangle_of_run {a b c : Point} (hsel : w.dataModel.SelectPoints = [a, b, c])
    (hnone : w.markLines = []) (hrun : (machine.startAt w.DrawLines).Run Apart tr w') :
    w'.markLines = (tr.foldl Triangle.after ⟨a, b, c⟩).lines ∧
      ∀ i thm p w'' es, machine.step w' (.dragLine i thm p) = some (w'', es) →
        (IsTriangle w'' ↔ Apart w' (.dragLine i thm p)) := by
  obtain ⟨-, hlines⟩ : w'.hasDrawLines = true ∧
      w'.markLines = (tr.foldl Triangle.after ⟨a, b, c⟩).lines := by
    refine hrun.invariant (fun tr w => w.hasDrawLines = true ∧
      w.markLines = (tr.foldl Triangle.after ⟨a, b, c⟩).lines) ⟨rfl, ?_⟩ ?_
    · show w.markLines ++ Drawing.pairs w.dataModel.SelectPoints = _
      rw [hnone, hsel, List.nil_append]
      exact pairs_eq_lines ⟨a, b, c⟩
    · intro tr w act w' es ⟨hdrawn, hw⟩ hok hs
      obtain ⟨rfl, hdrawn', hw'⟩ := lines_step hdrawn hw hok hs
      rw [List.foldl_concat]
      exact ⟨hdrawn', hw'⟩
  refine ⟨hlines, ?_⟩
  intro i thm p w'' es hs
  obtain ⟨line, hi, rfl, -⟩ := step_dragLine hs
  constructor
  · rintro ⟨a', b', c', h⟩
    have h : (w'.dragLine i line thm p).markLines = Triangle.lines ⟨a', b', c'⟩ := h
    exact apart_of_triangle hlines hi h
  · intro hok
    exact ⟨_, _, _, lines_dragLine hlines hi hok⟩

/-- Three points are selected. -/
def threeSelected : MainWindow :=
  { init with dataModel.SelectPoints := [⟨20, 30⟩, ⟨50, 80⟩, ⟨120, 30⟩] }

example : (machine.exec AnyStep init [] [.click 0, .click 1, .click 2]).map Prod.fst =
    some threeSelected.DrawLines := by decide

/-- The first corner is dragged onto the second, and the third away. -/
theorem triangle_of_run_onto :
    ∃ w, (machine.startAt threeSelected.DrawLines).Run Apart
        [.dragLine 0 .thmStart ⟨50, 80⟩, .dragLine 2 .thmEnd ⟨0, 0⟩] w ∧
      w.markLines = Triangle.lines ⟨⟨50, 80⟩, ⟨50, 80⟩, ⟨0, 0⟩⟩ := by
  obtain ⟨tr, w, hrun, htr⟩ := Machine.run_of_exec (machine.startAt threeSelected.DrawLines) Apart
    [.dragLine 0 .thmStart ⟨50, 80⟩, .dragLine 2 .thmEnd ⟨0, 0⟩]
    (fun r => r.2 = [.dragLine 0 .thmStart ⟨50, 80⟩, .dragLine 2 .thmEnd ⟨0, 0⟩]) (by decide)
  obtain rfl := of_decide_eq_true htr
  exact ⟨w, hrun, (triangle_of_run rfl rfl hrun).1⟩

/-- The first corner is dragged onto the second, and off it again. -/
theorem not_triangle :
    ∃ tr w, (machine.startAt threeSelected.DrawLines).Run OnLines tr w ∧ ¬ IsTriangle w := by
  obtain ⟨tr, w, hrun, hw⟩ := Machine.run_of_exec (machine.startAt threeSelected.DrawLines) OnLines
    [.dragLine 0 .thmStart ⟨50, 80⟩, .dragLine 1 .thmStart ⟨0, 0⟩]
    (fun r => r.1.markLines =
      [(⟨0, 0⟩, ⟨50, 80⟩), (⟨0, 0⟩, ⟨120, 30⟩), (⟨0, 0⟩, ⟨120, 30⟩)]) (by decide)
  refine ⟨tr, w, hrun, ?_⟩
  rintro ⟨a, b, c, h⟩
  rw [of_decide_eq_true hw] at h
  simp only [List.cons.injEq, Prod.mk.injEq] at h
  obtain ⟨⟨-, h₁⟩, -, ⟨h₂, -⟩, -⟩ := h
  exact absurd (h₁.trans h₂.symm) (by decide)

end Lines

end MainWindow

end GraphTest

end TestExamples
