/-
TestExamples/GraphTest.lean

The main window of CsharpExams/graph_test: mark points that clicks select and
drags move, and the lines drawn between three selected ones.

A `PointCollection` is the list of its points, which `Contains` and `Remove` find
by value.  Of a `MarkPoint` the model has its `Point`, of a `MarkLine` its two
`DataPoints`; the places of the thumbs on the canvas, which follow these, and what
is only shown are left out.  Coordinates are exact, and a `DragDelta` of a thumb is
a drag to the point it leads to.
-/
import Mathlib.Data.Rat.Defs
import TestExamples.Lib.Drawing
import TestExamples.Lib.Machine

namespace TestExamples

namespace GraphTest

structure Point where
  X : ℚ
  Y : ℚ
  deriving DecidableEq

/-! ### Data/SelectPointsDataModel.cs -/

structure SelectPointsDataModel where
  SelectPoints : List Point
  AllPoints : List Point
  deriving DecidableEq

namespace SelectPointsDataModel

def new : SelectPointsDataModel where
  SelectPoints := []
  AllPoints := [⟨20, 30⟩, ⟨50, 80⟩, ⟨120, 30⟩, ⟨120, 90⟩, ⟨220, 30⟩, ⟨220, 150⟩, ⟨320, 50⟩]

def AddSelectPoint (m : SelectPointsDataModel) (p : Point) : SelectPointsDataModel :=
  if 3 ≤ m.SelectPoints.length then m
  else if p ∈ m.SelectPoints then m
  else { m with SelectPoints := m.SelectPoints ++ [p] }

def CheckSelecPoints (m : SelectPointsDataModel) : Bool := m.SelectPoints.length = 3

end SelectPointsDataModel

/-! ### MarkLine/MarkLine.xaml.cs -/

/-- The `DataPoints` of a line. -/
abbrev MarkLine := Point × Point

structure LinePointMovedRoutedEventArgs where
  OldValue : Point
  NewValue : Point

/-- A thumb of a line. -/
inductive Thumb
  | thmStart
  | thmEnd
  deriving DecidableEq, Repr

namespace MarkLine

def Contains (line : MarkLine) (p : Point) : Prop := line.1 = p ∨ line.2 = p

instance (line : MarkLine) (p : Point) : Decidable (line.Contains p) :=
  inferInstanceAs (Decidable (_ ∨ _))

/-- The point at a thumb. -/
def pointAt (line : MarkLine) : Thumb → Point
  | .thmStart => line.1
  | .thmEnd => line.2

/-- The line after the drag, and the event it raises. -/
def thmStart_DragDelta (line : MarkLine) (p : Point) : MarkLine × LinePointMovedRoutedEventArgs :=
  ((p, line.2), ⟨line.1, p⟩)

def thmEnd_DragDelta (line : MarkLine) (p : Point) : MarkLine × LinePointMovedRoutedEventArgs :=
  ((line.1, p), ⟨line.2, p⟩)

def DragDelta (line : MarkLine) : Thumb → Point → MarkLine × LinePointMovedRoutedEventArgs
  | .thmStart => line.thmStart_DragDelta
  | .thmEnd => line.thmEnd_DragDelta

def MovePoint (line : MarkLine) (oldValue newValue : Point) : MarkLine :=
  if line.1 = oldValue then (newValue, line.2)
  else if line.2 = oldValue then (line.1, newValue)
  else line

end MarkLine

/-! ### MainWindow.xaml.cs -/

structure MainWindow where
  hasDrawLines : Bool
  markLines : List MarkLine
  markPoints : List Point
  dataModel : SelectPointsDataModel
  deriving DecidableEq

namespace MainWindow

def init : MainWindow where
  hasDrawLines := false
  markLines := []
  markPoints := SelectPointsDataModel.new.AllPoints
  dataModel := .new

def Point_PointMove (w : MainWindow) (old newPoint : Point) : MainWindow :=
  if old ∈ w.dataModel.AllPoints then
    { w with dataModel :=
        { SelectPoints := w.dataModel.SelectPoints.erase old ++ [newPoint]
          AllPoints := w.dataModel.AllPoints.erase old ++ [newPoint] } }
  else w

/-- The setter of `MarkPoint.Point`.  The property raises `PointMove` only where
its value changes. -/
def setPoint (w : MainWindow) (i : Nat) (newPoint : Point) : MainWindow :=
  match w.markPoints[i]? with
  | none => w
  | some old =>
      if newPoint = old then w
      else
        { w with markPoints := w.markPoints.set i newPoint }.Point_PointMove old newPoint

/-- `MarkPoint.MovePoint`. -/
def MovePoint (w : MainWindow) (i : Nat) (oldValue newValue : Point) : MainWindow :=
  if w.markPoints[i]? = some oldValue then w.setPoint i newValue else w

def DrawLines (w : MainWindow) : MainWindow :=
  { w with
    -- the lines from `SelectPoints[i]` to `SelectPoints[j]`, `i < j`
    markLines := w.markLines ++ Drawing.pairs w.dataModel.SelectPoints
    hasDrawLines := true }

def Point_PreviewMouseLeftButtonUp (w : MainWindow) (point : Point) : MainWindow :=
  if w.hasDrawLines = true then w
  else if (w.dataModel.AddSelectPoint point).CheckSelecPoints = true then
    { w with dataModel := w.dataModel.AddSelectPoint point }.DrawLines
  else { w with dataModel := w.dataModel.AddSelectPoint point }

/-- The mark points, one behind the other. -/
def movePoints (w : MainWindow) (args : LinePointMovedRoutedEventArgs) (is : List Nat) :
    MainWindow :=
  is.foldl (fun w i => w.MovePoint i args.OldValue args.NewValue) w

/-- `sourceLine` is known by its place in `markLines`. -/
def Line_MarkPointMoved (w : MainWindow) (sourceLine : Nat)
    (args : LinePointMovedRoutedEventArgs) : MainWindow :=
  let markLines := w.markLines.mapIdx fun i item =>
    if i = sourceLine then item
    else if item.Contains args.OldValue then item.MovePoint args.OldValue args.NewValue
    else item
  { w with markLines := markLines }.movePoints args (List.range w.markPoints.length)

/-- The `DragDelta` of a thumb of a line. -/
def dragLine (w : MainWindow) (i : Nat) (line : MarkLine) (thm : Thumb) (p : Point) :
    MainWindow :=
  let (line', args) := line.DragDelta thm p
  { w with markLines := w.markLines.set i line' }.Line_MarkPointMoved i args

/-- What the mouse does. -/
inductive Act
  | click (i : Nat)                            -- on a mark point
  | dragPoint (i : Nat) (p : Point)
  | dragLine (i : Nat) (thm : Thumb) (p : Point)
  deriving DecidableEq

def step (w : MainWindow) : Act → Option (MainWindow × List Act)
  | .click i => w.markPoints[i]?.map fun point =>
      (w.Point_PreviewMouseLeftButtonUp point, [.click i])
  | .dragPoint i p => w.markPoints[i]?.map fun _ => (w.setPoint i p, [.dragPoint i p])
  | .dragLine i thm p => w.markLines[i]?.map fun line =>
      (w.dragLine i line thm p, [.dragLine i thm p])

/-- The window; its history is what the mouse has done. -/
def machine : Machine MainWindow Act Act := ⟨init, step⟩

/-! ### What a step does -/

section Step

variable {w w' : MainWindow} {es : List Act} {i : Nat} {thm : Thumb} {p : Point}

theorem step_click (hs : machine.step w (.click i) = some (w', es)) :
    ∃ point, w.markPoints[i]? = some point ∧ w' = w.Point_PreviewMouseLeftButtonUp point ∧
      es = [.click i] := by
  obtain ⟨point, hi, heq⟩ := Option.map_eq_some_iff.mp hs
  obtain ⟨rfl, rfl⟩ := Prod.mk.inj heq
  exact ⟨point, hi, rfl, rfl⟩

theorem step_dragPoint (hs : machine.step w (.dragPoint i p) = some (w', es)) :
    (∃ old, w.markPoints[i]? = some old) ∧ w' = w.setPoint i p ∧ es = [.dragPoint i p] := by
  obtain ⟨old, hi, heq⟩ := Option.map_eq_some_iff.mp hs
  obtain ⟨rfl, rfl⟩ := Prod.mk.inj heq
  exact ⟨⟨old, hi⟩, rfl, rfl⟩

theorem step_dragLine (hs : machine.step w (.dragLine i thm p) = some (w', es)) :
    ∃ line, w.markLines[i]? = some line ∧ w' = w.dragLine i line thm p ∧
      es = [.dragLine i thm p] := by
  obtain ⟨line, hi, heq⟩ := Option.map_eq_some_iff.mp hs
  obtain ⟨rfl, rfl⟩ := Prod.mk.inj heq
  exact ⟨line, hi, rfl, rfl⟩

/-- A property of windows is kept if the three handlers keep it. -/
theorem step_induction {Inv : MainWindow → Prop} {act : Act}
    (hclick : ∀ (i : Nat) (point : Point), w.markPoints[i]? = some point →
      Inv (w.Point_PreviewMouseLeftButtonUp point))
    (hpoint : ∀ i p, Inv (w.setPoint i p))
    (hline : ∀ (i : Nat) (line : MarkLine) (thm : Thumb) (p : Point),
      w.markLines[i]? = some line → Inv (w.dragLine i line thm p))
    (hs : machine.step w act = some (w', es)) : Inv w' := by
  cases act with
  | click i =>
      obtain ⟨point, hi, rfl, -⟩ := step_click hs
      exact hclick i point hi
  | dragPoint i p =>
      obtain ⟨-, rfl, -⟩ := step_dragPoint hs
      exact hpoint i p
  | dragLine i thm p =>
      obtain ⟨line, hi, rfl, -⟩ := step_dragLine hs
      exact hline i line thm p hi

end Step

end MainWindow

end GraphTest

end TestExamples
