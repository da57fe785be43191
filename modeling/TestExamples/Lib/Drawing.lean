/-
TestExamples/Lib/Drawing.lean

Lines that hold copies of the places of their ends.

Vertices lie at places, and an edge joins two of them.  A line that draws an edge
keeps the places of its two ends and not the vertices.  So whoever moves a vertex
and sees the lines only looks for ends at the old place (`replaceEnd`).

Where the vertex is alone at its place that finds its lines and no others: a drag
of one end of a line then leads to the drawing with the vertex moved
(`dragEnd_draw`).  In any case every line that shows the old place shows it once
less (`count_ends_dragEnd`).
-/
import Mathlib.Data.List.Basic
import Mathlib.Logic.Function.Basic

namespace TestExamples

variable {V P : Type*}

namespace Drawing

inductive Side
  | first
  | second
  deriving DecidableEq, Repr

/-- One end of a line, or of an edge. -/
def endAt (l : P × P) : Side → P
  | .first => l.1
  | .second => l.2

def putEnd (l : P × P) (p : P) : Side → P × P
  | .first => (p, l.2)
  | .second => (l.1, p)

/-- The first end at the old place goes to the new one. -/
def replaceEnd [DecidableEq P] (old new : P) (l : P × P) : P × P :=
  if l.1 = old then (new, l.2) else if l.2 = old then (l.1, new) else l

/-- One end of line `i` is put elsewhere, and the other lines follow. -/
def dragEnd [DecidableEq P] (lines : List (P × P)) (i : Nat) (side : Side) (p : P) :
    List (P × P) :=
  match lines[i]? with
  | none => lines
  | some l =>
      lines.mapIdx fun k item =>
        if k = i then putEnd item p side else replaceEnd (endAt l side) p item

def drawEdge (place : V → P) (e : V × V) : P × P := (place e.1, place e.2)

def draw (place : V → P) (edges : List (V × V)) : List (P × P) := edges.map (drawEdge place)

/-- All ends, line by line. -/
def ends (lines : List (P × P)) : List P := lines.flatMap fun l => [l.1, l.2]

def Holds (q : P) (l : P × P) : Prop := l.1 = q ∨ l.2 = q

instance [DecidableEq P] (q : P) : DecidablePred (Holds q) := fun _ =>
  inferInstanceAs (Decidable (_ ∨ _))

/-- No other vertex lies where `v` does. -/
def Alone (place : V → P) (v : V) : Prop := ∀ u, u ≠ v → place u ≠ place v

/-! ### All pairs -/

/-- Every entry with every later one. -/
def pairs : List V → List (V × V)
  | [] => []
  | x :: xs => xs.map (fun y => (x, y)) ++ pairs xs

theorem pairs_map (place : V → P) (vs : List V) :
    pairs (vs.map place) = draw place (pairs vs) := by
  induction vs with
  | nil => rfl
  | cons v vs ih =>
      simp only [List.map_cons, pairs, ih, draw, List.map_append, List.map_map]
      rfl

/-- No vertex is joined to itself. -/
theorem ne_of_mem_pairs {vs : List V} (h : vs.Nodup) : ∀ e ∈ pairs vs, e.1 ≠ e.2 := by
  induction vs with
  | nil =>
      intro e he
      cases he
  | cons v vs ih =>
      obtain ⟨hv, hvs⟩ := List.nodup_cons.mp h
      intro e he
      rcases List.mem_append.mp he with he | he
      · obtain ⟨u, hu, rfl⟩ := List.mem_map.mp he
        show v ≠ u
        rintro rfl
        exact hv hu
      · exact ih hvs e he

/-! ### Dragging an end -/

section Drag

variable {place : V → P} {edges : List (V × V)} {lines : List (P × P)}
  {e : V × V} {l : P × P} {i : Nat} {side : Side} {p q : P} {v : V}

theorem putEnd_endAt (l : P × P) (side : Side) : putEnd l (endAt l side) side = l := by
  cases side <;> rfl

theorem endAt_drawEdge : endAt (drawEdge place e) side = place (endAt e side) := by
  cases side <;> rfl

/-- A line shows at one end the vertex that has been moved. -/
theorem putEnd_drawEdge [DecidableEq V] (he : e.1 ≠ e.2) :
    putEnd (drawEdge place e) p side =
      drawEdge (Function.update place (endAt e side) p) e := by
  cases side with
  | first =>
      show (p, place e.2) = (Function.update place e.1 p e.1, Function.update place e.1 p e.2)
      rw [Function.update_self, Function.update_of_ne he.symm]
  | second =>
      show (place e.1, p) = (Function.update place e.2 p e.1, Function.update place e.2 p e.2)
      rw [Function.update_self, Function.update_of_ne he]

variable [DecidableEq P]

theorem replaceEnd_self (q : P) (l : P × P) : replaceEnd q q l = l := by
  unfold replaceEnd
  split
  · next h => rw [← h]
  · split
    · next h => rw [← h]
    · rfl

/-- A line that does not show the old place stays. -/
theorem replaceEnd_of_ne (h₁ : l.1 ≠ q) (h₂ : l.2 ≠ q) : replaceEnd q p l = l := by
  rw [replaceEnd, if_neg h₁, if_neg h₂]

/-- Where the ends differ it is the right one that goes. -/
theorem replaceEnd_endAt (h : l.1 ≠ l.2) : replaceEnd (endAt l side) p l = putEnd l p side := by
  cases side with
  | first => exact if_pos rfl
  | second => exact (if_neg h).trans (if_pos rfl)

theorem dragEnd_of_getElem? (h : lines[i]? = some l) : dragEnd lines i side p =
    lines.mapIdx fun k item =>
      if k = i then putEnd item p side else replaceEnd (endAt l side) p item := by
  rw [dragEnd, h]

/-- A drag to where the end is does nothing. -/
theorem dragEnd_endAt (h : lines[i]? = some l) : dragEnd lines i side (endAt l side) = lines := by
  rw [dragEnd_of_getElem? h]
  apply List.ext_getElem?
  intro k
  rw [List.getElem?_mapIdx]
  by_cases hk : k = i
  · rw [hk, h, Option.map_some, if_pos rfl, putEnd_endAt]
  · simp [hk, replaceEnd_self]

theorem count_putEnd (hp : p ≠ endAt l side) :
    [(putEnd l p side).1, (putEnd l p side).2].count (endAt l side) +
        (if Holds (endAt l side) l then 1 else 0) =
      [l.1, l.2].count (endAt l side) := by
  cases side with
  | first =>
      rw [if_pos (.inl rfl)]
      simp [putEnd, endAt, List.count_cons, show p ≠ l.1 from hp]
  | second =>
      rw [if_pos (.inr rfl)]
      simp [putEnd, endAt, List.count_cons, show p ≠ l.2 from hp, Nat.add_comm]

theorem count_replaceEnd (hp : p ≠ q) :
    [(replaceEnd q p l).1, (replaceEnd q p l).2].count q + (if Holds q l then 1 else 0) =
      [l.1, l.2].count q := by
  by_cases h₁ : l.1 = q
  · simp [replaceEnd, Holds, List.count_cons, h₁, hp]
  · by_cases h₂ : l.2 = q
    · simp [replaceEnd, Holds, h₁, h₂, hp]
    · have hnot : ¬ Holds q l := not_or.mpr ⟨h₁, h₂⟩
      rw [replaceEnd_of_ne h₁ h₂, if_neg hnot, Nat.add_zero]

theorem count_ends_cons :
    (ends (l :: lines)).count q = [l.1, l.2].count q + (ends lines).count q := by
  rw [ends, List.flatMap_cons, List.count_append]
  rfl

/-- The ends of the lines are counted line by line. -/
theorem count_ends_mapIdx {f : Nat → P × P → P × P}
    (h : ∀ k l, lines[k]? = some l →
      [(f k l).1, (f k l).2].count q + (if Holds q l then 1 else 0) = [l.1, l.2].count q) :
    (ends (lines.mapIdx f)).count q + lines.countP (Holds q ·) = (ends lines).count q := by
  induction lines generalizing f with
  | nil => rfl
  | cons l lines ih =>
      have hhead := h 0 l rfl
      have htail := ih (f := fun k => f (k + 1)) fun k l' hl' => h (k + 1) l' hl'
      rw [List.mapIdx_cons, count_ends_cons, count_ends_cons, List.countP_cons]
      simp only [decide_eq_true_eq]
      omega

/-- **Every line at the old place shows it once less after a drag.** -/
theorem count_ends_dragEnd (h : lines[i]? = some l) (hp : p ≠ endAt l side) :
    (ends (dragEnd lines i side p)).count (endAt l side) +
        lines.countP (Holds (endAt l side) ·) =
      (ends lines).count (endAt l side) := by
  rw [dragEnd_of_getElem? h]
  apply count_ends_mapIdx
  intro k item hitem
  by_cases hk : k = i
  · obtain rfl : item = l := Option.some.inj (hitem.symm.trans (hk ▸ h))
    rw [if_pos hk]
    exact count_putEnd hp
  · rw [if_neg hk]
    exact count_replaceEnd hp

variable [DecidableEq V]

/-- The lines of the vertex go with it, and the others stay. -/
theorem replaceEnd_drawEdge (halone : Alone place v) (he : e.1 ≠ e.2) :
    replaceEnd (place v) p (drawEdge place e) = drawEdge (Function.update place v p) e := by
  by_cases hv : ∃ side, endAt e side = v
  · obtain ⟨side, rfl⟩ := hv
    have hends : (drawEdge place e).1 ≠ (drawEdge place e).2 := by
      cases side with
      | first => exact (halone e.2 he.symm).symm
      | second => exact halone e.1 he
    have hend : place (endAt e side) = endAt (drawEdge place e) side := endAt_drawEdge.symm
    rw [hend, replaceEnd_endAt hends, putEnd_drawEdge he]
  · have h₁ : e.1 ≠ v := fun h => hv ⟨.first, h⟩
    have h₂ : e.2 ≠ v := fun h => hv ⟨.second, h⟩
    rw [replaceEnd_of_ne (halone _ h₁) (halone _ h₂), drawEdge, drawEdge,
      Function.update_of_ne h₁, Function.update_of_ne h₂]

/-- **Dragging an end of a line moves its vertex**, if the vertex is alone at its
place. -/
theorem dragEnd_draw (hloops : ∀ e ∈ edges, e.1 ≠ e.2) (he : edges[i]? = some e)
    (halone : Alone place (endAt e side)) :
    dragEnd (draw place edges) i side p =
      draw (Function.update place (endAt e side) p) edges := by
  have hl : (draw place edges)[i]? = some (drawEdge place e) := by
    rw [draw, List.getElem?_map, he, Option.map_some]
  rw [dragEnd_of_getElem? hl]
  apply List.ext_getElem?
  intro k
  rw [List.getElem?_mapIdx, draw, draw, List.getElem?_map, List.getElem?_map, Option.map_map]
  rcases hk : edges[k]? with - | e'
  · rfl
  · have hne : e'.1 ≠ e'.2 := hloops e' (List.mem_of_getElem? hk)
    rw [Option.map_some, Option.map_some, Function.comp_apply]
    by_cases hki : k = i
    · obtain rfl : e' = e := Option.some.inj (hk.symm.trans (hki ▸ he))
      rw [if_pos hki, putEnd_drawEdge hne]
    · rw [if_neg hki, endAt_drawEdge, replaceEnd_drawEdge halone hne]

end Drag

end Drawing

end TestExamples
