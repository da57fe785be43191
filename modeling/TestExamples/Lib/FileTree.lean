/-
TestExamples/Lib/FileTree.lean

Trees of directories and files, and chains of directories in them.

A location is the list of the names that lead to it, the last one first; the
entry of a tree at a location is a directory, a file or nothing, and only
directories have entries below them.  A path is a list of components, and it is
followed from a location on (`walk`); `destination` is where it leads by its names
alone.

`make` makes the directories of a path: at each component it goes on only from
a directory, and it adds the directory that is missing.  What was there stays
(`make_old`), what is new is a directory that the path names (`make_new`), and
`make` succeeds unless a component has a file before it (`make_ok_iff`).  Where
it succeeds the path can be followed (`walk_of_make`), and where it does not it
has stopped at a component (`make_stops`).
-/
import Mathlib.Data.List.Induction
import Mathlib.Logic.Function.Basic

namespace TestExamples

variable {ν φ : Type*}

/-- An entry of a directory. -/
inductive TreeEntry (φ : Type*)
  | dir
  | file (content : φ)

structure FileTree (ν φ : Type*) where
  entry : List ν → Option (TreeEntry φ)
  root : entry [] = some .dir
  parent : ∀ name loc, entry (name :: loc) ≠ none → entry loc = some .dir

/-- A component of a path. -/
inductive Component (ν : Type*)
  | here
  | up
  | name (name : ν)
  deriving DecidableEq, Repr

/-- Where a component leads from a location. -/
def Component.move (c : Component ν) (loc : List ν) : List ν :=
  match c with
  | .here => loc
  | .up => loc.tail
  | .name n => n :: loc

/-- Where components lead, by their names alone. -/
def destination (loc : List ν) (cs : List (Component ν)) : List ν :=
  cs.foldl (fun loc c => c.move loc) loc

namespace FileTree

def IsDir (t : FileTree ν φ) (loc : List ν) : Prop := t.entry loc = some .dir

def IsFile (t : FileTree ν φ) (loc : List ν) : Prop := ∃ content, t.entry loc = some (.file content)

instance (t : FileTree ν φ) (loc : List ν) : Decidable (t.IsDir loc) :=
  match h : t.entry loc with
  | some .dir => isTrue h
  | some (.file _) => isFalse fun h' => by
      rw [IsDir, h] at h'
      cases h'
  | none => isFalse fun h' => by
      rw [IsDir, h] at h'
      cases h'

/-- Follow components: each leads from a directory to an entry. -/
def walk (t : FileTree ν φ) (loc : List ν) : List (Component ν) → Option (List ν)
  | [] => some loc
  | c :: cs => if t.IsDir loc ∧ t.entry (c.move loc) ≠ none then t.walk (c.move loc) cs else none

section Walk

variable {t t' : FileTree ν φ} {loc loc' l : List ν} {c : Component ν} {cs ds : List (Component ν)}
  {e : TreeEntry φ}

theorem destination_append :
    destination loc (cs ++ ds) = destination (destination loc cs) ds := List.foldl_append

theorem IsDir.not_isFile (h : t.IsDir loc) : ¬ t.IsFile loc := by
  rintro ⟨content, hfile⟩
  rw [h] at hfile
  cases hfile

theorem IsDir.there (h : t.IsDir loc) : t.entry loc ≠ none := fun hnone =>
  Option.some_ne_none TreeEntry.dir (h.symm.trans hnone)

theorem there_of_old (hold : ∀ l e, t.entry l = some e → t'.entry l = some e)
    (h : t.entry l ≠ none) : t'.entry l ≠ none := by
  obtain ⟨e, he⟩ := Option.ne_none_iff_exists'.mp h
  rw [hold l e he]
  exact Option.some_ne_none e

theorem isDir_or_isFile (h : t.entry loc ≠ none) : t.IsDir loc ∨ t.IsFile loc := by
  rcases he : t.entry loc with - | (- | content)
  · exact absurd he h
  · exact .inl he
  · exact .inr ⟨content, he⟩

/-- Above a directory there are directories. -/
theorem IsDir.tail (h : t.IsDir loc) : t.IsDir loc.tail := by
  cases loc with
  | nil => exact t.root
  | cons name loc =>
      refine t.parent name loc ?_
      rw [show t.entry (name :: loc) = some .dir from h]
      exact Option.some_ne_none _

theorem walk_append : t.walk loc (cs ++ ds) = (t.walk loc cs).bind fun l => t.walk l ds := by
  induction cs generalizing loc with
  | nil => rfl
  | cons c cs ih =>
      rw [List.cons_append, walk, walk]
      split
      · exact ih
      · rfl

/-- A path leads where its names say, if it can be followed. -/
theorem eq_destination_of_walk (h : t.walk loc cs = some l) : l = destination loc cs := by
  induction cs generalizing loc with
  | nil => exact (Option.some.inj h).symm
  | cons c cs ih =>
      rw [walk] at h
      split at h
      · exact ih h
      · cases h

theorem entry_of_walk (hloc : t.entry loc ≠ none) (h : t.walk loc cs = some l) :
    t.entry l ≠ none := by
  induction cs generalizing loc with
  | nil =>
      obtain rfl := Option.some.inj h
      exact hloc
  | cons c cs ih =>
      rw [walk] at h
      split at h
      · next hc => exact ih hc.2 h
      · cases h

/-- One more component. -/
theorem walk_concat (h : t.walk loc cs = some l) :
    t.walk loc (cs ++ [c]) = if t.IsDir l ∧ t.entry (c.move l) ≠ none then some (c.move l)
      else none := by
  rw [walk_append, h, Option.bind_some]
  rfl

end Walk

/-! ### Making directories -/

variable [DecidableEq ν]

/-- The tree with one more directory. -/
def addDir (t : FileTree ν φ) (name : ν) (loc : List ν) (h : t.IsDir loc) : FileTree ν φ where
  entry := Function.update t.entry (name :: loc) (some .dir)
  root := by
    rw [Function.update_of_ne (List.cons_ne_nil name loc).symm]
    exact t.root
  parent := by
    intro name' loc' hne
    have hdir : t.entry loc' = some .dir := by
      by_cases he : name' :: loc' = name :: loc
      · obtain ⟨-, rfl⟩ := List.cons.inj he
        exact h
      · rw [Function.update_of_ne he] at hne
        exact t.parent name' loc' hne
    rw [Function.update_apply]
    split
    · rfl
    · exact hdir

/-- Make what a component names, from a directory. -/
def visit (t : FileTree ν φ) (c : Component ν) (loc : List ν) (h : t.IsDir loc) : FileTree ν φ :=
  match c with
  | .name n => if t.entry (n :: loc) = none then t.addDir n loc h else t
  | _ => t

/-- Make the directories of a path.  The first component is whether that could
be done. -/
def make (t : FileTree ν φ) (loc : List ν) : List (Component ν) → Bool × FileTree ν φ
  | [] => (true, t)
  | c :: cs =>
      if h : t.IsDir loc then (t.visit c loc h).make (c.move loc) cs else (false, t)

section Make

variable {t t' : FileTree ν φ} {loc l : List ν} {c : Component ν} {cs ds : List (Component ν)}
  {e : TreeEntry φ}

theorem visit_old (h : t.IsDir loc) (he : t.entry l = some e) :
    (t.visit c loc h).entry l = some e := by
  unfold visit
  split
  · split
    · next hnone =>
      refine (Function.update_of_ne ?_ _ _).trans he
      rintro rfl
      rw [hnone] at he
      cases he
    · exact he
  · exact he

theorem visit_new (h : t.IsDir loc) (hnone : t.entry l = none)
    (hnew : (t.visit c loc h).entry l ≠ none) :
    l = c.move loc ∧ (t.visit c loc h).IsDir l := by
  unfold visit at hnew ⊢
  split at hnew
  · next n =>
    split at hnew
    · next hfree =>
      by_cases hl : l = n :: loc
      · refine ⟨hl, ?_⟩
        rw [if_pos hfree, hl]
        exact Function.update_self ..
      · exact absurd ((Function.update_of_ne hl ..).trans hnone) hnew
    · exact absurd hnone hnew
  · exact absurd hnone hnew

/-- What a component names is there once it has been visited. -/
theorem visit_move (h : t.IsDir loc) : (t.visit c loc h).entry (c.move loc) ≠ none := by
  cases c with
  | here => exact h.there
  | up => exact h.tail.there
  | name n =>
      unfold visit
      show (if t.entry (n :: loc) = none then t.addDir n loc h else t).entry (n :: loc) ≠ none
      split
      · have hself : (t.addDir n loc h).IsDir (n :: loc) := Function.update_self ..
        exact hself.there
      · assumption

/-- What is there is not made again. -/
theorem visit_eq_self (h : t.IsDir loc) (hthere : t.entry (c.move loc) ≠ none) :
    t.visit c loc h = t := by
  cases c with
  | here => rfl
  | up => rfl
  | name n => exact if_neg hthere

/-- **What was there stays.** -/
theorem make_old (he : t.entry l = some e) : (t.make loc cs).2.entry l = some e := by
  induction cs generalizing t loc with
  | nil => exact he
  | cons c cs ih =>
      rw [make]
      split
      · next h => exact ih (visit_old h he)
      · exact he

theorem make_there (h : t.entry l ≠ none) : (t.make loc cs).2.entry l ≠ none :=
  there_of_old (fun _ _ => make_old) h

theorem make_append : t.make loc (cs ++ ds) =
    if (t.make loc cs).1 then (t.make loc cs).2.make (destination loc cs) ds
    else t.make loc cs := by
  induction cs generalizing t loc with
  | nil => rfl
  | cons c cs ih =>
      rw [List.cons_append, make, make]
      split
      · exact ih
      · rfl

/-- **Where it succeeds the path can be followed**, to where its names say. -/
theorem walk_of_make (hok : (t.make loc cs).1 = true) :
    (t.make loc cs).2.walk loc cs = some (destination loc cs) := by
  induction cs generalizing t loc with
  | nil => rfl
  | cons c cs ih =>
      rw [make] at hok ⊢
      split at hok
      · next h =>
        rw [dif_pos h, walk]
        have hdir : (t.visit c loc h).IsDir loc := visit_old h h
        have hstep : ((t.visit c loc h).make (c.move loc) cs).2.IsDir loc ∧
            ((t.visit c loc h).make (c.move loc) cs).2.entry (c.move loc) ≠ none :=
          ⟨make_old hdir, make_there (visit_move h)⟩
        rw [if_pos hstep]
        exact ih hok
      · cases hok

/-- One more component. -/
theorem make_concat (hok : (t.make loc cs).1 = true) :
    t.make loc (cs ++ [c]) =
      if h : (t.make loc cs).2.IsDir (destination loc cs) then
        (true, (t.make loc cs).2.visit c (destination loc cs) h)
      else (false, (t.make loc cs).2) := by
  rw [make_append, if_pos hok]
  rfl

/-- **What is new is a directory**, and a part of the path names it. -/
theorem make_new (hnone : t.entry l = none) (hnew : (t.make loc cs).2.entry l ≠ none) :
    (t.make loc cs).2.IsDir l ∧
      ∃ pre, pre <+: cs ∧ pre ≠ [] ∧ (t.make loc pre).1 = true ∧ l = destination loc pre := by
  induction cs using List.reverseRecOn with
  | nil => exact absurd hnone hnew
  | append_singleton cs c ih =>
      by_cases hok : (t.make loc cs).1 = true
      · rw [make_concat hok] at hnew ⊢
        by_cases hthere : (t.make loc cs).2.entry l = none
        · split at hnew
          · next h =>
            rw [dif_pos h]
            obtain ⟨hl, hdir⟩ := visit_new h hthere hnew
            refine ⟨hdir, cs ++ [c], List.prefix_rfl, by simp, ?_, ?_⟩
            · rw [make_concat hok, dif_pos h]
            · rw [destination_append]
              exact hl
          · exact absurd hthere hnew
        · obtain ⟨hdir, pre, hpre, hne, hmade, hl⟩ := ih hthere
          refine ⟨?_, pre, hpre.trans (List.prefix_append ..), hne, hmade, hl⟩
          split
          · next h => exact visit_old h hdir
          · exact hdir
      · have hsame : t.make loc (cs ++ [c]) = t.make loc cs := by
          rw [make_append, if_neg hok]
        rw [hsame] at hnew ⊢
        obtain ⟨hdir, pre, hpre, hrest⟩ := ih hnew
        exact ⟨hdir, pre, hpre.trans (List.prefix_append ..), hrest⟩

/-- A file of the tree left was one before. -/
theorem isFile_of_make (h : (t.make loc cs).2.IsFile l) : t.IsFile l := by
  obtain ⟨content, hfile⟩ := h
  rcases he : t.entry l with - | e
  · have hnew : (t.make loc cs).2.entry l ≠ none := by
      rw [hfile]
      exact Option.some_ne_none _
    exact absurd ⟨content, hfile⟩ (make_new he hnew).1.not_isFile
  · rw [make_old he] at hfile
    exact ⟨content, he.trans hfile⟩

/-- **When it succeeds**: no component has a file before it. -/
theorem make_ok_iff (hloc : t.entry loc ≠ none) :
    (t.make loc cs).1 = true ↔ ∀ pre, pre <+: cs → pre ≠ cs → ¬ t.IsFile (destination loc pre) := by
  induction cs using List.reverseRecOn with
  | nil =>
      refine iff_of_true rfl fun pre hpre hne => ?_
      exact absurd (List.prefix_nil.mp hpre) hne
  | append_singleton cs c ih =>
      have hproper : ∀ pre, pre <+: cs ++ [c] ∧ pre ≠ cs ++ [c] ↔ pre <+: cs := by
        intro pre
        rw [List.prefix_concat_iff]
        constructor
        · rintro ⟨rfl | hpre, hne⟩
          · exact absurd rfl hne
          · exact hpre
        · intro hpre
          refine ⟨.inr hpre, ?_⟩
          rintro rfl
          have := hpre.length_le
          rw [List.length_append, List.length_singleton] at this
          omega
      have hall : (∀ pre, pre <+: cs ++ [c] → pre ≠ cs ++ [c] → ¬ t.IsFile (destination loc pre)) ↔
          ∀ pre, pre <+: cs → ¬ t.IsFile (destination loc pre) :=
        ⟨fun h pre hpre => h pre ((hproper pre).mpr hpre).1 ((hproper pre).mpr hpre).2,
          fun h pre hpre hne => h pre ((hproper pre).mp ⟨hpre, hne⟩)⟩
      rw [hall]
      by_cases hok : (t.make loc cs).1 = true
      · -- what the components before lead to is a directory unless it was a file
        have hbefore := ih.mp hok
        have hthere : (t.make loc cs).2.entry (destination loc cs) ≠ none :=
          entry_of_walk (make_there hloc) (walk_of_make hok)
        rw [make_concat hok]
        constructor
        · intro hmade pre hpre
          by_cases hne : pre = cs
          · subst hne
            rintro ⟨content, hfile⟩
            split at hmade
            · next h => exact h.not_isFile ⟨content, make_old hfile⟩
            · cases hmade
          · exact hbefore pre hpre hne
        · intro h
          have hdir : (t.make loc cs).2.IsDir (destination loc cs) :=
            (isDir_or_isFile hthere).resolve_right fun hfile =>
              h cs List.prefix_rfl (isFile_of_make hfile)
          rw [dif_pos hdir]
      · rw [make_append, if_neg hok]
        refine iff_of_false hok fun h => hok (ih.mpr fun pre hpre _ => h pre hpre)

/-- **Where it stops**: the components before were made, the tree is the one they
left, and they lead to no directory. -/
theorem make_stops (hok : (t.make loc cs).1 = false) :
    ∃ pre c rest, cs = pre ++ c :: rest ∧ (t.make loc pre).1 = true ∧
      t.make loc cs = (false, (t.make loc pre).2) ∧
      ¬ (t.make loc pre).2.IsDir (destination loc pre) := by
  induction cs using List.reverseRecOn with
  | nil => cases hok
  | append_singleton cs c ih =>
      by_cases hmade : (t.make loc cs).1 = true
      · rw [make_concat hmade] at hok ⊢
        split at hok
        · cases hok
        · next h =>
          exact ⟨cs, c, [], rfl, hmade, dif_neg h, h⟩
      · obtain ⟨pre, c', rest, rfl, hpre, hmake, hdir⟩ := ih (Bool.eq_false_iff.mpr hmade)
        refine ⟨pre, c', rest ++ [c], by simp, hpre, ?_, hdir⟩
        rw [make_append, if_neg hmade, hmake]

end Make

end FileTree

end TestExamples
