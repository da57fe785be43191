/-
TestExamples/Lib/Guarded.lean

Threads whose calls share a state under one lock.

The code of a call is a list of statements: it takes the lock, gives it back, or
does an operation on the shared state, and an operation may go on with others
before the rest of the code.  Any thread may start any call at any time, and the
threads take their statements in any order; only a thread that asks for a lock
held by another has to wait.  The history says which calls took the lock, in
their order, and what the operations emit.

Between taking the lock and giving it back a thread runs as if it were alone
(`Section`).  So a property of the shared state and of the calls that took the
lock, kept by each section as a whole, holds whenever the lock is free
(`inv_of_free`).
-/
import Mathlib.Data.List.Basic
import Mathlib.Logic.Function.Basic
import TestExamples.Lib.Machine

namespace TestExamples

variable {σ κ α ε : Type*}

inductive Stmt (α : Type*)
  | lock
  | unlock
  | op (a : α)
  deriving DecidableEq, Repr

/-- The code of every call, and what the operations do: the shared state behind
one, the operations it goes on with, and what it emits. -/
structure Guarded (σ κ α ε : Type*) where
  init : σ
  code : κ → List (Stmt α)
  exec : σ → α → σ × List α × List ε

structure GuardedState (σ κ α : Type*) where
  shared : σ
  holder : Option Thread
  running : Thread → Option (κ × List (Stmt α))

inductive GuardedAct (κ : Type*)
  | call (t : Thread) (k : κ)
  | run (t : Thread)
  deriving DecidableEq, Repr

inductive GuardedEvent (κ ε : Type*)
  | took (k : κ)
  | emit (e : ε)
  deriving DecidableEq, Repr

/-- The calls that took the lock. -/
def taken (tr : List (GuardedEvent κ ε)) : List κ :=
  tr.filterMap fun
    | .took k => some k
    | .emit _ => none

namespace Guarded

def step (G : Guarded σ κ α ε) (s : GuardedState σ κ α) :
    GuardedAct κ → Option (GuardedState σ κ α × List (GuardedEvent κ ε))
  | .call t k =>
      if s.running t = none then
        some ({ s with running := Function.update s.running t (some (k, G.code k)) }, [])
      else none
  | .run t =>
      match s.running t with
      | none => none
      | some (_, []) => some ({ s with running := Function.update s.running t none }, [])
      | some (k, .lock :: c) =>
          if s.holder = none then
            some ({ s with
              holder := some t
              running := Function.update s.running t (some (k, c)) }, [.took k])
          else none
      | some (k, .unlock :: c) =>
          some ({ s with
            holder := none
            running := Function.update s.running t (some (k, c)) }, [])
      | some (k, .op a :: c) =>
          let (shared, as, es) := G.exec s.shared a
          some ({ s with
            shared := shared
            running := Function.update s.running t (some (k, as.map .op ++ c)) }, es.map .emit)

def machine (G : Guarded σ κ α ε) :
    Machine (GuardedState σ κ α) (GuardedAct κ) (GuardedEvent κ ε) where
  init := ⟨G.init, none, fun _ => none⟩
  step := G.step

/-! ### Sections -/

/-- A thread that is alone runs the code up to the end of the section and leads
from `s` to `s'`. -/
inductive Section (G : Guarded σ κ α ε) : σ → List (Stmt α) → σ → Prop
  | unlock {s c} : Section G s (.unlock :: c) s
  | op {s s' a c} : Section G (G.exec s a).1 ((G.exec s a).2.1.map .op ++ c) s' →
      Section G s (.op a :: c) s'

/-- The operation does nothing to the shared state. -/
def Local (G : Guarded σ κ α ε) (a : α) : Prop := ∀ s, (G.exec s a).1 = s ∧ (G.exec s a).2.1 = []

/-- The code of the call keeps the property: it touches the shared state in
sections only, and each section leads from the property to the property, with
the call behind the others.  The flag says whether the code starts in a
section. -/
def Keeps (G : Guarded σ κ α ε) (Inv : List κ → σ → Prop) (k : κ) : Bool → List (Stmt α) → Prop
  | false, [] => True
  | false, .op a :: c => G.Local a ∧ Keeps G Inv k false c
  | false, .lock :: c =>
      (∀ ks s, Inv ks s → ∃ s', G.Section s c s' ∧ Inv (ks ++ [k]) s') ∧ Keeps G Inv k true c
  | false, .unlock :: _ => False
  | true, [] => False
  | true, .op _ :: c => Keeps G Inv k true c
  | true, .lock :: _ => False
  | true, .unlock :: c => Keeps G Inv k false c

/-- What holds while calls are under way. -/
structure Safe (G : Guarded σ κ α ε) (Inv : List κ → σ → Prop) (tr : List (GuardedEvent κ ε))
    (s : GuardedState σ κ α) : Prop where
  code : ∀ t k c, s.running t = some (k, c) → G.Keeps Inv k (decide (s.holder = some t)) c
  held : ∀ t, s.holder = some t →
    ∃ k c s', s.running t = some (k, c) ∧ G.Section s.shared c s' ∧ Inv (taken tr) s'
  free : s.holder = none → Inv (taken tr) s.shared

section Safety

variable {G : Guarded σ κ α ε} {Inv : List κ → σ → Prop} {k : κ} {c : List (Stmt α)}
  {tr es : List (GuardedEvent κ ε)} {s s' : GuardedState σ κ α} {act : GuardedAct κ} {t : Thread}

theorem taken_append : taken (tr ++ es) = taken tr ++ taken es := List.filterMap_append

theorem taken_emit (es : List ε) : taken (es.map (@GuardedEvent.emit κ ε)) = [] := by
  rw [taken, List.filterMap_map]
  exact List.filterMap_eq_nil_iff.mpr fun _ _ => rfl

theorem keeps_ops (as : List α) : G.Keeps Inv k true (as.map .op ++ c) ↔ G.Keeps Inv k true c := by
  induction as with
  | nil => rfl
  | cons a as ih => exact ih

/-- Operations that do nothing to the shared state are passed over. -/
theorem section_local {as : List α} {s s' : σ} (has : ∀ a ∈ as, G.Local a)
    (h : G.Section s c s') : G.Section s (as.map .op ++ c) s' := by
  induction as with
  | nil => exact h
  | cons a as ih =>
      obtain ⟨hshared, hexpand⟩ := has a (List.mem_cons_self ..) s
      refine .op ?_
      rw [hshared, hexpand]
      exact ih fun b hb => has b (List.mem_cons_of_mem a hb)

/-- A thread moves, and with it nobody else. -/
theorem running_update {u : Thread} {r : Option (κ × List (Stmt α))} {k' : κ} {c' : List (Stmt α)}
    (h : Function.update s.running t r u = some (k', c')) :
    u = t ∧ r = some (k', c') ∨ u ≠ t ∧ s.running u = some (k', c') := by
  by_cases hu : u = t
  · rw [hu, Function.update_self] at h
    exact .inl ⟨hu, h⟩
  · rw [Function.update_of_ne hu] at h
    exact .inr ⟨hu, h⟩

theorem Safe.call (h : Safe G Inv tr s) (hcode : ∀ k, G.Keeps Inv k false (G.code k))
    (hidle : s.running t = none) :
    Safe G Inv tr { s with running := Function.update s.running t (some (k, G.code k)) } := by
  have hother : ∀ u, s.holder = some u → u ≠ t := by
    rintro u hu rfl
    obtain ⟨k', c', s', hrun, -⟩ := h.held u hu
    rw [hidle] at hrun
    cases hrun
  refine ⟨fun u k' c' hu => ?_, fun u hu => ?_, h.free⟩
  · rcases running_update hu with ⟨rfl, heq⟩ | ⟨-, hu⟩
    · obtain ⟨rfl, rfl⟩ := Prod.mk.inj (Option.some.inj heq)
      rw [decide_eq_false fun hheld => hother u hheld rfl]
      exact hcode _
    · exact h.code u k' c' hu
  · obtain ⟨k', c', s', hrun, hrest⟩ := h.held u hu
    exact ⟨k', c', s', (Function.update_of_ne (hother u hu) ..).trans hrun, hrest⟩

/-- Outside the section a thread changes only where it is. -/
theorem Safe.outside {r : Option (κ × List (Stmt α))} (h : Safe G Inv tr s)
    (hheld : s.holder ≠ some t) (hr : ∀ k c, r = some (k, c) → G.Keeps Inv k false c)
    (hes : taken es = []) :
    Safe G Inv (tr ++ es) { s with running := Function.update s.running t r } := by
  have htaken : taken (tr ++ es) = taken tr := by rw [taken_append, hes, List.append_nil]
  refine ⟨fun u k' c' hu => ?_, fun u hu => ?_, fun hfree => ?_⟩
  · rcases running_update hu with ⟨rfl, heq⟩ | ⟨-, hu⟩
    · rw [decide_eq_false hheld]
      exact hr k' c' heq
    · exact h.code u k' c' hu
  · obtain ⟨k', c', s', hrun, hrest⟩ := h.held u hu
    have hne : u ≠ t := by
      rintro rfl
      exact hheld hu
    rw [htaken]
    exact ⟨k', c', s', (Function.update_of_ne hne ..).trans hrun, hrest⟩
  · rw [htaken]
    exact h.free hfree

theorem Safe.lock (h : Safe G Inv tr s) (hrun : s.running t = some (k, .lock :: c))
    (hfree : s.holder = none) :
    Safe G Inv (tr ++ [.took k]) { s with
      holder := some t
      running := Function.update s.running t (some (k, c)) } := by
  have hkeeps := h.code t k _ hrun
  rw [hfree, decide_eq_false (Option.some_ne_none t).symm] at hkeeps
  obtain ⟨hsection, hinside⟩ := hkeeps
  obtain ⟨s', hs', hinv⟩ := hsection _ _ (h.free hfree)
  refine ⟨fun u k' c' hu => ?_, fun u hu => ?_, fun hnone => absurd hnone (Option.some_ne_none t)⟩
  · rcases running_update hu with ⟨rfl, heq⟩ | ⟨hne, hu⟩
    · obtain ⟨rfl, rfl⟩ := Prod.mk.inj (Option.some.inj heq)
      rw [decide_eq_true rfl]
      exact hinside
    · have hcode := h.code u k' c' hu
      rw [hfree, decide_eq_false (Option.some_ne_none u).symm] at hcode
      rw [decide_eq_false fun heq => hne (Option.some.inj heq).symm]
      exact hcode
  · obtain rfl := Option.some.inj hu
    refine ⟨k, c, s', Function.update_self .., hs', ?_⟩
    rw [taken_append]
    exact hinv

theorem Safe.unlock (h : Safe G Inv tr s) (hrun : s.running t = some (k, .unlock :: c)) :
    Safe G Inv tr { s with
      holder := none
      running := Function.update s.running t (some (k, c)) } := by
  have hkeeps := h.code t k _ hrun
  have hheld : s.holder = some t := by
    by_contra hheld
    rw [decide_eq_false hheld] at hkeeps
    exact hkeeps
  rw [decide_eq_true hheld] at hkeeps
  refine ⟨fun u k' c' hu => ?_, fun u hu => ?_, fun _ => ?_⟩
  · rw [decide_eq_false (Option.some_ne_none u).symm]
    rcases running_update hu with ⟨rfl, heq⟩ | ⟨hne, hu⟩
    · obtain ⟨rfl, rfl⟩ := Prod.mk.inj (Option.some.inj heq)
      exact hkeeps
    · have hcode := h.code u k' c' hu
      rw [hheld, decide_eq_false fun heq => hne (Option.some.inj heq).symm] at hcode
      exact hcode
  · exact absurd hu (Option.some_ne_none u).symm
  · obtain ⟨k', c', s', hrun', hsection, hinv⟩ := h.held t hheld
    obtain ⟨rfl, rfl⟩ := Prod.mk.inj (Option.some.inj (hrun.symm.trans hrun'))
    cases hsection
    exact hinv

/-- An operation in the section. -/
theorem Safe.op {a : α} (h : Safe G Inv tr s) (hrun : s.running t = some (k, .op a :: c))
    (hheld : s.holder = some t) :
    Safe G Inv (tr ++ (G.exec s.shared a).2.2.map .emit) { s with
      shared := (G.exec s.shared a).1
      running := Function.update s.running t
        (some (k, (G.exec s.shared a).2.1.map .op ++ c)) } := by
  have hkeeps := h.code t k _ hrun
  rw [decide_eq_true hheld] at hkeeps
  have hkeeps : G.Keeps Inv k true c := hkeeps
  have htaken : taken (tr ++ (G.exec s.shared a).2.2.map .emit) = taken tr := by
    rw [taken_append, taken_emit, List.append_nil]
  refine ⟨fun u k' c' hu => ?_, fun u hu => ?_, fun hfree => ?_⟩
  · rcases running_update hu with ⟨rfl, heq⟩ | ⟨-, hu⟩
    · obtain ⟨rfl, rfl⟩ := Prod.mk.inj (Option.some.inj heq)
      rw [decide_eq_true hheld]
      exact (keeps_ops _).mpr hkeeps
    · exact h.code u k' c' hu
  · obtain rfl := Option.some.inj (hheld.symm.trans hu)
    obtain ⟨k', c', s', hrun', hsection, hinv⟩ := h.held t hheld
    obtain ⟨rfl, rfl⟩ := Prod.mk.inj (Option.some.inj (hrun.symm.trans hrun'))
    cases hsection with
    | op hsection =>
        rw [htaken]
        exact ⟨k, _, s', Function.update_self .., hsection, hinv⟩
  · exact absurd (hheld.symm.trans hfree) (Option.some_ne_none t)

theorem Safe.step (h : Safe G Inv tr s) (hcode : ∀ k, G.Keeps Inv k false (G.code k))
    (hs : G.step s act = some (s', es)) : Safe G Inv (tr ++ es) s' := by
  cases act with
  | call t k =>
      obtain ⟨hidle, hs⟩ := Option.ite_none_right_eq_some.mp hs
      obtain ⟨rfl, rfl⟩ := Prod.mk.inj (Option.some.inj hs)
      rw [List.append_nil]
      exact h.call hcode hidle
  | run t =>
      simp only [Guarded.step] at hs
      split at hs
      · cases hs
      · next k hrun =>
        -- the call returns
        obtain ⟨rfl, rfl⟩ := Prod.mk.inj (Option.some.inj hs)
        refine h.outside (fun hheld => ?_) (fun _ _ hr => ?_) rfl
        · have hkeeps := h.code t k _ hrun
          rw [decide_eq_true hheld] at hkeeps
          exact hkeeps
        · cases hr
      · next k c hrun =>
        obtain ⟨hfree, hs⟩ := Option.ite_none_right_eq_some.mp hs
        obtain ⟨rfl, rfl⟩ := Prod.mk.inj (Option.some.inj hs)
        exact h.lock hrun hfree
      · next k c hrun =>
        obtain ⟨rfl, rfl⟩ := Prod.mk.inj (Option.some.inj hs)
        rw [List.append_nil]
        exact h.unlock hrun
      · next k a c hrun =>
        obtain ⟨rfl, rfl⟩ := Prod.mk.inj (Option.some.inj hs)
        by_cases hheld : s.holder = some t
        · exact h.op hrun hheld
        · have hkeeps := h.code t k _ hrun
          rw [decide_eq_false hheld] at hkeeps
          obtain ⟨hlocal, hkeeps⟩ := hkeeps
          obtain ⟨hshared, has⟩ := hlocal s.shared
          rw [hshared, has]
          refine h.outside hheld (fun k' c' hr => ?_) (taken_emit _)
          obtain ⟨rfl, rfl⟩ := Prod.mk.inj (Option.some.inj hr)
          exact hkeeps

/-- **What every section keeps holds whenever the lock is free.** -/
theorem inv_of_free (hinit : Inv [] G.init) (hcode : ∀ k, G.Keeps Inv k false (G.code k))
    (hrun : G.machine.Run AnyStep tr s) (hfree : s.holder = none) : Inv (taken tr) s.shared := by
  have hsafe : Safe G Inv tr s := by
    refine hrun.invariant (fun tr s => Safe G Inv tr s) ?_ fun ih _ hs => ih.step hcode hs
    refine ⟨fun t k c h => ?_, fun t h => ?_, fun _ => hinit⟩
    · cases h
    · cases h
  exact hsafe.free hfree

end Safety

end Guarded

end TestExamples
