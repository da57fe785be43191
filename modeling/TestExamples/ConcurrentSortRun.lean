/-
TestExamples/ConcurrentSortRun.lean

The runs of the program and the phases of the sort.

In a run without an early wake-up the workers are in the phase `main` has not
notified yet, or wait for the one before; so the grid is what the phases
notified have made of the input, with some of the next phase done
(`InPhase`).  The grid `main` prints after a phase is one the phases up to it
can make (`phases_of_run`), and the last one is in snake order when the side is
a power of two (`snakeOrder_of_run`).
-/
import TestExamples.ConcurrentSortPhases
import TestExamples.ConcurrentSortShear

namespace TestExamples

namespace ConcurrentSort

/-- What a worker has still to do of the loops of a phase, when it has not
begun it, is in it or has counted it. -/
def FuncPc.pending (size g_max_phase id phase : Nat) : FuncPc → List Cas
  | .sort _ rest => rest
  | pc => if pc.completed g_max_phase < phase then phaseLoop size id phase else []

/-- The grids `main` has printed. -/
def MainPc.printed (g_max_phase : Nat) : MainPc → Nat
  | .lock i | .test i | .wait i | .blocked i | .woken i | .unlock i | .print i => i
  | .notify i => i + 1
  | .join _ | .done => g_max_phase

/-- The grid is made by the phases notified and a part of the next. -/
def InPhase (size g_max_phase : Nat) (arr : Grid) (s : ConcurrentSort) : Prop :=
  ∃ a rest, Phases size arr (s.main.issued g_max_phase) a ∧
    Interleaves size Cas.run
      (fun id => phaseLoop size id (s.main.issued g_max_phase + 1)) a rest s.g_arr ∧
    ∀ w, w < size →
      rest w = (s.workers w).pending size g_max_phase w (s.main.issued g_max_phase + 1)

section Run

variable {size g_max_phase w : Nat} {arr : Grid} {s s' : ConcurrentSort} {act : Act}
  {tr es : List Grid}

theorem FuncPc.pending_of_counted {pc : FuncPc} {phase : Nat} (h : ∀ p rest, pc ≠ .sort p rest)
    (hphase : phase ≤ pc.completed g_max_phase) : pc.pending size g_max_phase w phase = [] := by
  cases pc with
  | sort p rest => exact absurd rfl (h p rest)
  | _ => exact if_neg (Nat.not_lt.mpr hphase)

theorem FuncPc.pending_of_not_begun {pc : FuncPc} {phase : Nat} (h : ∀ p rest, pc ≠ .sort p rest)
    (hphase : pc.completed g_max_phase < phase) :
    pc.pending size g_max_phase w phase = phaseLoop size w phase := by
  cases pc with
  | sort p rest => exact absurd rfl (h p rest)
  | _ => exact if_pos hphase

/-- A worker that has counted the phase is not in its loops. -/
theorem Barrier.not_sort (h : Barrier size g_max_phase s) (hw : w < size)
    (hcompleted : (s.workers w).completed g_max_phase = s.main.issued g_max_phase + 1) :
    ∀ p rest, s.workers w ≠ .sort p rest := by
  intro p rest hpc
  have htimely := h.timely w hw
  have hrange := h.base.range w hw
  rw [hpc] at htimely hrange hcompleted
  simp only [FuncPc.Timely, FuncPc.InRange, FuncPc.completed] at htimely hrange hcompleted
  omega

namespace InPhase

theorem init : InPhase size g_max_phase arr (init size g_max_phase arr) := by
  have hissued : (ConcurrentSort.init size g_max_phase arr).main.issued g_max_phase = 0 :=
    issued_forPhase (Nat.zero_le _)
  unfold InPhase
  rw [hissued]
  refine ⟨arr, _, .start, .start, fun w _ => ?_⟩
  show phaseLoop size w 1 = (whilePhase size g_max_phase w 1).pending size g_max_phase w 1
  unfold whilePhase
  split
  · rfl
  · next hlt => exact (if_pos (Nat.lt_of_not_le hlt)).symm

/-- Nothing is done to the grid, and nobody has more or less to do. -/
theorem keep (h : InPhase size g_max_phase arr s)
    (hissued : s'.main.issued g_max_phase = s.main.issued g_max_phase)
    (harr : s'.g_arr = s.g_arr)
    (hpending : ∀ w, w < size →
      (s'.workers w).pending size g_max_phase w (s.main.issued g_max_phase + 1) =
        (s.workers w).pending size g_max_phase w (s.main.issued g_max_phase + 1)) :
    InPhase size g_max_phase arr s' := by
  obtain ⟨a, rest, hphases, hinter, hrest⟩ := h
  unfold InPhase
  rw [hissued, harr]
  exact ⟨a, rest, hphases, hinter, fun w hw => (hrest w hw).trans (hpending w hw).symm⟩

/-- One worker moves, outside the loops. -/
theorem move {pc : FuncPc} (h : InPhase size g_max_phase arr s)
    (hworkers : s'.workers = Function.update s.workers w pc)
    (hturn : s'.main.turn = s.main.turn) (harr : s'.g_arr = s.g_arr)
    (hpending : pc.pending size g_max_phase w (s.main.issued g_max_phase + 1) =
      (s.workers w).pending size g_max_phase w (s.main.issued g_max_phase + 1)) :
    InPhase size g_max_phase arr s' := by
  refine h.keep ?_ harr fun i _ => ?_
  · unfold MainPc.issued
    rw [hturn]
  · rw [hworkers]
    rcases eq_or_ne i w with rfl | hne
    · rw [Function.update_self]
      exact hpending
    · rw [Function.update_of_ne hne]

theorem turn (h : InPhase size g_max_phase arr s) (hb : Barrier size g_max_phase s)
    (hw : w < size) (ht : Turn size g_max_phase s w s') : InPhase size g_max_phase arr s' := by
  have htimely := hb.timely w hw
  have hreached := hb.reached w hw
  have hrange := hb.base.range w hw
  cases ht with
  -- one operation of the phase
  | @cas phase c ops hpc =>
      obtain ⟨a, rest, hphases, hinter, hrest⟩ := h
      have hop : rest w = c :: ops := by
        rw [hrest w hw, hpc]
        rfl
      refine ⟨a, _, hphases, hinter.step hw hop, fun i hi => ?_⟩
      show Function.update rest w ops i = FuncPc.pending _ _ _ _ (Function.update s.workers w _ i)
      rcases eq_or_ne i w with rfl | hne
      · rw [Function.update_self, Function.update_self]
        rfl
      · rw [Function.update_of_ne hne, Function.update_of_ne hne]
        exact hrest i hi
  -- nothing was left, and the phase counted is the one not notified yet
  | @count phase hpc =>
      rw [hpc] at htimely hreached hrange
      refine h.move rfl rfl rfl ?_
      rw [hpc]
      refine FuncPc.pending_of_counted nofun ?_
      simp only [FuncPc.completed, FuncPc.InRange] at hreached hrange ⊢
      omega
  | notify_one hpc =>
      refine h.move rfl (MainPc.turn_wake _) rfl ?_
      rw [hpc]
      rfl
  | lock hpc | block hpc | relock hpc =>
      refine h.move rfl rfl rfl ?_
      rw [hpc]
      rfl
  | @unlock phase hpc =>
      rw [hpc] at htimely hreached hrange
      refine h.move rfl rfl rfl ?_
      rw [hpc]
      unfold whilePhase
      split
      · next hle =>
        -- the phase it enters is the one that has not been notified
        have hphase : phase = s.main.issued g_max_phase := by
          simp only [FuncPc.completed, FuncPc.Timely] at hreached htimely
          omega
        rw [hphase]
        exact (if_pos (Nat.lt_succ_self _)).symm
      -- the last phase: the worker leaves, and has counted as much as before
      · next hgt =>
        have hlast : phase = g_max_phase := Nat.le_antisymm hrange.2 (Nat.le_of_not_lt hgt)
        rw [hlast]
        rfl

/-- When `main` has found the workers counted the phase is done. -/
theorem phase_done (h : InPhase size g_max_phase arr s) (hb : Barrier size g_max_phase s) {i : Nat}
    (hi : s.main.counted = some i) : Phases size arr (i + 1) s.g_arr := by
  obtain ⟨hissued, hcompleted⟩ := hb.completed_of_counted hi
  obtain ⟨a, rest, hphases, hinter, hrest⟩ := h
  rw [hissued] at hphases hinter hrest
  refine hphases.phase ⟨rest, hinter, fun w hw => ?_⟩
  rw [hrest w hw]
  refine FuncPc.pending_of_counted (hb.not_sort hw ?_) (Nat.le_of_eq (hcompleted w hw).symm)
  rw [hissued]
  exact hcompleted w hw

theorem mainTurn (h : InPhase size g_max_phase arr s) (hb : Barrier size g_max_phase s)
    (ht : MainTurn size g_max_phase s es s') : InPhase size g_max_phase arr s' := by
  have hkeep : ∀ {m : MainPc}, m.turn = s.main.turn →
      m.issued g_max_phase = s.main.issued g_max_phase := by
    intro m hm
    unfold MainPc.issued
    rw [hm]
  cases ht with
  | lock hm =>
      refine h.keep (hkeep ?_) rfl fun _ _ => rfl
      rcases hm with hm | hm <;> rw [hm] <;> rfl
  | short hm | block hm | join hm | exit hm | counted hm | unlock hm | print hm =>
      refine h.keep (hkeep ?_) rfl fun _ _ => rfl
      rw [hm]
      rfl
  -- the phase is complete, and the next one begins on the grid as it is
  | @notify_all i hm =>
      have hi : s.main.counted = some i := by
        rw [hm]
        rfl
      obtain ⟨hissued, hcompleted⟩ := hb.completed_of_counted hi
      have hlt := hb.base.inLoop i (MainPc.turn_of_counted hi)
      have hnext : (forPhase g_max_phase (i + 1)).issued g_max_phase = i + 1 := issued_forPhase hlt
      unfold InPhase
      rw [show MainPc.issued _ _ = _ from hnext]
      refine ⟨s.g_arr, _, h.phase_done hb hi, .start, fun w hw => ?_⟩
      have hnot := hb.not_sort hw (by rw [hissued]; exact hcompleted w hw)
      have hwake : ∀ p rest, (s.workers w).wake ≠ .sort p rest := by
        intro p rest
        cases hpc : s.workers w with
        | sort p' rest' => exact absurd hpc (hnot p' rest')
        | _ => nofun
      refine (FuncPc.pending_of_not_begun hwake ?_).symm
      rw [FuncPc.completed_wake, hcompleted w hw]
      exact Nat.lt_succ_self _

theorem step (h : InPhase size g_max_phase arr s) (hb : Barrier size g_max_phase s)
    (hm : Moves size g_max_phase s act es s') : InPhase size g_max_phase arr s' := by
  cases hm with
  | worker hw ht => exact h.turn hb hw ht
  | wakeWorker _ hpc =>
      refine h.move rfl rfl rfl ?_
      rw [hpc]
      rfl
  | main ht => exact h.mainTurn hb ht
  | wakeMain hm =>
      refine h.keep ?_ rfl fun _ _ => rfl
      unfold MainPc.issued
      rw [hm]
      rfl

end InPhase

/-- Each grid printed is made by the phases up to it. -/
structure Prints (size g_max_phase : Nat) (arr : Grid) (tr : List Grid) (s : ConcurrentSort) :
    Prop where
  length : tr.length = s.main.printed g_max_phase
  phases : ∀ i a, tr[i]? = some a → Phases size arr (i + 1) a

theorem printed_forPhase {i : Nat} (hi : i ≤ g_max_phase) :
    (forPhase g_max_phase i).printed g_max_phase = i := by
  unfold forPhase
  split
  · rfl
  · next hlt => exact Nat.le_antisymm (Nat.le_of_not_lt hlt) hi

theorem MainPc.printed_wake (pc : MainPc) :
    pc.wake.printed g_max_phase = pc.printed g_max_phase := by
  cases pc <;> rfl

theorem Prints.step (h : Prints size g_max_phase arr tr s) (hp : InPhase size g_max_phase arr s)
    (hb : Barrier size g_max_phase s) (hm : Moves size g_max_phase s act es s') :
    Prints size g_max_phase arr (tr ++ es) s' := by
  have hkeep : s'.main.printed g_max_phase = s.main.printed g_max_phase →
      Prints size g_max_phase arr (tr ++ []) s' := fun he => by
    rw [List.append_nil]
    exact ⟨he ▸ h.length, h.phases⟩
  cases hm with
  | worker hw ht =>
      refine hkeep ?_
      cases ht with
      | notify_one => exact MainPc.printed_wake s.main
      | _ => rfl
  | wakeWorker => exact hkeep rfl
  | wakeMain hm =>
      refine hkeep ?_
      rw [hm]
      rfl
  | main ht =>
      cases ht with
      | lock hm =>
          refine hkeep ?_
          rcases hm with hm | hm <;> rw [hm] <;> rfl
      | short hm | block hm | join hm | exit hm | counted hm | unlock hm =>
          refine hkeep ?_
          rw [hm]
          rfl
      | @notify_all i hm =>
          refine hkeep ?_
          rw [hm]
          exact printed_forPhase (hb.base.inLoop i (by rw [hm]; rfl))
      | @print i hm =>
          have hlen : tr.length = i := by
            rw [h.length, hm]
            rfl
          refine ⟨?_, fun k a hk => ?_⟩
          · rw [List.length_append, hlen]
            rfl
          · rcases Nat.lt_or_ge k tr.length with hlt | hge
            · rw [List.getElem?_append_left hlt] at hk
              exact h.phases k a hk
            · rw [List.getElem?_append_right hge] at hk
              obtain ⟨hk0, rfl⟩ : k - tr.length = 0 ∧ s.g_arr = a := by
                rcases hk' : k - tr.length with - | k' <;> rw [hk'] at hk
                · exact ⟨rfl, Option.some.inj hk⟩
                · cases hk
              obtain rfl : k = i := by omega
              exact hp.phase_done hb (by rw [hm]; rfl)

/-- **The program runs the phases.**  In a run without an early wake-up the
grid printed after each phase is one that the phases up to it make of the
input. -/
theorem phases_of_run (h : (machine size g_max_phase arr).Run (NoEarlyWake g_max_phase) tr s) :
    Prints size g_max_phase arr tr s := by
  refine (h.invariant (fun tr s => Barrier size g_max_phase s ∧ InPhase size g_max_phase arr s ∧
    Prints size g_max_phase arr tr s) ⟨.init, .init, ?_, nofun⟩ ?_).2.2
  · exact (printed_forPhase (Nat.zero_le _)).symm
  · rintro tr s act s' es ⟨hb, hp, ht⟩ hok hs
    have hm := moves_of_step hs
    exact ⟨hb.step hok hm, hp.step hb hm, ht.step hp hb hm⟩

/-- **The program sorts.**  When the side is a power of two and the loop of
`main` is over, the last grid printed is a permutation of the input in snake
order. -/
theorem snakeOrder_of_run {m : Nat} (hsize : size = 2 ^ m)
    (h : (machine size (maxPhase (size * size)) arr).Run (NoEarlyWake (maxPhase (size * size)))
      tr s)
    (hover : s.main.turn = none) :
    ∃ a, tr.getLast? = some a ∧ SnakeOrder size a ∧ (a.cells size).Perm (arr.cells size) := by
  have hprints := phases_of_run h
  have hprinted : s.main.printed (maxPhase (size * size)) = maxPhase (size * size) := by
    cases hm : s.main with
    | join | done => rfl
    | _ =>
        rw [hm] at hover
        cases hover
  have hlen : tr.length = 2 * m + 1 := by
    rw [hprints.length, hprinted, maxPhase_of_pow hsize]
  obtain ⟨a, ha⟩ : ∃ a, tr[2 * m]? = some a := ⟨_, List.getElem?_eq_getElem (by omega)⟩
  have hphases := hprints.phases (2 * m) a ha
  refine ⟨a, ?_, (shear_of_phases hphases).snakeOrder hsize, perm_of_phases hphases⟩
  rw [List.getLast?_eq_getElem?, hlen]
  exact ha

end Run

/-- Two workers sort four numbers, one after the other in each phase. -/
theorem snakeOrder_of_run_two :
    ∃ tr s, (machine 2 3 fun i j => 7 - 2 * i - 4 * j).Run (NoEarlyWake 3) tr s ∧
      tr.map (Grid.cells 2) = [[3, 7, 5, 1], [3, 1, 5, 7], [1, 3, 7, 5]] ∧
      ∃ a, tr.getLast? = some a ∧ SnakeOrder 2 a := by
  have hphases : maxPhase (2 * 2) = 3 := maxPhase_of_pow (m := 1) rfl
  have hstart : (machine 2 3 fun i j => 7 - 2 * i - 4 * j).Run (NoEarlyWake 3) [] _ := .start
  obtain ⟨tr, s, hrun, hp⟩ := hstart.extend
    (fun _ act => act ∈ [.worker 0, .worker 1, .main])
    (fun s act hact w phase he => by simp [he] at hact)
    (List.replicate 5 (.worker 0) ++ List.replicate 5 (.worker 1) ++ List.replicate 5 .main ++
      List.replicate 7 (.worker 0) ++ List.replicate 7 (.worker 1) ++ List.replicate 5 .main ++
      List.replicate 7 (.worker 0) ++ List.replicate 7 (.worker 1) ++ List.replicate 5 .main)
    (fun q => decide (q.2.map (Grid.cells 2) = [[3, 7, 5, 1], [3, 1, 5, 7], [1, 3, 7, 5]] ∧
      q.1.main.turn = none)) (by decide +kernel)
  obtain ⟨hprint, hover⟩ := of_decide_eq_true hp
  rw [← hphases] at hrun
  obtain ⟨a, ha, hsnake, -⟩ := snakeOrder_of_run (m := 1) rfl hrun hover
  rw [hphases] at hrun
  exact ⟨tr, s, hrun, hprint, a, ha, hsnake⟩

end ConcurrentSort

end TestExamples
