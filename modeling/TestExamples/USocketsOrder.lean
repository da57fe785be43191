/-
TestExamples/USocketsOrder.lean

In every run the pointers are the lists.

`Ordered` is kept by every step (`Ordered.step`), so it holds in every run
(`ordered_of_run`): whatever the application does in its callbacks, and however
closing, adopting and sweeping overlap, the blocks spell out the lists that the
history prescribes.  A socket is closed once and freed once
(`blocks_of_run`).
-/
import TestExamples.USocketsSteps

namespace TestExamples.USockets

open us_loop

variable {A : Lists} {L L' : us_loop} {q : Ptr} {tr es : List Event} {call : Api} {s : Addr}
  {x : us_socket}

/-! ### Calls -/

theorem Called.good (h : Good A L L.closed_head) (hc : Called A L call es L') :
    Good (A.applyAll es) L' L'.closed_head := by
  cases hc with
  | context hc => exact h.withContext hc
  | opened hcall hctx hs hfd => exact h.opening hctx hs _
  | listenClosed hx hctx hs hlisten => exact h.listenClosing hx hctx hs
  | closed hx hctx hs hlisten => exact h.closing hx hctx hs hlisten
  | adopted hx hctx hs hlisten hctx' hs' => exact (h.adopting hx hctx hs hctx' hs').2
  | adoptedClosed hx hs => exact h
  | nothing hcall => exact h
  | short_write hx hs hlisten hshut =>
      have hflag : Good A { L with last_write_failed := true } L.closed_head :=
        h.congr rfl rfl rfl rfl rfl rfl rfl rfl fun _ => rfl
      exact hflag.changed hx _
  | shutdown hx hs hlisten hshut =>
      refine (h.setSocket hx ?_ ?_).changed (Function.update_self _ _ _) _
      · rfl
      · rfl
  | timeout hx hlisten n => exact h.setSocket hx rfl rfl

/-- No call moves the sweep on to another context. -/
theorem Called.iterator (hc : Called A L call es L') : L'.iterator = L.iterator := by
  cases hc <;> rfl

theorem Listening.update (h : Listening L) {y : us_socket}
    (hy : y.listen = true → us_internal_poll_type y.p = POLL_TYPE_SEMI_SOCKET ∧
      us_poll_events y.p = LIBUS_SOCKET_READABLE)
    (hL : L'.sockets = Function.update L.sockets s (some y)) : Listening L' := by
  intro t z hz hlisten
  rw [hL] at hz
  rcases update_eq hz with ⟨-, he⟩ | ⟨-, hz⟩
  · obtain rfl := Option.some.inj he
    exact hy hlisten
  · exact h t z hz hlisten

theorem Listening.erase (h : Listening L) (hL : L'.sockets = Function.update L.sockets s none) :
    Listening L' := by
  intro t z hz hlisten
  rw [hL] at hz
  exact h t z (of_update_none hz).2 hlisten

theorem Listening.opened (h : Listening L) {events : Events} {ctx : us_socket_context}
    (hx : x.listen = true → us_internal_poll_type x.p = POLL_TYPE_SEMI_SOCKET ∧
      events = LIBUS_SOCKET_READABLE) : Listening (L.opened s x events ctx) := by
  refine h.update (s := s)
    (y := { x with p := x.p.withEvents events, context := x.context, timeout := 0 })
    (fun hlisten => ?_) ?_
  · obtain ⟨htype, hevents⟩ := hx hlisten
    exact ⟨by rw [poll_type_withEvents, htype], by rw [poll_events_withEvents, hevents]⟩
  · exact Function.update_idem _ _ _

theorem Called.listening (h : Listening L) (hc : Called A L call es L') : Listening L' := by
  cases hc with
  | context hc => exact h
  | opened hcall hctx hs hfd =>
      refine h.opened fun hlisten => ?_
      rcases hcall with ⟨fd, -, hx, hevents⟩ | ⟨fd, -, hx, hevents⟩
      · exact ⟨by rw [hx]; exact poll_type_semi fd, hevents⟩
      · rw [hx] at hlisten
        cases hlisten
  | listenClosed hx hctx hs hlisten => exact h.erase rfl
  | closed hx hctx hs hlisten => exact h
  | @adopted c s s' x ctx ctx' hx hctx hs hlisten hctx' hs' =>
      have herase : Listening { L with sockets := Function.update L.sockets s none } := h.erase rfl
      refine herase.update (s := s') (y := { x with context := c, timeout := 0 }) (fun hl => ?_) ?_
      · rw [hlisten] at hl
        cases hl
      · exact Function.update_idem _ _ _
  | adoptedClosed hx hs => exact h
  | nothing hcall => exact h
  | short_write hx hs hlisten hshut =>
      exact h.update (fun hl => by rw [hlisten] at hl; cases hl) rfl
  | shutdown hx hs hlisten hshut =>
      refine h.update (fun hl => ?_) (Function.update_idem _ _ _)
      rw [hlisten] at hl
      cases hl
  | @timeout s x _ hx hlisten n =>
      exact h.update (y := { x with timeout := n }) (fun hl => h s x hx hl) rfl

theorem Plain.update (h : Plain L s) {t : Addr} {y : us_socket}
    (hy : ∀ x, L.sockets t = some x → x.Plain → y.Plain)
    (hL : L'.sockets = Function.update L.sockets t (some y)) : Plain L' s := by
  obtain ⟨x, hx, hplain⟩ := h
  unfold Plain
  rw [hL]
  rcases eq_or_ne s t with rfl | hne
  · exact ⟨y, Function.update_self _ _ _, hy x hx hplain⟩
  · exact ⟨x, by rw [Function.update_of_ne hne, hx], hplain⟩

theorem us_socket.Plain.withEvents (h : x.Plain) (events : Events) :
    us_socket.Plain { x with p := x.p.withEvents events } :=
  ⟨h.1, by rw [poll_type_withEvents]; exact h.2⟩

theorem us_socket.Plain.withType (h : x.listen = false) {t : BitVec 4}
    (ht : t = POLL_TYPE_SOCKET ∨ t = POLL_TYPE_SOCKET_SHUT_DOWN) :
    us_socket.Plain { x with p := x.p.withType t } := by
  refine ⟨h, ?_⟩
  rw [poll_type_withType x.p ht]
  rcases ht with rfl | rfl <;> decide

/-- **The socket `on_writable` is about stays known.** -/
theorem Called.plain (h : Good A L q) (hc : Called A L call es L') {pc : Pc} {readable : Bool}
    (hpc : pc.move L call = .callback (.writable s readable))
    (hplain : ∀ t r, pc = .callback (.writable t r) → Plain L t) : Plain L' s := by
  have hstay : (∀ c t t', call ≠ .adopt_socket c t t') → Plain L s := by
    intro hne
    refine hplain s readable ?_
    cases call <;> first | exact hpc | exact absurd rfl (hne _ _ _)
  cases hc with
  | context hc => exact hstay (by simp)
  | @opened call t y events ctx hcall hctx ht hfd =>
      obtain ⟨x, hx, hopened⟩ := hstay (by
        rcases hcall with ⟨fd, rfl, -⟩ | ⟨fd, rfl, -⟩ <;> simp)
      have hne : s ≠ t := by
        rintro rfl
        rw [ht.1] at hx
        cases hx
      refine ⟨x, ?_, hopened⟩
      simp [us_loop.opened, us_loop.linked, us_create_poll, setSocket, hne, hx]
  | @listenClosed t y ctx hy hctx ht hl =>
      obtain ⟨x, hx, hopened⟩ := hstay (by simp)
      have hne : s ≠ t := by
        rintro rfl
        obtain rfl : x = y := Option.some.inj (hx.symm.trans hy)
        rw [hopened.1] at hl
        cases hl
      exact ⟨x, (Function.update_of_ne hne _ _).trans hx, hopened⟩
  | closed hy hctx ht hl => exact hstay (by simp)
  | @adopted c t t' y ctx ctx' hy hctx ht hl hctx' ht' =>
      have hopen : L.us_socket_is_closed t = some false := by
        rw [h.is_closed_iff hy]
        simp [h.not_mem_closed ht]
      have hnew : Plain L t → Plain (L.adopting c t t' y ctx ctx') t' := by
        rintro ⟨x, hx, hopened⟩
        obtain rfl : x = y := Option.some.inj (hx.symm.trans hy)
        exact ⟨{ x with context := c, timeout := 0 }, Function.update_self _ _ _, hopened⟩
      rcases pc with _ | _ | ⟨_, _⟩ | (_ | _ | ⟨u, r⟩ | ⟨_, _⟩) | _ | _ | _ | _ <;>
        simp only [Pc.move, reduceCtorEq, Pc.callback.injEq] at hpc
      by_cases hu : u = t
      · -- it is the socket that has been moved
        rw [if_pos ⟨hu, hopen⟩] at hpc
        obtain ⟨rfl, -⟩ : t' = s ∧ r = readable := by simpa using hpc
        exact hnew (hplain t r (by rw [hu]))
      · rw [if_neg (fun hb => hu hb.1)] at hpc
        obtain ⟨rfl, -⟩ : u = s ∧ r = readable := by simpa using hpc
        obtain ⟨x, hx, hopened⟩ := hplain u r rfl
        have hu' : u ≠ t' := by
          rintro rfl
          rcases ht' with rfl | hf
          · exact hu rfl
          · rw [hf.1] at hx
            cases hx
        refine ⟨x, Eq.trans ?_ hx, hopened⟩
        simp [us_loop.adopting, us_loop.linked, resized, us_loop.unlinked, hu, hu']
  | @adoptedClosed c t t' y hy ht =>
      have hclosed : L.us_socket_is_closed t = some true := by
        rw [h.is_closed_iff hy]
        simp [ht]
      rcases pc with _ | _ | ⟨_, _⟩ | (_ | _ | ⟨u, r⟩ | ⟨_, _⟩) | _ | _ | _ | _ <;>
        simp only [Pc.move, reduceCtorEq, Pc.callback.injEq] at hpc
      rw [if_neg (fun hb => by rw [hclosed] at hb; simp at hb)] at hpc
      obtain ⟨rfl, -⟩ : u = s ∧ r = readable := by simpa using hpc
      exact hplain u r rfl
  | nothing hcall => exact hstay hcall
  | @short_write t y _ _ hy ht hl hshut =>
      refine Plain.update (L := L) (hstay (by simp)) (fun x hx hopened => ?_) rfl
      obtain rfl : x = y := Option.some.inj (hx.symm.trans hy)
      exact hopened.withEvents _
  | @shutdown t y hy ht hl hshut =>
      refine (hstay (by simp)).update (fun x hx hopened => ?_) (Function.update_idem _ _ _)
      exact (us_socket.Plain.withType (x := y) hl (Or.inr rfl)).withEvents _
  | @timeout t y _ hy hl n =>
      refine Plain.update (y := { y with timeout := n }) (hstay (by simp)) (fun x hx hopened => ?_)
        rfl
      obtain rfl : x = y := Option.some.inj (hx.symm.trans hy)
      exact hopened

/-! ### Steps -/

/-- The places of the loop of which nothing is asked but that no sweep is going on. -/
def Pc.quiet : Pc → Bool
  | .callback (.writable _ _) => false
  | .callback (.timeout _ _) => false
  | .receive _ _ => false
  | .sweep => false
  | _ => true

theorem Arranged.of_quiet {pc : Pc} (hgood : Good A L (State.closedFrom ⟨L, pc⟩))
    (hlistening : Listening L) (hpc : pc.quiet = true) (hi : L.iterator = none) :
    Arranged A ⟨L, pc⟩ where
  good := hgood
  listening := hlistening
  writable := by
    rintro s readable rfl
    cases hpc
  receive := by
    rintro s readable rfl
    cases hpc
  iterator := fun _ => hi
  timeout := by
    rintro c s rfl
    cases hpc

/-- The call of a callback leaves the loop where it is. -/
theorem move_sweeping (pc : Pc) : (pc.move L call).sweeping = pc.sweeping := by
  unfold Pc.move
  split
  · split <;> rfl
  · rfl

theorem timeout_of_move {pc : Pc} {c : Addr} (h : pc.move L call = .callback (.timeout c s)) :
    pc = .callback (.timeout c s) := by
  unfold Pc.move at h
  split at h
  · split at h <;> cases h
  · exact h

theorem receive_of_move {pc : Pc} {readable : Bool} (h : pc.move L call = .receive s readable) :
    pc = .receive s readable := by
  unfold Pc.move at h
  split at h
  · split at h <;> cases h
  · exact h

theorem closedFrom_of_user {pc : Pc} (hpc : pc.user = true) :
    State.closedFrom ⟨L, pc⟩ = L.closed_head := by
  cases pc <;> first | rfl | cases hpc

theorem closedFrom_of_dispatching {pc : Pc} (hpc : pc.dispatching = true) :
    State.closedFrom ⟨L, pc⟩ = L.closed_head := by
  cases pc <;> first | rfl | cases hpc

theorem sweeping_of_dispatching {pc : Pc} (hpc : pc.dispatching = true) : pc.sweeping = false := by
  rcases pc with _ | _ | ⟨_, _⟩ | (_ | _ | ⟨_, _⟩ | ⟨_, _⟩) | _ | _ | _ | _ <;>
    first | rfl | cases hpc

theorem Arranged.called {pc : Pc} (h : Arranged A ⟨L, pc⟩) (hpc : pc.user = true)
    (hc : Called A L call es L') : Arranged (A.applyAll es) ⟨L', pc.move L call⟩ := by
  have hgood : Good A L L.closed_head := by
    rw [← closedFrom_of_user hpc]
    exact h.good
  have huser : (pc.move L call).user = true := by
    unfold Pc.move
    split
    · split <;> rfl
    · exact hpc
  refine ⟨?_, hc.listening h.listening, fun s readable hm => ?_, fun s readable hm => ?_, ?_,
    fun c s hm => ?_⟩
  · rw [closedFrom_of_user huser]
    exact hc.good hgood
  · exact hc.plain hgood hm fun t r he => h.writable t r he
  · have he := receive_of_move hm
    subst he
    cases hpc
  · intro hs
    rw [move_sweeping] at hs
    show L'.iterator = none
    rw [hc.iterator]
    exact h.iterator hs
  · show L'.iterator = some c
    rw [hc.iterator]
    exact h.timeout c s (timeout_of_move hm)

theorem Arranged.enters {p : Ptr} {pc : Pc} (h : Arranged A ⟨L, pc⟩)
    (hpc : State.closedFrom ⟨L, pc⟩ = L.closed_head)
    (hp : ∀ c, p = some c → (L.contexts c).isSome) (henter : Enters L p L') :
    Arranged A ⟨L', .sweep⟩ := by
  have hgood : Good A L L.closed_head := by
    rw [← hpc]
    exact h.good
  have hiter := hgood.iterateContexts p hp
  cases henter with
  | none =>
      exact ⟨hiter, h.listening, by simp, by simp, by simp [Pc.sweeping], by simp⟩
  | @some c ctx hctx =>
      have hl := hgood.sockets c ctx hctx
      have hfirst : ∀ t, ctx.head = some t → t ∈ A.sockets c := fun t ht =>
        List.mem_of_head? (hl.head_eq.symm.trans ht)
      have hgood' := hiter.iterate hctx ctx.head hfirst
      exact ⟨hgood', h.listening, by simp, by simp, by simp [Pc.sweeping], by simp⟩

/-- A poll that is no semi socket is that of a socket. -/
theorem Listening.plain (h : Listening L) (hx : L.sockets s = some x)
    (hsemi : us_internal_poll_type x.p ≠ POLL_TYPE_SEMI_SOCKET) : Plain L s := by
  refine ⟨x, hx, ?_, hsemi⟩
  rcases hl : x.listen with - | -
  · rfl
  · exact absurd (h s x hx hl).1 hsemi

theorem Arranged.step {pc : Pc} {a : Label} {σ' : State} (h : Arranged A ⟨L, pc⟩)
    (hm : Moves A L pc a es σ') : Arranged (A.applyAll es) σ' := by
  cases hm with
  | call hpc hall hcalled => exact h.called hpc hcalled
  | misplaced hindex => exact .of_quiet h.good h.listening rfl (h.iterator rfl)
  | wait hnum hnodup hlength hrs =>
      have hgood : Good A L L.closed_head := h.good
      exact .of_quiet (hgood.congr rfl rfl rfl rfl rfl rfl rfl rfl fun _ => rfl) h.listening rfl
        (h.iterator rfl)
  | batchDone hr => exact .of_quiet h.good h.listening rfl (h.iterator rfl)
  | dangling htouch hdead =>
      cases htouch with
      | dispatch hr => exact .of_quiet h.good h.listening rfl (h.iterator rfl)
      | accept => exact .of_quiet h.good h.listening rfl (h.iterator rfl)
  | sweepBegin hr henter =>
      have hgood : Good A L L.closed_head := h.good
      exact h.enters rfl (fun c hc => (hgood.mem_contexts c).mp
        (List.mem_of_head? (hgood.contexts.head_eq.symm.trans hc))) henter
  | wakeup hr => exact .of_quiet h.good h.listening rfl (h.iterator rfl)
  | @connected _ p x _ _ _ hr hx hsemi hevents =>
      have hgood : Good A L L.closed_head := h.good
      have hchanged := hgood.changed hx LIBUS_SOCKET_READABLE
      have hlisten : x.listen = false := by
        rcases hl : x.listen with - | -
        · rfl
        · have hread := (h.listening p x hx hl).2
          rw [hevents] at hread
          cases hread
      refine .of_quiet (hchanged.setSocket (Function.update_self _ _ _) ?_ ?_) ?_ rfl
        (h.iterator rfl)
      · rfl
      · rfl
      · refine Listening.update (L := L) h.listening
          (y := { x with p := (x.p.withEvents LIBUS_SOCKET_READABLE).withType POLL_TYPE_SOCKET })
          (fun hl => ?_) (Function.update_idem _ _ _)
        rw [hlisten] at hl
        cases hl
  | @accepted _ _ l s fd x ctx haccept hx hctx hs hfd =>
      have hquiet : State.closedFrom ⟨L, pc⟩ = L.closed_head ∧ L.iterator = none := by
        cases haccept with
        | first hr => exact ⟨rfl, h.iterator rfl⟩
        | again => exact ⟨rfl, h.iterator rfl⟩
      have hgood : Good A L L.closed_head := by
        rw [← hquiet.1]
        exact h.good
      refine .of_quiet (hgood.opening (x := newSocket x.context fd POLL_TYPE_SOCKET false) hctx hs
        _) ?_ rfl hquiet.2
      exact Listening.opened h.listening fun hl => by cases hl
  | @closedLast _ _ s x ctx hclose hx hctx hs hlisten =>
      have hquiet : State.closedFrom ⟨L, pc⟩ = L.closed_head ∧ L.iterator = none := by
        cases hclose with
        | error hr => exact ⟨rfl, h.iterator rfl⟩
        | received hrecv => exact ⟨rfl, h.iterator rfl⟩
      have hgood : Good A L L.closed_head := by
        rw [← hquiet.1]
        exact h.good
      exact .of_quiet (hgood.closing hx hctx hs hlisten) h.listening rfl hquiet.2
  | finish hpc hne =>
      have hgood : Good A L L.closed_head := by
        rw [← closedFrom_of_dispatching hpc]
        exact h.good
      have hi : L.iterator = none := h.iterator (sweeping_of_dispatching hpc)
      exact .of_quiet (hgood.congr rfl rfl rfl rfl rfl rfl rfl rfl fun _ => rfl) h.listening rfl hi
  | onWritable hr hx hsemi =>
      have hgood : Good A L L.closed_head := h.good
      have hplain := h.listening.plain hx hsemi
      refine ⟨hgood.congr rfl rfl rfl rfl rfl rfl rfl rfl fun _ => rfl, h.listening, ?_, by simp,
        fun _ => h.iterator rfl, by simp⟩
      rintro s readable he
      cases he
      exact hplain
  | toReceive hr hx hsemi =>
      have hplain := h.listening.plain hx hsemi
      refine ⟨h.good, h.listening, by simp, ?_, fun _ => h.iterator rfl, by simp⟩
      rintro s readable he
      cases he
      exact hplain
  | @unwritable _ s _ x hx hs hwritten =>
      have hgood : Good A L L.closed_head := h.good
      obtain ⟨y, hy, hopened⟩ := h.writable s _ rfl
      obtain rfl : x = y := Option.some.inj (hx.symm.trans hy)
      have hplain : Plain (L.changed s x ⟨(us_poll_events x.p).readable, false⟩) s :=
        ⟨{ x with p := x.p.withEvents ⟨(us_poll_events x.p).readable, false⟩ },
          Function.update_self _ _ _, hopened.withEvents _⟩
      refine ⟨hgood.changed hx _, ?_, by simp, ?_, fun _ => h.iterator rfl, by simp⟩
      · refine Listening.update (L := L) h.listening
          (y := { x with p := x.p.withEvents ⟨(us_poll_events x.p).readable, false⟩ })
          (fun hl => ?_) rfl
        rw [hopened.1] at hl
        cases hl
      · rintro t readable he
        cases he
        exact hplain
  | @stillWritable _ s readable x hx hs =>
      have hplain := h.writable s readable rfl
      refine ⟨h.good, h.listening, by simp, ?_, fun _ => h.iterator rfl, by simp⟩
      rintro t r he
      cases he
      exact hplain
  | data => exact .of_quiet h.good h.listening rfl (h.iterator rfl)
  | @ended s x hx hshut =>
      have hgood : Good A L L.closed_head := h.good
      obtain ⟨y, hy, hlisten, -⟩ := h.receive s _ rfl
      obtain rfl : x = y := Option.some.inj (hx.symm.trans hy)
      refine .of_quiet (hgood.changed hx _) ?_ rfl (h.iterator rfl)
      refine Listening.update (L := L) h.listening
        (y := { x with p := x.p.withEvents ⟨false, (us_poll_events x.p).writable⟩ })
        (fun hl => ?_) rfl
      rw [hlisten] at hl
      cases hl
  | @timeoutPassed _ c s ctx hctx hit =>
      have hgood : Good A L L.closed_head := h.good
      have hl := hgood.sockets c ctx hctx
      have hs := hgood.socket_iterator c ctx s hctx hit
      have hgood' := hgood.iterate hctx (L.next s) fun t ht => (hl.next_mem hs ht).1
      exact ⟨hgood', h.listening, by simp, by simp, by simp [Pc.sweeping], by simp⟩
  | timeoutLeft hctx hit =>
      exact ⟨h.good, h.listening, by simp, by simp, by simp [Pc.sweeping], by simp⟩
  | sweepEnd hi =>
      have hgood : Good A L L.closed_head := h.good
      exact .of_quiet (hgood.congr rfl rfl rfl rfl rfl rfl rfl rfl fun _ => rfl) h.listening rfl hi
  | @nextContext c ctx _ hi hctx hit henter =>
      have hgood : Good A L L.closed_head := h.good
      refine h.enters rfl (fun c' hc' => (hgood.mem_contexts c').mp ?_) henter
      exact (hgood.contexts.next_mem ((hgood.mem_contexts c).mpr (by rw [hctx]; rfl)) hc').1
  | @timedOut c ctx s x hi hctx hit hx htimeout =>
      have hgood : Good A L L.closed_head := h.good
      have hgood' := hgood.setSocket (y := { x with timeout := 0 }) hx rfl rfl
      refine ⟨hgood', ?_, by simp, by simp, by simp [Pc.sweeping], ?_⟩
      · exact Listening.update (L := L) h.listening (y := { x with timeout := 0 })
          (fun hl => h.listening s x hx hl) rfl
      · rintro c' s' he
        cases he
        exact hi
  | @visited c ctx s x hi hctx hit hx htimeout =>
      have hgood : Good A L L.closed_head := h.good
      have hl := hgood.sockets c ctx hctx
      have hs := hgood.socket_iterator c ctx s hctx hit
      have hgood' := (hgood.setSocket (y := { x with timeout := x.timeout - 1 }) hx rfl
        rfl).iterate (c := c) hctx (L.next s) fun t ht => (hl.next_mem hs ht).1
      refine ⟨hgood', ?_, by simp, by simp, by simp [Pc.sweeping], by simp⟩
      exact Listening.update (L := L) h.listening (y := { x with timeout := x.timeout - 1 })
        (fun hl => h.listening s x hx hl) rfl
  | @freed s l hl =>
      have hgood : Good A L (some s) := h.good
      exact .of_quiet (hgood.freed hl).2 (Listening.erase (L := L) h.listening rfl) rfl
        (h.iterator rfl)
  | freeDone hl =>
      have hgood : Good A L none := h.good
      exact .of_quiet (hgood.congr rfl rfl rfl rfl rfl rfl rfl rfl fun _ => rfl) h.listening rfl
        (h.iterator rfl)

/-! ### The batch -/

theorem Batch.of_not {pc : Pc} (hpc : pc.batch = false) : Batch L pc :=
  ⟨fun hb => absurd hb (by simp [hpc]), fun hb => absurd hb (by simp [hpc])⟩

/-- The dispatch of the event goes on. -/
theorem Batch.go_on {pc pc' : Pc} (h : Batch L pc) (hpc : pc.batch = true)
    (hne : L.ready_events ≠ []) (hindex : L'.fd_iterator = L.fd_iterator)
    (hlength : L'.ready_events.length = L.ready_events.length) : Batch L' pc' where
  inside := fun _ => by
    rw [hindex, hlength]
    exact h.inside hpc
  front := fun _ _ => by
    rw [← List.length_pos_iff, hlength]
    exact List.length_pos_of_ne_nil hne

/-- The dispatch of the event is over. -/
theorem Batch.advance {pc : Pc} (h : Batch L pc) (hpc : pc.batch = true)
    (hne : L.ready_events ≠ []) : Batch L.advance .dispatch where
  inside := fun _ => by
    obtain ⟨i, hi, hle⟩ := h.inside hpc
    have hpos := List.length_pos_of_ne_nil hne
    have hlength : L.advance.ready_events.length = L.ready_events.length - 1 := List.length_tail
    refine ⟨i + 1, congrArg (Option.map (· + 1)) hi, ?_⟩
    omega
  front := fun _ hd => absurd rfl hd

theorem length_replacePtr (s s' : Addr) (rs : List Ready) :
    (replacePtr s s' rs).length = rs.length := by
  induction rs with
  | nil => rfl
  | cons r rs ih =>
      cases r with
      | timer => exact congrArg Nat.succ ih
      | async => exact congrArg Nat.succ ih
      | socket p error events =>
          unfold replacePtr
          split
          · rfl
          · exact congrArg Nat.succ ih

/-- There is an entry of `ready_events` for each event reported. -/
theorem length_of_mapM {events : List Wait} {rs : List Ready}
    (hrs : events.mapM (State.ready L) = some rs) : rs.length = events.length := by
  induction events generalizing rs with
  | nil =>
      obtain rfl : [] = rs := by simpa using hrs
      rfl
  | cons w events ih =>
      simp only [List.mapM_cons, Option.pure_def, Option.bind_eq_bind, Option.bind_eq_some_iff,
        Option.some.injEq] at hrs
      obtain ⟨r, -, rs', hrs', rfl⟩ := hrs
      exact congrArg Nat.succ (ih hrs')

/-- No call takes an event out of the batch. -/
theorem Called.batch (hc : Called A L call es L') : L'.fd_iterator = L.fd_iterator ∧
    L'.ready_events.length = L.ready_events.length := by
  cases hc with
  | @adopted c s s' x ctx ctx' hx hctx hs hlisten hctx' hs' =>
      refine ⟨rfl, ?_⟩
      show (if (L.ready_events.head?.bind Ready.ptr) ≠ some s then
        replacePtr s s' L.ready_events else L.ready_events).length = _
      split
      · exact length_replacePtr s s' L.ready_events
      · rfl
  | _ => exact ⟨rfl, rfl⟩

theorem batch_of_dispatching {pc : Pc} (hpc : pc.dispatching = true) : pc.batch = true := by
  cases pc <;> first | rfl | cases hpc

/-- Every step keeps to the array. -/
theorem Batch.step {pc : Pc} {a : Label} {σ' : State} (h : Batch L pc)
    (hm : Moves A L pc a es σ') : Batch σ'.loop σ'.pc := by
  -- the step stays with the event in front
  have hstay : ∀ {L' : us_loop} {pc' : Pc}, pc.batch = true → pc ≠ .dispatch →
      L'.fd_iterator = L.fd_iterator → L'.ready_events = L.ready_events → Batch L' pc' :=
    fun hb hd hindex hready => h.go_on hb (h.front hb hd) hindex (congrArg _ hready)
  -- the step takes up the event in front
  have htake : ∀ {L' : us_loop} {pc' : Pc} {r : Ready} {rest : List Ready}, pc.batch = true →
      L.ready_events = r :: rest → L'.fd_iterator = L.fd_iterator →
      L'.ready_events = L.ready_events → Batch L' pc' := fun hb hr hindex hready =>
    h.go_on hb (by rw [hr]; exact List.cons_ne_nil _ _) hindex (congrArg _ hready)
  cases hm with
  | @call pc call es L' hpc hall hcalled =>
      obtain ⟨hindex, hlength⟩ := hcalled.batch
      cases pc with
      | idle =>
          refine .of_not ?_
          cases call <;> rfl
      | callback k => exact h.go_on rfl (h.front rfl (by simp)) hindex hlength
      | _ => cases hpc
  | misplaced hindex => exact .of_not rfl
  | wait hnum hnodup hlength hrs =>
      refine ⟨fun _ => ⟨0, rfl, ?_⟩, fun _ hd => absurd rfl hd⟩
      rw [Nat.zero_add]
      exact (length_of_mapM hrs).symm ▸ hlength
  | batchDone hr => exact .of_not rfl
  | dangling htouch hdead => exact .of_not rfl
  | sweepBegin hr henter => exact htake rfl hr henter.fd_iterator henter.same.2.2
  | wakeup hr => exact htake rfl hr rfl rfl
  | connected hr hx hsemi hevents => exact htake rfl hr rfl rfl
  | accepted haccept hx hctx hs hfd =>
      cases haccept with
      | first hr => exact htake rfl hr rfl rfl
      | again => exact hstay rfl (by simp) rfl rfl
  | closedLast hclose hx hctx hs hlisten =>
      cases hclose with
      | error hr => exact htake rfl hr rfl rfl
      | received hrecv => exact hstay rfl (by simp) rfl rfl
  | finish hpc hne => exact h.advance (batch_of_dispatching hpc) hne
  | onWritable hr hx hsemi => exact htake rfl hr rfl rfl
  | toReceive hr hx hsemi => exact htake rfl hr rfl rfl
  | unwritable hx hs hwritten => exact hstay rfl (by simp) rfl rfl
  | stillWritable hx hs => exact hstay rfl (by simp) rfl rfl
  | data => exact hstay rfl (by simp) rfl rfl
  | ended hx hshut => exact hstay rfl (by simp) rfl rfl
  | timeoutPassed hctx hit => exact hstay rfl (by simp) rfl rfl
  | timeoutLeft hctx hit => exact hstay rfl (by simp) rfl rfl
  | sweepEnd hi => exact h.advance rfl (h.front rfl (by simp))
  | nextContext hi hctx hit henter =>
      exact hstay rfl (by simp) henter.fd_iterator henter.same.2.2
  | timedOut hi hctx hit hx htimeout => exact hstay rfl (by simp) rfl rfl
  | visited hi hctx hit hx htimeout => exact hstay rfl (by simp) rfl rfl
  | freed hl => exact .of_not rfl
  | freeDone hl => exact .of_not rfl

/-- **Every step keeps the lists in order.** -/
theorem Ordered.step {pc : Pc} {a : Label} {σ' : State} (h : Ordered A ⟨L, pc⟩)
    (hm : Moves A L pc a es σ') : Ordered (A.applyAll es) σ' :=
  ⟨h.toArranged.step hm, h.batch.step hm⟩

/-! ### Runs -/

theorem ordered_init : Ordered Lists.empty State.init := by
  refine ⟨.of_quiet ?_ (fun s x hx => by cases hx) rfl rfl, .of_not rfl⟩
  constructor
  case toThreads =>
    constructor
    case contexts => exact linked_nil
    case mem_contexts => simp [Lists.empty, us_create_loop]
    case sockets => intro c ctx hctx; cases hctx
    case of_mem_sockets => intro c s hs; cases hs
    case closed => exact rfl
    case closed_nodup => exact List.nodup_nil
    case of_mem_closed => intro s hs; cases hs
    case context_live => intro s x hx; cases hx
    case apart => intro c hc; rfl
    case socket_iterator => intro c ctx s hctx; cases hctx
    case context_iterator => intro c hc; cases hc
  case mem_live => simp [Lists.empty, us_create_loop]
  case live_nodup => exact List.nodup_nil
  case num_polls => rfl
  case placed => intro s hs; cases hs
  case closed_plain => intro s hs; cases hs

theorem listsOf_append (tr es : List Event) : listsOf (tr ++ es) = (listsOf tr).applyAll es :=
  Lists.applyAll_append _ _ _

/-- In every run the lists are in order. -/
theorem ordered_of_run {ok : State → Label → Prop} {tr : List Event} {σ : State}
    (h : machine.Run ok tr σ) : Ordered (listsOf tr) σ := by
  refine h.invariant (fun tr σ => Ordered (listsOf tr) σ) ordered_init ?_
  intro tr σ a σ' es hinv _ hs
  rw [listsOf_append]
  exact Ordered.step hinv (moves_of_step hinv hs)

/-- **The pointers are the lists.**  In every run, whatever the application calls
in its callbacks, the contexts, the sockets of each context and the closed
sockets are found from their heads on, newest first, as the history has put them
there; a block is closed or in the list of its context, `us_socket_is_closed`
says which, and `num_polls` counts the blocks that are there. -/
theorem pointers_of_run {tr : List Event} {σ : State} (h : machine.Run AnyStep tr σ) :
    Linked σ.loop.context_prev σ.loop.context_next σ.loop.head (listsOf tr).contexts ∧
    (∀ c ctx, σ.loop.contexts c = some ctx →
      Linked σ.loop.prev σ.loop.next ctx.head ((listsOf tr).sockets c)) ∧
    Chain σ.loop.next σ.closedFrom (listsOf tr).closed ∧
    (∀ s x, σ.loop.sockets s = some x →
      (s ∈ (listsOf tr).closed ∨ s ∈ (listsOf tr).sockets x.context) ∧
      σ.loop.us_socket_is_closed s = some (decide (s ∈ (listsOf tr).closed))) ∧
    (∀ s, s ∈ (listsOf tr).live ↔ (σ.loop.sockets s).isSome) ∧
    (listsOf tr).live.Nodup ∧ σ.loop.num_polls = (listsOf tr).live.length := by
  have hgood := (ordered_of_run h).good
  refine ⟨hgood.contexts, hgood.sockets, hgood.closed, fun s x hx => ⟨?_, ?_⟩, hgood.mem_live,
    hgood.live_nodup, hgood.num_polls⟩
  · rcases hgood.open_or_closed hx with ⟨hcl, -⟩ | ⟨hs, -⟩
    · exact Or.inl hcl
    · exact Or.inr hs
  · exact hgood.is_closed_iff hx

/-- A connection is accepted and written to; in `on_writable` its socket is adopted by
another context and written to again. -/
def session : List Label :=
  [.api (.create_socket_context 1), .api (.create_socket_context 2), .api (.listen 1 10 5),
    .epoll_wait [.polled 5 false ⟨true, false⟩], .next (some (11, 6)), .api (.write 11 100 40),
    .ret none, .next none, .free, .epoll_wait [.polled 6 false ⟨true, true⟩], .next none,
    .api (.adopt_socket 2 11 12), .api (.write 12 60 30), .ret none, .recv .received]

/-- The socket that has been adopted is found in the list of its new context. -/
theorem pointers_of_run_session :
    ∃ tr σ, machine.Run AnyStep tr σ ∧ (listsOf tr).sockets 2 = [12] ∧
      ∀ ctx, σ.loop.contexts 2 = some ctx →
        Linked σ.loop.prev σ.loop.next ctx.head ((listsOf tr).sockets 2) := by
  obtain ⟨tr, σ, hrun, hp⟩ := Machine.run_of_exec machine AnyStep session
    (fun r => decide ((listsOf r.2).sockets 2 = [12])) (by decide)
  exact ⟨tr, σ, hrun, of_decide_eq_true hp, fun ctx hctx => (pointers_of_run hrun).2.1 2 ctx hctx⟩

/-! ### The life of a block -/

namespace Lists

/-- When an event may happen. -/
def Due (A : Lists) : Event → Prop
  | .opened s => s ∉ A.live
  | .moved s s' => s ∈ A.live ∧ A.Loose s ∧ (s' = s ∨ s' ∉ A.live)
  | .freed s => s ∈ A.live ∧ ∀ c, s ∉ A.sockets c
  | .linked c s => c ∈ A.contexts ∧ s ∈ A.live ∧ A.Loose s
  | .unlinked c s => s ∈ A.sockets c
  | .on_close s => s ∈ A.live ∧ A.Loose s
  | .visited s => ∃ c, s ∈ A.sockets c
  | .on_socket_timeout s => ∃ c, s ∈ A.sockets c
  | .exit => False
  | _ => True

/-- Every event of a history happens when it may. -/
def Admits : Lists → List Event → Prop
  | _, [] => True
  | A, e :: es => A.Due e ∧ (A.apply e).Admits es

theorem admits_append {A : Lists} {es es' : List Event} :
    A.Admits (es ++ es') ↔ A.Admits es ∧ (A.applyAll es).Admits es' := by
  induction es generalizing A with
  | nil => simp [Admits]
  | cons e es ih => simp [Admits, ih, and_assoc]

end Lists

/-- A block that is there is counted. -/
theorem Good.live (h : Good A L q) (hx : L.sockets s = some x) : s ∈ A.live :=
  (h.mem_live s).mpr (by rw [hx]; rfl)

theorem Good.mem_contexts_of (h : Good A L q) {c : Addr} {ctx : us_socket_context}
    (hctx : L.contexts c = some ctx) : c ∈ A.contexts :=
  (h.toThreads.mem_contexts c).mpr (by rw [hctx]; rfl)

theorem Good.admits_opened (h : Good A L q) {ctx : us_socket_context}
    (hctx : L.contexts x.context = some ctx) (hs : L.Fresh s) :
    A.Admits [.opened s, .linked x.context s] := by
  have hloose := h.loose_of_dead hs.1
  exact ⟨h.not_mem_live hs.1, ⟨h.mem_contexts_of hctx, List.mem_cons_self, hloose.sockets,
    hloose.closed⟩, trivial⟩

theorem Good.admits_closed (h : Good A L q) (hx : L.sockets s = some x)
    (hs : s ∈ A.sockets x.context) : A.Admits [.unlinked x.context s, .on_close s] :=
  ⟨hs, ⟨h.live hx, h.loose_of_unlinked hs⟩, trivial⟩

theorem Called.admits (h : Good A L q) (hc : Called A L call es L') : A.Admits es := by
  cases hc with
  | context hc => exact ⟨trivial, trivial⟩
  | opened hcall hctx hs hfd => exact h.admits_opened hctx hs
  | listenClosed hx hctx hs hlisten =>
      exact ⟨hs, ⟨h.live hx, (h.loose_of_unlinked hs).sockets⟩, trivial⟩
  | closed hx hctx hs hlisten => exact h.admits_closed hx hs
  | @adopted c s s' x ctx ctx' hx hctx hs hlisten hctx' hs' =>
      have hloose := h.loose_of_unlinked hs
      have hc : c ∈ A.contexts := by
        refine (h.mem_contexts c).mpr ?_
        have hkeep := isSome_update (f := L.contexts) (a := x.context) (b := c)
          (y := (⟨unlinkHead L.prev L.next ctx.head s,
            if ctx.iterator = some s then L.next s else ctx.iterator⟩ : us_socket_context))
          (by rw [hctx]; rfl)
        rw [← hkeep, show Function.update L.contexts x.context _ c = some ctx' from hctx']
        rfl
      have hnew : s' = s ∨ s' ∉ A.live := hs'.imp_right fun hf => h.not_mem_live hf.1
      have hloose' := h.loose_of_new hs hs'
      exact ⟨hs, ⟨h.live hx, hloose, hnew⟩, ⟨hc, List.mem_cons_self, hloose'.sockets,
        hloose'.closed⟩, trivial⟩
  | adoptedClosed hx hs => trivial
  | nothing hcall => trivial
  | short_write hx hs hlisten hshut => exact ⟨trivial, trivial⟩
  | shutdown hx hs hlisten hshut => exact ⟨trivial, trivial⟩
  | timeout hx hlisten n => exact ⟨trivial, trivial⟩

theorem Ordered.admits {pc : Pc} {a : Label} {σ' : State} (h : Ordered A ⟨L, pc⟩)
    (hm : Moves A L pc a es σ') : A.Admits es := by
  have hgood : Good A L (State.closedFrom ⟨L, pc⟩) := h.good
  cases hm with
  | call hpc hall hcalled => exact hcalled.admits hgood
  | accepted haccept hx hctx hs hfd =>
      obtain ⟨hopened, hlinked, -⟩ := hgood.admits_opened
        (x := newSocket _ 0 POLL_TYPE_SOCKET false) hctx hs
      exact ⟨hopened, hlinked, trivial, trivial⟩
  | closedLast hclose hx hctx hs hlisten => exact hgood.admits_closed hx hs
  | timedOut hi hctx hit hx htimeout =>
      have hs := hgood.socket_iterator _ _ _ hctx hit
      exact ⟨⟨_, hs⟩, ⟨_, hs⟩, trivial⟩
  | visited hi hctx hit hx htimeout =>
      exact ⟨⟨_, hgood.socket_iterator _ _ _ hctx hit⟩, trivial⟩
  | @freed s l hl =>
      have hcl : s ∈ A.closed := by rw [hl]; exact List.mem_cons_self
      obtain ⟨x, hx, -⟩ := hgood.of_mem_closed s hcl
      exact ⟨⟨hgood.live hx, fun c hm => hgood.not_mem_closed hm hcl⟩, trivial⟩
  | misplaced hindex => trivial
  | wait hnum hnodup hlength hrs => trivial
  | batchDone hr => trivial
  | dangling htouch hdead => trivial
  | sweepBegin hr henter => exact ⟨trivial, trivial⟩
  | wakeup hr => exact ⟨trivial, trivial⟩
  | connected hr hx hsemi hevents => exact ⟨trivial, trivial⟩
  | finish hpc hne => trivial
  | onWritable hr hx hsemi => exact ⟨trivial, trivial⟩
  | toReceive hr hx hsemi => trivial
  | unwritable hx hs hwritten => trivial
  | stillWritable hx hs => trivial
  | data => exact ⟨trivial, trivial⟩
  | ended hx hshut => exact ⟨trivial, trivial⟩
  | timeoutPassed hctx hit => trivial
  | timeoutLeft hctx hit => trivial
  | sweepEnd hi => exact ⟨trivial, trivial⟩
  | nextContext hi hctx hit henter => trivial
  | freeDone hl => trivial

/-- **Every block has one life.**  In every run a block is allocated where none
is, put into a list when it is in none and taken out of the one it is in;
`on_close` is called for a socket that has just left its list and has not been
closed, so once for a socket; a block is freed while it is there and in no list,
so once; a timeout is told of sockets in a list only, and `exit` is not reached.
When the loop has been through the closed list, no closed socket is left. -/
theorem blocks_of_run {tr : List Event} {σ : State} (h : machine.Run AnyStep tr σ) :
    Lists.empty.Admits tr ∧ (σ.pc = .free none → (listsOf tr).closed = []) := by
  constructor
  · refine (h.invariant (fun tr σ => Ordered (listsOf tr) σ ∧ Lists.empty.Admits tr)
      ⟨ordered_init, trivial⟩ ?_).2
    rintro tr ⟨L, pc⟩ a σ' es ⟨hinv, hadm⟩ - hs
    have hm := moves_of_step hinv hs
    rw [listsOf_append]
    exact ⟨Ordered.step hinv hm, Lists.admits_append.mpr ⟨hadm, hinv.admits hm⟩⟩
  · intro hpc
    have hchain := (ordered_of_run h).good.closed
    have hfrom : σ.closedFrom = none := by
      unfold State.closedFrom
      rw [hpc]
    rw [hfrom] at hchain
    exact hchain.unique rfl

/-- The socket that has been adopted is closed in a callback and freed at the end of
the batch. -/
theorem blocks_of_run_session :
    ∃ tr σ, machine.Run AnyStep tr σ ∧ Lists.empty.Admits tr ∧
      (listsOf tr).closed = [] ∧ tr.count (.on_close 12) = 1 ∧ tr.count (.freed 12) = 1 := by
  obtain ⟨tr, σ, hrun, hp⟩ := Machine.run_of_exec machine AnyStep
    (session ++ [.api (.close 12), .api (.close 12), .ret none, .next none, .free])
    (fun r => decide (r.1.pc = .free none ∧ r.2.count (.on_close 12) = 1 ∧
      r.2.count (.freed 12) = 1)) (by decide)
  obtain ⟨hpc, hcounts⟩ := of_decide_eq_true hp
  obtain ⟨hadmits, hclosed⟩ := blocks_of_run hrun
  exact ⟨tr, σ, hrun, hadmits, hclosed hpc, hcounts⟩

end TestExamples.USockets
