/-
TestExamples/USocketsWritable.lean

A write that falls short is taken up again.

`us_socket_write` asks for `WRITABLE` events when the system takes less than it is
given, and the dispatch of such an event stops asking for them, unless a write
has fallen short again in `on_writable`; the flag it goes by belongs to the loop,
not to the socket.  `unsent` says of a history which sockets are owed a call of
`on_writable`; `Owing` ties it to the polls (`unsent_of_run`).
-/
import TestExamples.USocketsKernel

namespace TestExamples.USockets

open us_loop

variable {A : Lists} {L L' : us_loop} {es : List Event} {call : Api} {s : Addr} {x y : us_socket}
  {f f' : Addr → Bool}

/-- A short write leaves the socket waiting, until `on_writable` is called for it,
it is shut down or it is closed. -/
def unsentAfter (f : Addr → Bool) : Event → Addr → Bool
  | .short_write s => Function.update f s true
  | .on_writable s => Function.update f s false
  | .shutdown s => Function.update f s false
  | .on_close s => Function.update f s false
  | .freed s => Function.update f s false
  | .opened s => Function.update f s false
  | .moved s s' => Function.update (Function.update f s false) s' (f s)
  | _ => f

def unsentAll (f : Addr → Bool) (es : List Event) : Addr → Bool := es.foldl unsentAfter f

/-- The sockets that are waiting after a history. -/
def unsent (tr : List Event) : Addr → Bool := unsentAll (fun _ => false) tr

/-- The socket is open and polls for `WRITABLE`. -/
def us_socket.Waiting (x : us_socket) : Prop :=
  us_internal_poll_type x.p ≠ POLL_TYPE_SEMI_SOCKET ∧ us_socket_is_shut_down x = false ∧
    (us_poll_events x.p).writable = true

/-- The sockets that are waiting are polled for. -/
structure Owing (f : Addr → Bool) (A : Lists) (σ : State) : Prop where
  waiting : ∀ s, f s = true → s ∉ A.closed ∧ ∃ x, σ.loop.sockets s = some x ∧ x.Waiting
  flag : ∀ s readable, σ.pc = .callback (.writable s readable) → f s = true →
    σ.loop.last_write_failed = true

theorem us_socket.Waiting.withEvents (h : x.Waiting) {events : Events}
    (hw : events.writable = true) :
    us_socket.Waiting { x with p := x.p.withEvents events } := by
  obtain ⟨hsemi, hshut, -⟩ := h
  refine ⟨by rw [poll_type_withEvents]; exact hsemi, ?_, by rw [poll_events_withEvents, hw]⟩
  have hsame : us_socket_is_shut_down { x with p := x.p.withEvents events }
      = us_socket_is_shut_down x := by
    unfold us_socket_is_shut_down
    rw [poll_type_withEvents]
  rw [hsame, hshut]

/-- Nobody is waiting that is not there. -/
theorem Owing.not_dead {σ : State} (h : Owing f A σ) (hs : σ.loop.sockets s = none) :
    f s = false := by
  rcases hf : f s with - | -
  · rfl
  · obtain ⟨-, x, hx, -⟩ := h.waiting s hf
    rw [hs] at hx
    cases hx

/-- The record of one block changes. -/
theorem Owing.update {pc pc' : Pc} (h : Owing f A ⟨L, pc⟩) {A' : Lists}
    (hf : ∀ t, t ≠ s → f' t = true → f t = true)
    (hcl : ∀ t, t ≠ s → t ∈ A'.closed → t ∈ A.closed)
    (hsockets : ∀ t, t ≠ s → L'.sockets t = L.sockets t)
    (hself : f' s = true → s ∉ A'.closed ∧ ∃ x, L'.sockets s = some x ∧ x.Waiting)
    (hflag : ∀ t readable, pc' = .callback (.writable t readable) → f' t = true →
      L'.last_write_failed = true) : Owing f' A' ⟨L', pc'⟩ := by
  refine ⟨fun t ht => ?_, hflag⟩
  rcases eq_or_ne t s with rfl | hne
  · exact hself ht
  · obtain ⟨hopen, x, hx, hwait⟩ := h.waiting t (hf t hne ht)
    exact ⟨fun hm => hopen (hcl t hne hm), x, (hsockets t hne).trans hx, hwait⟩

/-- Nothing of concern changes. -/
theorem Owing.mono {pc pc' : Pc} (h : Owing f A ⟨L, pc⟩) {A' : Lists}
    (hclosed : A'.closed = A.closed) (hsockets : L'.sockets = L.sockets)
    (hflag : ∀ t readable, pc' = .callback (.writable t readable) → f t = true →
      L'.last_write_failed = true) : Owing f A' ⟨L', pc'⟩ := by
  refine ⟨fun t ht => ?_, hflag⟩
  rw [hclosed, show (State.mk L' pc').loop.sockets = L.sockets from hsockets]
  exact h.waiting t ht

theorem update_false {t : Addr} (h : Function.update f s false t = true) : t ≠ s ∧ f t = true := by
  rcases update_eq h with ⟨-, he⟩ | hold
  · cases he
  · exact hold

theorem Owing.called {pc : Pc} (h : Owing f A ⟨L, pc⟩) (hg : Good A L L.closed_head)
    (hplain : ∀ t r, pc = .callback (.writable t r) → Plain L t)
    (hcare : Careful ⟨L, pc⟩ (.api call)) (hc : Called A L call es L') :
    Owing (unsentAll f es) (A.applyAll es) ⟨L', pc.move L call⟩ := by
  -- where the call moves nothing, the loop is still in the same callback
  have hsame : (∀ c t t', call ≠ .adopt_socket c t t') → pc.move L call = pc := by
    intro hne
    cases call <;> first | rfl | exact absurd rfl (hne _ _ _)
  have hflag : ∀ {g : Addr → Bool}, (∀ c t t', call ≠ .adopt_socket c t t') →
      (∀ t, g t = true → f t = true) → ∀ t readable,
      pc.move L call = .callback (.writable t readable) → g t = true →
      L.last_write_failed = true := by
    intro g hne hg t r hpc ht
    rw [hsame hne] at hpc
    exact h.flag t r hpc (hg t ht)
  cases hc with
  | context hc =>
      show Owing f _ _
      exact h.mono rfl rfl (hflag (by simp) fun _ ht => ht)
  | @opened call s x events ctx hcall hctx hs hfd =>
      have hne : ∀ c t t', call ≠ .adopt_socket c t t' := by
        rcases hcall with ⟨fd, rfl, -⟩ | ⟨fd, rfl, -⟩ <;> simp
      refine h.update (s := s) (fun t _ ht => (update_false ht).2) (fun _ _ hm => hm)
        (fun t ht => ?_) (fun ht => absurd rfl (update_false ht).1)
        (hflag hne fun t ht => (update_false ht).2)
      simp [us_loop.opened, us_loop.linked, us_create_poll, setSocket, ht]
  | @listenClosed s x ctx hx hctx hs hlisten =>
      refine h.update (s := s) (fun t _ ht => (update_false ht).2)
        (fun _ _ hm => List.mem_of_mem_erase hm) (fun t ht => Function.update_of_ne ht _ _)
        (fun ht => absurd rfl (update_false ht).1)
        (hflag (by simp) fun t ht => (update_false ht).2)
  | @closed s x ctx hx hctx hs hlisten =>
      refine h.update (s := s) (fun t _ ht => (update_false ht).2)
        (fun t ht hm => List.mem_of_ne_of_mem ht hm) (fun t ht => rfl)
        (fun ht => absurd rfl (update_false ht).1)
        (hflag (by simp) fun t ht => (update_false ht).2)
  | @adopted c s s' x ctx ctx' hx hctx hs hlisten hctx' hs' =>
      have hopen := hg.not_mem_closed hs
      have hcl : s' ∉ A.closed := by
        rcases hs' with rfl | hf
        · exact hopen
        · exact (hg.loose_of_dead hf.1).closed
      have hisOpen : L.us_socket_is_closed s = some false := by
        rw [hg.is_closed_iff hx]
        simp [hopen]
      have hdead : ∀ t, t ≠ s → f t = true → t ≠ s' := by
        rintro t hts ht rfl
        rcases hs' with rfl | hf
        · exact hts rfl
        · rw [h.not_dead hf.1] at ht
          cases ht
      -- who is waiting afterwards: the socket under its new address, and the others
      have hcases : ∀ t, unsentAll f [.unlinked x.context s, .moved s s', .linked c s'] t = true →
          t = s' ∧ f s = true ∨ t ≠ s' ∧ t ≠ s ∧ f t = true := by
        intro t ht
        rcases update_eq (show Function.update (Function.update f s false) s' (f s) t = true
          from ht) with ⟨rfl, hold⟩ | ⟨hts', ht⟩
        · exact Or.inl ⟨rfl, hold⟩
        · exact Or.inr ⟨hts', update_false ht⟩
      refine ⟨fun t ht => ?_, fun t r hpc ht => ?_⟩
      · rcases hcases t ht with ⟨rfl, hold⟩ | ⟨hts', hts, hold⟩
        · obtain ⟨-, y, hy, hwait⟩ := h.waiting s hold
          obtain rfl : x = y := Option.some.inj (hx.symm.trans hy)
          exact ⟨hcl, { x with context := c, timeout := 0 }, Function.update_self _ _ _, hwait⟩
        · obtain ⟨hopen', y, hy, hwait⟩ := h.waiting t hold
          refine ⟨hopen', y, Eq.trans ?_ hy, hwait⟩
          simp [us_loop.adopting, us_loop.linked, resized, us_loop.unlinked, hts, hts']
      · show L.last_write_failed = true
        rcases pc with _ | _ | ⟨_, _⟩ | (_ | _ | ⟨u, r'⟩ | ⟨_, _⟩) | _ | _ | _ | _ <;>
          simp only [Pc.move, reduceCtorEq, Pc.callback.injEq] at hpc
        by_cases hu : u = s
        · rw [if_pos ⟨hu, hisOpen⟩] at hpc
          obtain ⟨rfl, -⟩ : s' = t ∧ r' = r := by simpa using hpc
          rcases hcases s' ht with ⟨-, hold⟩ | ⟨hne, -, -⟩
          · exact h.flag u r' rfl (hu ▸ hold)
          · exact absurd rfl hne
        · rw [if_neg (fun hb => hu hb.1)] at hpc
          obtain ⟨rfl, -⟩ : u = t ∧ r' = r := by simpa using hpc
          rcases hcases u ht with ⟨rfl, -⟩ | ⟨-, -, hold⟩
          · -- there is a socket already where this one has been moved to
            obtain ⟨y, hy, -⟩ := hplain u r' rfl
            rcases hs' with rfl | hf
            · exact absurd rfl hu
            · rw [hf.1] at hy
              cases hy
          · exact h.flag u r' rfl hold
  | @adoptedClosed c s s' x hx hs =>
      have hclosed : L.us_socket_is_closed s = some true := by
        rw [hg.is_closed_iff hx]
        simp [hs]
      show Owing f _ _
      refine h.mono rfl rfl fun t r hpc ht => ?_
      rcases pc with _ | _ | ⟨_, _⟩ | (_ | _ | ⟨u, r'⟩ | ⟨_, _⟩) | _ | _ | _ | _ <;>
        simp only [Pc.move, reduceCtorEq, Pc.callback.injEq] at hpc
      rw [if_neg (fun hb => by rw [hclosed] at hb; simp at hb)] at hpc
      obtain ⟨rfl, -⟩ : u = t ∧ r' = r := by simpa using hpc
      exact h.flag u r' rfl ht
  | nothing hcall =>
      show Owing f _ _
      exact h.mono rfl rfl (hflag hcall fun _ ht => ht)
  | @short_write s x _ _ hx hs hlisten hshut =>
      refine h.update (s := s) (fun t hts ht => ?_) (fun _ _ hm => hm)
        (fun t ht => Function.update_of_ne ht _ _) (fun _ => ⟨hg.not_mem_closed hs, ?_⟩)
        (fun _ _ _ _ => rfl)
      · exact (Function.update_of_ne hts _ _ : Function.update f s true t = f t) ▸ ht
      · refine ⟨{ x with p := x.p.withEvents ⟨true, true⟩ }, Function.update_self _ _ _, ?_, ?_, ?_⟩
        · rw [poll_type_withEvents]
          exact hcare x hx
        · have hkeep : us_socket_is_shut_down { x with p := x.p.withEvents ⟨true, true⟩ }
              = us_socket_is_shut_down x := by
            unfold us_socket_is_shut_down
            rw [poll_type_withEvents]
          rw [hkeep, hshut]
        · rw [poll_events_withEvents]
  | @shutdown s x hx hs hlisten hshut =>
      refine h.update (s := s) (fun t _ ht => (update_false ht).2) (fun _ _ hm => hm)
        (fun t ht => ?_) (fun ht => absurd rfl (update_false ht).1)
        (hflag (by simp) fun t ht => (update_false ht).2)
      simp [us_loop.changed, setSocket, ht]
  | @timeout s x _ hx hlisten n =>
      refine h.update (s := s) (fun t _ ht => ht) (fun _ _ hm => hm)
        (fun t ht => Function.update_of_ne ht _ _) (fun ht => ?_) (hflag (by simp) fun _ ht => ht)
      obtain ⟨hopen, y, hy, hwait⟩ := h.waiting s ht
      obtain rfl : x = y := Option.some.inj (hx.symm.trans hy)
      exact ⟨hopen, { x with timeout := n }, Function.update_self _ _ _, hwait⟩

/-- **Every careful step keeps who is waiting polled for.** -/
theorem Owing.step {pc : Pc} {a : Label} {σ' : State} (h : Owing f A ⟨L, pc⟩)
    (ho : Ordered A ⟨L, pc⟩) (hcare : Careful ⟨L, pc⟩ a) (hm : Moves A L pc a es σ') :
    Owing (unsentAll f es) (A.applyAll es) σ' := by
  have hgood : Good A L (State.closedFrom ⟨L, pc⟩) := ho.good
  cases hm with
  | call hpc hall hcalled =>
      rw [closedFrom_of_user hpc] at hgood
      exact h.called hgood (fun t r he => ho.writable t r he) hcare hcalled
  | @connected _ p x _ _ _ hr hx hsemi hevents =>
      refine h.update (s := p) (fun t _ ht => ht) (fun _ _ hm => hm) (fun t ht => ?_)
        (fun ht => ?_) (by simp)
      · simp [us_loop.changed, setSocket, ht]
      · obtain ⟨-, y, hy, hwait⟩ := h.waiting p ht
        obtain rfl : x = y := Option.some.inj (hx.symm.trans hy)
        exact absurd hsemi hwait.1
  | @accepted _ _ l s fd x ctx haccept hx hctx hs hfd =>
      refine h.update (s := s) (fun t _ ht => (update_false ht).2) (fun _ _ hm => hm)
        (fun t ht => ?_) (fun ht => absurd rfl (update_false ht).1) (by simp)
      simp [us_loop.opened, us_loop.linked, us_create_poll, setSocket, ht]
  | @closedLast _ _ s x ctx hclose hx hctx hs hlisten =>
      exact h.update (s := s) (fun t _ ht => (update_false ht).2)
        (fun t ht hm => List.mem_of_ne_of_mem ht hm) (fun t ht => rfl)
        (fun ht => absurd rfl (update_false ht).1) (by simp)
  | @onWritable _ p x _ _ hr hx hsemi =>
      refine h.update (s := p) (fun t _ ht => (update_false ht).2) (fun _ _ hm => hm)
        (fun t ht => rfl) (fun ht => absurd rfl (update_false ht).1) ?_
      rintro t r he ht
      cases he
      exact absurd rfl (update_false ht).1
  | @unwritable _ s _ x hx hs hwritten =>
      refine h.update (s := s) (fun t _ ht => ht) (fun _ _ hm => hm)
        (fun t ht => Function.update_of_ne ht _ _) (fun ht => ?_) (by simp)
      -- a socket that is waiting has the flag set and has not been shut down
      obtain ⟨-, y, hy, hwait⟩ := h.waiting s ht
      obtain rfl : x = y := Option.some.inj (hx.symm.trans hy)
      exfalso
      rcases hwritten with hflag | hshut
      · rw [show L.last_write_failed = true from h.flag s _ rfl ht] at hflag
        cases hflag
      · rw [hwait.2.1] at hshut
        cases hshut
  | @ended s x hx hshut =>
      refine h.update (s := s) (fun t _ ht => ht) (fun _ _ hm => hm)
        (fun t ht => Function.update_of_ne ht _ _) (fun ht => ?_) (by simp)
      obtain ⟨hopen, y, hy, hwait⟩ := h.waiting s ht
      obtain rfl : x = y := Option.some.inj (hx.symm.trans hy)
      exact ⟨hopen, _, Function.update_self _ _ _, hwait.withEvents hwait.2.2⟩
  | @timedOut c ctx s x hi hctx hit hx htimeout =>
      refine h.update (s := s) (fun t _ ht => ht) (fun _ _ hm => hm)
        (fun t ht => Function.update_of_ne ht _ _) (fun ht => ?_) (by simp)
      obtain ⟨hopen, y, hy, hwait⟩ := h.waiting s ht
      obtain rfl : x = y := Option.some.inj (hx.symm.trans hy)
      exact ⟨hopen, _, Function.update_self _ _ _, hwait⟩
  | @visited c ctx s x hi hctx hit hx htimeout =>
      refine h.update (s := s) (fun t _ ht => ht) (fun _ _ hm => hm)
        (fun t ht => Function.update_of_ne ht _ _) (fun ht => ?_) (by simp)
      obtain ⟨hopen, y, hy, hwait⟩ := h.waiting s ht
      obtain rfl : x = y := Option.some.inj (hx.symm.trans hy)
      exact ⟨hopen, _, Function.update_self _ _ _, hwait⟩
  | @freed s l hl =>
      exact h.update (s := s) (fun t _ ht => (update_false ht).2)
        (fun _ _ hm => List.mem_of_mem_erase hm) (fun t ht => Function.update_of_ne ht _ _)
        (fun ht => absurd rfl (update_false ht).1) (by simp)
  | sweepBegin hr henter => exact h.mono rfl henter.same.1 (by simp)
  | nextContext hi hctx hit henter => exact h.mono rfl henter.same.1 (by simp)
  | misplaced hindex => exact h.mono rfl rfl (by simp)
  | wait hnum hnodup hlength hrs => exact h.mono rfl rfl (by simp)
  | batchDone hr => exact h.mono rfl rfl (by simp)
  | dangling htouch hdead => exact h.mono rfl rfl (by simp)
  | wakeup hr => exact h.mono rfl rfl (by simp)
  | finish hpc hne => exact h.mono rfl rfl (by simp)
  | toReceive hr hx hsemi => exact h.mono rfl rfl (by simp)
  | stillWritable hx hs => exact h.mono rfl rfl (by simp)
  | data => exact h.mono rfl rfl (by simp)
  | timeoutPassed hctx hit => exact h.mono rfl rfl (by simp)
  | timeoutLeft hctx hit => exact h.mono rfl rfl (by simp)
  | sweepEnd hi => exact h.mono rfl rfl (by simp)
  | freeDone hl => exact h.mono rfl rfl (by simp)

theorem owing_init : Owing (unsent []) (listsOf []) State.init := by
  constructor
  · intro s hs
    cases hs
  · intro s r hs
    cases hs

/-- **No wakeup is lost.**  In every careful run a socket with a write that has
fallen short, and for which `on_writable` has not been called since, is polled for
with `WRITABLE` under the address it has, as long as it is neither shut down nor
closed: whatever else has been written, adopted or closed in between. -/
theorem unsent_of_run {tr : List Event} {σ : State} (h : machine.Run Careful tr σ) :
    ∀ s, unsent tr s = true → ∃ x, σ.loop.sockets s = some x ∧
      σ.loop.epoll x.p.fd = some (us_poll_events x.p, s) ∧
      (us_poll_events x.p).writable = true := by
  have howing : Owing (unsent tr) (listsOf tr) σ := by
    refine (h.invariant (fun tr σ => Ordered (listsOf tr) σ ∧ Owing (unsent tr) (listsOf tr) σ)
      ⟨ordered_init, owing_init⟩ ?_).2
    rintro tr ⟨L, pc⟩ a σ' es ⟨ho, hw⟩ hcare hs
    have hm := moves_of_step ho hs
    rw [listsOf_append, show unsent (tr ++ es) = unsentAll (unsent tr) es from List.foldl_append]
    exact ⟨Ordered.step ho hm, hw.step ho hcare hm⟩
  intro s hs
  obtain ⟨hopen, x, hx, hwait⟩ := howing.waiting s hs
  exact ⟨x, hx, (watched_of_run h).1.kernel.polled s x hx hopen, hwait.2.2⟩

/-- The write in `on_writable` has fallen short again, and the socket has a new
address. -/
theorem unsent_of_run_session :
    ∃ tr σ, machine.Run Careful tr σ ∧ unsent tr 12 = true ∧
      ∃ x, σ.loop.sockets 12 = some x ∧
        σ.loop.epoll x.p.fd = some (us_poll_events x.p, 12) ∧
        (us_poll_events x.p).writable = true := by
  obtain ⟨tr, σ, hrun, hp⟩ := Machine.run_of_exec machine Careful session
    (fun r => decide (unsent r.2 12 = true)) (by decide)
  exact ⟨tr, σ, hrun, of_decide_eq_true hp, unsent_of_run hrun 12 (of_decide_eq_true hp)⟩

end TestExamples.USockets
