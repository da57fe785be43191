/-
TestExamples/USocketsSweep.lean

A sweep of the timers comes to every socket once.

`us_internal_timer_sweep` goes through the contexts and their sockets with two
iterators, and the callbacks it calls may close, adopt and open sockets and create
contexts meanwhile.  `Ahead` is what the iterators have still ahead.  `watch`
says of a history what a socket may expect: how often the sweep that is going on
has come to it, and what has become of the timeout it was given last.  `Swept` ties
the two together.

`sweep_of_run` is about one sweep and `timeouts_of_run` about the timeouts: one of
`n` sweeps is told once, in the `n`-th sweep that comes to the socket.  The sweep in
which a timeout is set need not be one of them.
-/
import Mathlib.Data.List.Induction
import TestExamples.Lib.Cursor
import TestExamples.USocketsOrder

namespace TestExamples.USockets

open us_loop

variable {A A' A₁ : Lists} {L L' L₁ : us_loop} {q : Ptr} {tr es : List Event} {call : Api}
  {c s t : Addr} {x : us_socket} {ctx : us_socket_context}

/-! ### What the history says -/

/-- A timeout: the number of sweeps it was set for, the visits, the sweeps over and
the calls of `on_socket_timeout` since.  `before` are the visits there had been by
then in the sweep that was going on, and `joined` says whether the socket had been put
into its list in that.  `first` are the visits since up to the end of the first sweep
that is over. -/
structure Alarm where
  timeout : Nat
  visits : Nat
  sweeps : Nat
  fired : Nat
  joined : Bool
  before : Nat
  first : Nat
  deriving DecidableEq

namespace Alarm

/-- The sweep comes to the socket. -/
def visited (a : Alarm) : Alarm := { a with visits := a.visits + 1 }

/-- The sweep comes to its end. -/
def swept (a : Alarm) : Alarm :=
  { a with sweeps := a.sweeps + 1, first := if a.sweeps = 0 then a.visits else a.first }

/-- `on_socket_timeout` is called. -/
def told (a : Alarm) : Alarm := { a with fired := a.fired + 1 }

end Alarm

/-- Whether a sweep is going on, whether the socket has been put into its list since
that began, how often it has been visited in it since, and the timeout it was given
last. -/
structure Watch where
  sweeping : Bool
  fresh : Bool
  visits : Nat
  alarm : Option Alarm
  deriving DecidableEq

namespace Watch

def after (s : Addr) (w : Watch) : Event → Watch
  | .sweep_begin => { w with sweeping := true, fresh := false, visits := 0 }
  | .sweep_end =>
      { sweeping := false, fresh := false, visits := 0, alarm := w.alarm.map Alarm.swept }
  | .linked _ s' =>
      if s' = s then { w with fresh := w.sweeping, visits := 0, alarm := none } else w
  | .unlinked _ s' => if s' = s then { w with alarm := none } else w
  | .visited s' =>
      if s' = s then { w with visits := w.visits + 1, alarm := w.alarm.map Alarm.visited } else w
  | .on_socket_timeout s' => if s' = s then { w with alarm := w.alarm.map Alarm.told } else w
  | .timeout s' n =>
      if s' = s then { w with alarm := some ⟨n, 0, 0, 0, w.fresh, w.visits, 0⟩ } else w
  | _ => w

def afterAll (s : Addr) (w : Watch) (es : List Event) : Watch := es.foldl (after s) w

end Watch

/-- What a history says of a socket. -/
def watch (s : Addr) (tr : List Event) : Watch := Watch.afterAll s ⟨false, false, 0, none⟩ tr

/-- An event that changes the watch of a socket. -/
def Event.concerns (s : Addr) : Event → Bool
  | .sweep_begin => true
  | .sweep_end => true
  | .linked _ s' => s' = s
  | .unlinked _ s' => s' = s
  | .visited s' => s' = s
  | .on_socket_timeout s' => s' = s
  | .timeout s' _ => s' = s
  | _ => false

theorem Watch.after_of_not {w : Watch} {e : Event} (h : e.concerns s = false) :
    w.after s e = w := by
  cases e <;> simp_all [Watch.after, Event.concerns]

theorem Watch.afterAll_of_not {w : Watch} (h : ∀ e ∈ es, e.concerns s = false) :
    w.afterAll s es = w := by
  induction es generalizing w with
  | nil => rfl
  | cons e es ih =>
      show (w.after s e).afterAll s es = w
      rw [after_of_not (h e List.mem_cons_self), ih fun e' he' => h e' (List.mem_cons_of_mem _ he')]

theorem Watch.afterAll_closed {w : Watch} :
    w.afterAll s [.unlinked c s, .on_close s] = { w with alarm := none } := by
  simp [afterAll, after]

/-! ### What is ahead -/

/-- The socket is in the list of a context. -/
def Lists.Placed (A : Lists) (s : Addr) : Prop := ∃ c, s ∈ A.sockets c

/-- The sweep has still to come to `s`: in the context it has come to, or in one
of those behind. -/
def Ahead (A : Lists) (σ : State) (s : Addr) : Prop :=
  ∃ c ctx, σ.loop.iterator = some c ∧ σ.loop.contexts c = some ctx ∧
    (s ∈ fromNode ctx.iterator (A.sockets c) ∧ (∀ c', σ.pc ≠ .callback (.timeout c' s)) ∨
      ∃ c' ∈ fromNode (σ.loop.context_next c) A.contexts, s ∈ A.sockets c')

/-- Nothing has happened that matters for the sweep to come to `s`. -/
structure Undisturbed (A A' : Lists) (L L' : us_loop) (s : Addr) : Prop where
  iterator : L'.iterator = L.iterator
  mem : ∀ c, s ∈ A'.sockets c ↔ s ∈ A.sockets c
  ahead : ∀ c ctx, L.contexts c = some ctx → ∃ ctx', L'.contexts c = some ctx' ∧
    (s ∈ fromNode ctx'.iterator (A'.sockets c) ↔ s ∈ fromNode ctx.iterator (A.sockets c)) ∧
    (ctx.iterator = some s → ctx'.iterator = some s)
  behind : ∀ c, (L.contexts c).isSome →
    fromNode (L'.context_next c) A'.contexts = fromNode (L.context_next c) A.contexts
  timeout : (L'.sockets s).map (·.timeout) = (L.sockets s).map (·.timeout)

namespace Undisturbed

/-- Nothing has happened to the lists. -/
theorem of_same (hsockets : A'.sockets = A.sockets) (hlist : A'.contexts = A.contexts)
    (hcontexts : L'.contexts = L.contexts) (hnext : L'.context_next = L.context_next)
    (hiterator : L'.iterator = L.iterator)
    (htimeout : (L'.sockets s).map (·.timeout) = (L.sockets s).map (·.timeout)) :
    Undisturbed A A' L L' s where
  iterator := hiterator
  mem := fun c => by rw [hsockets]
  ahead := fun c ctx hctx => ⟨ctx, by rw [hcontexts, hctx], by rw [hsockets], id⟩
  behind := fun c _ => by rw [hnext, hlist]
  timeout := htimeout

theorem trans (h : Undisturbed A A₁ L L₁ s) (h' : Undisturbed A₁ A' L₁ L' s) :
    Undisturbed A A' L L' s where
  iterator := h'.iterator.trans h.iterator
  mem := fun c => (h'.mem c).trans (h.mem c)
  ahead := by
    intro c ctx hctx
    obtain ⟨ctx₁, hctx₁, hmem₁, hit₁⟩ := h.ahead c ctx hctx
    obtain ⟨ctx', hctx', hmem', hit'⟩ := h'.ahead c ctx₁ hctx₁
    exact ⟨ctx', hctx', hmem'.trans hmem₁, fun hit => hit' (hit₁ hit)⟩
  behind := by
    intro c hc
    obtain ⟨ctx, hctx⟩ := Option.isSome_iff_exists.mp hc
    obtain ⟨ctx₁, hctx₁, -⟩ := h.ahead c ctx hctx
    exact (h'.behind c (by rw [hctx₁]; rfl)).trans (h.behind c hc)
  timeout := h'.timeout.trans h.timeout

/-- Another socket has been put into a list. -/
theorem linked (hctx : L.contexts c = some ctx) (hit : ctx.iterator ≠ some t) (hne : s ≠ t) :
    Undisturbed A (A.apply (.linked c t)) L (L.linked c t x ctx) s where
  iterator := rfl
  mem := by
    intro c'
    rcases eq_or_ne c' c with rfl | hc
    · rw [show (A.apply (.linked c' t)).sockets c' = t :: A.sockets c' from
        Function.update_self _ _ _, List.mem_cons]
      exact ⟨fun hm => hm.resolve_left hne, Or.inr⟩
    · rw [show (A.apply (.linked c t)).sockets c' = A.sockets c' from
        Function.update_of_ne hc _ _]
  ahead := by
    intro c' ctx' hctx'
    rcases eq_or_ne c' c with rfl | hc
    · obtain rfl := Option.some.inj (hctx.symm.trans hctx')
      refine ⟨_, Function.update_self _ _ _, ?_, id⟩
      rw [show (A.apply (.linked c' t)).sockets c' = t :: A.sockets c' from
        Function.update_self _ _ _]
      rw [show fromNode ctx.iterator (t :: A.sockets c') = _ from fromNode_cons hit]
    · refine ⟨ctx', (Function.update_of_ne hc _ _).trans hctx', ?_, id⟩
      rw [show (A.apply (.linked c t)).sockets c' = A.sockets c' from
        Function.update_of_ne hc _ _]
  behind := fun _ _ => rfl
  timeout := congrArg _ (Function.update_of_ne hne _ _)

/-- Another socket has been taken out of its list. -/
theorem unlinked (h : Threads A L q) (hctx : L.contexts c = some ctx) (ht : t ∈ A.sockets c)
    (hne : s ≠ t) : Undisturbed A (A.apply (.unlinked c t)) L (L.unlinked c t ctx) s where
  iterator := rfl
  mem := by
    intro c'
    rcases eq_or_ne c' c with rfl | hc
    · rw [show (A.apply (.unlinked c' t)).sockets c' = (A.sockets c').erase t from
        Function.update_self _ _ _, List.mem_erase_of_ne hne]
    · rw [show (A.apply (.unlinked c t)).sockets c' = A.sockets c' from
        Function.update_of_ne hc _ _]
  ahead := by
    intro c' ctx' hctx'
    rcases eq_or_ne c' c with rfl | hc
    · obtain rfl := Option.some.inj (hctx.symm.trans hctx')
      refine ⟨_, Function.update_self _ _ _, ?_, fun hit => ?_⟩
      · rw [show (A.apply (.unlinked c' t)).sockets c' = (A.sockets c').erase t from
          Function.update_self _ _ _]
        by_cases hit : ctx.iterator = some t
        · simp only [if_pos hit]
          rw [hit]
          exact (h.sockets c' ctx hctx).mem_fromNode_unlink ht hne
        · simp only [if_neg hit]
          exact mem_fromNode_erase hit hne
      · rw [if_neg]
        · exact hit
        · rw [hit]
          exact fun he => hne (Option.some.inj he)
    · refine ⟨ctx', (Function.update_of_ne hc _ _).trans hctx', ?_, id⟩
      rw [show (A.apply (.unlinked c t)).sockets c' = A.sockets c' from
        Function.update_of_ne hc _ _]
  behind := fun _ _ => rfl
  timeout := rfl

/-- A context has been created. -/
theorem context (h : Threads A L q) (hc : L.Fresh c) :
    Undisturbed A (A.apply (.context c)) L (L.withContext c) s where
  iterator := rfl
  mem := fun _ => Iff.rfl
  ahead := by
    intro c' ctx hctx
    have hne : c' ≠ c := by
      rintro rfl
      rw [hc.2] at hctx
      cases hctx
    exact ⟨ctx, (Function.update_of_ne hne _ _).trans hctx, Iff.rfl, id⟩
  behind := by
    intro c' hc'
    have hdead : c ∉ A.contexts := by
      intro hm
      have hlive := (h.mem_contexts c).mp hm
      rw [hc.2] at hlive
      cases hlive
    have hne : c' ≠ c := by
      rintro rfl
      rw [hc.2] at hc'
      cases hc'
    have hnext : L.context_next c' ≠ some c := fun hn =>
      hdead (h.contexts.next_mem ((h.mem_contexts c').mpr hc') hn).1
    rw [show (L.withContext c).context_next c' = L.context_next c' from
        Function.update_of_ne hne _ _,
      show (A.apply (.context c)).contexts = c :: A.contexts from rfl, fromNode_cons hnext]
  timeout := rfl

/-- What is ahead stays ahead. -/
theorem still_ahead {pc pc' : Pc} (h : Undisturbed A A' L L' s)
    (hlive : ∀ c, L.iterator = some c → (L.contexts c).isSome)
    (hpc : ∀ c, pc' = .callback (.timeout c s) ↔ pc = .callback (.timeout c s)) :
    Ahead A' ⟨L', pc'⟩ s ↔ Ahead A ⟨L, pc⟩ s := by
  unfold Ahead
  simp only [h.iterator, ne_eq, hpc]
  constructor
  · rintro ⟨c, ctx', hi, hctx', hahead⟩
    obtain ⟨ctx, hctx⟩ := Option.isSome_iff_exists.mp (hlive c hi)
    obtain ⟨ctx'', hctx'', hmem, -⟩ := h.ahead c ctx hctx
    obtain rfl := Option.some.inj (hctx'.symm.trans hctx'')
    rw [hmem, h.behind c (hlive c hi)] at hahead
    exact ⟨c, ctx, hi, hctx, hahead.imp_right fun ⟨c', hc', hs⟩ => ⟨c', hc', (h.mem c').mp hs⟩⟩
  · rintro ⟨c, ctx, hi, hctx, hahead⟩
    obtain ⟨ctx', hctx', hmem, -⟩ := h.ahead c ctx hctx
    rw [← hmem, ← h.behind c (hlive c hi)] at hahead
    exact ⟨c, ctx', hi, hctx', hahead.imp_right fun ⟨c', hc', hs⟩ => ⟨c', hc', (h.mem c').mpr hs⟩⟩

theorem placed (h : Undisturbed A A' L L' s) : A'.Placed s ↔ A.Placed s :=
  exists_congr h.mem

end Undisturbed

/-- The polls do not count. -/
theorem timeout_update {y : us_socket} (hx : L.sockets t = some x) (hy : y.timeout = x.timeout) :
    (Function.update L.sockets t (some y) s).map (·.timeout)
      = (L.sockets s).map (·.timeout) := by
  rcases eq_or_ne s t with rfl | hne
  · rw [Function.update_self, hx, Option.map_some, Option.map_some, hy]
  · rw [Function.update_of_ne hne]

/-- A block that is opened leaves the others alone. -/
theorem Good.undisturbed_opened (h : Good A L q) (hctx : L.contexts x.context = some ctx)
    (ht : L.Fresh t) (events : Events) (hne : s ≠ t) :
    Undisturbed A (A.applyAll [.opened t, .linked x.context t]) L (L.opened t x events ctx) s := by
  have hpoll : Undisturbed A (A.apply (.opened t)) L (L.us_create_poll t x events) s :=
    .of_same rfl rfl rfl rfl rfl (congrArg _ (Function.update_of_ne hne _ _))
  refine hpoll.trans (.linked hctx (fun hit => ?_) hne)
  exact (h.loose_of_dead ht.1).sockets _ (h.socket_iterator _ ctx t hctx hit)

/-- So does one that is closed. -/
theorem Good.undisturbed_closed (h : Good A L q) (hctx : L.contexts x.context = some ctx)
    (ht : t ∈ A.sockets x.context) (hne : s ≠ t) :
    Undisturbed A (A.applyAll [.unlinked x.context t, .on_close t]) L (L.closing t x ctx) s := by
  refine (Undisturbed.unlinked h.toThreads hctx ht hne).trans ?_
  exact .of_same rfl rfl rfl rfl rfl rfl

/-- A call that does not concern a socket leaves it alone. -/
theorem Called.undisturbed (h : Good A L q) (hc : Called A L call es L')
    (hes : ∀ e ∈ es, e.concerns s = false) : Undisturbed A (A.applyAll es) L L' s := by
  cases hc with
  | context hc => exact .context h.toThreads hc
  | @opened _ t x events ctx hcall hctx ht hfd =>
      have hne : s ≠ t := Ne.symm (by simpa [Event.concerns] using hes)
      exact h.undisturbed_opened hctx ht _ hne
  | @listenClosed t x ctx hx hctx ht hlisten =>
      have hne : s ≠ t := Ne.symm (by simpa [Event.concerns] using hes)
      refine (Undisturbed.unlinked h.toThreads hctx ht hne).trans ?_
      exact .of_same rfl rfl rfl rfl rfl (congrArg _ (Function.update_of_ne hne _ _))
  | @closed t x ctx hx hctx ht hlisten =>
      have hne : s ≠ t := Ne.symm (by simpa [Event.concerns] using hes)
      exact h.undisturbed_closed hctx ht hne
  | @adopted c t t' x ctx ctx' hx hctx ht hlisten hctx' ht' =>
      obtain ⟨ht₁, ht₂⟩ : t ≠ s ∧ t' ≠ s := by simpa [Event.concerns] using hes
      have hne := ht₁.symm
      have hne' := ht₂.symm
      obtain ⟨hmoved, -⟩ := h.adopting hx hctx ht hctx' ht'
      have hresize : Undisturbed (A.apply (.unlinked x.context t))
          ((A.apply (.unlinked x.context t)).apply (.moved t t')) (L.unlinked x.context t ctx)
          ((L.unlinked x.context t ctx).resized t t' x) s :=
        .of_same rfl rfl rfl rfl rfl (by simp [resized, hne, hne'])
      refine (Undisturbed.unlinked h.toThreads hctx ht hne).trans
        (hresize.trans (.linked hctx' (fun hit => ?_) hne'))
      exact (h.loose_of_new ht ht').sockets c (hmoved.socket_iterator c ctx' t' hctx' hit)
  | adoptedClosed hx ht => exact .of_same rfl rfl rfl rfl rfl rfl
  | nothing hcall => exact .of_same rfl rfl rfl rfl rfl rfl
  | short_write hx ht hlisten hshut =>
      exact .of_same rfl rfl rfl rfl rfl (timeout_update hx rfl)
  | @shutdown t x hx ht hlisten hshut =>
      have hidem : ∀ y : us_socket, (((L.setSocket t y).changed t y
          ⟨(us_poll_events x.p).readable, false⟩).sockets s)
          = Function.update L.sockets t
            (some { y with p := y.p.withEvents ⟨(us_poll_events x.p).readable, false⟩ }) s :=
        fun y => congrFun (Function.update_idem _ _ _) s
      refine .of_same rfl rfl rfl rfl rfl ?_
      rw [hidem]
      exact timeout_update hx rfl
  | @timeout t x _ hx hlisten n =>
      have hne : s ≠ t := Ne.symm (by simpa [Event.concerns] using hes)
      exact .of_same rfl rfl rfl rfl rfl (congrArg _ (Function.update_of_ne hne _ _))

/-! ### What a sweep keeps -/

/-- Once the timeout has run down. -/
def Alarm.due (a : Alarm) : Nat := if 0 < a.timeout ∧ a.timeout ≤ a.visits then 1 else 0

/-- The visits since the timeout was set.  The first sweep that is over may have come
to the socket before, or not at all where the socket has only joined it; the later ones
have come to it once each. -/
structure Alarm.Counts (a : Alarm) (fresh : Bool) (visits : Nat) : Prop where
  joined : fresh = true → a.joined = true ∧ a.sweeps = 0
  during : a.sweeps = 0 → a.visits + a.before = visits
  later : 0 < a.sweeps → a.visits + 1 = a.first + a.sweeps + visits
  le : 0 < a.sweeps → a.first + a.before ≤ 1
  eq : 0 < a.sweeps → a.joined = false → a.first + a.before = 1

/-- What the loop and the history say of a socket agree. -/
structure Swept (A : Lists) (σ : State) (s : Addr) (w : Watch) : Prop where
  sweeping : w.sweeping = σ.pc.sweeping
  quiet : w.sweeping = false → w.fresh = false ∧ w.visits = 0
  visits : w.sweeping = true → A.Placed s →
    w.visits = 0 ∧ (w.fresh = false → Ahead A σ s) ∨ w.visits = 1 ∧ ¬ Ahead A σ s
  cursor : ∀ c, σ.pc = .callback (.timeout c s) → w.visits ≠ 0 → A.Placed s →
    ∃ ctx, σ.loop.contexts c = some ctx ∧ ctx.iterator = some s
  alarm : ∀ a, w.alarm = some a → A.Placed s →
    a.Counts w.fresh w.visits ∧ a.fired = a.due ∧
      (σ.loop.sockets s).map (·.timeout) = some (a.timeout - a.visits)

namespace Swept

variable {σ : State} {w : Watch} {pc pc' : Pc}

/-- A socket that is in no list. -/
theorem of_not_placed (hsweeping : w.sweeping = σ.pc.sweeping)
    (hquiet : w.sweeping = false → w.fresh = false ∧ w.visits = 0) (hs : ¬ A.Placed s) :
    Swept A σ s w where
  sweeping := hsweeping
  quiet := hquiet
  visits := fun _ hp => absurd hp hs
  cursor := fun _ _ _ hp => absurd hp hs
  alarm := fun _ _ hp => absurd hp hs

/-- A socket that has just been put into a list. -/
theorem of_fresh (hsweeping : w.sweeping = σ.pc.sweeping) (hvisits : w.visits = 0)
    (hfresh : w.fresh = w.sweeping) (halarm : w.alarm = none) : Swept A σ s w where
  sweeping := hsweeping
  quiet := fun hs => ⟨hfresh.trans hs, hvisits⟩
  visits := fun hs _ => Or.inl ⟨hvisits, fun hf => by rw [hfresh, hs] at hf; cases hf⟩
  cursor := fun _ _ hv => absurd hvisits hv
  alarm := fun a ha => by rw [halarm] at ha; cases ha

/-- A socket that has been left alone. -/
theorem undisturbed (h : Swept A ⟨L, pc⟩ s w) (hu : Undisturbed A A' L L' s)
    (hlive : ∀ c, L.iterator = some c → (L.contexts c).isSome)
    (hsweeping : pc'.sweeping = pc.sweeping)
    (hpc : ∀ c, pc' = .callback (.timeout c s) ↔ pc = .callback (.timeout c s)) :
    Swept A' ⟨L', pc'⟩ s w where
  sweeping := h.sweeping.trans hsweeping.symm
  quiet := h.quiet
  visits := by
    intro hs hp
    rw [hu.still_ahead hlive hpc]
    exact h.visits hs (hu.placed.mp hp)
  cursor := by
    intro c he hv hp
    obtain ⟨ctx, hctx, hit⟩ := h.cursor c ((hpc c).mp he) hv (hu.placed.mp hp)
    obtain ⟨ctx', hctx', -, hit'⟩ := hu.ahead c ctx hctx
    exact ⟨ctx', hctx', hit' hit⟩
  alarm := by
    intro a ha hp
    have hold := h.alarm a ha (hu.placed.mp hp)
    rw [← show (L'.sockets s).map (·.timeout) = (L.sockets s).map (·.timeout) from hu.timeout]
      at hold
    exact hold

/-- A socket that has been left alone, outside a sweep. -/
theorem idle (h : Swept A ⟨L, pc⟩ s w) (hu : Undisturbed A A' L L' s)
    (hi : L.iterator = none) (hpc : pc.sweeping = false) (hpc' : pc'.sweeping = false) :
    Swept A' ⟨L', pc'⟩ s w := by
  refine h.undisturbed hu (fun c hc => ?_) (hpc'.trans hpc.symm) fun c => ?_
  · rw [hi] at hc
    cases hc
  · constructor <;> rintro rfl
    · cases hpc'
    · cases hpc

/-- A socket that leaves its list. -/
theorem gone (h : Swept A ⟨L, pc⟩ s w) (hsweeping : σ.pc.sweeping = pc.sweeping)
    (hs : ¬ A'.Placed s) : Swept A' σ s { w with alarm := none } :=
  of_not_placed (h.sweeping.trans hsweeping.symm) h.quiet hs

/-- A socket that is put into a list. -/
theorem entered (h : Swept A ⟨L, pc⟩ s w) (hsweeping : σ.pc.sweeping = pc.sweeping) :
    Swept A' σ s { w with fresh := w.sweeping, visits := 0, alarm := none } :=
  of_fresh (h.sweeping.trans hsweeping.symm) rfl rfl rfl

end Swept

section Steps

variable {σ' : State} {w : Watch} {pc : Pc} {a : Label}

theorem move_timeout (pc : Pc) (c : Addr) :
    pc.move L call = .callback (.timeout c s) ↔ pc = .callback (.timeout c s) := by
  refine ⟨timeout_of_move, ?_⟩
  rintro rfl
  unfold Pc.move
  split
  · rename_i he
    cases he
  · rfl

theorem Swept.called (h : Swept A ⟨L, pc⟩ s w) (hg : Good A L q) (hc : Called A L call es L') :
    Swept (A.applyAll es) ⟨L', pc.move L call⟩ s (w.afterAll s es) := by
  have hsweeping : (pc.move L call).sweeping = pc.sweeping := move_sweeping pc
  by_cases hes : ∀ e ∈ es, e.concerns s = false
  · rw [Watch.afterAll_of_not hes]
    exact h.undisturbed (hc.undisturbed hg hes) hg.context_iterator hsweeping (move_timeout pc)
  · cases hc with
    | context hc => simp [Event.concerns] at hes
    | @opened _ t x events ctx hcall hctx ht hfd =>
        obtain rfl : t = s := by simpa [Event.concerns] using hes
        have hw : w.afterAll t [.opened t, .linked x.context t]
            = { w with fresh := w.sweeping, visits := 0, alarm := none } := by
          simp [Watch.afterAll, Watch.after]
        rw [hw]
        exact h.entered hsweeping
    | @listenClosed t x ctx hx hctx ht hlisten =>
        obtain rfl : t = s := by simpa [Event.concerns] using hes
        have hw : w.afterAll t [.unlinked x.context t, .freed t] = { w with alarm := none } := by
          simp [Watch.afterAll, Watch.after]
        rw [hw]
        exact h.gone hsweeping fun ⟨c, hm⟩ => (hg.loose_of_unlinked ht).sockets c hm
    | @closed t x ctx hx hctx ht hlisten =>
        obtain rfl : t = s := by simpa [Event.concerns] using hes
        rw [Watch.afterAll_closed]
        exact h.gone hsweeping fun ⟨c, hm⟩ => (hg.loose_of_unlinked ht).sockets c hm
    | @adopted c t t' x ctx ctx' hx hctx ht hlisten hctx' ht' =>
        rcases eq_or_ne t' s with rfl | hne'
        · have hw : w.afterAll t' [.unlinked x.context t, .moved t t', .linked c t']
              = { w with fresh := w.sweeping, visits := 0, alarm := none } := by
            rcases eq_or_ne t t' with rfl | hne
            · simp [Watch.afterAll, Watch.after]
            · simp [Watch.afterAll, Watch.after, hne]
          rw [hw]
          exact h.entered hsweeping
        · obtain rfl : t = s := by simpa [Event.concerns, hne'] using hes
          have hw : w.afterAll t [.unlinked x.context t, .moved t t', .linked c t']
              = { w with alarm := none } := by
            simp [Watch.afterAll, Watch.after, hne']
          rw [hw]
          refine h.gone hsweeping fun ⟨c', hm⟩ => (hg.loose_of_unlinked ht).sockets c' ?_
          rcases eq_or_ne c' c with rfl | hc
          · rw [show (A.applyAll [.unlinked x.context t, .moved t t', .linked c' t']).sockets c'
              = t' :: (A.apply (.unlinked x.context t)).sockets c' from Function.update_self _ _ _]
              at hm
            exact List.mem_of_ne_of_mem hne'.symm hm
          · rw [show (A.applyAll [.unlinked x.context t, .moved t t', .linked c t']).sockets c'
              = (A.apply (.unlinked x.context t)).sockets c'
            from Function.update_of_ne hc _ _] at hm
            exact hm
    | adoptedClosed hx ht => simp at hes
    | nothing hcall => simp at hes
    | short_write hx ht hlisten hshut => simp [Event.concerns] at hes
    | shutdown hx ht hlisten hshut => simp [Event.concerns] at hes
    | @timeout t x _ hx hlisten n =>
        obtain rfl : t = s := by simpa [Event.concerns] using hes
        have hw : w.afterAll t [.timeout t n]
            = { w with alarm := some ⟨n, 0, 0, 0, w.fresh, w.visits, 0⟩ } := by
          simp [Watch.afterAll, Watch.after]
        rw [hw]
        refine ⟨h.sweeping, h.quiet, h.visits, h.cursor, fun a ha hp => ?_⟩
        obtain rfl := Option.some.inj ha
        refine ⟨⟨fun hf => ⟨hf, rfl⟩, fun _ => Nat.zero_add _, nofun, nofun, nofun⟩, ?_, ?_⟩
        · simp [Alarm.due]
          omega
        · simp [us_loop.setSocket]

theorem ahead_iff (hi : L.iterator = some c) (hctx : L.contexts c = some ctx) :
    Ahead A ⟨L, pc⟩ s ↔
      s ∈ fromNode ctx.iterator (A.sockets c) ∧ (∀ c', pc ≠ .callback (.timeout c' s)) ∨
        ∃ c' ∈ fromNode (L.context_next c) A.contexts, s ∈ A.sockets c' := by
  constructor
  · rintro ⟨c₁, ctx₁, hi₁, hctx₁, h⟩
    obtain rfl := Option.some.inj (hi.symm.trans hi₁)
    obtain rfl := Option.some.inj (hctx.symm.trans hctx₁)
    exact h
  · exact fun h => ⟨c, ctx, hi, hctx, h⟩

theorem not_ahead_of_none (hi : L.iterator = none) : ¬ Ahead A ⟨L, pc⟩ s := by
  rintro ⟨c, ctx, hc, -⟩
  rw [show (State.mk L pc).loop.iterator = none from hi] at hc
  cases hc

/-- The sweep enters a context: its sockets are ahead, and those of the contexts
behind it. -/
theorem ahead_enters (h : Good A L q) {p : Ptr} (henter : Enters L p L') :
    Ahead A ⟨L', .sweep⟩ s ↔ ∃ c ∈ fromNode p A.contexts, s ∈ A.sockets c := by
  cases henter with
  | none => simp [Ahead]
  | @some c ctx hctx =>
      have hc : c ∈ A.contexts := h.mem_contexts_of hctx
      rw [ahead_iff (c := c) rfl (Function.update_self _ _ _), h.contexts.fromNode_eq hc]
      show s ∈ fromNode ctx.head (A.sockets c) ∧ _ ∨
        (∃ c' ∈ fromNode (L.context_next c) A.contexts, s ∈ A.sockets c') ↔ _
      rw [(h.sockets c ctx hctx).head_eq, fromNode_head]
      simp

/-- What is behind a context is none of its sockets. -/
theorem Good.not_behind (h : Good A L q) (hctx : L.contexts c = some ctx) (hs : s ∈ A.sockets c) :
    ¬ ∃ c' ∈ fromNode (L.context_next c) A.contexts, s ∈ A.sockets c' := by
  rintro ⟨c', hc', hs'⟩
  obtain rfl := h.eq_of_mem hs hs'
  exact h.contexts.not_mem_fromNode_next (h.mem_contexts_of hctx) hc'

/-- The iterator of a context has been moved on behind `t`: nothing else changes,
and `t` is not ahead. -/
theorem Good.ahead_next (h : Good A L q) (hi : L.iterator = some c)
    (hctx : L.contexts c = some ctx) (ht : t ∈ A.sockets c) (hit : ctx.iterator = some t)
    (hi' : L'.iterator = some c)
    (hctx' : L'.contexts c = some { ctx with iterator := L.next t })
    (hnext : L'.context_next = L.context_next)
    (hpc : s ≠ t → ∀ c', pc ≠ .callback (.timeout c' s)) :
    (Ahead A ⟨L', .sweep⟩ s ↔ s ≠ t ∧ Ahead A ⟨L, pc⟩ s) := by
  have hl := h.sockets c ctx hctx
  rw [ahead_iff hi' hctx', ahead_iff hi hctx, hnext, hit, hl.fromNode_eq ht]
  rcases eq_or_ne s t with rfl | hne
  · have hbehind := h.not_behind hctx ht
    simp [hbehind, hl.not_mem_fromNode_next ht]
  · simp [hne, hpc hne]

namespace Alarm

variable {a : Alarm} {fresh : Bool} {visits : Nat}

theorem Counts.visited (h : a.Counts fresh visits) : a.visited.Counts fresh (visits + 1) := by
  refine ⟨h.joined, fun hsweeps => ?_, fun hsweeps => ?_, h.le, h.eq⟩
  · have hsum := h.during hsweeps
    show a.visits + 1 + a.before = visits + 1
    omega
  · have hsum := h.later hsweeps
    show a.visits + 1 + 1 = a.first + a.sweeps + (visits + 1)
    omega

theorem Counts.told (h : a.Counts fresh visits) : a.told.Counts fresh visits :=
  ⟨h.joined, h.during, h.later, h.le, h.eq⟩

/-- The sweep has come to the socket once, or the socket has only joined it. -/
theorem Counts.swept (h : a.Counts fresh visits) (hle : visits ≤ 1)
    (hone : fresh = false → visits = 1) : a.swept.Counts false 0 := by
  have hfirst : a.swept.first = if a.sweeps = 0 then a.visits else a.first := rfl
  refine ⟨nofun, fun hsweeps => absurd hsweeps (Nat.succ_ne_zero _), fun _ => ?_, fun _ => ?_,
    fun _ hj => ?_⟩
  · show a.visits + 1 = a.swept.first + (a.sweeps + 1) + 0
    rw [hfirst]
    split
    · next hzero => omega
    · next hpos =>
      -- the socket has been in its list since before this sweep
      have hf : fresh = false := by
        rcases hf : fresh with - | -
        · rfl
        · exact absurd (h.joined hf).2 hpos
      have hsum := h.later (Nat.pos_of_ne_zero hpos)
      have hv := hone hf
      omega
  · show a.swept.first + a.before ≤ 1
    rw [hfirst]
    split
    · next hzero =>
      have hsum := h.during hzero
      omega
    · next hpos => exact h.le (Nat.pos_of_ne_zero hpos)
  · show a.swept.first + a.before = 1
    rw [hfirst]
    split
    · next hzero =>
      have hf : fresh = false := by
        rcases hf : fresh with - | -
        · rfl
        · have hj' : a.joined = true := (h.joined hf).1
          rw [show a.joined = false from hj] at hj'
          cases hj'
      have hsum := h.during hzero
      have hv := hone hf
      omega
    · next hpos => exact h.eq (Nat.pos_of_ne_zero hpos) hj

/-- The last visit of a timeout. -/
theorem due_last (h : a.timeout - a.visits = 1) :
    a.due = 0 ∧ a.visited.due = 1 ∧ a.timeout - a.visited.visits = 0 := by
  refine ⟨if_neg ?_, if_pos ?_, ?_⟩
  · omega
  · show 0 < a.timeout ∧ a.timeout ≤ a.visits + 1
    omega
  · show a.timeout - (a.visits + 1) = 0
    omega

/-- The other visits. -/
theorem due_visited (h : a.timeout - a.visits ≠ 1) : a.visited.due = a.due := by
  show (if 0 < a.timeout ∧ a.timeout ≤ a.visits + 1 then 1 else 0) = _
  unfold due
  congr 1
  rw [eq_iff_iff]
  omega

end Alarm

/-- A socket the sweep is at has not been visited. -/
theorem Swept.unvisited (h : Swept A ⟨L, .sweep⟩ s w) (hg : Good A L q) (hi : L.iterator = some c)
    (hctx : L.contexts c = some ctx) (hit : ctx.iterator = some s) : w.visits = 0 := by
  have hs := hg.socket_iterator c ctx s hctx hit
  have hahead : Ahead A ⟨L, .sweep⟩ s := by
    refine (ahead_iff hi hctx).mpr (Or.inl ⟨?_, fun c' hpc => by cases hpc⟩)
    rw [hit, (hg.sockets c ctx hctx).fromNode_eq hs]
    exact List.mem_cons_self
  rcases h.visits h.sweeping ⟨c, hs⟩ with ⟨hzero, -⟩ | ⟨-, hnot⟩
  · exact hzero
  · exact absurd hahead hnot

/-- At the end of a sweep. -/
theorem Swept.visits_of_end (h : Swept A ⟨L, .sweep⟩ s w) (hi : L.iterator = none)
    (hs : A.Placed s) : w.visits ≤ 1 ∧ (w.fresh = false → w.visits = 1) := by
  rcases h.visits h.sweeping hs with ⟨hzero, hahead⟩ | ⟨hone, -⟩
  · exact ⟨by omega, fun hf => absurd (hahead hf) (not_ahead_of_none hi)⟩
  · exact ⟨by omega, fun _ => hone⟩

/-- **Every step keeps what a socket may expect.** -/
theorem Swept.step (ho : Ordered A ⟨L, pc⟩) (h : Swept A ⟨L, pc⟩ s w)
    (hm : Moves A L pc a es σ') : Swept (A.applyAll es) σ' s (w.afterAll s es) := by
  have hgood : Good A L (State.closedFrom ⟨L, pc⟩) := ho.good
  -- the steps outside a sweep that leave the lists as they are
  have hsame : ∀ {L'}, L'.contexts = L.contexts → L'.context_next = L.context_next →
      L'.iterator = L.iterator →
      (L'.sockets s).map (·.timeout) = (L.sockets s).map (·.timeout) →
      Undisturbed A A L L' s := fun h₁ h₂ h₃ h₄ => .of_same rfl rfl h₁ h₂ h₃ h₄
  cases hm with
  | call hpc hall hcalled => exact h.called hgood hcalled
  | misplaced hindex => exact h.idle (hsame rfl rfl rfl rfl) (ho.iterator rfl) rfl rfl
  | wait hnum hnodup hlength hrs => exact h.idle (hsame rfl rfl rfl rfl) (ho.iterator rfl) rfl rfl
  | batchDone hr => exact h.idle (hsame rfl rfl rfl rfl) (ho.iterator rfl) rfl rfl
  | dangling htouch hdead =>
      cases htouch with
      | dispatch hr => exact h.idle (hsame rfl rfl rfl rfl) (ho.iterator rfl) rfl rfl
      | accept => exact h.idle (hsame rfl rfl rfl rfl) (ho.iterator rfl) rfl rfl
  | wakeup hr => exact h.idle (hsame rfl rfl rfl rfl) (ho.iterator rfl) rfl rfl
  | @connected _ p x _ _ _ hr hx hsemi hevents =>
      refine h.idle (hsame rfl rfl rfl ?_) (ho.iterator rfl) rfl rfl
      have hidem : ∀ y z : us_socket,
          Function.update (Function.update L.sockets p (some y)) p (some z) s
            = Function.update L.sockets p (some z) s := fun y z =>
        congrFun (Function.update_idem _ _ _) s
      show (Function.update (Function.update L.sockets p _) p _ s).map _ = _
      rw [hidem]
      exact timeout_update hx rfl
  | @accepted _ _ l t fd x ctx haccept hx hctx ht hfd =>
      have hquiet : pc.sweeping = false := by
        cases haccept with
        | first hr => rfl
        | again => rfl
      rcases eq_or_ne s t with rfl | hne
      · have hw : w.afterAll s [.opened s, .linked x.context s, .on_open s false]
            = { w with fresh := w.sweeping, visits := 0, alarm := none } := by
          simp [Watch.afterAll, Watch.after]
        rw [hw]
        exact h.entered hquiet.symm
      · have hw : w.afterAll s [.opened t, .linked x.context t, .on_open t false] = w :=
          Watch.afterAll_of_not (by simp [Event.concerns, hne.symm])
        rw [hw]
        exact h.idle (hgood.undisturbed_opened (x := newSocket x.context fd POLL_TYPE_SOCKET false)
          hctx ht _ hne) (ho.iterator hquiet) hquiet rfl
  | @closedLast _ _ t x ctx hclose hx hctx ht hlisten =>
      have hquiet : pc.sweeping = false := by
        cases hclose with
        | error hr => rfl
        | received hrecv => rfl
      rcases eq_or_ne s t with rfl | hne
      · rw [Watch.afterAll_closed]
        exact h.gone hquiet.symm fun ⟨c, hm⟩ => (hgood.loose_of_unlinked ht).sockets c hm
      · have hw : w.afterAll s [.unlinked x.context t, .on_close t] = w :=
          Watch.afterAll_of_not (by simp [Event.concerns, hne.symm])
        rw [hw]
        exact h.idle (hgood.undisturbed_closed hctx ht hne) (ho.iterator hquiet) hquiet rfl
  | finish hpc hne =>
      have hquiet := sweeping_of_dispatching hpc
      exact h.idle (hsame rfl rfl rfl rfl) (ho.iterator hquiet) hquiet rfl
  | onWritable hr hx hsemi =>
      exact h.idle (hsame rfl rfl rfl rfl) (ho.iterator rfl) rfl rfl
  | toReceive hr hx hsemi =>
      exact h.idle (hsame rfl rfl rfl rfl) (ho.iterator rfl) rfl rfl
  | unwritable hx hs hwritten =>
      exact h.idle (hsame rfl rfl rfl (timeout_update hx rfl)) (ho.iterator rfl) rfl rfl
  | stillWritable hx hs =>
      exact h.idle (hsame rfl rfl rfl rfl) (ho.iterator rfl) rfl rfl
  | data => exact h.idle (hsame rfl rfl rfl rfl) (ho.iterator rfl) rfl rfl
  | ended hx hshut =>
      exact h.idle (hsame rfl rfl rfl (timeout_update hx rfl)) (ho.iterator rfl) rfl rfl
  | @freed t l hl =>
      rcases eq_or_ne s t with rfl | hne
      · have hcl : s ∈ A.closed := by rw [hl]; exact List.mem_cons_self
        exact .of_not_placed h.sweeping h.quiet fun ⟨c, hm⟩ => hgood.not_mem_closed hm hcl
      · refine h.idle (.of_same rfl rfl rfl rfl rfl ?_) (ho.iterator rfl) rfl rfl
        exact congrArg _ (Function.update_of_ne hne _ _)
  | freeDone hl => exact h.idle (hsame rfl rfl rfl rfl) (ho.iterator rfl) rfl rfl
  | @sweepBegin _ _ L' hr henter =>
      obtain ⟨hfresh, hvisits⟩ := h.quiet h.sweeping
      refine ⟨rfl, fun hs => (by cases hs), fun _ hp => Or.inl ⟨rfl, fun _ => ?_⟩,
        fun c hpc => (by cases hpc), fun a ha hp => ?_⟩
      · obtain ⟨c, hc⟩ := hp
        refine (ahead_enters hgood henter).mpr ⟨c, ?_, hc⟩
        rw [hgood.contexts.head_eq, fromNode_head]
        exact (hgood.toThreads.mem_contexts c).mpr (hgood.of_mem_sockets c s hc).1
      · have hold := h.alarm a ha hp
        rw [hfresh, hvisits] at hold
        rw [show (State.mk L' .sweep).loop.sockets = L.sockets from henter.same.1]
        exact hold
  | @nextContext c ctx L' hi hctx hit henter =>
      have hahead : Ahead A ⟨L', .sweep⟩ s ↔ Ahead A ⟨L, .sweep⟩ s := by
        rw [ahead_enters hgood henter, ahead_iff hi hctx, hit]
        simp
      refine ⟨h.sweeping, h.quiet, fun hs hp => ?_, fun c hpc => (by cases hpc), ?_⟩
      · rw [show Ahead (A.applyAll []) ⟨L', .sweep⟩ s ↔ Ahead A ⟨L, .sweep⟩ s from hahead]
        exact h.visits hs hp
      · rw [show (State.mk L' .sweep).loop.sockets = L.sockets from henter.same.1]
        exact h.alarm
  | sweepEnd hi =>
      refine ⟨rfl, fun _ => ⟨rfl, rfl⟩, fun hs => (by cases hs), fun c hpc => (by cases hpc),
        fun a' ha' hp => ?_⟩
      obtain ⟨a, ha, rfl⟩ := Option.map_eq_some_iff.mp ha'
      obtain ⟨hcounts, hfired, htimeout⟩ := h.alarm a ha hp
      obtain ⟨hle, hone⟩ := h.visits_of_end hi hp
      exact ⟨hcounts.swept hle hone, hfired, htimeout⟩
  | @timedOut c ctx t x hi hctx hit hx htimeout =>
      have ht := hgood.socket_iterator c ctx t hctx hit
      rcases eq_or_ne s t with rfl | hne
      · have hw : w.afterAll s [.visited s, .on_socket_timeout s] =
            { w with
              visits := w.visits + 1
              alarm := (w.alarm.map Alarm.visited).map Alarm.told } := by
          simp [Watch.afterAll, Watch.after]
        rw [hw]
        have hzero := h.unvisited hgood hi hctx hit
        refine ⟨h.sweeping, fun hs => ?_, fun _ hp => Or.inr ⟨?_, ?_⟩, fun c' hpc _ _ => ?_,
          fun a' ha' hp => ?_⟩
        · rw [h.sweeping] at hs
          cases hs
        · show w.visits + 1 = 1
          rw [hzero]
        · intro hp
          rcases (ahead_iff (L := L.setSocket s { x with timeout := 0 }) hi hctx).mp hp with
            ⟨-, hpc⟩ | hbehind
          · exact hpc c rfl
          · exact hgood.not_behind hctx ht hbehind
        · cases hpc
          exact ⟨ctx, hctx, hit⟩
        · rw [Option.map_map] at ha'
          obtain ⟨a, ha, rfl⟩ := Option.map_eq_some_iff.mp ha'
          obtain ⟨hcounts, hfired, hleft⟩ := h.alarm a ha hp
          have hone : a.timeout - a.visits = 1 := by
            rw [hx, Option.map_some, htimeout] at hleft
            exact (Option.some.inj hleft).symm
          obtain ⟨hdue, hdue', hleft'⟩ := Alarm.due_last hone
          refine ⟨hcounts.visited.told, ?_, ?_⟩
          · show a.fired + 1 = a.visited.due
            rw [hdue', hfired, hdue]
          · show (Function.update L.sockets s _ s).map _ = some (a.timeout - a.visited.visits)
            rw [hleft', Function.update_self]
            rfl
      · have hw : w.afterAll s [.visited t, .on_socket_timeout t] = w :=
          Watch.afterAll_of_not (by simp [Event.concerns, hne.symm])
        rw [hw]
        refine h.undisturbed (.of_same rfl rfl rfl rfl rfl ?_) hgood.context_iterator rfl
          fun c' => ?_
        · exact congrArg _ (Function.update_of_ne hne _ _)
        · simp [hne.symm]
  | @visited c ctx t x hi hctx hit hx htimeout =>
      have ht := hgood.socket_iterator c ctx t hctx hit
      have hahead : Ahead A ⟨(L.setSocket t { x with timeout := x.timeout - 1 }).setContext c
          { ctx with iterator := L.next t }, .sweep⟩ s ↔ s ≠ t ∧ Ahead A ⟨L, .sweep⟩ s :=
        hgood.ahead_next hi hctx ht hit hi (Function.update_self _ _ _) rfl
          fun _ c' hpc => by cases hpc
      rcases eq_or_ne s t with rfl | hne
      · have hw : w.afterAll s [.visited s] =
            { w with visits := w.visits + 1, alarm := w.alarm.map Alarm.visited } := by
          simp [Watch.afterAll, Watch.after]
        rw [hw]
        have hzero := h.unvisited hgood hi hctx hit
        refine ⟨h.sweeping, fun hs => ?_, fun _ hp => Or.inr ⟨?_, ?_⟩,
          fun c' hpc => (by cases hpc), fun a' ha' hp => ?_⟩
        · rw [h.sweeping] at hs
          cases hs
        · show w.visits + 1 = 1
          rw [hzero]
        · exact fun hp => (hahead.mp hp).1 rfl
        · obtain ⟨a, ha, rfl⟩ := Option.map_eq_some_iff.mp ha'
          obtain ⟨hcounts, hfired, hleft⟩ := h.alarm a ha hp
          rw [hx, Option.map_some] at hleft
          have hone : a.timeout - a.visits ≠ 1 := by
            rw [← Option.some.inj hleft]
            exact htimeout
          refine ⟨hcounts.visited, ?_, ?_⟩
          · show a.fired = a.visited.due
            rw [Alarm.due_visited hone, hfired]
          · show (Function.update L.sockets s _ s).map _ = some (a.timeout - (a.visits + 1))
            rw [Function.update_self, Option.map_some, ← Nat.sub_sub, ← Option.some.inj hleft]
      · have hw : w.afterAll s [.visited t] = w :=
          Watch.afterAll_of_not (by simp [Event.concerns, hne.symm])
        rw [hw]
        refine ⟨h.sweeping, h.quiet, fun hs hp => ?_, fun c' hpc => (by cases hpc),
          fun a ha hp => ?_⟩
        · rw [show Ahead (A.applyAll [.visited t]) _ s ↔ _ from hahead]
          simpa [hne] using h.visits hs hp
        · rw [show (((L.setSocket t { x with timeout := x.timeout - 1 }).setContext c
              { ctx with iterator := L.next t }).sockets s) = L.sockets s from
            Function.update_of_ne hne _ _]
          exact h.alarm a ha hp
  | @timeoutPassed _ c t ctx hctx hit =>
      have ht := hgood.socket_iterator c ctx t hctx hit
      have hi : L.iterator = some c := ho.timeout c t rfl
      have hahead : Ahead A ⟨L.setContext c { ctx with iterator := L.next t }, .sweep⟩ s ↔
          s ≠ t ∧ Ahead A ⟨L, .callback (.timeout c t)⟩ s :=
        hgood.ahead_next hi hctx ht hit hi (Function.update_self _ _ _) rfl
          fun hne c' hpc => by cases hpc; exact hne rfl
      have hsame : Ahead A ⟨L.setContext c { ctx with iterator := L.next t }, .sweep⟩ s ↔
          Ahead A ⟨L, .callback (.timeout c t)⟩ s := by
        rw [hahead]
        refine ⟨And.right, fun hp => ⟨?_, hp⟩⟩
        rintro rfl
        rcases (ahead_iff hi hctx).mp hp with ⟨-, hpc⟩ | hbehind
        · exact hpc c rfl
        · exact hgood.not_behind hctx ht hbehind
      refine ⟨h.sweeping, h.quiet, fun hs hp => ?_, fun c' hpc => (by cases hpc), h.alarm⟩
      rw [show Ahead (A.applyAll []) _ s ↔ _ from hsame]
      exact h.visits hs hp
  | @timeoutLeft _ c t ctx hctx hit =>
      rcases eq_or_ne s t with rfl | hne
      · refine ⟨h.sweeping, h.quiet, fun hs hp => ?_, fun c hpc => (by cases hpc), h.alarm⟩
        rcases h.visits hs hp with ⟨hzero, hahead⟩ | ⟨hone, -⟩
        · -- the socket has left its list and joined one
          refine Or.inl ⟨hzero, fun hf => ?_⟩
          obtain ⟨c', ctx', hi, hctx', hmem⟩ := hahead hf
          exact ⟨c', ctx', hi, hctx', hmem.imp_left fun hm => ⟨hm.1, by simp⟩⟩
        · -- the iterator would still be at the socket
          have hv : w.visits ≠ 0 := by omega
          obtain ⟨ctx', hctx', hit'⟩ := h.cursor c rfl hv hp
          obtain rfl := Option.some.inj (hctx.symm.trans hctx')
          exact absurd hit' hit
      · refine h.undisturbed (hsame rfl rfl rfl rfl) hgood.context_iterator rfl fun c' => ?_
        simp [hne.symm]

end Steps

/-! ### Runs -/

variable {σ : State}

theorem watch_append (s : Addr) (tr es : List Event) :
    watch s (tr ++ es) = (watch s tr).afterAll s es :=
  List.foldl_append

/-- In every run the watch of a socket is true. -/
theorem swept_of_run (h : machine.Run AnyStep tr σ) (s : Addr) :
    Swept (listsOf tr) σ s (watch s tr) := by
  refine (h.invariant (fun tr σ => Ordered (listsOf tr) σ ∧ Swept (listsOf tr) σ s (watch s tr))
    ⟨ordered_init, ?_⟩ ?_).2
  · exact .of_not_placed rfl (fun _ => ⟨rfl, rfl⟩) fun ⟨c, hm⟩ => by cases hm
  · rintro tr ⟨L, pc⟩ a σ' es ⟨ho, hw⟩ - hs
    have hm := moves_of_step ho hs
    rw [listsOf_append, watch_append]
    exact ⟨Ordered.step ho hm, hw.step ho hm⟩

/-- An event of the sweep that comes when it is its turn. -/
def InTurn (pre : List Event) : Event → Prop
  | .visited s => (watch s pre).sweeping = true ∧
      ((watch s pre).fresh = false → (watch s pre).visits = 0)
  | .sweep_end => ∀ s, (listsOf pre).Placed s → (watch s pre).fresh = false →
      (watch s pre).visits = 1
  | _ => True

/-- The events `InTurn` is about. -/
def Event.turns : Event → Bool
  | .visited _ => true
  | .sweep_end => true
  | _ => false

theorem inTurn_of_not {e : Event} (h : e.turns = false) (pre : List Event) : InTurn pre e := by
  cases e <;> trivial

theorem each_inTurn (h : Machine.Each InTurn tr) (hes : ∀ e ∈ es, e.turns = false) :
    Machine.Each InTurn (tr ++ es) := by
  refine Machine.each_append.mpr ⟨h, ?_⟩
  rintro pre e post rfl
  exact inTurn_of_not (hes e (by simp)) _

theorem Called.turns (hc : Called A L call es L') : ∀ e ∈ es, e.turns = false := by
  cases hc <;> simp [Event.turns]

/-- The events of a step come when it is their turn. -/
theorem Moves.inTurn {pc : Pc} {a : Label} {σ' : State} (h : Machine.Each InTurn tr)
    (ho : Ordered (listsOf tr) ⟨L, pc⟩) (hw : ∀ s, Swept (listsOf tr) ⟨L, pc⟩ s (watch s tr))
    (hm : Moves (listsOf tr) L pc a es σ') : Machine.Each InTurn (tr ++ es) := by
  have hgood : Good (listsOf tr) L (State.closedFrom ⟨L, pc⟩) := ho.good
  cases hm with
  | sweepEnd hi =>
      refine Machine.each_concat.mpr ⟨h, fun s hp hf => ?_⟩
      exact ((hw s).visits_of_end hi hp).2 hf
  | @timedOut c ctx s x hi hctx hit hx htimeout =>
      rw [List.append_cons]
      refine each_inTurn (Machine.each_concat.mpr ⟨h, ?_⟩) (by simp [Event.turns])
      exact ⟨(hw s).sweeping, fun _ => (hw s).unvisited hgood hi hctx hit⟩
  | @visited c ctx s x hi hctx hit hx htimeout =>
      exact Machine.each_concat.mpr
        ⟨h, (hw s).sweeping, fun _ => (hw s).unvisited hgood hi hctx hit⟩
  | call hpc hall hcalled => exact each_inTurn h hcalled.turns
  | _ => exact each_inTurn h (by simp [Event.turns])

theorem inTurn_of_run (h : machine.Run AnyStep tr σ) : Machine.Each InTurn tr := by
  refine (h.invariant (fun tr σ => (Ordered (listsOf tr) σ ∧
    ∀ s, Swept (listsOf tr) σ s (watch s tr)) ∧ Machine.Each InTurn tr)
    ⟨⟨ordered_init, swept_of_run .start⟩, Machine.each_nil⟩ ?_).2
  rintro tr ⟨L, pc⟩ a σ' es ⟨⟨ho, hw⟩, heach⟩ - hs
  have hm := moves_of_step ho hs
  rw [listsOf_append]
  refine ⟨⟨Ordered.step ho hm, fun s => ?_⟩, hm.inTurn heach ho hw⟩
  rw [watch_append]
  exact (hw s).step ho hm

/-- **A sweep comes to every socket once.**  In every run a sweep visits a socket
that has been in its list since before the sweep began only if it has not visited
it yet, and when the sweep ends it has visited every such socket: whatever is
closed, adopted, opened and created in the callbacks of the sweep. -/
theorem sweep_of_run (h : machine.Run AnyStep tr σ) : Machine.Each InTurn tr :=
  inTurn_of_run h

/-- Two sockets with timeouts of two sweeps and of one.  In the first sweep the second
of them is closed in its callback and another socket is opened. -/
def twoSweeps : List Label :=
  [.api (.create_socket_context 1), .api (.connect 1 2 5), .api (.connect 1 3 6),
    .api (.timeout 2 8), .api (.timeout 3 4), .epoll_wait [.timer], .next none, .sweep,
    .api (.close 3), .api (.connect 1 4 7), .ret none, .sweep, .sweep, .sweep, .next none,
    .free, .free, .epoll_wait [.timer], .next none, .sweep, .sweep, .ret none, .sweep, .sweep]

/-- Both sweeps have come to the socket that is left. -/
theorem sweep_of_run_twoSweeps :
    ∃ tr σ, machine.Run AnyStep tr σ ∧ Machine.Each InTurn tr ∧
      tr.count .sweep_end = 2 ∧ tr.count (.visited 2) = 2 ∧ tr.count (.visited 3) = 1 := by
  obtain ⟨tr, σ, hrun, hp⟩ := Machine.run_of_exec machine AnyStep twoSweeps
    (fun r => decide (r.2.count .sweep_end = 2 ∧ r.2.count (.visited 2) = 2 ∧
      r.2.count (.visited 3) = 1)) (by decide)
  exact ⟨tr, σ, hrun, sweep_of_run hrun, of_decide_eq_true hp⟩

/-- A timeout set again in its own callback: the sweep that comes to its end has been
there before. -/
example : (machine.exec AnyStep State.init []
    [.api (.create_socket_context 1), .api (.connect 1 2 5), .api (.timeout 2 4),
      .epoll_wait [.timer], .next none, .sweep, .api (.timeout 2 4), .ret none, .sweep,
      .sweep]).any (fun r => r.2.drop 7 = [.timeout 2 1, .sweep_end]) = true := by
  decide

end TestExamples.USockets
