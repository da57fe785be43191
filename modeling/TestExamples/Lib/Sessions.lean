/-
TestExamples/Lib/Sessions.lean

Sessions numbered in the order they are opened, and the calls a listener gets
about them.

A service opens sessions, passes on what arrives in them and closes them; it
may also refuse one, which takes a number and nothing else.  `SessionStep` is
what a step of such a service may enter in the history, given which sessions
are live and which number comes next.  It asks little: a call about a session
needs the session to be live, and a closed one is not live any more.

`Sessions` follows from it by induction on the run: the calls about one session
are its opening, then messages, then at most one closing (`IsSession`).
-/
import Mathlib.Data.List.Basic
import Mathlib.Order.Nat

namespace TestExamples

variable {μ : Type*}

/-- A call about a session. -/
inductive SessionCall (μ : Type*)
  | opened
  | message (m : μ)
  | closed
  deriving DecidableEq, Repr

/-- An entry of the history: a call about session `k`, or that `k` is
refused. -/
inductive SessionEntry (μ : Type*)
  | call (k : Nat) (c : SessionCall μ)
  | refused (k : Nat)
  deriving DecidableEq, Repr

/-- The call of an entry, if it is about session `k`. -/
def SessionEntry.callOf (k : Nat) : SessionEntry μ → Option (SessionCall μ)
  | .call j c => if j = k then some c else none
  | .refused _ => none

/-- The calls about session `k`, in order. -/
def sessionWord (k : Nat) (tr : List (SessionEntry μ)) : List (SessionCall μ) :=
  tr.filterMap (SessionEntry.callOf k)

/-- Opened, then messages, then possibly closed; or nothing at all. -/
def IsSession (w : List (SessionCall μ)) : Prop :=
  w = [] ∨ ∃ ms : List μ, w = .opened :: ms.map .message ∨
    w = .opened :: (ms.map .message ++ [.closed])

/-- One step of a service: the sessions live before it and the next number,
its entries, and the same after it. -/
inductive SessionStep (live : Nat → Prop) (next : Nat) :
    List (SessionEntry μ) → (Nat → Prop) → Nat → Prop
  | quiet {live'} (hlive : ∀ k, live' k → live k) : SessionStep live next [] live' next
  | refuse {live'} (hlive : ∀ k, live' k → live k) :
      SessionStep live next [.refused next] live' (next + 1)
  | open {live'} (hlive : ∀ k, live' k → live k ∨ k = next) :
      SessionStep live next [.call next .opened] live' (next + 1)
  | message {k m live'} (hk : live k) (hlive : ∀ k, live' k → live k) :
      SessionStep live next [.call k (.message m)] live' next
  | close {k live'} (hk : live k) (hlive : ∀ j, live' j → live j ∧ j ≠ k) :
      SessionStep live next [.call k .closed] live' next

/-- The history of a service that takes such steps. -/
structure Sessions (tr : List (SessionEntry μ)) (live : Nat → Prop) (next : Nat) : Prop where
  lt : ∀ k, live k → k < next
  fresh : ∀ k, next ≤ k → sessionWord k tr = []
  words : ∀ k, IsSession (sessionWord k tr)
  opened : ∀ k, live k → ∃ ms : List μ, sessionWord k tr = .opened :: ms.map .message
  refused : ∀ k, .refused k ∈ tr → sessionWord k tr = [] ∧ k < next ∧ ¬ live k

section Word

variable {k j : Nat} {tr : List (SessionEntry μ)} {c : SessionCall μ}

@[simp] theorem sessionWord_nil : sessionWord k ([] : List (SessionEntry μ)) = [] := rfl

theorem sessionWord_append (tr es : List (SessionEntry μ)) :
    sessionWord k (tr ++ es) = sessionWord k tr ++ sessionWord k es :=
  List.filterMap_append ..

theorem sessionWord_refused (tr : List (SessionEntry μ)) (j : Nat) :
    sessionWord k (tr ++ [.refused j]) = sessionWord k tr := by
  rw [sessionWord_append]
  exact List.append_nil _

theorem sessionWord_call_self (tr : List (SessionEntry μ)) (c : SessionCall μ) :
    sessionWord k (tr ++ [.call k c]) = sessionWord k tr ++ [c] := by
  rw [sessionWord_append]
  simp [sessionWord, SessionEntry.callOf]

theorem sessionWord_call_of_ne (tr : List (SessionEntry μ)) (c : SessionCall μ) (h : j ≠ k) :
    sessionWord k (tr ++ [.call j c]) = sessionWord k tr := by
  rw [sessionWord_append]
  simp [sessionWord, SessionEntry.callOf, h]

end Word

namespace Sessions

variable {tr es : List (SessionEntry μ)} {live live' : Nat → Prop} {next next' : Nat}

theorem init (h : ∀ k, ¬ live k) : Sessions ([] : List (SessionEntry μ)) live next where
  lt := fun k hk => absurd hk (h k)
  fresh := fun _ _ => rfl
  words := fun _ => .inl rfl
  opened := fun k hk => absurd hk (h k)
  refused := fun _ hk => by cases hk

/-- A call about session `j`, which is live or the next one. -/
theorem call (h : Sessions tr live next) {j : Nat} {c : SessionCall μ}
    (hj : ∀ k, .refused k ∈ tr → k ≠ j) (hlt : j < next') (hle : next ≤ next')
    (hlive : ∀ k, live' k → k ≠ j → live k) (hword : IsSession (sessionWord j tr ++ [c]))
    (hopened : live' j → ∃ ms : List μ, sessionWord j tr ++ [c] = .opened :: ms.map .message) :
    Sessions (tr ++ [.call j c]) live' next' := by
  have hother : ∀ k, k ≠ j → sessionWord k (tr ++ [.call j c]) = sessionWord k tr := fun k hk =>
    sessionWord_call_of_ne tr c hk.symm
  refine ⟨fun k hk => ?_, fun k hk => ?_, fun k => ?_, fun k hk => ?_, fun k hk => ?_⟩
  · rcases eq_or_ne k j with rfl | hne
    · exact hlt
    · exact (h.lt k (hlive k hk hne)).trans_le hle
  · have hne : k ≠ j := by omega
    rw [hother k hne]
    exact h.fresh k (hle.trans hk)
  · rcases eq_or_ne k j with rfl | hne
    · rwa [sessionWord_call_self]
    · rw [hother k hne]
      exact h.words k
  · rcases eq_or_ne k j with rfl | hne
    · rw [sessionWord_call_self]
      exact hopened hk
    · rw [hother k hne]
      exact h.opened k (hlive k hk hne)
  · have hk : .refused k ∈ tr := by simpa using hk
    have hne := hj k hk
    obtain ⟨hword, hlt, hno⟩ := h.refused k hk
    rw [hother k hne]
    exact ⟨hword, hlt.trans_le hle, fun hk => hno (hlive k hk hne)⟩

/-- **One step of the service keeps the sessions in order.** -/
theorem step (h : Sessions tr live next) (hs : SessionStep live next es live' next') :
    Sessions (tr ++ es) live' next' := by
  cases hs with
  | quiet hlive =>
      rw [List.append_nil]
      exact ⟨fun k hk => h.lt k (hlive k hk), h.fresh, h.words, fun k hk => h.opened k (hlive k hk),
        fun k hk => ⟨(h.refused k hk).1, (h.refused k hk).2.1, fun hl =>
          (h.refused k hk).2.2 (hlive k hl)⟩⟩
  | refuse hlive =>
      refine ⟨fun k hk => ?_, fun k hk => ?_, fun k => ?_, fun k hk => ?_, fun k hk => ?_⟩
      · exact (h.lt k (hlive k hk)).trans (Nat.lt_succ_self _)
      · rw [sessionWord_refused]
        exact h.fresh k (Nat.le_of_succ_le hk)
      · rw [sessionWord_refused]
        exact h.words k
      · rw [sessionWord_refused]
        exact h.opened k (hlive k hk)
      · rw [sessionWord_refused]
        rcases List.mem_append.mp hk with hk | hk
        · obtain ⟨hword, hlt, hno⟩ := h.refused k hk
          exact ⟨hword, hlt.trans (Nat.lt_succ_self _), fun hl => hno (hlive k hl)⟩
        · obtain rfl : k = next := by simpa using hk
          exact ⟨h.fresh k (Nat.le_refl _), Nat.lt_succ_self _, fun hl =>
            absurd (h.lt k (hlive k hl)) (Nat.lt_irrefl _)⟩
  | «open» hlive =>
      have hfresh := h.fresh next (Nat.le_refl _)
      refine h.call (fun k hk => ((h.refused k hk).2.1).ne) (Nat.lt_succ_self _) (Nat.le_succ _)
        (fun k hk hne => (hlive k hk).resolve_right hne) ?_ fun _ => ?_
      · rw [hfresh]
        exact .inr ⟨[], .inl rfl⟩
      · rw [hfresh]
        exact ⟨[], rfl⟩
  | @message k m _ hk hlive =>
      obtain ⟨ms, hms⟩ := h.opened k hk
      have hword : sessionWord k tr ++ [.message m] = .opened :: (ms ++ [m]).map .message := by
        rw [hms, List.map_append]
        rfl
      refine h.call (fun j hj he => ?_) (h.lt k hk) (Nat.le_refl _) (fun j hj _ => hlive j hj) ?_
        fun _ => ⟨_, hword⟩
      · exact (h.refused j hj).2.2 (he ▸ hk)
      · exact .inr ⟨_, .inl hword⟩
  | @close k _ hk hlive =>
      obtain ⟨ms, hms⟩ := h.opened k hk
      refine h.call (fun j hj he => ?_) (h.lt k hk) (Nat.le_refl _) (fun j hj _ => (hlive j hj).1)
        ?_ fun hl => absurd rfl (hlive k hl).2
      · exact (h.refused j hj).2.2 (he ▸ hk)
      · rw [hms]
        exact .inr ⟨ms, .inr rfl⟩

end Sessions

end TestExamples
