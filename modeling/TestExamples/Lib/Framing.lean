/-
TestExamples/Lib/Framing.lean

Incremental framing of a symbol stream.

A framing rule looks at the symbols received so far and gives a verdict: wait
for more, the stream is not well framed, or a frame is complete at the front,
with the value it carries and the symbols behind it.  The one law asked of a
rule is `next_append`: a complete frame stays complete, and the same, when
more symbols arrive.

`Drains F xs vs tail` is the reader's loop: from the symbols `xs` it takes
the frames `vs` and stops with `tail` left over.

A rule *decodes* an encoder when each encoding is recognised whatever follows
it, and no strict prefix of it is mistaken for a frame or for an error.  Then
the values read from any prefix of a stream of encodings are a prefix of the
values encoded, wherever the prefix ends (`Decodes.drains_of_append`), one
frame at a time (`Decodes.next_of_append`).
-/
import Mathlib.Data.List.Basic

namespace TestExamples

variable {α μ κ : Type*}

/-- What a framing rule says of the symbols at hand. -/
inductive Verdict (α μ : Type*)
  | more
  | bad
  | frame (v : μ) (rest : List α)

/-- A framing rule: waits on nothing, and never changes its mind about a
complete frame. -/
structure Framing (α μ : Type*) where
  next : List α → Verdict α μ
  next_nil : next [] = .more
  next_append : ∀ {xs v rest} ys, next xs = .frame v rest →
    next (xs ++ ys) = .frame v (rest ++ ys)

namespace Framing

variable {F : Framing α μ}

/-- The reader's loop: take frames off the front as long as there is one. -/
inductive Drains (F : Framing α μ) : List α → List μ → List α → Prop
  | stop {xs} : (∀ v rest, F.next xs ≠ .frame v rest) → Drains F xs [] xs
  | frame {xs v rest vs tail} : F.next xs = .frame v rest → Drains F rest vs tail →
      Drains F xs (v :: vs) tail

/-- The loop stops in front of no frame. -/
theorem Drains.next_tail {xs tail : List α} {vs : List μ} (h : F.Drains xs vs tail) :
    ∀ v rest, F.next tail ≠ .frame v rest := by
  induction h with
  | stop hstop => exact hstop
  | frame _ _ ih => exact ih

/-- What the loop takes off a stream is determined by the stream. -/
theorem Drains.unique {xs tail tail' : List α} {vs vs' : List μ}
    (h : F.Drains xs vs tail) (h' : F.Drains xs vs' tail') : vs = vs' ∧ tail = tail' := by
  induction h generalizing vs' tail' with
  | stop hstop =>
      cases h' with
      | stop _ => exact ⟨rfl, rfl⟩
      | frame hf _ => exact absurd hf (hstop _ _)
  | frame hf _ ih =>
      cases h' with
      | stop hstop => exact absurd hf (hstop _ _)
      | frame hf' hrest =>
          rw [hf] at hf'
          obtain ⟨rfl, rfl⟩ := Verdict.frame.inj hf'
          obtain ⟨rfl, rfl⟩ := ih hrest
          exact ⟨rfl, rfl⟩

/-- **Segmentation.**  Draining what is there and then what has arrived in
addition is draining the whole at once. -/
theorem Drains.append {xs ys mid tail : List α} {vs ws : List μ}
    (h : F.Drains xs vs mid) (h' : F.Drains (mid ++ ys) ws tail) :
    F.Drains (xs ++ ys) (vs ++ ws) tail := by
  induction h with
  | stop _ => exact h'
  | frame hf _ ih => exact .frame (F.next_append ys hf) (ih h')

/-! ### Decoding an encoder -/

/-- `F` decodes `enc`: an encoding is recognised as the frame carrying
`val m`, whatever follows, and on a strict prefix of it the rule waits. -/
structure Decodes (F : Framing α μ) (enc : κ → List α) (val : κ → μ)
    (good : κ → Prop) : Prop where
  next_enc : ∀ {m} ys, good m → F.next (enc m ++ ys) = .frame (val m) ys
  next_prefix : ∀ {m xs zs}, good m → zs ≠ [] → enc m = xs ++ zs → F.next xs = .more

namespace Decodes

variable {enc : κ → List α} {val : κ → μ} {good : κ → Prop}

/-- Where a prefix of a stream of encodings ends: either the prefix is
shorter than the first frame, or that frame is complete and the rest of the
prefix is a prefix of the remaining stream. -/
theorem next_of_append (D : F.Decodes enc val good) {ms : List κ}
    (hgood : ∀ m ∈ ms, good m) {xs zs : List α} (h : xs ++ zs = ms.flatMap enc) :
    (F.next xs = .more ∧ (ms = [] → xs = []) ∧
      ∀ m ms', ms = m :: ms' → xs.length < (enc m).length) ∨
    ∃ m ms' rest, ms = m :: ms' ∧ F.next xs = .frame (val m) rest ∧
      xs = enc m ++ rest ∧ rest ++ zs = ms'.flatMap enc := by
  rcases ms with - | ⟨m, ms⟩
  · obtain ⟨rfl, rfl⟩ : xs = [] ∧ zs = [] := by simpa using h
    exact .inl ⟨F.next_nil, fun _ => rfl, by simp⟩
  · have hm : good m := hgood m (by simp)
    rw [List.flatMap_cons, List.append_eq_append_iff] at h
    rcases h with ⟨as, henc, hzs⟩ | ⟨rest, rfl, hrest⟩
    · rcases as with - | ⟨a, as⟩
      · -- the prefix ends exactly where the first frame does
        refine .inr ⟨m, ms, [], rfl, ?_, by simpa using henc.symm, by simpa using hzs⟩
        have := D.next_enc [] hm
        simpa [henc] using this
      · refine .inl ⟨D.next_prefix hm (by simp) henc, by simp, ?_⟩
        rintro m' ms' he
        obtain ⟨rfl, -⟩ := List.cons.inj he
        simp [henc]
    · exact .inr ⟨m, ms, rest, rfl, D.next_enc rest hm, rfl, hrest.symm⟩

/-- **Any prefix of a stream of encodings drains to a prefix of the values**,
and what is left over is a strict prefix of the next frame. -/
theorem drains_of_append (D : F.Decodes enc val good) {ms : List κ}
    (hgood : ∀ m ∈ ms, good m) {xs zs : List α} (h : xs ++ zs = ms.flatMap enc) :
    ∃ done left tail, ms = done ++ left ∧ F.Drains xs (done.map val) tail ∧
      tail ++ zs = left.flatMap enc ∧ F.next tail = .more ∧ (left = [] → tail = []) ∧
      ∀ m ms', left = m :: ms' → tail.length < (enc m).length := by
  induction ms generalizing xs with
  | nil =>
      obtain ⟨rfl, rfl⟩ : xs = [] ∧ zs = [] := by simpa using h
      exact ⟨[], [], [], rfl, .stop (by simp [F.next_nil]), rfl, F.next_nil, fun _ => rfl, by simp⟩
  | cons m ms ih =>
      rcases D.next_of_append hgood h with ⟨hmore, hnil, hlen⟩ | ⟨m', ms', rest, he, hf, rfl, hrest⟩
      · exact ⟨[], m :: ms, xs, rfl, .stop (by simp [hmore]), h, hmore, hnil, hlen⟩
      · obtain ⟨rfl, rfl⟩ := List.cons.inj he
        obtain ⟨done, left, tail, rfl, hd, htail, hmore, hnil, hlen⟩ :=
          ih (fun m hm => hgood m (by simp [hm])) hrest
        exact ⟨m :: done, left, tail, rfl, .frame hf hd, htail, hmore, hnil, hlen⟩

/-- **Any prefix of a stream of encodings with something else behind them**
drains to a prefix of the values, provided that there is no frame in front of
what is behind. -/
theorem drains_of_tail (D : F.Decodes enc val good) {ms : List κ} (hgood : ∀ m ∈ ms, good m)
    {xs zs tail : List α} (hstop : ∀ v rest, F.next tail ≠ .frame v rest)
    (h : xs ++ zs = ms.flatMap enc ++ tail) :
    ∃ done left mid, ms = done ++ left ∧ F.Drains xs (done.map val) mid ∧
      xs = done.flatMap enc ++ mid ∧ mid ++ zs = left.flatMap enc ++ tail := by
  induction ms generalizing xs with
  | nil =>
      refine ⟨[], [], xs, rfl, .stop fun v rest hf => ?_, rfl, h⟩
      rw [List.flatMap_nil, List.nil_append] at h
      exact hstop v _ (h ▸ F.next_append zs hf)
  | cons m ms ih =>
      have hm : good m := hgood m (List.mem_cons_self ..)
      have h' := h
      rw [List.flatMap_cons, List.append_assoc, List.append_eq_append_iff] at h'
      rcases h' with ⟨as, henc, hzs⟩ | ⟨rest, rfl, hrest⟩
      · rcases as with - | ⟨a, as⟩
        · -- the prefix ends exactly where the first frame does
          obtain ⟨done, left, mid, rfl, hd, hmid, htail⟩ :=
            ih (fun m hm => hgood m (List.mem_cons_of_mem _ hm))
              (show [] ++ zs = _ by simpa using hzs)
          rw [List.append_nil] at henc
          refine ⟨m :: done, left, mid, rfl, ?_, ?_, htail⟩
          · exact .frame (henc ▸ List.append_nil (enc m) ▸ D.next_enc [] hm) hd
          · rw [List.flatMap_cons, List.append_assoc, ← hmid, List.append_nil, henc]
        · refine ⟨[], m :: ms, xs, rfl, .stop fun v rest hf => ?_, rfl, h⟩
          rw [D.next_prefix hm (by simp) henc] at hf
          cases hf
      · obtain ⟨done, left, mid, rfl, hd, hmid, htail⟩ :=
          ih (fun m hm => hgood m (List.mem_cons_of_mem _ hm)) hrest.symm
        refine ⟨m :: done, left, mid, rfl, .frame (D.next_enc rest hm) hd, ?_, htail⟩
        rw [List.flatMap_cons, List.append_assoc, ← hmid]

end Decodes

end Framing

end TestExamples
