/-
TestExamples/TcpConnectionWrites.lean

The output queue of SocketExams/Uvpp/TcpConnection.cpp between its calls.

`send_msg` and `on_write_finished` call `write_next_buff`, which calls
`m_do_write` and sets `m_write_in_progress` behind it.  `m_do_write` belongs to
the owner of the connection: while it runs it may call `send_msg`, any number of
times.  So a call of `m_do_write` and its return are steps of their own here, and
`inside` counts the calls that have not returned.  `on_write_finished` comes once
for each call of `m_do_write`, and not while one is running.

Where nobody sends from inside `m_do_write`, the steps of a call together are the
functions of `TcpConnection` (`settle_send_msg`, `settle_on_write_finished`).
-/
import TestExamples.Lib.Machine
import TestExamples.UvppServer

namespace TestExamples

open TcpConnection (abcd Steady)

/-- A connection and what its owner knows of its writes. -/
structure Writer where
  conn : TcpConnection
  inside : Nat      -- calls of `m_do_write` that have not returned
  outstanding : Nat -- calls of `m_do_write` that have not been finished

namespace Writer

inductive Act
  | send_msg (msg : List Byte)
  | returned          -- `m_do_write` returns to `write_next_buff`
  | on_write_finished
  deriving DecidableEq, Repr

inductive Event
  | m_do_write (buffer : List Byte)
  | finished
  | aborted -- an `assert` fails
  deriving DecidableEq, Repr

def init : Writer := ⟨.new, 0, 0⟩

/-- `write_next_buff`, up to the call of `m_do_write`. -/
def write_next_buff (s : Writer) : Writer × List Event :=
  if s.conn.m_write_in_progress = true ∨ s.conn.m_output_buff = [] then (s, [.aborted])
  else
    ({ s with inside := s.inside + 1, outstanding := s.outstanding + 1 }, [.m_do_write abcd])

def send_msg (s : Writer) (msg : List Byte) : Writer × List Event :=
  let s' := { s with conn := { s.conn with m_output_buff := s.conn.m_output_buff ++ [msg] } }
  if s.conn.m_output_buff = [] then s'.write_next_buff else (s', [])

/-- `write_next_buff`, behind the call of `m_do_write`. -/
def returned (s : Writer) : Writer :=
  { s with conn := { s.conn with m_write_in_progress := true }, inside := s.inside - 1 }

def on_write_finished (s : Writer) : Writer × List Event :=
  let outstanding := s.outstanding - 1
  match s.conn.m_output_buff with
  | [] =>
      ({ s with conn := { s.conn with m_write_in_progress := false }, outstanding := outstanding },
        [.finished, .aborted])
  | _ :: rest =>
      let s' := { s with
        conn := { s.conn with m_output_buff := rest, m_write_in_progress := false }
        outstanding := outstanding }
      if rest = [] then (s', [.finished])
      else
        let (s'', es) := s'.write_next_buff
        (s'', .finished :: es)

def step (s : Writer) : Act → Option (Writer × List Event)
  | .send_msg msg => some (s.send_msg msg)
  | .returned => if 0 < s.inside then some (s.returned, []) else none
  | .on_write_finished =>
      if s.inside = 0 ∧ 0 < s.outstanding then some s.on_write_finished else none

def machine : Machine Writer Act Event := ⟨init, step⟩

/-! ### What the queue keeps -/

def calls (tr : List Event) : Nat :=
  tr.countP fun
    | .m_do_write _ => true
    | _ => false

def completions (tr : List Event) : Nat := tr.count .finished

/-- **The write queue.**  Between two calls the flag says whether there is
something in the queue, and then there is one write that has not been finished;
there is never another, and no `assert` fails. -/
structure WriteQueue (tr : List Event) (s : Writer) : Prop where
  flag : s.inside = 0 → s.conn.Steady
  counts : s.inside = 0 →
    calls tr = completions tr + if s.conn.m_output_buff = [] then 0 else 1
  one : calls tr ≤ completions tr + 1
  asserts : .aborted ∉ tr

/-- What holds with the calls under way.  While `m_do_write` runs the flag is
down, but its message is at the front of the queue. -/
inductive Writing (tr : List Event) (s : Writer) : Prop
  | idle (inside : s.inside = 0) (buff : s.conn.m_output_buff = [])
      (flag : s.conn.m_write_in_progress = false) (outstanding : s.outstanding = 0)
  | written (inside : s.inside = 0) (buff : s.conn.m_output_buff ≠ [])
      (flag : s.conn.m_write_in_progress = true) (outstanding : s.outstanding = 1)
  | calling (inside : s.inside = 1) (buff : s.conn.m_output_buff ≠ [])
      (flag : s.conn.m_write_in_progress = false) (outstanding : s.outstanding = 1)

structure Kept (tr : List Event) (s : Writer) : Prop where
  writing : Writing tr s
  counts : calls tr = completions tr + s.outstanding
  asserts : .aborted ∉ tr

section Queue

variable {s s' : Writer} {tr es : List Event} {act : Act}

theorem calls_append : calls (tr ++ es) = calls tr + calls es := List.countP_append

theorem completions_append : completions (tr ++ es) = completions tr + completions es :=
  List.count_append

/-- Where the asserts hold. -/
theorem write_next_buff_eq (s : Writer) (hflag : s.conn.m_write_in_progress = false)
    (hbuff : s.conn.m_output_buff ≠ []) : s.write_next_buff =
      ({ s with inside := s.inside + 1, outstanding := s.outstanding + 1 },
        [.m_do_write abcd]) := by
  refine if_neg ?_
  rintro (h | h)
  · rw [hflag] at h
    cases h
  · exact hbuff h

/-- What a step adds to the history. -/
theorem Kept.add (h : Kept tr s) (hw : Writing (tr ++ es) s')
    (hcounts : calls es + s.outstanding = completions es + s'.outstanding)
    (hes : .aborted ∉ es) : Kept (tr ++ es) s' := by
  refine ⟨hw, ?_, ?_⟩
  · have hold := h.counts
    rw [calls_append, completions_append]
    omega
  · rw [List.mem_append]
    exact not_or_intro h.asserts hes

theorem Kept.send_msg (h : Kept tr s) (msg : List Byte) :
    Kept (tr ++ (s.send_msg msg).2) (s.send_msg msg).1 := by
  have hne : s.conn.m_output_buff ++ [msg] ≠ [] := List.concat_ne_nil msg _
  unfold Writer.send_msg
  cases h.writing with
  | idle inside buff flag outstanding =>
      have hnext := write_next_buff_eq
        ⟨{ s.conn with m_output_buff := s.conn.m_output_buff ++ [msg] }, s.inside, s.outstanding⟩
        flag hne
      rw [if_pos buff, hnext]
      refine h.add (.calling ?_ hne flag ?_) ?_ (by simp)
      · show s.inside + 1 = 1
        rw [inside]
      · show s.outstanding + 1 = 1
        rw [outstanding]
      · show 1 + s.outstanding = 0 + (s.outstanding + 1)
        omega
  | written inside buff flag outstanding =>
      rw [if_neg buff]
      exact h.add (.written inside hne flag outstanding) rfl List.not_mem_nil
  | calling inside buff flag outstanding =>
      -- the message being written is in the queue
      rw [if_neg buff]
      exact h.add (.calling inside hne flag outstanding) rfl List.not_mem_nil

theorem Kept.returned (h : Kept tr s) (hin : 0 < s.inside) : Kept (tr ++ []) s.returned := by
  cases h.writing with
  | idle inside | written inside => omega
  | calling inside buff flag outstanding =>
      refine h.add (.written ?_ buff rfl outstanding) rfl List.not_mem_nil
      show s.inside - 1 = 0
      rw [inside]

theorem Kept.on_write_finished (h : Kept tr s) (hin : s.inside = 0) (hout : 0 < s.outstanding) :
    Kept (tr ++ s.on_write_finished.2) s.on_write_finished.1 := by
  cases h.writing with
  | idle inside buff flag outstanding => omega
  | calling inside buff flag outstanding => omega
  | written inside buff flag outstanding =>
      obtain ⟨m, rest, hbuff⟩ := List.exists_cons_of_ne_nil buff
      unfold Writer.on_write_finished
      rw [hbuff]
      by_cases hrest : rest = []
      · subst hrest
        refine h.add (.idle inside rfl rfl ?_) ?_ (by simp)
        · show s.outstanding - 1 = 0
          rw [outstanding]
        · show 0 + s.outstanding = 1 + (s.outstanding - 1)
          omega
      · -- the next message
        simp only [if_neg hrest]
        rw [write_next_buff_eq _ rfl hrest]
        refine h.add (.calling ?_ hrest rfl ?_) ?_ (by simp)
        · show s.inside + 1 = 1
          rw [inside]
        · show s.outstanding - 1 + 1 = 1
          rw [outstanding]
        · show 1 + s.outstanding = 1 + (s.outstanding - 1 + 1)
          omega

theorem Kept.step (h : Kept tr s) (hs : s.step act = some (s', es)) : Kept (tr ++ es) s' := by
  cases act with
  | send_msg msg =>
      have hsend := h.send_msg msg
      rw [Option.some.inj hs] at hsend
      exact hsend
  | returned =>
      obtain ⟨hin, hs⟩ := Option.ite_none_right_eq_some.mp hs
      obtain ⟨rfl, rfl⟩ := Prod.mk.inj (Option.some.inj hs)
      exact h.returned hin
  | on_write_finished =>
      obtain ⟨⟨hin, hout⟩, hs⟩ := Option.ite_none_right_eq_some.mp hs
      have hfinish := h.on_write_finished hin hout
      rw [Option.some.inj hs] at hfinish
      exact hfinish

theorem Kept.writeQueue (h : Kept tr s) : WriteQueue tr s := by
  have hcounts := h.counts
  cases h.writing with
  | idle inside buff flag outstanding =>
      refine ⟨fun _ => ?_, fun _ => ?_, by omega, h.asserts⟩
      · refine iff_of_false ?_ (not_not_intro buff)
        rw [flag]
        exact Bool.false_ne_true
      · rw [if_pos buff, hcounts, outstanding]
  | written inside buff flag outstanding =>
      refine ⟨fun _ => iff_of_true flag buff, fun _ => ?_, by omega, h.asserts⟩
      rw [if_neg buff, hcounts, outstanding]
  | calling inside buff flag outstanding =>
      exact ⟨fun hzero => by omega, fun hzero => by omega, by omega, h.asserts⟩

/-- **The queue is kept in every run**, whatever is sent and whenever, also from
inside `m_do_write`. -/
theorem writeQueue_of_run (h : machine.Run AnyStep tr s) : WriteQueue tr s := by
  have hkept : Kept tr s := by
    refine h.invariant Kept ?_ fun ih _ hs => ih.step hs
    exact ⟨.idle rfl rfl rfl rfl, rfl, List.not_mem_nil⟩
  exact hkept.writeQueue

/-- Two messages, the second sent from inside `m_do_write`, and a completion. -/
theorem writeQueue_of_run_two :
    ∃ tr s, machine.Run AnyStep tr s ∧ s.inside = 0 ∧ s.conn.m_output_buff = [[98]] ∧
      calls tr = 2 ∧ WriteQueue tr s := by
  obtain ⟨tr, s, hrun, hp⟩ := machine.run_of_exec AnyStep
    [.send_msg [97], .send_msg [98], .returned, .on_write_finished, .returned]
    (fun q => decide (q.1.inside = 0 ∧ q.1.conn.m_output_buff = [[98]] ∧ calls q.2 = 2))
    (by decide +kernel)
  obtain ⟨hin, hbuff, hcalls⟩ := of_decide_eq_true hp
  exact ⟨tr, s, hrun, hin, hbuff, hcalls, writeQueue_of_run hrun⟩

/-! ### Whole calls -/

/-- `m_do_write`, if it has been called, returns. -/
def settle (q : Writer × List Event) : Writer × List Event :=
  if 0 < q.1.inside then (q.1.returned, q.2) else q

theorem settle_cons (q : Writer × List Event) (e : Event) :
    settle (q.1, e :: q.2) = ((settle q).1, e :: (settle q).2) := by
  unfold settle
  split <;> rfl

theorem settle_write_next_buff (s : Writer) (hin : s.inside = 0) {r : List Byte × TcpConnection}
    (h : s.conn.write_next_buff = some r) :
    settle s.write_next_buff =
      (⟨r.2, 0, s.outstanding + 1⟩, [.m_do_write r.1]) := by
  unfold TcpConnection.write_next_buff at h
  split_ifs at h with hflag
  split at h
  · cases h
  · next m rest hbuff =>
    obtain rfl := Option.some.inj h
    have hne : s.conn.m_output_buff ≠ [] := by
      rw [hbuff]
      exact List.cons_ne_nil m rest
    rw [write_next_buff_eq s (Bool.eq_false_iff.mpr hflag) hne, hin]
    rfl

/-- **`send_msg` as a whole**, where nothing is sent from inside `m_do_write`. -/
theorem settle_send_msg (hin : s.inside = 0) (msg : List Byte)
    {r : List (List Byte) × TcpConnection} (h : s.conn.send_msg msg = some r) :
    settle (s.send_msg msg) =
      (⟨r.2, 0, s.outstanding + r.1.length⟩, r.1.map .m_do_write) := by
  unfold TcpConnection.send_msg at h
  unfold Writer.send_msg
  split_ifs at h with hbuff
  · obtain ⟨p, hp, rfl⟩ := Option.map_eq_some_iff.mp h
    rw [if_pos hbuff]
    exact settle_write_next_buff
      ⟨{ s.conn with m_output_buff := s.conn.m_output_buff ++ [msg] }, s.inside, s.outstanding⟩
      hin hp
  · obtain rfl := Option.some.inj h
    rw [if_neg hbuff]
    unfold settle
    rw [if_neg (by simp [hin]), ← hin]
    rfl

/-- **`on_write_finished` as a whole.** -/
theorem settle_on_write_finished (hin : s.inside = 0)
    {r : List (List Byte) × TcpConnection} (h : s.conn.on_write_finished = some r) :
    settle s.on_write_finished =
      (⟨r.2, 0, s.outstanding - 1 + r.1.length⟩, .finished :: r.1.map .m_do_write) := by
  unfold TcpConnection.on_write_finished at h
  unfold Writer.on_write_finished
  rcases hbuff : s.conn.m_output_buff with - | ⟨m, rest⟩
  · rw [hbuff] at h
    cases h
  · rw [hbuff] at h
    dsimp only at h ⊢
    split_ifs at h with hrest
    · obtain rfl := Option.some.inj h
      simp only [if_pos hrest]
      unfold settle
      rw [if_neg (by simp [hin]), hin]
      rfl
    · obtain ⟨p, hp, rfl⟩ := Option.map_eq_some_iff.mp h
      have hnext := settle_write_next_buff
        ⟨{ s.conn with m_output_buff := rest, m_write_in_progress := false }, s.inside,
          s.outstanding - 1⟩ hin hp
      simp only [if_neg hrest]
      rw [settle_cons, hnext]
      rfl

end Queue

end Writer

end TestExamples
