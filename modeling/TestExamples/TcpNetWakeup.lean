/-
TestExamples/TcpNetWakeup.lean

Every answer wakes its caller.

A `SyncSend` that waits has its semaphore entered under its id, and no two calls
that have not sent yet hold the same id, nor one that is in the transport
(`Entered`).  So the first message with the id of a call comes after the call has
begun to wait, and `OnMsg` finds the semaphore (`Woken`).

At rest all requests written have been answered and all answers handed over
(`RoundTrip.echo_complete`): whoever waits for one of them has its permit.
-/
import TestExamples.TcpNet

namespace TestExamples

open MyServer (isAnswered m_pThread)

/-- The id of a call that has not sent its request. -/
def SendPc.unsent? : SendPc → Option Nat
  | .issued _ _ i | .registered _ _ i | .asyncIssued _ _ i => some i
  | _ => none

/-- The id of a call between its two sections of `m_reqSemLock`. -/
def SendPc.entered? : SendPc → Option Nat
  | .registered _ _ i | .waiting _ i | .acquired _ i | .leaving _ i _ => some i
  | _ => none

theorem SendPc.reqId?_of_entered? {p : SendPc} {i : Nat} (h : p.entered? = some i) :
    p.reqId? = some i := by
  cases p <;> first | exact h | cases h

theorem SendPc.own?_of_unsent? {p : SendPc} {i : Nat} (h : p.unsent? = some i) :
    ∃ m, p.own? = some (i, m) := by
  cases p with
  | issued _ m _ | registered _ m _ | asyncIssued _ m _ =>
      obtain rfl := Option.some.inj h
      exact ⟨m, rfl⟩
  | _ => cases h

/-- The message handed to `OnMsg`. -/
def Notice.msg? : Notice → Option (List Byte)
  | .ON_MSG msg => some msg
  | _ => none

/-- An answer carries what its request carries. -/
theorem MyServer.Answers.carries {req rep msg : List Byte} {i : Nat} (h : Answers req rep)
    (hreq : Carries req i msg) (hlt : i < 10 ^ 8) : Carries rep i msg := by
  obtain ⟨junk, x, hx, hrep⟩ := h
  rw [MyServer.DespatchMsg, hreq.parseMsg, Option.map_some] at hx
  split at hx
  · obtain rfl := Option.some.inj (Option.some.inj hx)
    exact (packMsg_spec hlt hrep).1
  · cases Option.some.inj hx

/-! ### The semaphores and the ids -/

/-- `fs` are the requests handed to the transport. -/
structure Entered (fs : List (List Byte)) (c : MyClient) : Prop where
  sem : ∀ {t i}, (c.pc t).entered? = some i → c.m_reqSemMap i = some t
  inj : ∀ {t t' i}, (c.pc t).unsent? = some i → (c.pc t').unsent? = some i → t = t'
  fresh : ∀ {t i}, (c.pc t).unsent? = some i → ∀ f ∈ fs, MyClient.replyId f ≠ i

namespace Entered

variable {fs fs' : List (List Byte)} {c c' : MyClient} {t : Thread} {q : SendPc}

theorem init : Entered [] MyClient.init := ⟨nofun, nofun, nofun⟩

/-- A thread moves on; a request that is new is its own. -/
theorem move (h : Entered fs c) (hpc : c'.pc = Function.update c.pc t q)
    (hmap : ∀ {t' i}, t' ≠ t → (c.pc t').entered? = some i → c'.m_reqSemMap i = some t')
    (hq : ∀ {i}, q.entered? = some i → c'.m_reqSemMap i = some t)
    (hid : ∀ {i}, q.unsent? = some i → (c.pc t).unsent? = some i ∨
      (∀ t', (c.pc t').unsent? ≠ some i) ∧ ∀ f ∈ fs, MyClient.replyId f ≠ i)
    (hfs : ∀ f ∈ fs', f ∈ fs ∨ q.unsent? = none ∧ ∃ i : Nat, (c.pc t).unsent? = some i ∧
      MyClient.replyId f = i) : Entered fs' c' := by
  have hat : ∀ t', t' = t ∧ c'.pc t' = q ∨ t' ≠ t ∧ c'.pc t' = c.pc t' := by
    intro t'
    rw [hpc]
    exact (update_eq rfl).imp (fun h => ⟨h.1, h.2.symm⟩) fun h => ⟨h.1, h.2.symm⟩
  refine ⟨fun {t' i} ht' => ?_, fun {t₁ t₂ i} h₁ h₂ => ?_, fun {t' i} ht' f hf => ?_⟩
  · rcases hat t' with ⟨rfl, heq⟩ | ⟨hne, heq⟩
    · exact hq (heq ▸ ht')
    · exact hmap hne (heq ▸ ht')
  · -- an id that is new is held by nobody else
    have hother : ∀ {t'}, t' ≠ t → q.unsent? = some i → (c.pc t').unsent? ≠ some i := by
      intro t' hne hqi ht'
      rcases hid hqi with hold | ⟨hnew, -⟩
      · exact hne (h.inj ht' hold)
      · exact hnew t' ht'
    rcases hat t₁ with ⟨rfl, heq₁⟩ | ⟨hne₁, heq₁⟩ <;> rcases hat t₂ with ⟨rfl, heq₂⟩ | ⟨hne₂, heq₂⟩
    · rfl
    · exact absurd (heq₂ ▸ h₂) (hother hne₂ (heq₁ ▸ h₁))
    · exact absurd (heq₁ ▸ h₁) (hother hne₁ (heq₂ ▸ h₂))
    · exact h.inj (heq₁ ▸ h₁) (heq₂ ▸ h₂)
  · rcases hat t' with ⟨rfl, heq⟩ | ⟨hne, heq⟩
    · rw [heq] at ht'
      rcases hfs f hf with hold | ⟨hnone, -⟩
      · rcases hid ht' with hsame | ⟨-, hnew⟩
        · exact h.fresh hsame f hold
        · exact hnew f hold
      · rw [hnone] at ht'
        cases ht'
    · rw [heq] at ht'
      rcases hfs f hf with hold | ⟨-, j, hj, hreply⟩
      · exact h.fresh ht' f hold
      · rw [hreply]
        intro hji
        obtain rfl : j = i := by exact_mod_cast hji
        exact hne (h.inj ht' hj)

/-- A message comes. -/
theorem onMsg (h : Entered fs c) {msg : List Byte} (hc : c.OnMsg msg = some c') :
    Entered fs c' := by
  cases MyClient.files_of_OnMsg hc <;> exact ⟨h.sem, h.inj, h.fresh⟩

/-- A thread moves on and keeps its id, and the map stays. -/
theorem advance (h : Entered fs c) (hpc : c'.pc = Function.update c.pc t q)
    (hmap : c'.m_reqSemMap = c.m_reqSemMap)
    (hq : ∀ {i}, q.entered? = some i → (c.pc t).entered? = some i) (hnone : q.unsent? = none)
    (hfs : ∀ f ∈ fs', f ∈ fs ∨ ∃ i : Nat, (c.pc t).unsent? = some i ∧ MyClient.replyId f = i) :
    Entered fs' c' := by
  refine h.move hpc (fun _ ht' => hmap ▸ h.sem ht') (fun hqi => hmap ▸ h.sem (hq hqi))
    (fun hqi => ?_) fun f hf => (hfs f hf).imp id fun hnew => ⟨hnone, hnew⟩
  rw [hnone] at hqi
  cases hqi

end Entered

section Client

variable {I : Nat → List Byte → Prop} {e : EchoNet} {a : MyClient.Act} {c : MyClient}
  {es : List MyClient.Event}

/-- **A step of the client.** -/
theorem Entered.client (h : Entered e.requests e.cli) (hcorr : Correlated I e)
    (hlt : e.cli.m_requestId < 10 ^ 8) (ha : ∀ msg, a ≠ .onMsg msg)
    (hs : e.cli.step a = some (c, es)) : Entered (e.requests ++ EchoNet.sent es) c := by
  have hold : ∀ f ∈ e.requests ++ EchoNet.sent [], f ∈ e.requests := fun f hf => by
    simpa [EchoNet.sent] using hf
  -- ids are drawn in order
  have hnew : (∀ t', (e.cli.pc t').unsent? ≠ some (e.cli.m_requestId + 1)) ∧
      ∀ f ∈ e.requests, MyClient.replyId f ≠ (e.cli.m_requestId + 1 : Nat) := by
    refine ⟨fun t' ht' => ?_, fun f hf hid => ?_⟩
    · obtain ⟨m, hm⟩ := SendPc.own?_of_unsent? ht'
      exact absurd (hcorr.range (hcorr.owns hm)).2 (Nat.not_succ_le_self _)
    · obtain ⟨i, m, hI, hcar⟩ := hcorr.requests hf
      rw [hcar.replyId] at hid
      obtain rfl : i = e.cli.m_requestId + 1 := by exact_mod_cast hid
      exact absurd (hcorr.range hI).2 (Nat.not_succ_le_self _)
  -- a request carries the id of its call
  have hframe : ∀ {t i cmd msg frame junk}, (e.cli.pc t).own? = some (i, msg) →
      MyClient.packSend junk cmd msg i = some frame → MyClient.replyId frame = i := by
    intro t i cmd msg frame junk hown hf
    have hle := (hcorr.range (hcorr.owns hown)).2
    exact (packMsg_spec (Nat.lt_of_le_of_lt hle hlt) hf).1.replyId
  -- another call has another id
  have hother : ∀ {t t' i j}, (e.cli.pc t).reqId? = some j → t' ≠ t →
      (e.cli.pc t').entered? = some i → (i : Int) ≠ j := by
    intro t t' i j ht hne ht' hij
    obtain rfl : i = j := by exact_mod_cast hij
    exact hne (hcorr.inj (SendPc.reqId?_of_entered? ht') ht)
  cases MyClient.moves_of_step hs with
  | onMsg => exact absurd rfl (ha _)
  | @syncSend t cmd msg hpc =>
      refine h.move rfl (fun _ ht' => h.sem ht') (fun hq => by cases hq) (fun hq => Or.inr ?_)
        fun f hf => Or.inl (hold f hf)
      obtain rfl := Option.some.inj hq
      exact hnew
  | @register t cmd msg reqId hpc hnone =>
      refine h.move rfl (fun hne ht' => ?_) (fun hq => ?_) (fun hq => Or.inl ?_)
        fun f hf => Or.inl (hold f hf)
      · have hij := hother (t := t) (j := reqId) (by rw [hpc]; rfl) hne ht'
        exact (Function.update_of_ne hij ..).trans (h.sem ht')
      · obtain rfl := Option.some.inj hq
        exact Function.update_self ..
      · rw [hpc]
        exact hq
  | @registerAgain t cmd msg reqId hpc hsome =>
      -- the entry that is there is that of the thread
      obtain ⟨t', ht'⟩ := Option.ne_none_iff_exists'.mp hsome
      obtain rfl : t' = t := hcorr.inj (hcorr.registered ht') (by rw [hpc]; rfl)
      refine h.move rfl (fun _ ht' => h.sem ht') (fun hq => ?_) (fun hq => Or.inl ?_)
        fun f hf => Or.inl (hold f hf)
      · obtain rfl := Option.some.inj hq
        exact ht'
      · rw [hpc]
        exact hq
  | @sent t cmd msg reqId junk queued frame hpc hpack =>
      refine h.advance rfl rfl (fun hq => by rw [hpc]; exact hq) rfl fun f hf => ?_
      refine (List.mem_append.mp hf).imp id fun hf => ⟨reqId, by rw [hpc]; rfl, ?_⟩
      obtain rfl : f = frame := by simpa [EchoNet.sent] using hf
      exact hframe (t := t) (by rw [hpc]; rfl) hpack
  | @sendFailed t cmd msg reqId junk ret frame queued hpc hpack hret =>
      refine h.advance rfl rfl (fun hq => by rw [hpc]; exact hq) rfl fun f hf => ?_
      refine (List.mem_append.mp hf).imp id fun hf => ⟨reqId, by rw [hpc]; rfl, ?_⟩
      obtain rfl : f = frame := by
        cases queued with
        | false => cases hf
        | true => simpa [EchoNet.sent] using hf
      exact hframe (t := t) (by rw [hpc]; rfl) hpack
  | @asyncSent t cmd msg reqId junk ret frame queued hpc hpack =>
      refine h.advance rfl rfl (fun hq => by cases hq) rfl fun f hf => ?_
      refine (List.mem_append.mp hf).imp id fun hf => ⟨reqId, by rw [hpc]; rfl, ?_⟩
      obtain rfl : f = frame := by
        split at hf
        · simp [EchoNet.sent] at hf
        · simpa [EchoNet.sent] using hf
      exact hframe (t := t) (by rw [hpc]; rfl) hpack
  | granted hpc hsem | waitFailed hpc herr =>
      exact h.advance rfl rfl (fun hq => by rw [hpc]; exact hq) rfl fun f hf => Or.inl (hold f hf)
  | @take t msg reqId hpc =>
      refine h.advance (t := t) (q := .leaving msg reqId (e.cli.takeResult reqId).1) ?_
        (MyClient.takeResult_m_reqSemMap ..) (fun hq => by rw [hpc]; exact hq) rfl
        fun f hf => Or.inl (hold f hf)
      show Function.update (e.cli.takeResult reqId).2.pc t _ = _
      rw [MyClient.takeResult_pc]
  | @leave t msg reqId result hpc =>
      refine h.move rfl (fun hne ht' => ?_) (fun hq => by cases hq) (fun hq => by cases hq)
        fun f hf => Or.inl ?_
      · have hij := hother (t := t) (j := reqId) (by rw [hpc]; rfl) hne ht'
        exact (Function.update_of_ne hij ..).trans (h.sem ht')
      · simpa [EchoNet.sent] using hf
  | @asyncSend t cmd msg hpc =>
      refine h.move rfl (fun _ ht' => h.sem ht') (fun hq => by cases hq) (fun hq => Or.inr ?_)
        fun f hf => Or.inl (hold f hf)
      obtain rfl := Option.some.inj hq
      exact hnew

end Client

theorem EchoNet.entered_run {tr : List MyClient.Event} {e : EchoNet}
    (h : machine.Run AnyStep tr e) (hlt : e.cli.m_requestId < 10 ^ 8) :
    Entered e.requests e.cli := by
  induction h with
  | start => exact .init
  | @step tr e a e' es hrun _ hs ih =>
      have hlt' : e.cli.m_requestId < 10 ^ 8 := Nat.lt_of_le_of_lt (requestId_le hs) hlt
      have hent := ih hlt'
      obtain ⟨hcorr, -⟩ := correlated_run hrun hlt'
      have hclient : ∀ {a : MyClient.Act}, (∀ msg, a ≠ .onMsg msg) →
          (e.cli.step a).map (fun p =>
            (({ e with cli := p.1, requests := e.requests ++ sent p.2 } : EchoNet), p.2)) =
            some (e', es) → Entered e'.requests e'.cli := by
        intro a ha hs
        obtain ⟨⟨c, ds⟩, hstep, he⟩ := Option.map_eq_some_iff.mp hs
        obtain ⟨rfl, rfl⟩ := Prod.mk.inj he
        exact hent.client hcorr hlt' ha hstep
      have hs : EchoNet.step e a = some (e', es) := hs
      cases a with
      | client a =>
          cases a with
          | onMsg msg => cases hs
          | _ => exact hclient (by simp) hs
      | serve frame junk =>
          obtain ⟨-, hs⟩ := Option.ite_none_right_eq_some.mp hs
          split at hs
          · obtain ⟨r, -, he⟩ := Option.map_eq_some_iff.mp hs
            obtain ⟨rfl, -⟩ := Prod.mk.inj he
            exact hent
          · obtain ⟨rfl, -⟩ := Prod.mk.inj (Option.some.inj hs)
            exact hent
          · cases hs
      | reply msg =>
          obtain ⟨-, hs⟩ := Option.ite_none_right_eq_some.mp hs
          obtain ⟨c, hc, he⟩ := Option.map_eq_some_iff.mp hs
          obtain ⟨rfl, -⟩ := Prod.mk.inj he
          exact hent.onMsg hc

/-! ### Who has been woken -/

/-- Whoever waits for a message of `reps` has a permit. -/
def Woken (reps : List (List Byte)) (c : MyClient) : Prop :=
  ∀ t msg (i : Nat), c.pc t = .waiting msg i → ∀ rep ∈ reps, MyClient.replyId rep = i →
    MSG_HEAD_LENGTH < rep.length → ∃ n, c.sems t = some (n + 1)

namespace Woken

variable {reps fs : List (List Byte)} {c c' : MyClient}

/-- A step of the client: a call that begins to wait waits for a message that has
not come. -/
theorem client (h : Woken reps c) {a : MyClient.Act} {es : List MyClient.Event}
    (ha : ∀ msg, a ≠ .onMsg msg)
    (hfresh : ∀ rep ∈ reps, MSG_HEAD_LENGTH < rep.length → ∀ {t} {i : Nat},
      (c.pc t).unsent? = some i → MyClient.replyId rep ≠ i)
    (hs : c.step a = some (c', es)) : Woken reps c' := by
  -- a thread that does not wait afterwards, the semaphores of the others as they were
  have hmove : ∀ {t q c'}, c'.pc = Function.update c.pc t q → (∀ msg i, q ≠ .waiting msg i) →
      (∀ t', t' ≠ t → c'.sems t' = c.sems t') → Woken reps c' := by
    intro t q c' hpc hq hsems t' msg i ht' rep hrep hid hlen
    rw [hpc] at ht'
    rcases update_eq ht' with ⟨-, hwait⟩ | ⟨hne, hwait⟩
    · exact absurd hwait (hq msg i)
    · rw [hsems t' hne]
      exact h t' msg i hwait rep hrep hid hlen
  cases MyClient.moves_of_step hs with
  | onMsg => exact absurd rfl (ha _)
  | syncSend hpc | leave hpc =>
      exact hmove rfl (by simp) fun t' hne => Function.update_of_ne hne ..
  | granted hpc => exact hmove rfl (by simp) fun t' hne => Function.update_of_ne hne ..
  | @take t msg reqId hpc =>
      refine hmove (t := t) (q := .leaving msg reqId (c.takeResult reqId).1) ?_ (by simp)
        fun t' _ => by rw [MyClient.setPc_sems, MyClient.takeResult_sems]
      show Function.update (c.takeResult reqId).2.pc t _ = _
      rw [MyClient.takeResult_pc]
  | @sent t cmd msg reqId junk queued frame hpc hpack =>
      intro t' msg' i ht' rep hrep hid hlen
      rcases update_eq ht' with ⟨-, hwait⟩ | ⟨-, hwait⟩
      · obtain ⟨-, rfl⟩ := SendPc.waiting.inj hwait
        exact absurd hid (hfresh rep hrep hlen (t := t) (by rw [hpc]; rfl))
      · exact h t' msg' i hwait rep hrep hid hlen
  | _ => exact hmove rfl (by simp) fun _ _ => rfl

/-- A message comes and finds the semaphore of its call. -/
theorem onMsg (h : Woken reps c) (hent : Entered fs c)
    (hpos : ∀ t i, (c.pc t).reqId? = some i → 1 ≤ i) {msg : List Byte}
    (hc : c.OnMsg msg = some c') : Woken (reps ++ [msg]) c' := by
  intro t msg' i ht rep hrep hid hlen
  have hpc : c'.pc = c.pc := by cases MyClient.files_of_OnMsg hc <;> rfl
  rw [hpc] at ht
  have hsem : c.m_reqSemMap i = some t := hent.sem (by rw [ht]; rfl)
  -- no permit is taken away
  have hold : ∀ n, c.sems t = some (n + 1) → ∃ n, c'.sems t = some (n + 1) := by
    intro n hn
    cases MyClient.files_of_OnMsg hc with
    | @stored t' n' _ hsem' =>
        rcases eq_or_ne t t' with rfl | hne
        · exact ⟨n', Function.update_self ..⟩
        · exact ⟨n, (Function.update_of_ne hne ..).trans hn⟩
    | _ => exact ⟨n, hn⟩
  rcases List.mem_append.mp hrep with hrep | hrep
  · obtain ⟨n, hn⟩ := h t msg' i ht rep hrep hid hlen
    exact hold n hn
  · obtain rfl := List.mem_singleton.mp hrep
    cases MyClient.files_of_OnMsg hc with
    | short hshort => exact absurd hlen (Nat.not_lt.mpr hshort)
    | @stored t' n hreg =>
        rw [hid, hsem] at hreg
        obtain rfl := Option.some.inj hreg
        exact ⟨n, Function.update_self ..⟩
    | queued _ hfree =>
        rcases hfree with hzero | hnone
        · have hid' := hpos t i (by rw [ht]; rfl)
          omega
        · rw [hid, hsem] at hnone
          cases hnone

/-- The calls of `func` in a step. -/
theorem notices (h : Woken reps c) (hent : Entered fs c)
    (hpos : ∀ t i, (c.pc t).reqId? = some i → 1 ≤ i) {ns : List Notice}
    (hc : ns.foldlM MyClient.func c = some c') :
    Woken (reps ++ ns.filterMap Notice.msg?) c' := by
  induction ns generalizing reps c with
  | nil =>
      obtain rfl := Option.some.inj hc
      rwa [List.filterMap_nil, List.append_nil]
  | cons n ns ih =>
      rw [List.foldlM_cons] at hc
      obtain ⟨c₁, hc₁, hrest⟩ := Option.bind_eq_some_iff.mp hc
      cases n with
      | ON_MSG msg =>
          have hpc : c₁.pc = c.pc := by cases MyClient.files_of_OnMsg hc₁ <;> rfl
          rw [List.filterMap_cons_some (f := Notice.msg?) rfl, List.append_cons]
          exact ih (h.onMsg hent hpos hc₁) (hent.onMsg hc₁) (hpc ▸ hpos) hrest
      | ON_CONNECTION =>
          obtain rfl := Option.some.inj hc₁
          exact ih (c := c.receiveMsg MyClient.ON_CONNECTION_MSG) h
            ⟨hent.sem, hent.inj, hent.fresh⟩ hpos hrest
      | ON_ERROR | ON_DISCONNECTION =>
          obtain rfl := Option.some.inj hc₁
          exact ih h hent hpos hrest

end Woken

namespace TcpNet

variable {D : DataModel} {k : Nat} {tr es : List Event} {s s' : TcpNet} {e : EchoNet} {a : Act}

theorem replies_eq_notices (es : List RoundTrip.Event) :
    RoundTrip.replies es = (notices es).filterMap Notice.msg? := by
  unfold RoundTrip.replies RoundTrip.clientIn ClientSession.messagesIn notices
  rw [List.filterMap_filterMap, List.filterMap_filterMap]
  refine List.filterMap_congr fun ev _ => ?_
  cases ev with
  | client ce => cases ce with
    | m_callback n => cases n <;> rfl
    | _ => rfl
  | _ => rfl

theorem replies_append (xs ys : List RoundTrip.Event) :
    RoundTrip.replies (xs ++ ys) = RoundTrip.replies xs ++ RoundTrip.replies ys := by
  simp [RoundTrip.replies, RoundTrip.clientIn, ClientSession.messagesIn, List.filterMap_append]

/-- What `EchoNet` knows of the client. -/
structure Known (k : Nat) (tr : List Event) (s : TcpNet) (e : EchoNet) : Prop where
  entered : Entered e.requests s.app
  positive : ∀ t i, (s.app.pc t).reqId? = some i → 1 ≤ i
  /-- a message long enough for `OnMsg` has the id of a request that was sent -/
  fresh : ∀ rep ∈ RoundTrip.replies (netIn tr), MSG_HEAD_LENGTH < rep.length →
    ∀ {t} {i : Nat}, (s.app.pc t).unsent? = some i → MyClient.replyId rep ≠ i

theorem Mirrors.known (h : Mirrors D k tr s e) (hrun : EchoNet.machine.Run AnyStep (appIn tr) e)
    (hsize : Bounded k tr) (hids : s.app.m_requestId < 10 ^ 8) : Known k tr s e := by
  obtain ⟨vec, sem, hcli⟩ := h.app
  have hlt : e.cli.m_requestId < 10 ^ 8 := by rwa [hcli]
  have hpc : e.cli.pc = s.app.pc := by rw [hcli]; rfl
  obtain ⟨hcorr, -⟩ := EchoNet.correlated_run hrun hlt
  have hent := EchoNet.entered_run hrun hlt
  rw [hcli] at hent
  have hent' : Entered e.requests s.app := ⟨hent.sem, hent.inj, hent.fresh⟩
  refine ⟨hent', fun t i hi => ?_, fun rep hrep hlen t i hi => ?_⟩
  · obtain ⟨m, hm⟩ := SendPc.own?_of_reqId? hi
    exact (hcorr.range (hcorr.owns (hpc ▸ hm))).1
  · rcases h.net.request_of_replies hrep with ⟨req, hreq, hans⟩ | ⟨t', ht', hsent⟩
    · obtain ⟨j, m, hI, hcar⟩ := hcorr.requests (h.requests req hreq)
      have hlt' : j < 10 ^ 8 := Nat.lt_of_le_of_lt (hcorr.range hI).2 hlt
      rw [(hans.carries hcar hlt').replyId, ← hcar.replyId]
      exact hent'.fresh hi req (h.requests req hreq)
    · exact absurd hlen (Nat.not_lt.mpr (hsize.2 _ hsent ht'))

/-- The push of a request is one event. -/
theorem push_events {net net' : RoundTrip} {t : Thread} {es : List RoundTrip.Event}
    (hs : net.step D k (.client (.cli (.push t))) = some (net', es)) :
    RoundTrip.replies es = [] := by
  obtain ⟨down, c, ces, -, hstep, rfl, -⟩ := RoundTrip.client_of_step hs
  cases ClientSession.moves_of_step hstep with
  | cli hb => cases RJTcpClient.moves_of_step hb with
    | push => rfl

theorem woken_step (h : Woken (RoundTrip.replies (netIn tr)) s.app) (hknown : Known k tr s e)
    (hstep : TcpNet.step D k s a = some (s', es)) :
    Woken (RoundTrip.replies (netIn (tr ++ es))) s'.app := by
  cases moves_of_step hstep with
  | @app _ a c ds ha hs =>
      rw [netIn_append, (history_app ds).2, List.append_nil]
      exact h.client ha hknown.fresh hs
  | @push t junk frame net nes c ds hpc hframe hnet hs =>
      rw [netIn_append, netIn_append, (history_net nes).2, (history_app ds).2, List.append_nil,
        replies_append, push_events hnet, List.append_nil]
      exact h.client (by simp) hknown.fresh hs
  | @net _ a net nes c hfresh hnet hpush hc =>
      rw [netIn_append, (history_net nes).2, replies_append, replies_eq_notices nes]
      exact h.notices hknown.entered hknown.positive hc

/-- The counter of the ids never goes back. -/
theorem requestId_le (hstep : TcpNet.step D k s a = some (s', es)) :
    s.app.m_requestId ≤ s'.app.m_requestId := by
  have hfunc : ∀ {ns : List Notice} {c c' : MyClient}, ns.foldlM MyClient.func c = some c' →
      c.m_requestId = c'.m_requestId := by
    intro ns
    induction ns with
    | nil => exact fun hc => congrArg _ (Option.some.inj hc)
    | cons n ns ih =>
        intro c c' hc
        rw [List.foldlM_cons] at hc
        obtain ⟨c₁, hc₁, hrest⟩ := Option.bind_eq_some_iff.mp hc
        have hsame : c₁.m_requestId = c.m_requestId := by
          cases n with
          | ON_MSG msg => exact MyClient.OnMsg_requestId hc₁
          | _ =>
              obtain rfl := Option.some.inj hc₁
              rfl
        exact hsame.symm.trans (ih hrest)
  cases moves_of_step hstep with
  | app _ hs | push _ _ _ hs => exact MyClient.requestId_le hs
  | net _ _ _ hc => exact (hfunc hc).le

/-- Along a run. -/
theorem woken_run (h : (machine D k).Run FreshAccept tr s) (hsize : Bounded k tr)
    (hids : s.app.m_requestId < 10 ^ 8) :
    ∃ e, EchoNet.machine.Run AnyStep (appIn tr) e ∧ Mirrors D k tr s e ∧
      Woken (RoundTrip.replies (netIn tr)) s.app := by
  have hsim : ∃ e, EchoNet.machine.Run AnyStep (appIn tr) e ∧ Mirrors D k tr s e ∧
      (s.app.m_requestId < 10 ^ 8 → Woken (RoundTrip.replies (netIn tr)) s.app) := by
    refine h.simulate appIn (Bounded k) (fun tr s e => Mirrors D k tr s e ∧
      (s.app.m_requestId < 10 ^ 8 → Woken (RoundTrip.replies (netIn tr)) s.app))
      (fun _ _ => Bounded.of_append) rfl ⟨mirrors_init, fun _ => nofun⟩ ?_ hsize
    intro tr s a s' es e hrun hrel hsize hok hs
    obtain ⟨ds, e', hview, hstretch, hmirrors⟩ := hrel.1.step hsize hok hs
    refine ⟨ds, e', hview, hstretch, hmirrors, fun hids => ?_⟩
    have hids : s.app.m_requestId < 10 ^ 8 := Nat.lt_of_le_of_lt (requestId_le hs) hids
    exact woken_step (hrel.2 hids) (hrel.1.known hrun hsize.of_append hids) hs
  obtain ⟨e, hrun, hmirrors, hwoken⟩ := hsim
  exact ⟨e, hrun, hmirrors, hwoken hids⟩

/-- **Every answer wakes its caller.**  At rest a `SyncSend` that waits for the
answer to a request has its permit. -/
theorem woken_of_rest (h : (machine D k).Run FreshAccept tr s) (hsize : Bounded k tr)
    (hids : s.app.m_requestId < 10 ^ 8) (hrest : RoundTrip.AtRest k s.net) {t : Thread}
    {msg : List Byte} {reqId : Nat} (hwait : s.app.pc t = .waiting msg reqId) (hmsg : msg ≠ [])
    {frame : List Byte} (hframe : frame ∈ RoundTrip.requests (netIn tr))
    (hid : MyClient.replyId frame = reqId) (hans : isAnswered frame = true) :
    ∃ n, s.app.sems t = some (n + 1) := by
  obtain ⟨e, hrun, hmirrors, hwoken⟩ := woken_run h hsize hids
  obtain ⟨vec, sem, hcli⟩ := hmirrors.app
  have hlt : e.cli.m_requestId < 10 ^ 8 := by rwa [hcli]
  obtain ⟨hcorr, -⟩ := EchoNet.correlated_run hrun hlt
  -- the request is the one of the call
  obtain ⟨i, m, hI, hcar⟩ := hcorr.requests (hmirrors.requests frame hframe)
  obtain rfl : i = reqId := by
    rw [hcar.replyId] at hid
    exact_mod_cast hid
  have hown : (e.cli.pc t).own? = some (i, msg) := by
    rw [hcli]
    show (s.app.pc t).own? = _
    rw [hwait]
    rfl
  obtain rfl := hcorr.unique hI (hcorr.owns hown)
  -- its answer has been handed over
  obtain ⟨rep, hrep, hanswers⟩ := RoundTrip.exists_of_forall₂
    (hmirrors.net.answers_eq hsize.net hrest) (List.mem_filter.mpr ⟨hframe, hans⟩)
  have hmem : rep ∈ RoundTrip.replies (netIn tr) := by
    rw [hmirrors.net.replies_eq hsize.net hrest]
    obtain ⟨q, hq, rfl⟩ := List.mem_map.mp hrep
    exact List.mem_map_of_mem (List.mem_of_mem_filter hq)
  have hrepcar := hanswers.carries hcar (Nat.lt_of_le_of_lt (hcorr.range hI).2 hlt)
  refine hwoken t m i hwait rep hmem hrepcar.replyId ?_
  rw [hrepcar.length_eq]
  exact Nat.lt_add_of_pos_right (List.length_pos_of_ne_nil hmsg)

/-- Thread 5 waits, and its answer has come. -/
theorem woken_of_rest_one :
    ∃ tr s, (machine .lp64 0).Run FreshAccept tr s ∧ s.app.pc 5 = .waiting [65] 1 ∧
      ∃ n, s.app.sems 5 = some (n + 1) := by
  obtain ⟨tr, s, hrun, hp⟩ := accepted_run.extend NoAccept freshAccept_of_noAccept answered
    (fun q => decide ((((q.1.net.srv.m_server.heap 1).any fun c => c.conn = 0 ∧ c.closing = none) ∧
      q.1.net.srv.m_server.m_is_closing = false ∧ (q.1.net.up = [] ∧ q.1.net.down = []) ∧
      q.1.net.cli.inSetBuffer = false ∧ q.1.net.srv.m_server.loop = .idle ∧
      MyServer.inHand q.1.net.srv.m_server = [] ∧ (q.1.net.srv.m_bufs = [] ∧
        q.1.net.srv.temp_bufs = [] ∧ q.1.net.srv.m_server.m_send_buf = [])) ∧
      q.1.app.m_requestId < 10 ^ 8 ∧ q.1.app.pc 5 = .waiting [65] 1 ∧
      RoundTrip.requests (netIn q.2) = [request] ∧
      RoundTrip.sends 0 (netIn q.2) = [(m_pThread, request)])) (by decide +kernel)
  obtain ⟨⟨hconn, hopen, hwires, hclient, hloop, hhand, hqueues⟩, hids, hwait, hrequests, hsends⟩ :=
    of_decide_eq_true hp
  have hrest : RoundTrip.AtRest 0 s.net := by
    obtain ⟨c, hc, hck⟩ := (Option.any_eq_true ..).mp hconn
    exact ⟨⟨1, c, hc, of_decide_eq_true hck⟩, hopen, hwires, hclient, hloop, hhand, hqueues⟩
  have hmem : request ∈ RoundTrip.requests (netIn tr) := hrequests ▸ List.mem_singleton_self _
  exact ⟨tr, s, hrun, hwait, woken_of_rest hrun (bounded_of_one hrequests hsends) hids hrest hwait
    (by decide) hmem (by decide) (by decide)⟩

end TcpNet

end TestExamples
