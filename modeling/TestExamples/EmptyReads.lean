/-
TestExamples/EmptyReads.lean

Why a connection ends, in the server and in the client.

`HandleMsg` of RJCommon/RJTcpServer.cpp and of RJCommon/RJTcpClient.cpp takes
every `nread` that is not positive for the end of the connection.  libuv calls
it with zero where there was nothing to read: that is neither an error nor the
end of the stream.

A cause is looked for in the very step that ends the connection: its label
says what libuv has reported (`Cause`).  Every step has one unless it is a
read callback with `nread` zero, and that one always ends the connection,
whatever has been received of the next frame (`keeps_iff` of the two
machines).

`ReadAct` gives the read callbacks of the server their `nread`.
-/
import TestExamples.Lib.Simulation
import TestExamples.RJTcpClientSession
import TestExamples.RJTcpServerSteps

namespace TestExamples

/-- What the reader hands over next is the report of a bad header, or a frame
of negative size. -/
def BufferReader.FramingError (D : DataModel) (r : BufferReader) : Prop :=
  ∃ call r', (r.pass D = .stop (some call) r' ∨ r.pass D = .next call r') ∧
    (call.msg = none ∨ call.size < 0)

/-! ### The server -/

namespace RJTcpServer

inductive ReadAct
  | step (act : Act)
  | HandleMsg (client : Addr) (nread : Int) (msg : List Byte)

/-- The step behind a label: `HandleMsg` by its `nread`. -/
def ReadAct.act? : ReadAct → Option Act
  | .step (.read _ _) | .step (.readEnd _) => none
  | .step act => some act
  | .HandleMsg a nread msg =>
      if 0 < nread then if msg.length = nread then some (.read a msg) else none
      else some (.readEnd a)

/-- The `nread` of a read callback. -/
def ReadAct.nread? : ReadAct → Option Int
  | .step _ => none
  | .HandleMsg _ nread _ => some nread

/-- A read callback that has read nothing. -/
def ReadAct.EmptyRead (act : ReadAct) : Prop := act.nread? = some 0

instance (act : ReadAct) : Decidable act.EmptyRead := inferInstanceAs (Decidable (_ = _))

/-- One step. -/
def readStep (D : DataModel) (s : RJTcpServer) (act : ReadAct) : Outcome :=
  act.act?.bind (s.step D)

def readMachine (D : DataModel) : Machine RJTcpServer ReadAct Event := ⟨init, readStep D⟩

/-- The client at an address is alive and not being closed. -/
def Open (s : RJTcpServer) (a : Addr) : Prop := ∃ c, s.heap a = some c ∧ c.closing = none

/-- The connection of `a` ends: it is removed, or closed. -/
def Ends (s s' : RJTcpServer) (a : Addr) : Prop :=
  a ∈ s.m_clients ∧ a ∉ s'.m_clients ∨ s.Open a ∧ ¬ s'.Open a

/-- The causes for which the connection of `a` may end. -/
inductive Cause (D : DataModel) (s : RJTcpServer) (a : Addr) : ReadAct → Prop
  | read {nread msg} (hn : nread < 0) : Cause D s a (.HandleMsg a nread msg)
  | framing {c} (hloop : s.loop = .reading a) (hc : s.heap a = some c)
      (herr : c.reader.FramingError D) : Cause D s a (.step .pass)
  | write {ret buf rest} (hq : s.sendTemp = buf :: rest) (hbuf : buf.client = a)
      (hret : ret ≠ 0) : Cause D s a (.step (.drain ret))
  | completion {status} (hst : status ≠ 0) : Cause D s a (.step (.afterSend a status))
  | Close (hclosing : s.m_is_closing = true) : Cause D s a (.step (.walk a))

/-- A step that ends no connection without a cause, and none at all where
nothing was read. -/
structure Keeps (D : DataModel) (t : Transition RJTcpServer ReadAct Event) : Prop where
  cause : ∀ a, Ends t.source t.target a → Cause D t.source a t.label
  empty : t.label.EmptyRead →
    t.target.m_clients = t.source.m_clients ∧ t.target.heap = t.source.heap

section Steps

variable {D : DataModel} {s s' : RJTcpServer} {act : ReadAct} {es tr : List Event} {a : Addr}

theorem ReadAct.EmptyRead.exists_eq (h : act.EmptyRead) : ∃ a msg, act = .HandleMsg a 0 msg := by
  cases act with
  | step => cases h
  | HandleMsg a nread msg =>
      obtain rfl := Option.some.inj h
      exact ⟨a, msg, rfl⟩

/-- The labels with a step behind them. -/
theorem act?_eq_some {b : Act} (h : act.act? = some b) :
    act = .step b ∧ (∀ a msg, b ≠ .read a msg) ∧ (∀ a, b ≠ .readEnd a) ∨
      (∃ a nread msg, act = .HandleMsg a nread msg ∧ 0 < nread ∧ b = .read a msg) ∨
      ∃ a nread msg, act = .HandleMsg a nread msg ∧ nread ≤ 0 ∧ b = .readEnd a := by
  cases act with
  | HandleMsg a nread msg =>
      simp only [ReadAct.act?] at h
      split at h
      · next hn =>
        split at h
        · exact Or.inr (Or.inl ⟨a, nread, msg, rfl, hn, (Option.some.inj h).symm⟩)
        · cases h
      · next hn =>
        exact Or.inr (Or.inr ⟨a, nread, msg, rfl, Int.not_lt.mp hn, (Option.some.inj h).symm⟩)
  | step b' =>
      cases b' with
      | read a msg => cases h
      | readEnd a => cases h
      | _ =>
          obtain rfl := Option.some.inj h
          exact Or.inl ⟨rfl, by simp, by simp⟩

/-- The walk comes after `Close`. -/
theorem walking_of_moves {b : Act} (h : s.loop = .walking → s.m_is_closing = true)
    (hm : Moves D s b es s') : s'.loop = .walking → s'.m_is_closing = true := by
  have hdrop : ∀ {s₁ s₂ : RJTcpServer} {a : Addr} {es}, Drops s₁ a es s₂ →
      s₂.loop = s₁.loop ∧ s₂.m_is_closing = s₁.m_is_closing := by
    intro s₁ s₂ a es hd
    cases hd <;> exact ⟨rfl, rfl⟩
  have hhandle : ∀ {s₁ s₂ : RJTcpServer} {a : Addr} {call es}, Handles s₁ a call es s₂ →
      s₂.loop = s₁.loop ∧ s₂.m_is_closing = s₁.m_is_closing := by
    intro s₁ s₂ a call es hh
    cases hh with
    | drop _ hd => exact hdrop hd
    | deliver => exact ⟨rfl, rfl⟩
    | skip => exact ⟨rfl, rfl⟩
  cases hm with
  | readEnd _ _ _ hd =>
      rw [(hdrop hd).1, (hdrop hd).2]
      exact h
  | passStop _ _ _ hh =>
      rw [(hhandle hh).1]
      nofun
  | passNext _ _ _ hh =>
      rw [(hhandle hh).1, (hhandle hh).2]
      exact h
  | drainFailed _ _ _ _ _ hd =>
      rw [(hdrop hd).1, (hdrop hd).2]
      exact h
  | sendFailed _ _ _ _ hd =>
      rw [(hdrop hd).1, (hdrop hd).2]
      exact h
  | asyncCallBack =>
      intro hw
      dsimp only at hw
      split at hw
      · next hclosing => exact hclosing
      · cases hw
  | setClosing => exact fun _ => rfl
  | read => nofun
  | passExit => nofun
  | passMore => nofun
  | swap => nofun
  | drained => nofun
  | walked => nofun
  | _ => exact h

theorem registry_of_run (h : (readMachine D).Run AnyStep tr s) :
    Registry s ∧ (s.loop = .walking → s.m_is_closing = true) := by
  refine h.invariant (fun _ s => Registry s ∧ (s.loop = .walking → s.m_is_closing = true))
    ⟨.init, nofun⟩ fun ih _ hs => ?_
  obtain ⟨b, -, hb⟩ := Option.bind_eq_some_iff.mp hs
  have hm := moves_of_step hb
  exact ⟨ih.1.step hm, walking_of_moves ih.2 hm⟩

/-! ### Whose connection ends -/

theorem Open.setClient {c c' : uv_tcp_client} {b : Addr} (h : s.Open b) (hc : s.heap a = some c)
    (hopen : c.closing = none → c'.closing = none) : (s.setClient a c').Open b := by
  obtain ⟨d, hd, ho⟩ := h
  by_cases hb : b = a
  · rw [hb, hc] at hd
    obtain rfl := Option.some.inj hd
    exact ⟨c', by rw [hb, setClient_heap, Function.update_self], hopen ho⟩
  · exact ⟨d, by rw [setClient_heap, Function.update_of_ne hb, hd], ho⟩

/-- A new client closes no other one. -/
theorem Open.setFresh {c' : uv_tcp_client} {b : Addr} (h : s.Open b) (hfresh : s.heap a = none) :
    (s.setClient a c').Open b := by
  obtain ⟨d, hd, ho⟩ := h
  have hb : b ≠ a := by
    rintro rfl
    rw [hfresh] at hd
    cases hd
  exact ⟨d, by rw [setClient_heap, Function.update_of_ne hb, hd], ho⟩

/-- What has not ended yet after a first part ends in the second. -/
theorem Ends.of_keeps {s₁ : RJTcpServer} (h : Ends s s' a)
    (hm : a ∈ s.m_clients → a ∈ s₁.m_clients) (ho : s.Open a → s₁.Open a) : Ends s₁ s' a :=
  h.imp (And.imp_left hm) (And.imp_left ho)

theorem not_ends_of_keeps (hm : a ∈ s.m_clients → a ∈ s'.m_clients) (ho : s.Open a → s'.Open a) :
    ¬ Ends s s' a := by
  rintro (⟨h, h'⟩ | ⟨h, h'⟩)
  · exact h' (hm h)
  · exact h' (ho h)

/-- Only the client dropped ends. -/
theorem eq_of_drops {b : Addr} (hd : Drops s a es s') (h : Ends s s' b) : b = a := by
  cases hd with
  | unknown => exact absurd h (not_ends_of_keeps id id)
  | @known c hmem hc =>
      by_contra hne
      refine not_ends_of_keeps (fun hb => ?_) (fun hb => ?_) h
      · exact (List.mem_erase_of_ne hne).mpr hb
      · obtain ⟨d, hd, ho⟩ := hb
        refine ⟨d, ?_, ho⟩
        show Function.update s.heap a _ b = _
        rw [Function.update_of_ne hne, hd]

/-- And `OnMsg` drops a client only for a bad call. -/
theorem eq_of_handles {b : Addr} {call : OnMsgCall} (hh : Handles s a call es s')
    (h : Ends s s' b) : b = a ∧ (call.msg = none ∨ call.size < 0) := by
  cases hh with
  | drop hbad hd => exact ⟨eq_of_drops hd h, hbad⟩
  | deliver => exact absurd h (not_ends_of_keeps id id)
  | skip => exact absurd h (not_ends_of_keeps id id)

/-- **Why a connection ends.** -/
theorem cause_of_ends {b : Act} (hm : Moves D s b es s')
    (hwalk : s.loop = .walking → s.m_is_closing = true) (h : Ends s s' a) :
    b = .readEnd a ∨ Cause D s a (.step b) := by
  cases hm with
  | acceptFailed _ hfresh =>
      exact absurd h (not_ends_of_keeps id fun ho => ho.setFresh hfresh)
  | accepted _ hfresh =>
      exact absurd h (not_ends_of_keeps (List.mem_append_left _) fun ho => ho.setFresh hfresh)
  | read _ hc => exact absurd h (not_ends_of_keeps id fun ho => ho.setClient hc id)
  | readEnd _ _ _ hd => exact Or.inl (by rw [eq_of_drops hd h])
  | passMore _ hc => exact absurd h (not_ends_of_keeps id fun ho => ho.setClient hc id)
  | @passStop a' c r call _ _ hloop hc hp hh =>
      obtain ⟨rfl, hbad⟩ := eq_of_handles hh (h.of_keeps id fun ho => ho.setClient hc id)
      exact Or.inr (.framing hloop hc ⟨call, r, Or.inl hp, hbad⟩)
  | @passNext a' c r call _ _ hloop hc hp hh =>
      obtain ⟨rfl, hbad⟩ := eq_of_handles hh (h.of_keeps id fun ho => ho.setClient hc id)
      exact Or.inr (.framing hloop hc ⟨call, r, Or.inr hp, hbad⟩)
  | drainSent _ _ _ hc => exact absurd h (not_ends_of_keeps id fun ho => ho.setClient hc id)
  | drainFailed _ hq _ _ hret hd =>
      exact Or.inr (.write hq (eq_of_drops hd h).symm hret)
  | @walkClose a' c hloop hc hopen =>
      by_cases hne : a = a'
      · rw [hne]
        exact Or.inr (.Close (hwalk hloop))
      · refine absurd h (not_ends_of_keeps id fun ho => ?_)
        obtain ⟨d, hd, ho⟩ := ho
        exact ⟨d, by rw [setClient_heap, Function.update_of_ne hne, hd], ho⟩
  | sent _ hc => exact absurd h (not_ends_of_keeps id fun ho => ho.setClient hc id)
  | sendFailed _ hc _ hst hd =>
      rw [eq_of_drops hd (h.of_keeps id fun ho => ho.setClient hc id)]
      exact Or.inr (.completion hst)
  | @clientClose a' c _ hc hcl =>
      refine absurd h (not_ends_of_keeps id fun ho => ?_)
      obtain ⟨d, hd, ho⟩ := ho
      have hne : a ≠ a' := by
        rintro rfl
        rw [hc] at hd
        obtain rfl := Option.some.inj hd
        rw [hcl] at ho
        cases ho
      refine ⟨d, ?_, ho⟩
      show Function.update s.heap a' none a = _
      rw [Function.update_of_ne hne, hd]
  | _ => exact absurd h (not_ends_of_keeps id id)

end Steps

/-- An empty read removes the client. -/
theorem not_mem_of_empty {D : DataModel} {s s' : RJTcpServer} {a : Addr} {msg : List Byte}
    {es : List Event} (hreg : Registry s)
    (h : s.readStep D (.HandleMsg a 0 msg) = some (s', es)) :
    a ∈ s.m_clients ∧ a ∉ s'.m_clients := by
  have hs : s.step D (.readEnd a) = some (s', es) := h
  cases moves_of_step hs with
  | readEnd _ hc hopen hd =>
      have hmem := hreg.mem_of_open hc hopen
      refine ⟨hmem, ?_⟩
      cases hd with
      | unknown hno => exact absurd hmem hno
      | known => exact hreg.nodup.not_mem_erase

/-- **The server keeps its connections but for the empty reads.** -/
theorem keeps_iff {D : DataModel} {ts : List (Transition RJTcpServer ReadAct Event)}
    {s : RJTcpServer} (h : (readMachine D).recorded.Run AnyStep ts s) :
    (∀ t ∈ ts, Keeps D t) ↔ ∀ t ∈ ts, ¬ t.label.EmptyRead := by
  refine h.forall_recorded fun t hrun hs => ?_
  obtain ⟨hreg, hwalk⟩ := registry_of_run hrun
  constructor
  · intro hkeeps hempty
    obtain ⟨a, msg, hlabel⟩ := hempty.exists_eq
    have hs : t.source.readStep D (.HandleMsg a 0 msg) = some (t.target, t.events) := by
      rw [← hlabel]
      exact hs
    obtain ⟨hmem, hno⟩ := not_mem_of_empty hreg hs
    rw [(hkeeps.empty hempty).1] at hno
    exact hno hmem
  · intro hempty
    refine ⟨fun a hends => ?_, fun h => absurd h hempty⟩
    obtain ⟨b, hb, hs⟩ := Option.bind_eq_some_iff.mp hs
    have hcause := cause_of_ends (moves_of_step hs) hwalk hends
    rcases act?_eq_some hb with ⟨hlabel, -, hnot⟩ | ⟨a', nread, msg, hlabel, hn, rfl⟩ |
      ⟨a', nread, msg, hlabel, hn, rfl⟩
    · rw [hlabel]
      exact hcause.resolve_left (hnot a)
    · -- a read of bytes ends nothing
      rcases hcause with heq | hcause
      · cases heq
      · cases hcause
    · rcases hcause with heq | hcause
      · obtain rfl := Act.readEnd.inj heq
        rw [hlabel]
        refine .read (lt_of_le_of_ne hn ?_)
        rintro rfl
        rw [hlabel] at hempty
        exact hempty rfl
      · cases hcause

end RJTcpServer

/-! ### The client -/

namespace ClientSession

/-- The `nread` of a read callback. -/
def Act.nread? : Act → Option Int
  | .HandleMsg nread _ => some nread
  | _ => none

/-- A read callback that has read nothing. -/
def Act.EmptyRead (act : Act) : Prop := act.nread? = some 0

/-- The causes for which the client may report `ON_DISCONNECTION`. -/
inductive Cause (D : DataModel) (s : ClientSession) : Act → Prop
  | read {nread msg} (hn : nread < 0) : Cause D s (.HandleMsg nread msg)
  | framing (herr : s.m_reader.FramingError D) : Cause D s .pass
  | write {ret} (hret : ret ≠ 0) : Cause D s (.drainFailed ret)
  | completion {status} (hst : status ≠ 0) : Cause D s (.AfterSend status)
  | Close {act} (hclosing : s.cli.m_is_closing = true) : Cause D s act

/-- A step that reports no end of the connection without a cause, and does
nothing where nothing was read. -/
structure Keeps (D : DataModel) (t : Transition ClientSession Act Event) : Prop where
  cause : .m_callback .ON_DISCONNECTION ∈ t.events → Cause D t.source t.label
  empty : t.label.EmptyRead → .m_callback .ON_DISCONNECTION ∉ t.events ∧ t.target = t.source

section Steps

variable {D : DataModel} {s s' : ClientSession} {act : Act} {es : List Event}

theorem OnMsg_ne (call : OnMsgCall) : OnMsg call ≠ .ON_DISCONNECTION := by
  unfold OnMsg
  split
  · nofun
  · split <;> nofun

/-- Only a read callback without bytes reports the end. -/
theorem HandleMsg_of_report (hm : Moves D s act es s')
    (h : .m_callback .ON_DISCONNECTION ∈ es) :
    ∃ nread msg, act = .HandleMsg nread msg ∧ nread ≤ 0 := by
  cases hm with
  | ended _ hn => exact ⟨_, _, rfl, hn⟩
  | @passStop r call => exact absurd (by simpa using h) (OnMsg_ne call).symm
  | @passNext r call => exact absurd (by simpa using h) (OnMsg_ne call).symm
  | AfterSend => split at h <;> simp at h
  | _ => simp at h

/-- An empty read is reported as the end. -/
theorem report_of_empty (hm : Moves D s act es s') (h : act.EmptyRead) :
    .m_callback .ON_DISCONNECTION ∈ es := by
  cases hm with
  | received _ hn =>
      obtain rfl := Option.some.inj h
      exact absurd hn (lt_irrefl 0)
  | ended => simp
  | _ => cases h

/-- **The client keeps its connection but for the empty reads.** -/
theorem keeps_iff {ts : List (Transition ClientSession Act Event)} {s : ClientSession}
    (h : (machine D).recorded.Run AnyStep ts s) :
    (∀ t ∈ ts, Keeps D t) ↔ ∀ t ∈ ts, ¬ t.label.EmptyRead := by
  refine h.forall_recorded fun t hrun hs => ?_
  have hm := moves_of_step hs
  constructor
  · intro hkeeps hempty
    exact (hkeeps.empty hempty).1 (report_of_empty hm hempty)
  · intro hempty
    refine ⟨fun hreport => ?_, fun h => absurd h hempty⟩
    obtain ⟨nread, msg, hlabel, hn⟩ := HandleMsg_of_report hm hreport
    rw [hlabel]
    refine .read (lt_of_le_of_ne hn ?_)
    rintro rfl
    rw [hlabel] at hempty
    exact hempty rfl

end Steps

end ClientSession

/-! ### Both -/

/-- **Connections end for a cause.**  In the server and in the client, exactly
in the runs without a read callback that has read nothing. -/
theorem endsForCause_iff (D : DataModel) :
    (∀ {ts s}, (RJTcpServer.readMachine D).recorded.Run AnyStep ts s →
      ((∀ t ∈ ts, RJTcpServer.Keeps D t) ↔ ∀ t ∈ ts, ¬ t.label.EmptyRead)) ∧
    ∀ {ts s}, (ClientSession.machine D).recorded.Run AnyStep ts s →
      ((∀ t ∈ ts, ClientSession.Keeps D t) ↔ ∀ t ∈ ts, ¬ t.label.EmptyRead) :=
  ⟨RJTcpServer.keeps_iff, ClientSession.keeps_iff⟩

/-- The server loses a client to the end of its stream, and the client reports
the end of its own. -/
theorem endsForCause_iff_two :
    (∃ ts s, (RJTcpServer.readMachine .lp64).recorded.Run AnyStep ts s ∧ ts.length = 4 ∧
      s.m_clients = [] ∧
      ((∀ t ∈ ts, RJTcpServer.Keeps .lp64 t) ↔ ∀ t ∈ ts, ¬ t.label.EmptyRead)) ∧
    ∃ ts s, (ClientSession.machine .lp64).recorded.Run AnyStep ts s ∧ ts.length = 2 ∧
      s.reading = false ∧
      ((∀ t ∈ ts, ClientSession.Keeps .lp64 t) ↔ ∀ t ∈ ts, ¬ t.label.EmptyRead) := by
  obtain ⟨ts, s, hrun, hp⟩ := Machine.run_of_exec (RJTcpServer.readMachine .lp64).recorded AnyStep
    [.step (.accept 1 0 0 0 0), .HandleMsg 1 3 [0x75, 0x76, 0], .step .pass,
      .HandleMsg 1 (-4095) []]
    (fun r => decide (r.2.length = 4 ∧ r.1.m_clients = [])) (by decide +kernel)
  obtain ⟨ts', s', hrun', hp'⟩ := Machine.run_of_exec (ClientSession.machine .lp64).recorded AnyStep
    [.cli (.HandleConnection 0 0), .HandleMsg (-4095) []]
    (fun r => decide (r.2.length = 2 ∧ r.1.reading = false)) (by decide +kernel)
  obtain ⟨hlen, hgone⟩ := of_decide_eq_true hp
  obtain ⟨hlen', hended⟩ := of_decide_eq_true hp'
  exact ⟨⟨ts, s, hrun, hlen, hgone, (endsForCause_iff .lp64).1 hrun⟩,
    ts', s', hrun', hlen', hended, (endsForCause_iff .lp64).2 hrun'⟩

/-- Three bytes of a header have come when a read callback reads nothing: the
server removes the client and closes it. -/
theorem not_endsForCause : ¬ ∀ D,
    (∀ ts s, (RJTcpServer.readMachine D).recorded.Run AnyStep ts s →
      ∀ t ∈ ts, RJTcpServer.Keeps D t) ∧
    ∀ ts s, (ClientSession.machine D).recorded.Run AnyStep ts s →
      ∀ t ∈ ts, ClientSession.Keeps D t := by
  intro h
  obtain ⟨ts, s, hrun, hp⟩ := Machine.run_of_exec (RJTcpServer.readMachine .lp64).recorded AnyStep
    [.step (.accept 1 0 0 0 0), .HandleMsg 1 3 [0x75, 0x76, 0], .step .pass, .HandleMsg 1 0 []]
    (fun r => r.2.any fun t => decide (t.label.EmptyRead ∧ t.source.m_clients = [1] ∧
      t.target.m_clients = [])) (by decide +kernel)
  obtain ⟨t, ht, hp⟩ := List.any_eq_true.mp hp
  obtain ⟨hempty, hsource, htarget⟩ := of_decide_eq_true hp
  have hkeeps := ((h .lp64).1 ts s hrun t ht).empty hempty
  rw [hsource, htarget] at hkeeps
  cases hkeeps.1

end TestExamples
