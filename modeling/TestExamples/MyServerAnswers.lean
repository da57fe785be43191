/-
TestExamples/MyServerAnswers.lean

What `MyServer` answers, and in which order.

The messages heard are those despatched, those in `temp_bufs` and those in
`m_bufs`; the packages the despatcher has handed to `Send` are the answers to the
messages despatched, one for each that gets an answer (`Served`).  After `Close`
`Send` refuses, so the messages despatched from then on, `rest`, stay without.
Other threads push packages of their own in between (`Broadcast`).

Every pointer on its way names a client that is found nowhere else (`Placed`);
this does not ask for the guard of `Pointed`, since numbers are not reused.
-/
import TestExamples.MyServerDelivery
import TestExamples.RJTcpServerOutbox

namespace TestExamples

open RJTcpServer (Event Moves Registry Located Sending pushedIn pushesIn)

/-! ### The answer to a message -/

namespace MyServer

/-- `rep` is what `EchoCmd` lays out for the message `req`. -/
def Answers (req rep : List Byte) : Prop :=
  ∃ junk m, DespatchMsg req = some (some m) ∧ packEcho junk m.id m.cmd m.value = some rep

/-- `DespatchMsg` calls `EchoCmd`. -/
def isAnswered (msg : List Byte) : Bool :=
  match DespatchMsg msg with
  | some (some _) => true
  | _ => false

theorem packEcho_payload {junk : Block} {id : Int} {cmd value frame : List Byte}
    (h : packEcho junk id cmd value = some frame) :
    frame.length = MSG_HEAD_LENGTH + value.length ∧ frame.drop MSG_HEAD_LENGTH = value := by
  obtain ⟨buf₁, h₁, h⟩ := Option.bind_eq_some_iff.mp h
  obtain ⟨buf₂, h₂, h₃⟩ := Option.bind_eq_some_iff.mp h
  have hlen₁ := writeAt_length h₁
  have hlen₂ := writeAt_length h₂
  have hlen₃ := writeAt_length h₃
  rw [span_length] at hlen₁
  refine ⟨by omega, ?_⟩
  rw [writeAt_drop h₃, List.drop_eq_nil_of_le (by omega), List.append_nil]

theorem parseMsg_value {msg : List Byte} {m : MsgFields} (h : parseMsg msg = some m) :
    MSG_HEAD_LENGTH ≤ msg.length ∧ m.value = msg.drop MSG_HEAD_LENGTH := by
  have hlen : MSG_HEAD_LENGTH ≤ msg.length := by
    obtain ⟨id, -, h⟩ := Option.bind_eq_some_iff.mp h
    obtain ⟨cmd, -, h⟩ := Option.bind_eq_some_iff.mp h
    obtain ⟨value, hvalue, -⟩ := Option.bind_eq_some_iff.mp h
    exact (Option.ite_none_right_eq_some.mp hvalue).1
  refine ⟨hlen, ?_⟩
  rw [parseMsg_of_le hlen] at h
  exact (Option.some.inj h) ▸ rfl

/-- **An answer has the length and the payload of its request.** -/
theorem Answers.payload {req rep : List Byte} (h : Answers req rep) :
    MSG_HEAD_LENGTH ≤ req.length ∧ rep.length = req.length ∧
      rep.drop MSG_HEAD_LENGTH = req.drop MSG_HEAD_LENGTH := by
  obtain ⟨junk, m, hreq, hrep⟩ := h
  obtain ⟨m', hparse, hm'⟩ := Option.map_eq_some_iff.mp hreq
  obtain rfl : m' = m := by
    split at hm'
    · exact Option.some.inj hm'
    · cases hm'
  obtain ⟨hlen, hvalue⟩ := parseMsg_value hparse
  obtain ⟨hrlen, hrvalue⟩ := packEcho_payload hrep
  refine ⟨hlen, ?_, hrvalue.trans hvalue⟩
  rw [hrlen, hvalue, List.length_drop]
  omega

/-! ### The steps, branch by branch -/

/-- What a call of `Send` by thread `t` does. -/
inductive Sends (D : DataModel) (s : RJTcpServer) (t : Thread) (client : Addr)
    (msg : List Byte) (conn : Nat) : List Event → RJTcpServer → Prop
  | refused (hwhy : s.m_is_closing = true ∨ client = nullptr ∨ msg = []) :
      Sends D s t client msg conn [] s
  | accepted (hopen : s.m_is_closing = false)
      (hm : Moves D s (.send t client msg conn) [.accepted t ⟨client, Msg2Package msg, conn⟩]
        (s.setPc t (.built ⟨client, Msg2Package msg, conn⟩))) :
      Sends D s t client msg conn [.accepted t ⟨client, Msg2Package msg, conn⟩]
        (s.setPc t (.built ⟨client, Msg2Package msg, conn⟩))

/-- **The steps of the application.** -/
inductive Steps (D : DataModel) (s : MyServer) : Act → List Event → MyServer → Prop
  | server {act es srv} (hact : ∀ t a m k, act ≠ .send t a m k)
      (hm : Moves D s.m_server act es srv) :
      Steps D s (.server act) es (es.foldl callback { s with m_server := srv })
  | nothing : Steps D s .swap [] s
  | swapped (htemp : s.temp_bufs = []) :
      Steps D s .swap []
        { s with m_bufs := s.temp_bufs, temp_bufs := s.m_bufs, m_has_new_msg := false }
  | answered {junk buf rest m frame es srv} (hpc : s.m_server.pc m_pThread = .idle)
      (htemp : s.temp_bufs = buf :: rest) (hmsg : DespatchMsg buf.msg = some (some m))
      (hframe : packEcho junk m.id m.cmd m.value = some frame)
      (hsend : Sends D s.m_server m_pThread buf.client frame buf.conn es srv) :
      Steps D s (.despatch junk) es { s with temp_bufs := rest, m_server := srv }
  | ignored {junk buf rest} (htemp : s.temp_bufs = buf :: rest)
      (hmsg : DespatchMsg buf.msg = some none) :
      Steps D s (.despatch junk) [] { s with temp_bufs := rest }
  | broadcast {t client msg a k es srv} (ht : t ≠ m_pThread) (hmem : (a, k) ∈ s.m_clients)
      (hsend : Sends D s.m_server t a msg k es srv) :
      Steps D s (.broadcast t client msg) es { s with m_server := srv }

section Inversion

variable {D : DataModel} {s s' : MyServer} {act : Act} {es : List Event}

theorem sends_of_send {t : Thread} {client : Addr} {msg : List Byte} {conn : Nat}
    (h : s.send D t client msg conn = some (s', es)) :
    ∃ srv, s' = { s with m_server := srv } ∧ Sends D s.m_server t client msg conn es srv := by
  obtain ⟨⟨srv, es'⟩, hstep, he⟩ := Option.map_eq_some_iff.mp h
  obtain ⟨rfl, rfl⟩ := Prod.mk.inj he
  simp only [RJTcpServer.step] at hstep
  obtain ⟨⟨hpc, hsize⟩, hstep⟩ := Option.ite_none_right_eq_some.mp hstep
  unfold RJTcpServer.Send at hstep
  split at hstep
  · next hwhy =>
    obtain ⟨rfl, rfl⟩ := Prod.mk.inj (Option.some.inj hstep)
    exact ⟨s.m_server, rfl, .refused hwhy⟩
  · next hok =>
    obtain ⟨rfl, rfl⟩ := Prod.mk.inj (Option.some.inj hstep)
    obtain ⟨hopen, hok⟩ := not_or.mp hok
    obtain ⟨hnull, hmsg⟩ := not_or.mp hok
    exact ⟨_, rfl, .accepted (Bool.eq_false_iff.mpr hopen) (.send hpc hnull hmsg hsize)⟩

theorem steps_of_step (h : s.step D act = some (s', es)) : Steps D s act es s' := by
  cases act with
  | server act =>
      have hact : ∀ t a m k, act ≠ .send t a m k := by
        rintro t a m k rfl
        simp [MyServer.step] at h
      have h : s.server D act = some (s', es) := by
        cases act <;> first | exact h | exact absurd rfl (hact _ _ _ _)
      obtain ⟨⟨srv, es'⟩, hstep, he⟩ := Option.map_eq_some_iff.mp h
      obtain ⟨rfl, rfl⟩ := Prod.mk.inj he
      exact .server hact (RJTcpServer.moves_of_step hstep)
  | swap =>
      simp only [MyServer.step] at h
      split at h
      · next hcond =>
        split at h
        · obtain ⟨rfl, rfl⟩ := Prod.mk.inj (Option.some.inj h)
          exact .swapped hcond.2
        · obtain ⟨rfl, rfl⟩ := Prod.mk.inj (Option.some.inj h)
          exact .nothing
      · cases h
  | despatch junk =>
      simp only [MyServer.step] at h
      split at h
      · next buf rest hpc htemp =>
        split at h
        · next m hmsg =>
          obtain ⟨frame, hframe, h⟩ := Option.bind_eq_some_iff.mp h
          obtain ⟨srv, rfl, hsend⟩ := sends_of_send h
          exact .answered hpc htemp hmsg hframe hsend
        · next hmsg =>
          obtain ⟨rfl, rfl⟩ := Prod.mk.inj (Option.some.inj h)
          exact .ignored htemp hmsg
        · cases h
      · cases h
  | broadcast t client msg =>
      simp only [MyServer.step] at h
      split at h
      · next a k hfind =>
        split at h
        · next ht =>
          obtain ⟨srv, rfl, hsend⟩ := sends_of_send h
          exact .broadcast ht (List.mem_of_find?_eq_some hfind) hsend
        · cases h
      · cases h

end Inversion

/-! ### Pointers -/

section Placed

variable {D : DataModel} {s s' : MyServer} {act : Act} {tr es : List Event} {a : Addr} {k : Nat}

/-- The server makes no step, or one of its own. -/
theorem Sends.moves {srv srv' : RJTcpServer} {t : Thread} {client : Addr} {msg : List Byte}
    {conn : Nat} (h : Sends D srv t client msg conn es srv') :
    srv' = srv ∨ srv' = srv.setPc t (.built ⟨client, Msg2Package msg, conn⟩) := by
  cases h with
  | refused => exact Or.inl rfl
  | accepted => exact Or.inr rfl

/-- `Send` makes no callback. -/
theorem Sends.of_mem {srv srv' : RJTcpServer} {t : Thread} {client : Addr} {msg : List Byte}
    {conn : Nat} (h : Sends D srv t client msg conn es srv') {e : Event} (he : e ∈ es) :
    ∃ buf, e = .accepted t buf := by
  cases h with
  | refused => cases he
  | accepted => exact ⟨_, List.mem_singleton.mp he⟩

/-- A package on its way after `Send` was so before, or is the new one. -/
theorem Sends.sending {srv srv' : RJTcpServer} {t : Thread} {client : Addr} {msg : List Byte}
    {conn : Nat} (h : Sends D srv t client msg conn es srv') {buf : uv_tcp_send_buf}
    (hb : Sending srv' buf) : Sending srv buf ∨ buf = ⟨client, Msg2Package msg, conn⟩ := by
  cases h with
  | refused => exact Or.inl hb
  | accepted =>
      rcases hb with hb | hb | ⟨t', ht'⟩
      · exact Or.inl (Or.inl hb)
      · exact Or.inl (Or.inr (Or.inl hb))
      · rcases update_eq ht' with ⟨-, hnew⟩ | ⟨-, hold⟩
        · exact Or.inr (CallPc.built.inj hnew).symm
        · exact Or.inl (Or.inr (Or.inr ⟨t', hold⟩))

/-- **Where a pointer that is held comes from.** -/
theorem Held.of_step (hs : Steps D s act es s') (h : s'.Held a k) :
    s.Held a k ∨ (a, k) ∈ s.m_clients ∨ ∃ msg, .OnMsg a k msg ∈ es := by
  have hqueue : ∀ (srv : RJTcpServer) {bufs temp : List ServerBufferStruct} {new : Bool},
      MyServer.Held
        { s with m_server := srv, m_bufs := bufs, m_has_new_msg := new, temp_bufs := temp } a k →
      (∀ buf, buf ∈ bufs ∨ buf ∈ temp → buf ∈ s.m_bufs ∨ buf ∈ s.temp_bufs) →
      s.Held a k ∨ ∃ buf, Sending srv buf ∧ buf.client = a ∧ buf.meant = k := by
    intro srv bufs temp new h hsub
    rcases h with ⟨buf, hbuf, hans, ha, hk⟩ | hsend
    · exact Or.inl (Or.inl ⟨buf, hsub buf hbuf, hans, ha, hk⟩)
    · exact Or.inr hsend
  cases hs with
  | server hact hm =>
      rcases h with ⟨buf, hbuf, hans, rfl, rfl⟩ | ⟨buf, hsend, rfl, rfl⟩
      · rw [callbacks_temp_bufs] at hbuf
        rcases hbuf with hbuf | hbuf
        · rcases mem_callbacks_m_bufs hbuf with hbuf | hnew
          · exact Or.inl (Or.inl ⟨buf, Or.inl hbuf, hans, rfl, rfl⟩)
          · exact Or.inr (Or.inr ⟨_, hnew⟩)
        · exact Or.inl (Or.inl ⟨buf, Or.inr hbuf, hans, rfl, rfl⟩)
      · rw [callbacks_m_server] at hsend
        rcases Sending.of_step hsend hm with hsend | ⟨t, a, m, k, rfl, -⟩
        · exact Or.inl (Or.inr ⟨buf, hsend, rfl, rfl⟩)
        · exact absurd rfl (hact t a m k)
  | nothing => exact Or.inl h
  | swapped =>
      rcases hqueue s.m_server h fun _ hb => hb.symm with hold | hsend
      · exact Or.inl hold
      · exact Or.inl (Or.inr hsend)
  | @answered junk buf rest m frame es srv hpc htemp hmsg hframe hsends =>
      have hfront : s.Held buf.client buf.conn :=
        Or.inl ⟨buf, Or.inr (htemp ▸ List.mem_cons_self ..), ⟨m, hmsg⟩, rfl, rfl⟩
      rcases hqueue srv h
        fun _ hb => hb.imp id fun hb => htemp ▸ List.mem_cons_of_mem _ hb with hold | hsend
      · exact Or.inl hold
      · obtain ⟨pkg, hpkg, rfl, rfl⟩ := hsend
        rcases hsends.sending hpkg with hold | rfl
        · exact Or.inl (Or.inr ⟨pkg, hold, rfl, rfl⟩)
        · exact Or.inl hfront
  | @ignored junk buf rest htemp hmsg =>
      rcases hqueue s.m_server h
        fun _ hb => hb.imp id fun hb => htemp ▸ List.mem_cons_of_mem _ hb with hold | hsend
      · exact Or.inl hold
      · exact Or.inl (Or.inr hsend)
  | broadcast ht hmem hsends =>
      rcases hqueue _ h fun _ hb => hb with hold | hsend
      · exact Or.inl hold
      · obtain ⟨pkg, hpkg, rfl, rfl⟩ := hsend
        rcases hsends.sending hpkg with hold | rfl
        · exact Or.inl (Or.inr ⟨pkg, hold, rfl, rfl⟩)
        · exact Or.inr (Or.inl hmem)

theorem mem_clients_of_step (hs : Steps D s act es s') (h : (a, k) ∈ s'.m_clients) :
    (a, k) ∈ s.m_clients ∨ .OnNewConnection a k ∈ es := by
  cases hs with
  | @server _ _ srv _ _ => exact mem_callbacks_m_clients (s := { s with m_server := srv }) h
  | _ => exact Or.inl h

/-- **A step of the application is one of the server, a call of `Send`, or
none.** -/
theorem Steps.moves (hs : Steps D s act es s') :
    (∃ act', act = .server act' ∧ Moves D s.m_server act' es s'.m_server) ∨
      (∀ act', act ≠ .server act') ∧ (es = [] ∧ s'.m_server = s.m_server ∨
        ∃ t client msg conn, Moves D s.m_server (.send t client msg conn) es s'.m_server) := by
  have hsend : ∀ {srv srv' t client msg conn}, Sends D srv t client msg conn es srv' →
      es = [] ∧ srv' = srv ∨
        ∃ t client msg conn, Moves D srv (.send t client msg conn) es srv' := by
    intro srv srv' t client msg conn h
    cases h with
    | refused => exact Or.inl ⟨rfl, rfl⟩
    | accepted _ hm => exact Or.inr ⟨t, client, msg, conn, hm⟩
  cases hs with
  | @server act es srv _ hm =>
      refine Or.inl ⟨act, rfl, ?_⟩
      rw [callbacks_m_server]
      exact hm
  | answered _ _ _ _ hsends | broadcast _ _ hsends => exact Or.inr ⟨nofun, hsend hsends⟩
  | _ => exact Or.inr ⟨nofun, Or.inl ⟨rfl, rfl⟩⟩

/-- A property of the server that its steps keep. -/
theorem Steps.keeps (hs : Steps D s act es s') (tr : List Event)
    (P : List Event → RJTcpServer → Prop) (h : P tr s.m_server)
    (hstep : ∀ {act' srv'}, Moves D s.m_server act' es srv' → P (tr ++ es) srv') :
    P (tr ++ es) s'.m_server := by
  rcases hs.moves with ⟨act', -, hm⟩ | ⟨-, ⟨rfl, hsame⟩ | ⟨t, client, msg, conn, hm⟩⟩
  · exact hstep hm
  · rw [hsame, List.append_nil]
    exact h
  · exact hstep hm

/-- A client stays where it is. -/
theorem Steps.located (hs : Steps D s act es s') (h : Located s.m_server a k) :
    Located s'.m_server a k :=
  hs.keeps [] (fun _ srv => Located srv a k) h fun hm => h.step hm

/-- Every pointer names a client that is found nowhere else. -/
structure Placed (s : MyServer) : Prop where
  clients : ∀ {a k}, (a, k) ∈ s.m_clients → Located s.m_server a k
  held : ∀ {a k}, s.Held a k → Located s.m_server a k

theorem Placed.init : Placed MyServer.init where
  clients := nofun
  held := fun h => absurd h (not_held_of_idle ⟨rfl, rfl⟩ rfl rfl (fun _ => rfl) _ _)

theorem Placed.step (h : Placed s) (hreg : Registry s.m_server) (hs : Steps D s act es s') :
    Placed s' := by
  constructor
  · intro a k hmem
    rcases mem_clients_of_step hs hmem with hold | hnew
    · exact hs.located (h.clients hold)
    · cases hs with
      | server _ hm =>
          rw [callbacks_m_server]
          exact (RJTcpServer.registeredAt_of_OnNewConnection hreg hm hnew).located (hreg.step hm)
      | answered _ _ _ _ hsend | broadcast _ _ hsend =>
          obtain ⟨buf, hbuf⟩ := hsend.of_mem hnew
          cases hbuf
      | _ => cases hnew
  · intro a k hheld
    rcases hheld.of_step hs with hold | hold | ⟨msg, hnew⟩
    · exact hs.located (h.held hold)
    · exact hs.located (h.clients hold)
    · cases hs with
      | server _ hm =>
          rw [callbacks_m_server]
          exact (RJTcpServer.registeredAt_of_OnMsg hm hnew).located (hreg.step hm)
      | answered _ _ _ _ hsend | broadcast _ _ hsend =>
          obtain ⟨buf, hbuf⟩ := hsend.of_mem hnew
          cases hbuf
      | _ => cases hnew

end Placed

/-! ### The messages and their answers -/

/-- The messages `OnMsg` was called with, in order. -/
def heard (tr : List Event) : List ServerBufferStruct :=
  tr.filterMap fun
    | .OnMsg a k msg => some ⟨a, msg, k⟩
    | _ => none

/-- The packages a step pushes, with the thread that pushes them. -/
def pushes (act : Act) (es : List Event) : List (Thread × uv_tcp_send_buf) :=
  match act with
  | .server (.push t) => (pushedIn es).map fun buf => (t, buf)
  | _ => []

/-- The packages pushed by the despatcher. -/
def despatched (sends : List (Thread × uv_tcp_send_buf)) : List uv_tcp_send_buf :=
  (sends.filter fun p => p.1 = m_pThread).map Prod.snd

/-- The package the despatcher has made and not pushed yet. -/
def inHand (srv : RJTcpServer) : List uv_tcp_send_buf :=
  match srv.pc m_pThread with
  | .built buf => [buf]
  | _ => []

/-- The package `pkg` takes an answer to the message back to where it came from. -/
def AnswersTo (req : ServerBufferStruct) (pkg : uv_tcp_send_buf) : Prop :=
  pkg.client = req.client ∧ pkg.meant = req.conn ∧
    ∃ rep, Answers req.msg rep ∧ pkg.buf = Msg2Package rep

section Served

variable {D : DataModel} {s s' : MyServer} {srv srv' : RJTcpServer} {act : Act}
  {tr es : List Event} {t : Thread} {client : Addr} {msg : List Byte} {conn : Nat}
  {sends sends' : List (Thread × uv_tcp_send_buf)}

theorem heard_append (tr es : List Event) : heard (tr ++ es) = heard tr ++ heard es :=
  List.filterMap_append

theorem despatched_append (sends sends' : List (Thread × uv_tcp_send_buf)) :
    despatched (sends ++ sends') = despatched sends ++ despatched sends' := by
  unfold despatched
  rw [List.filter_append, List.map_append]

/-- **What is heard goes to the end of the queue.** -/
theorem callbacks_m_bufs (s : MyServer) (es : List Event) :
    (es.foldl callback s).m_bufs = s.m_bufs ++ heard es := by
  induction es generalizing s with
  | nil => exact (List.append_nil _).symm
  | cons e es ih =>
      rw [List.foldl_cons, ih]
      cases e with
      | OnMsg a k msg =>
          show s.m_bufs ++ [_] ++ heard es = s.m_bufs ++ (_ :: heard es)
          rw [List.append_assoc]
          rfl
      | OnNewConnection a k =>
          show (s.OnNewConnection a k).m_bufs ++ _ = _
          unfold OnNewConnection
          split <;> rfl
      | _ => rfl

theorem inHand_built {buf : uv_tcp_send_buf} (h : srv.pc m_pThread = .built buf) :
    inHand srv = [buf] := by
  unfold inHand
  rw [h]

theorem pushes_eq {act : RJTcpServer.Act} (hm : Moves D srv act es srv') :
    pushes (.server act) es = pushesIn es := by
  cases hm with
  | readEnd _ _ _ hd => exact hd.calls.2.symm
  | passStop _ _ _ hh => exact hh.calls.2.symm
  | passNext _ _ _ hh => exact hh.calls.2.symm
  | drainFailed _ _ _ _ _ hd => exact hd.calls.2.symm
  | sendFailed _ _ _ _ hd => exact hd.calls.2.symm
  | _ => rfl

/-- **A step of the server pushes what the despatcher holds, or leaves it.** -/
theorem inHand_of_moves {act : RJTcpServer.Act} (hact : ∀ t a m k, act ≠ .send t a m k)
    (hm : Moves D srv act es srv') :
    inHand srv = despatched (pushes (.server act) es) ++ inHand srv' ∧
      (pushes (.server act) es).map Prod.snd = pushedIn es := by
  have hcalls := RJTcpServer.calls_of_moves hm m_pThread
  rw [RJTcpServer.acceptedIn_of_moves hm hact] at hcalls
  rw [pushes_eq hm]
  exact ⟨(List.append_nil _).symm.trans hcalls, RJTcpServer.map_pushesIn es⟩

/-- `Close` is not taken back. -/
theorem closing_of_moves {act : RJTcpServer.Act} (hm : Moves D srv act es srv')
    (h : srv.m_is_closing = true) : srv'.m_is_closing = true := by
  have hdrop : ∀ {s s' : RJTcpServer} {a es}, RJTcpServer.Drops s a es s' →
      s'.m_is_closing = s.m_is_closing := by
    intro s s' a es hd
    cases hd <;> rfl
  have hhandle : ∀ {s s' : RJTcpServer} {a call es}, RJTcpServer.Handles s a call es s' →
      s'.m_is_closing = s.m_is_closing := by
    intro s s' a call es hh
    cases hh with
    | drop _ hd => exact hdrop hd
    | deliver => rfl
    | skip => rfl
  cases hm with
  | readEnd _ _ _ hd => exact (hdrop hd).trans h
  | passStop _ _ _ hh => exact (hhandle hh).trans h
  | passNext _ _ _ hh => exact (hhandle hh).trans h
  | drainFailed _ _ _ _ _ hd => exact (hdrop hd).trans h
  | sendFailed _ _ _ _ hd => exact (hdrop hd).trans h
  | setClosing => rfl
  | _ => exact h

/-- **The messages and the answers.**  `served` are the messages despatched before
`Close`, `rest` those despatched after it. -/
structure Served (sends : List (Thread × uv_tcp_send_buf)) (tr : List Event) (s : MyServer) :
    Prop where
  pushed : sends.map Prod.snd = pushedIn tr
  client : ∀ buf ∈ heard tr, buf.client ≠ nullptr
  line : ∃ served rest, heard tr = served ++ rest ++ s.temp_bufs ++ s.m_bufs ∧
    List.Forall₂ AnswersTo (served.filter fun buf => isAnswered buf.msg)
      (despatched sends ++ inHand s.m_server) ∧
    (rest ≠ [] → s.m_server.m_is_closing = true)

namespace Served

theorem init : Served [] [] MyServer.init where
  pushed := rfl
  client := nofun
  line := ⟨[], [], rfl, .nil, fun hne => absurd rfl hne⟩

/-- A message that waits for the despatcher has been heard. -/
theorem mem_heard (h : Served sends tr s) {buf : ServerBufferStruct} (hbuf : buf ∈ s.temp_bufs) :
    buf ∈ heard tr := by
  obtain ⟨served, rest, hline, -, -⟩ := h.line
  rw [hline]
  exact List.mem_append_left _ (List.mem_append_right _ hbuf)

/-- A step of the server by itself. -/
theorem server (h : Served sends tr s) {act : RJTcpServer.Act}
    (hact : ∀ t a m k, act ≠ .send t a m k) (hnull : nullptr ∉ s.m_server.m_clients)
    (hm : Moves D s.m_server act es srv) :
    Served (sends ++ pushes (.server act) es) (tr ++ es)
      (es.foldl callback { s with m_server := srv }) := by
  obtain ⟨hhand, hpushed⟩ := inHand_of_moves hact hm
  obtain ⟨served, rest, hline, hanswers, hrest⟩ := h.line
  refine ⟨?_, fun buf hbuf => ?_, served, rest, ?_, ?_, ?_⟩
  · rw [List.map_append, hpushed, RJTcpServer.pushedIn_append, h.pushed]
  · rw [heard_append] at hbuf
    rcases List.mem_append.mp hbuf with hold | hnew
    · exact h.client buf hold
    · obtain ⟨e, he, heq⟩ := List.mem_filterMap.mp hnew
      cases e with
      | OnMsg a k msg =>
          obtain rfl := Option.some.inj heq
          rintro rfl
          exact RJTcpServer.nullptr_step hnull hm (RJTcpServer.registeredAt_of_OnMsg hm he).1
      | _ => cases heq
  · rw [heard_append, callbacks_temp_bufs, callbacks_m_bufs, hline, List.append_assoc _ s.m_bufs]
  · rw [callbacks_m_server, despatched_append, List.append_assoc, ← hhand]
    exact hanswers
  · rw [callbacks_m_server]
    exact fun hne => closing_of_moves hm (hrest hne)

/-- The despatcher takes the next message; a package it makes is an answer. -/
theorem despatch (h : Served sends tr s) {buf : ServerBufferStruct}
    {bufs : List ServerBufferStruct} (htemp : s.temp_bufs = buf :: bufs)
    {made : List uv_tcp_send_buf}
    (hclosing : srv.m_is_closing = s.m_server.m_is_closing)
    (hhand : inHand srv = inHand s.m_server ++ made)
    (hmade : s.m_server.m_is_closing = true ∧ made = [] ∨
      s.m_server.m_is_closing = false ∧
        List.Forall₂ AnswersTo ([buf].filter fun buf => isAnswered buf.msg) made ∨
      isAnswered buf.msg = false ∧ made = []) :
    Served sends tr { s with temp_bufs := bufs, m_server := srv } := by
  obtain ⟨served, rest, hline, hanswers, hrest⟩ := h.line
  have hserve : (rest = [] ∧
      List.Forall₂ AnswersTo ([buf].filter fun buf => isAnswered buf.msg) made) ∨
      s.m_server.m_is_closing = true ∧ made = [] := by
    rcases hmade with hmade | ⟨hopen, hmade⟩ | ⟨hno, rfl⟩
    · exact Or.inr hmade
    · refine Or.inl ⟨not_not.mp fun hne => ?_, hmade⟩
      rw [hrest hne] at hopen
      cases hopen
    · by_cases hne : rest = []
      · refine Or.inl ⟨hne, ?_⟩
        rw [List.filter_cons_of_neg (by simp [hno])]
        exact .nil
      · exact Or.inr ⟨hrest hne, rfl⟩
  refine ⟨h.pushed, h.client, ?_⟩
  rcases hserve with ⟨rfl, hmade⟩ | ⟨hclosed, rfl⟩
  · refine ⟨served ++ [buf], [], ?_, ?_, fun hne => absurd rfl hne⟩
    · show heard tr = served ++ [buf] ++ [] ++ bufs ++ s.m_bufs
      rw [hline, htemp]
      simp
    · show List.Forall₂ AnswersTo _ (despatched sends ++ inHand srv)
      rw [hhand, List.filter_append, ← List.append_assoc]
      exact List.rel_append hanswers hmade
  · refine ⟨served, rest ++ [buf], ?_, ?_, fun _ => hclosing.trans hclosed⟩
    · show heard tr = served ++ (rest ++ [buf]) ++ bufs ++ s.m_bufs
      rw [hline, htemp]
      simp
    · show List.Forall₂ AnswersTo _ (despatched sends ++ inHand srv)
      rw [hhand, List.append_nil]
      exact hanswers

/-- A call of `Send` neither hears nor pushes anything. -/
theorem quiet (h : Served sends tr s) (hsend : Sends D srv t client msg conn es srv') :
    Served sends (tr ++ es) s := by
  cases hsend with
  | refused => rwa [List.append_nil]
  | accepted =>
      refine ⟨?_, ?_, ?_⟩
      · rw [RJTcpServer.pushedIn_append]
        exact h.pushed.trans (List.append_nil _).symm
      · rw [heard_append, show heard [_] = [] from rfl, List.append_nil]
        exact h.client
      · rw [heard_append, show heard [_] = [] from rfl, List.append_nil]
        exact h.line

theorem step (h : Served sends tr s) (hnull : nullptr ∉ s.m_server.m_clients)
    (hs : Steps D s act es s') : Served (sends ++ pushes act es) (tr ++ es) s' := by
  cases hs with
  | server hact hm => exact h.server hact hnull hm
  | nothing =>
      rw [List.append_nil, show pushes .swap [] = [] from rfl, List.append_nil]
      exact h
  | swapped htemp =>
      obtain ⟨served, rest, hline, hanswers, hrest⟩ := h.line
      rw [List.append_nil, show pushes .swap [] = [] from rfl, List.append_nil]
      refine ⟨h.pushed, h.client, served, rest, ?_, hanswers, hrest⟩
      show heard tr = served ++ rest ++ s.m_bufs ++ s.temp_bufs
      rw [hline, htemp, List.append_nil, List.append_nil]
  | @answered junk buf rest m frame es srv hpc htemp hmsg hframe hsend =>
      rw [show pushes (.despatch junk) es = [] from rfl, List.append_nil]
      refine Served.quiet ?_ hsend
      have hanswered : isAnswered buf.msg = true := by
        unfold isAnswered
        rw [hmsg]
      have hidle : inHand s.m_server = [] := by
        unfold inHand
        rw [hpc]
      cases hsend with
      | refused hwhy =>
          refine h.despatch htemp rfl (List.append_nil _).symm (Or.inl ⟨?_, rfl⟩)
          -- neither the pointer nor the answer is empty
          rcases hwhy with hclosing | hclient | hnil
          · exact hclosing
          · exact absurd hclient (h.client buf (h.mem_heard (htemp ▸ List.mem_cons_self ..)))
          · have hlen : frame.length = 40 + m.value.length := (packEcho_payload hframe).1
            rw [hnil, List.length_nil] at hlen
            omega
      | accepted hopen =>
          have hmade : List.Forall₂ AnswersTo ([buf].filter fun buf => isAnswered buf.msg)
              [⟨buf.client, Msg2Package frame, buf.conn⟩] := by
            rw [List.filter_cons_of_pos (by exact hanswered), List.filter_nil]
            exact .cons ⟨rfl, rfl, frame, ⟨junk, m, hmsg, hframe⟩, rfl⟩ .nil
          refine h.despatch htemp rfl ?_ (Or.inr (Or.inl ⟨hopen, hmade⟩))
          rw [hidle, List.nil_append]
          refine inHand_built ?_
          rw [RJTcpServer.setPc_pc, Function.update_self]
  | @ignored junk buf rest htemp hmsg =>
      rw [List.append_nil, show pushes (.despatch junk) [] = [] from rfl, List.append_nil]
      refine h.despatch htemp rfl (List.append_nil _).symm (Or.inr (Or.inr ⟨?_, rfl⟩))
      unfold isAnswered
      rw [hmsg]
  | @broadcast t client msg a k es srv ht hmem hsend =>
      obtain ⟨served, rest, hline, hanswers, hrest⟩ := h.line
      rw [show pushes (.broadcast t client msg) es = [] from rfl, List.append_nil]
      refine Served.quiet ?_ hsend
      have hhand : inHand srv = inHand s.m_server ∧
          srv.m_is_closing = s.m_server.m_is_closing := by
        rcases hsend.moves with rfl | rfl
        · exact ⟨rfl, rfl⟩
        · refine ⟨?_, rfl⟩
          unfold inHand
          rw [RJTcpServer.setPc_pc, Function.update_of_ne ht.symm]
      refine ⟨h.pushed, h.client, served, rest, hline, ?_, fun hne => hhand.2.trans (hrest hne)⟩
      show List.Forall₂ AnswersTo _ (despatched sends ++ inHand srv)
      rw [hhand.1]
      exact hanswers

end Served

end Served

end MyServer

end TestExamples
