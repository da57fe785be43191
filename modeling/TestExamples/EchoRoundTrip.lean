/-
TestExamples/EchoRoundTrip.lean

A request and its answer, from `RJTcpClient` through `MyServer` and back.

`RoundTrip` joins a client and a server by one connection, which the server knows
as its client number `k`.  `up` holds the bytes the client has written and the
server has not read, `down` those of the other direction.  All threads of both
sides move as they like, the other clients of the server too, and the streams are
cut into reads in any way.

The way there is that of `EndToEnd`, where of the client only the bytes it writes
matter (`Ahead`).  From there on the messages are in the queues of `MyServer`
(`Served`), their answers in those of `RJTcpServer` (`Line`, `Outbox`) and at last
in the reader of the client (`Receives`).
-/
import TestExamples.EndToEnd
import TestExamples.MyServerAnswers
import TestExamples.RJTcpClientReceiving

namespace TestExamples

/-! ### The way to the server -/

namespace EndToEnd

open RJTcpServer (Registry Moves)

variable {D : DataModel} {k : Nat} {left : List (List Byte)} {s : EndToEnd}

/-- The client writes a package. -/
theorem Ahead.write (h : Ahead D k left s) (msg : List Byte) :
    Ahead D k (left ++ [msg]) { s with wire := s.wire ++ Msg2Package msg } := by
  have henc : (left ++ [msg]).flatMap Msg2Package =
      left.flatMap Msg2Package ++ Msg2Package msg := by
    rw [List.flatMap_append, List.flatMap_singleton]
  exact
    { unborn := fun hk => by rw [henc, ← h.unborn hk]
      stream := fun hc hk ho => by rw [henc, ← h.stream hc hk ho, List.append_assoc]
      reading := h.reading
      waiting := h.waiting
      roomy := h.roomy }

/-- **A step of the server takes the next message off the front, or none.** -/
theorem Ahead.server (h : Ahead D k left s) (hreg : Registry s.srv) (hfits : ∀ m ∈ left, Fits m)
    (hcli : s.cli.m_send_buf = []) {act : RJTcpServer.Act} {wire : List Byte} {srv : RJTcpServer}
    {es : List RJTcpServer.Event} (hw : s.readWire k act = some wire)
    (hm : Moves D s.srv act es srv) :
    ∃ left', left = delivered k (es.map .server) ++ left' ∧
      Ahead D k left' { s with wire := wire, srv := srv } := by
  -- to the server it makes no difference that the messages were just pushed
  have hpushed : pushed (left.map fun m => .client (.pushed m)) = left := by
    simp [pushed, List.filterMap_map]
  have hnone : delivered k (left.map fun m => .client (.pushed m)) = [] := by
    simp [delivered, List.filterMap_map]
  have hstart : Streamed D k (left.map fun m => .client (.pushed m)) s :=
    ⟨hreg, left, [], by rw [hpushed, hnone, List.nil_append, List.append_nil], hcli, h⟩
  obtain ⟨left', queue, hsplit, hqueue, hahead⟩ :=
    (hstart.server (by rwa [hpushed]) hw hm).split
  rw [show _ = [] from hcli, eq_comm, List.map_eq_nil_iff] at hqueue
  rw [pushed_append, pushed_server, delivered_append, hpushed, hnone, hqueue, List.append_nil,
    List.append_nil, List.nil_append] at hsplit
  exact ⟨left', hsplit, hahead⟩

end EndToEnd

/-! ### Both ways -/

structure RoundTrip where
  cli : ClientSession
  up : List Byte
  srv : MyServer
  down : List Byte

namespace RoundTrip

open RJTcpServer (Registry Moves Sending Line Outbox RegisteredAt pushedIn consumedIn sentTo
  meantFor)
open MyServer (AnswersTo Pointed Placed Served Steps isAnswered heard pushes despatched
  inHand m_pThread)
open EndToEnd (Ahead)
open ClientSession (Receives messagesIn)

inductive Act
  | client (a : ClientSession.Act)
  | server (a : MyServer.Act)

/-- `sent` is a package pushed by a thread of the server. -/
inductive Event
  | client (e : ClientSession.Event)
  | server (e : RJTcpServer.Event)
  | sent (t : Thread) (pkg : uv_tcp_send_buf)
  deriving DecidableEq, Repr

/-- The way to the server; of the client nothing is needed but what it has
written. -/
def upstream (s : RoundTrip) : EndToEnd := ⟨.init, s.up, s.srv.m_server⟩

/-- The wire to the server after a step of the server. -/
def readUp (s : RoundTrip) (k : Nat) : MyServer.Act → Option (List Byte)
  | .server act => s.upstream.readWire k act
  | _ => some s.up

/-- The packages the client has handed to `uv_write`. -/
def writtenIn (tr : List ClientSession.Event) : List (List Byte) :=
  tr.filterMap fun
    | .cli (.uv_write buf) => some buf
    | _ => none

/-- One step. -/
def step (D : DataModel) (k : Nat) (s : RoundTrip) : Act → Option (RoundTrip × List Event)
  | .client a =>
      (ClientSession.readWire s.down a).bind fun down =>
        (s.cli.step D a).map fun p =>
          ({ s with cli := p.1, up := s.up ++ (writtenIn p.2).flatten, down := down },
            p.2.map .client)
  | .server a =>
      (s.readUp k a).bind fun up =>
        (s.srv.step D a).map fun p =>
          ({ s with srv := p.1, up := up, down := s.down ++ (sentTo k p.2).flatMap (·.buf) },
            p.2.map .server ++ (pushes a p.2).map fun q => .sent q.1 q.2)

def machine (D : DataModel) (k : Nat) : Machine RoundTrip Act Event :=
  ⟨⟨.init, [], .init, []⟩, step D k⟩

/-- No client is registered at an address held for somebody else. -/
def FreshAccept (s : RoundTrip) : Act → Prop
  | .server a => s.srv.FreshAccept a
  | .client _ => True

section Inversion

variable {D : DataModel} {k : Nat} {s s' : RoundTrip} {es : List Event}

theorem client_of_step {a : ClientSession.Act} (hs : s.step D k (.client a) = some (s', es)) :
    ∃ down cli ces, ClientSession.readWire s.down a = some down ∧
      s.cli.step D a = some (cli, ces) ∧ es = ces.map .client ∧
      s' = { s with cli := cli, up := s.up ++ (writtenIn ces).flatten, down := down } := by
  obtain ⟨down, hw, hs⟩ := Option.bind_eq_some_iff.mp hs
  obtain ⟨⟨cli, ces⟩, hstep, he⟩ := Option.map_eq_some_iff.mp hs
  obtain ⟨rfl, rfl⟩ := Prod.mk.inj he
  exact ⟨down, cli, ces, hw, hstep, rfl, rfl⟩

theorem server_of_step {a : MyServer.Act} (hs : s.step D k (.server a) = some (s', es)) :
    ∃ up srv ses, s.readUp k a = some up ∧ s.srv.step D a = some (srv, ses) ∧
      es = ses.map .server ++ (pushes a ses).map (fun q => .sent q.1 q.2) ∧
      s' = { s with srv := srv, up := up, down := s.down ++ (sentTo k ses).flatMap (·.buf) } := by
  obtain ⟨up, hw, hs⟩ := Option.bind_eq_some_iff.mp hs
  obtain ⟨⟨srv, ses⟩, hstep, he⟩ := Option.map_eq_some_iff.mp hs
  obtain ⟨rfl, rfl⟩ := Prod.mk.inj he
  exact ⟨up, srv, ses, hw, hstep, rfl, rfl⟩

end Inversion

/-! ### What the history says -/

def clientIn (tr : List Event) : List ClientSession.Event :=
  tr.filterMap fun
    | .client e => some e
    | _ => none

def serverIn (tr : List Event) : List RJTcpServer.Event :=
  tr.filterMap fun
    | .server e => some e
    | _ => none

def sentIn (tr : List Event) : List (Thread × uv_tcp_send_buf) :=
  tr.filterMap fun
    | .sent t pkg => some (t, pkg)
    | _ => none

/-- The message in a package. -/
def payload (buf : List Byte) : List Byte := buf.drop PACKAGE_HEAD_SIZE

/-- The messages the client has written, in order. -/
def requests (tr : List Event) : List (List Byte) := (writtenIn (clientIn tr)).map payload

/-- The messages the client has been handed, in order. -/
def replies (tr : List Event) : List (List Byte) := messagesIn (clientIn tr)

/-- The messages the threads of the server have pushed for client `k`, in order. -/
def sends (k : Nat) (tr : List Event) : List (Thread × List Byte) :=
  ((sentIn tr).filter fun q => q.2.meant = k).map fun q => (q.1, payload q.2.buf)

theorem payload_Msg2Package (msg : List Byte) : payload (Msg2Package msg) = msg := rfl

section History

variable {k : Nat} {tr es : List Event}

theorem history_client (tr : List Event) (es : List ClientSession.Event) :
    clientIn (tr ++ es.map .client) = clientIn tr ++ es ∧
      serverIn (tr ++ es.map .client) = serverIn tr ∧
      sentIn (tr ++ es.map .client) = sentIn tr := by
  simp [clientIn, serverIn, sentIn, List.filterMap_append, List.filterMap_map]

theorem history_server (tr : List Event) (es : List RJTcpServer.Event)
    (qs : List (Thread × uv_tcp_send_buf)) :
    clientIn (tr ++ (es.map .server ++ qs.map fun q => .sent q.1 q.2)) = clientIn tr ∧
      serverIn (tr ++ (es.map .server ++ qs.map fun q => .sent q.1 q.2)) = serverIn tr ++ es ∧
      sentIn (tr ++ (es.map .server ++ qs.map fun q => .sent q.1 q.2)) = sentIn tr ++ qs := by
  simp [clientIn, serverIn, sentIn, List.filterMap_append, List.filterMap_map]

end History

/-! ### The server -/

/-- The packages on their way frame messages. -/
def Packed (srv : RJTcpServer) : Prop :=
  ∀ buf, Sending srv buf → ∃ msg, buf.buf = Msg2Package msg

/-- What holds of the server, whatever its clients do. -/
structure Serving (k : Nat) (sends : List (Thread × uv_tcp_send_buf))
    (tr : List RJTcpServer.Event) (s : MyServer) : Prop where
  pointed : Pointed tr s
  placed : Placed s
  null : nullptr ∉ s.m_server.m_clients
  served : Served sends tr s
  line : Line tr s.m_server
  outbox : Outbox k tr s.m_server
  packed : Packed s.m_server

namespace Serving

variable {D : DataModel} {k : Nat} {s s' : MyServer} {act : MyServer.Act}
  {tr es : List RJTcpServer.Event} {qs : List (Thread × uv_tcp_send_buf)}

theorem init : Serving k [] [] MyServer.init where
  pointed := .init
  placed := .init
  null := nofun
  served := .init
  line := .init
  outbox := .init
  packed := by
    rintro buf (hsend | hsend | ⟨t, ht⟩)
    · cases hsend
    · cases hsend
    · cases ht

/-- Every pointer on its way names its client. -/
theorem addressed (h : Serving k qs tr s) : RJTcpServer.Addressed s.m_server := fun buf hbuf =>
  ⟨h.pointed.held (Or.inr ⟨buf, hbuf, rfl, rfl⟩), h.placed.held (Or.inr ⟨buf, hbuf, rfl, rfl⟩)⟩

theorem packed_step (h : Packed s.m_server) (hs : Steps D s act es s') : Packed s'.m_server := by
  refine hs.keeps [] (fun _ srv => Packed srv) h fun hm buf hbuf => ?_
  rcases hbuf.of_step hm with hold | ⟨t, client, msg, meant, -, rfl⟩
  · exact h buf hold
  · exact ⟨msg, rfl⟩

theorem step (h : Serving k qs tr s) (hok : s.FreshAccept act)
    (hs : s.step D act = some (s', es)) : Serving k (qs ++ pushes act es) (tr ++ es) s' := by
  have hsteps := MyServer.steps_of_step hs
  exact
    { pointed := h.pointed.step hok hs
      placed := h.placed.step h.pointed.registry hsteps
      null := hsteps.keeps tr (fun _ srv => nullptr ∉ srv.m_clients) h.null
        fun hm => RJTcpServer.nullptr_step h.null hm
      served := h.served.step h.null hsteps
      line := hsteps.keeps tr Line h.line fun hm => h.line.step hm
      outbox := hsteps.keeps tr (Outbox k) h.outbox
        fun hm => h.outbox.step h.pointed.registry h.addressed hm
      packed := packed_step h.packed hsteps }

/-- What a step writes to the client frames messages. -/
theorem sentTo_packed (h : Serving k qs tr s) (hs : Steps D s act es s')
    {buf : uv_tcp_send_buf} (hbuf : buf ∈ sentTo k es) : ∃ msg, buf.buf = Msg2Package msg := by
  have hwrite : ∀ {act' srv'}, Moves D s.m_server act' es srv' →
      ∃ msg, buf.buf = Msg2Package msg := by
    intro act' srv' hm
    obtain ⟨e, he, hsent⟩ := List.mem_filterMap.mp hbuf
    cases e with
    | uv_write k' buf' ret =>
        obtain ⟨-, hbuf'⟩ := Option.ite_none_right_eq_some.mp hsent
        obtain rfl := Option.some.inj hbuf'
        exact h.packed _ (RJTcpServer.sending_of_write hm he).1
    | _ => cases hsent
  rcases hs.moves with ⟨act', -, hm⟩ | ⟨-, ⟨rfl, -⟩ | ⟨t, client, msg, conn, hm⟩⟩
  · exact hwrite hm
  · cases hbuf
  · exact hwrite hm

end Serving

/-! ### The two ways -/

/-- The messages heard from client `k`, in order. -/
def heardFrom (k : Nat) (tr : List RJTcpServer.Event) : List (List Byte) :=
  ((heard tr).filter fun buf => buf.conn = k).map (·.msg)

theorem heardFrom_append (k : Nat) (tr es : List RJTcpServer.Event) :
    heardFrom k (tr ++ es) = heardFrom k tr ++ heardFrom k es := by
  unfold heardFrom
  rw [MyServer.heard_append, List.filter_append, List.map_append]

theorem delivered_eq_heardFrom (k : Nat) (es : List RJTcpServer.Event) :
    EndToEnd.delivered k (es.map .server) = heardFrom k es := by
  induction es with
  | nil => rfl
  | cons e es ih =>
      cases e with
      | OnMsg a k' msg =>
          by_cases hk : k' = k
          · simpa [EndToEnd.delivered, heardFrom, heard, hk] using ih
          · simpa [EndToEnd.delivered, heardFrom, heard, hk] using ih
      | _ => exact ih

section Steps

variable {D : DataModel} {k : Nat}

/-- The packages frame messages with the property `Q`. -/
def Framed (Q : List Byte → Prop) (bufs : List (List Byte)) : Prop :=
  ∀ buf ∈ bufs, ∃ msg, Q msg ∧ buf = Msg2Package msg

/-- The packages in the queue of the client frame messages pushed, and so does the
one that a step writes. -/
theorem framed_of_step {Q : List Byte → Prop} {s s' : ClientSession} {a : ClientSession.Act}
    {es : List ClientSession.Event} (h : Framed Q s.cli.m_send_buf)
    (hpush : ∀ msg, .cli (.pushed msg) ∈ es → Q msg) (hs : s.step D a = some (s', es)) :
    Framed Q s'.cli.m_send_buf ∧
      (writtenIn es = [] ∨ ∃ msg, Q msg ∧ writtenIn es = [Msg2Package msg]) := by
  have hqueue : ∀ {c : RJTcpClient} {ces}, (∀ msg, .pushed msg ∈ ces → Q msg) →
      RJTcpClient.Queues s.cli c ces → Framed Q c.m_send_buf ∧ (writtenIn (ces.map .cli) = [] ∨
        ∃ msg, Q msg ∧ writtenIn (ces.map .cli) = [Msg2Package msg]) := by
    intro c ces hpush hq
    cases hq with
    | none hq => exact ⟨hq ▸ h, Or.inl rfl⟩
    | @push msg hq =>
        refine ⟨fun buf hbuf => ?_, Or.inl rfl⟩
        rw [hq] at hbuf
        rcases List.mem_append.mp hbuf with hbuf | hbuf
        · exact h buf hbuf
        · exact ⟨msg, hpush msg (List.mem_singleton_self _), List.mem_singleton.mp hbuf⟩
    | @write buf hq =>
        obtain ⟨msg, hmsg, rfl⟩ := h buf (hq ▸ List.mem_cons_self ..)
        exact ⟨fun buf hbuf => h buf (hq ▸ List.mem_cons_of_mem _ hbuf), Or.inr ⟨msg, hmsg, rfl⟩⟩
  cases ClientSession.moves_of_step hs with
  | connectFailed hc | connected hc =>
      have hnone : Framed Q _ ∧ _ := hqueue (by
        intro msg hmsg
        cases RJTcpClient.moves_of_step hc <;> cases hmsg) (RJTcpClient.queues_of_step hc)
      exact ⟨hnone.1, Or.inl rfl⟩
  | drain hc | walked hc | cli hc =>
      exact hqueue (fun msg hmsg => hpush msg (List.mem_map_of_mem hmsg))
        (RJTcpClient.queues_of_step hc)
  | drainFailed _ hq =>
      exact ⟨fun buf hbuf => h buf (hq ▸ List.mem_cons_of_mem _ hbuf), Or.inl rfl⟩
  | AfterSend =>
      refine ⟨h, Or.inl ?_⟩
      split_ifs <;> rfl
  | _ => exact ⟨h, Or.inl rfl⟩

/-- The server writes packages. -/
theorem receives_writes {left : List (List Byte)} {wire : List Byte} {s : ClientSession}
    (h : Receives D left wire s) {bufs : List uv_tcp_send_buf}
    (hpacked : ∀ buf ∈ bufs, ∃ msg, buf.buf = Msg2Package msg) :
    Receives D (left ++ bufs.map fun buf => payload buf.buf) (wire ++ bufs.flatMap (·.buf)) s := by
  induction bufs generalizing left wire with
  | nil => simpa using h
  | cons buf bufs ih =>
      obtain ⟨msg, hmsg⟩ := hpacked buf (List.mem_cons_self ..)
      have hrest := ih (h.write msg) fun buf hbuf => hpacked buf (List.mem_cons_of_mem _ hbuf)
      rw [List.append_assoc, List.append_assoc] at hrest
      rwa [List.map_cons, List.flatMap_cons, hmsg, payload_Msg2Package]

end Steps

/-! ### The invariant -/

/-- The messages written to client `k` by the server, in order. -/
def sentBack (k : Nat) (tr : List RJTcpServer.Event) : List (List Byte) :=
  (sentTo k tr).map fun buf => payload buf.buf

structure Inv (D : DataModel) (k : Nat) (tr : List Event) (s : RoundTrip) : Prop where
  serving : Serving k (sentIn tr) (serverIn tr) s.srv
  queue : Framed (fun _ => True) s.cli.cli.m_send_buf
  up : ∃ left, requests tr = heardFrom k (serverIn tr) ++ left ∧ Ahead D k left s.upstream
  down : ∃ left, sentBack k (serverIn tr) = replies tr ++ left ∧ Receives D left s.down s.cli

/-- The reader has room for the requests and for what other threads than the
despatcher send. -/
def Bounded (k : Nat) (tr : List Event) : Prop :=
  (∀ m ∈ requests tr, m.length ≤ 2 ^ 29) ∧
    ∀ q ∈ sends k tr, q.1 ≠ m_pThread → q.2.length ≤ 2 ^ 29

section Invariant

variable {D : DataModel} {k : Nat} {tr es : List Event} {s s' : RoundTrip}

theorem requests_append (tr es : List Event) :
    requests (tr ++ es) = requests tr ++ requests es := by
  simp [requests, clientIn, writtenIn, List.filterMap_append]

theorem sends_append (tr es : List Event) : sends k (tr ++ es) = sends k tr ++ sends k es := by
  simp [sends, sentIn, List.filterMap_append]

theorem Bounded.of_append (h : Bounded k (tr ++ es)) : Bounded k tr := by
  refine ⟨fun m hm => h.1 m ?_, fun q hq => h.2 q ?_⟩
  · rw [requests_append]
    exact List.mem_append_left _ hm
  · rw [sends_append]
    exact List.mem_append_left _ hq

/-- Answers to client `k` answer its messages. -/
theorem answers_of_answersTo {reqs : List ServerBufferStruct} {pkgs : List uv_tcp_send_buf}
    (h : List.Forall₂ AnswersTo reqs pkgs) :
    List.Forall₂ MyServer.Answers ((reqs.filter fun buf => buf.conn = k).map (·.msg))
      ((meantFor k pkgs).map fun buf => payload buf.buf) := by
  have hpayload : ∀ {req : ServerBufferStruct} {pkg : uv_tcp_send_buf}, AnswersTo req pkg →
      MyServer.Answers req.msg (payload pkg.buf) := by
    rintro req pkg ⟨-, -, rep, hrep, hbuf⟩
    rwa [hbuf, payload_Msg2Package]
  have hfilter :
      List.Forall₂ AnswersTo (reqs.filter fun buf => buf.conn = k) (meantFor k pkgs) := by
    refine List.rel_filter (fun req pkg hans => ?_) h
    simp only [decide_eq_true_eq, hans.2.1]
  exact List.rel_map (fun _ _ hans => hpayload hans) hfilter

theorem exists_of_forall₂ {α β : Type*} {R : α → β → Prop} {xs : List α} {ys : List β}
    (h : List.Forall₂ R xs ys) {x : α} (hx : x ∈ xs) : ∃ y ∈ ys, R x y := by
  induction h with
  | nil => cases hx
  | cons hR _ ih =>
      rcases List.mem_cons.mp hx with rfl | hx
      · exact ⟨_, List.mem_cons_self .., hR⟩
      · obtain ⟨y, hy, hR⟩ := ih hx
        exact ⟨y, List.mem_cons_of_mem _ hy, hR⟩

namespace Inv

/-- What has been pushed for the client. -/
theorem map_sends (h : Inv D k tr s) :
    (sends k tr).map Prod.snd =
      (meantFor k (pushedIn (serverIn tr))).map fun buf => payload buf.buf := by
  rw [← h.serving.served.pushed]
  simp [sends, meantFor, List.filter_map, Function.comp_def]

/-- What the despatcher has pushed for the client. -/
theorem map_despatched (tr : List Event) :
    ((sends k tr).filter fun q => q.1 = m_pThread).map Prod.snd =
      (meantFor k (despatched (sentIn tr))).map fun buf => payload buf.buf := by
  simp [sends, meantFor, despatched, List.filter_map, Function.comp_def, List.filter_filter,
    Bool.and_comm]

/-- **The client has been sent the first of the messages pushed for it.** -/
theorem sentBack_prefix (h : Inv D k tr s) :
    sentBack k (serverIn tr) <+: (sends k tr).map Prod.snd := by
  rw [h.map_sends]
  exact (RJTcpServer.sentTo_prefix h.serving.outbox h.serving.line).map _

/-- **The messages and their answers.** -/
theorem answered (h : Inv D k tr s) :
    ∃ handled queued answers, heardFrom k (serverIn tr) = handled ++ queued ∧
      List.Forall₂ MyServer.Answers (handled.filter isAnswered) answers ∧
      answers = ((sends k tr).filter fun q => q.1 = m_pThread).map Prod.snd ++
        ((meantFor k (inHand s.srv.m_server)).map fun buf => payload buf.buf) ∧
      (s.srv.m_server.m_is_closing = false → s.srv.temp_bufs = [] → s.srv.m_bufs = [] →
        queued = []) := by
  obtain ⟨served, rest, hline, hanswers, hrest⟩ := h.serving.served.line
  refine ⟨(served.filter fun buf => buf.conn = k).map (·.msg),
    ((rest ++ s.srv.temp_bufs ++ s.srv.m_bufs).filter fun buf => buf.conn = k).map (·.msg), _,
    ?_, ?_, rfl, fun hopen htemp hbufs => ?_⟩
  · unfold heardFrom
    rw [hline, ← List.map_append, ← List.filter_append]
    simp only [List.append_assoc]
  · have hfilter := answers_of_answersTo (k := k) hanswers
    rw [RJTcpServer.meantFor_append, List.map_append, ← map_despatched] at hfilter
    rw [List.filter_map, List.filter_filter]
    rw [List.filter_filter] at hfilter
    simpa [Function.comp_def, Bool.and_comm] using hfilter
  · have hnil : rest = [] := not_not.mp fun hne => by
      rw [hrest hne] at hopen
      cases hopen
    rw [hnil, htemp, hbufs]
    rfl

/-- What the despatcher has pushed for the client answers a request. -/
theorem request_of_sends (h : Inv D k tr s) {rep : List Byte}
    (hrep : (m_pThread, rep) ∈ sends k tr) : ∃ req ∈ requests tr, MyServer.Answers req rep := by
  obtain ⟨handled, queued, answers, hheard, hanswers, rfl, -⟩ := h.answered
  obtain ⟨left, hup, -⟩ := h.up
  have hmem : rep ∈ ((sends k tr).filter fun q => q.1 = m_pThread).map Prod.snd :=
    List.mem_map.mpr ⟨_, List.mem_filter.mpr ⟨hrep, decide_eq_true rfl⟩, rfl⟩
  obtain ⟨req, hreq, hans⟩ : ∃ req ∈ handled.filter isAnswered, MyServer.Answers req rep :=
    exists_of_forall₂ (R := flip MyServer.Answers) (List.Forall₂.flip hanswers)
      (List.mem_append_left _ hmem)
  refine ⟨req, ?_, hans⟩
  rw [hup, hheard]
  exact List.mem_append_left _ (List.mem_append_left _ (List.mem_of_mem_filter hreq))

/-- What is sent to the client fits into its reader. -/
theorem fits_sends (h : Inv D k tr s) (hsize : Bounded k tr) :
    ∀ m ∈ (sends k tr).map Prod.snd, Fits m := by
  intro m hm
  obtain ⟨⟨t, msg⟩, hq, rfl⟩ := List.mem_map.mp hm
  refine EndToEnd.fits_of_le ?_
  by_cases ht : t = m_pThread
  -- an answer is as long as its request
  · obtain ⟨req, hreq, hans⟩ := h.request_of_sends (ht ▸ hq)
    show msg.length ≤ _
    rw [hans.payload.2.1]
    exact hsize.1 req hreq
  · exact hsize.2 _ hq ht

/-- A message handed to the client answers a request, or another thread than the
despatcher has pushed it. -/
theorem request_of_replies (h : Inv D k tr s) {rep : List Byte} (hrep : rep ∈ replies tr) :
    (∃ req ∈ requests tr, MyServer.Answers req rep) ∨
      ∃ t, t ≠ m_pThread ∧ (t, rep) ∈ sends k tr := by
  obtain ⟨left, hdown, -⟩ := h.down
  have hsent := h.sentBack_prefix.subset (hdown ▸ List.mem_append_left _ hrep)
  obtain ⟨⟨t, msg⟩, hq, rfl⟩ := List.mem_map.mp hsent
  by_cases ht : t = m_pThread
  · exact Or.inl (h.request_of_sends (ht ▸ hq))
  · exact Or.inr ⟨t, ht, hq⟩

theorem init : Inv D k [] (machine D k).init where
  serving := .init
  queue := nofun
  up := ⟨[], rfl, fun _ => rfl, nofun, nofun, nofun, nofun⟩
  down := ⟨[], rfl, .init⟩

/-- A step of the client. -/
theorem client (h : Inv D k tr s) (hsize : Bounded k tr) {a : ClientSession.Act} {down : List Byte}
    {cli : ClientSession} {es : List ClientSession.Event}
    (hw : ClientSession.readWire s.down a = some down) (hs : s.cli.step D a = some (cli, es)) :
    Inv D k (tr ++ es.map .client)
      { s with cli := cli, up := s.up ++ (writtenIn es).flatten, down := down } := by
  obtain ⟨hclient, hserver, hsent⟩ := history_client tr es
  obtain ⟨hqueue, hwritten⟩ := framed_of_step h.queue (fun _ _ => trivial) hs
  refine ⟨?_, hqueue, ?_, ?_⟩
  · rw [hserver, hsent]
    exact h.serving
  · obtain ⟨left, hup, hahead⟩ := h.up
    rw [hserver, requests_append, hup]
    unfold requests
    rw [show clientIn (es.map .client) = es from (history_client [] es).1]
    rcases hwritten with hnone | ⟨msg, -, hmsg⟩
    · refine ⟨left, ?_, ?_⟩
      · rw [hnone]
        exact List.append_nil _
      · rw [hnone]
        rw [show s.up ++ [].flatten = s.up from List.append_nil _]
        exact hahead
    · refine ⟨left ++ [msg], ?_, ?_⟩
      · rw [hmsg]
        exact List.append_assoc ..
      · rw [hmsg, List.flatten_singleton]
        exact hahead.write msg
  · obtain ⟨left, hdown, hreceives⟩ := h.down
    have hfits : ∀ m ∈ left, Fits m := fun m hm =>
      h.fits_sends hsize m (h.sentBack_prefix.subset (hdown ▸ List.mem_append_right _ hm))
    obtain ⟨left', rfl, hreceives'⟩ := hreceives.step hfits hw hs
    refine ⟨left', ?_, hreceives'⟩
    unfold replies
    rw [hserver, hclient, ClientSession.messagesIn_append, hdown, List.append_assoc]
    rfl

theorem readUp_of_ne {a : MyServer.Act} {up : List Byte} (ha : ∀ act, a ≠ .server act)
    (hw : s.readUp k a = some up) : s.up = up := by
  cases a with
  | server act => exact absurd rfl (ha act)
  | _ => exact Option.some.inj hw

/-- A step of the server. -/
theorem server (h : Inv D k tr s) (hsize : Bounded k tr) {a : MyServer.Act} {up : List Byte}
    {srv : MyServer} {es : List RJTcpServer.Event} (hok : s.srv.FreshAccept a)
    (hw : s.readUp k a = some up) (hs : s.srv.step D a = some (srv, es)) :
    Inv D k (tr ++ (es.map .server ++ (pushes a es).map fun q => .sent q.1 q.2))
      { s with srv := srv, up := up, down := s.down ++ (sentTo k es).flatMap (·.buf) } := by
  obtain ⟨hclient, hserver, hsent⟩ := history_server tr es (pushes a es)
  have hsteps := MyServer.steps_of_step hs
  have hrequests : requests (tr ++ (es.map .server ++ (pushes a es).map fun q => .sent q.1 q.2)) =
      requests tr := congrArg (fun es => (writtenIn es).map payload) hclient
  refine ⟨?_, h.queue, ?_, ?_⟩
  · rw [hserver, hsent]
    exact h.serving.step hok hs
  · obtain ⟨left, hup, hahead⟩ := h.up
    have hfits : ∀ m ∈ left, Fits m := fun m hm =>
      EndToEnd.fits_of_le (hsize.1 m (hup ▸ List.mem_append_right _ hm))
    rw [hserver, hrequests, heardFrom_append, hup]
    -- a message is heard in a step of the server only
    have hahead' : ∃ left', left = heardFrom k es ++ left' ∧
        Ahead D k left' ⟨.init, up, srv.m_server⟩ := by
      rw [← delivered_eq_heardFrom]
      rcases hsteps.moves with ⟨act', rfl, hm⟩ | ⟨hact, ⟨rfl, hsame⟩ |
        ⟨t, client, msg, conn, hm⟩⟩
      · exact hahead.server h.serving.pointed.registry hfits rfl hw hm
      · refine ⟨left, rfl, ?_⟩
        rw [hsame, ← readUp_of_ne hact hw]
        exact hahead
      · rw [← readUp_of_ne hact hw]
        exact hahead.server h.serving.pointed.registry hfits rfl rfl hm
    obtain ⟨left', rfl, hahead'⟩ := hahead'
    exact ⟨left', (List.append_assoc ..).symm, hahead'⟩
  · obtain ⟨left, hdown, hreceives⟩ := h.down
    refine ⟨left ++ sentBack k es, ?_, ?_⟩
    · unfold replies sentBack
      rw [hserver, hclient, RJTcpServer.sentTo_append, List.map_append, ← List.append_assoc]
      exact congrArg (· ++ _) hdown
    · exact receives_writes hreceives fun buf hbuf => h.serving.sentTo_packed hsteps hbuf

theorem step (h : Inv D k tr s) (hsize : Bounded k tr) {a : Act} (hok : s.FreshAccept a)
    (hs : RoundTrip.step D k s a = some (s', es)) : Inv D k (tr ++ es) s' := by
  cases a with
  | client a =>
      obtain ⟨down, cli, ces, hw, hstep, rfl, rfl⟩ := client_of_step hs
      exact h.client hsize hw hstep
  | server a =>
      obtain ⟨up, srv, ses, hw, hstep, rfl, rfl⟩ := server_of_step hs
      exact h.server hsize hok hw hstep

end Inv

theorem inv_run (h : (machine D k).Run FreshAccept tr s) (hsize : Bounded k tr) : Inv D k tr s := by
  refine h.invariant (fun tr s => Bounded k tr → Inv D k tr s) (fun _ => .init) ?_ hsize
  intro tr s a s' es ih hok hs hsize
  exact (ih hsize.of_append).step hsize.of_append hok hs

/-! ### What the client gets -/

/-- **Requests and answers.**  What the client is handed are the first of the
messages pushed for it, and what the despatcher has pushed for it answers its first
requests one by one, each that gets an answer. -/
theorem echo_of_run (h : (machine D k).Run FreshAccept tr s) (hsize : Bounded k tr) :
    replies tr <+: (sends k tr).map Prod.snd ∧
      ∃ handled answers, handled <+: requests tr ∧
        List.Forall₂ MyServer.Answers (handled.filter isAnswered) answers ∧
        ((sends k tr).filter fun q => q.1 = m_pThread).map Prod.snd <+: answers := by
  have hinv := inv_run h hsize
  obtain ⟨left, hdown, -⟩ := hinv.down
  obtain ⟨left', hup, -⟩ := hinv.up
  obtain ⟨handled, queued, answers, hheard, hanswers, hdespatched, -⟩ := hinv.answered
  refine ⟨?_, handled, answers, ?_, hanswers, ?_⟩
  · exact (hdown ▸ List.prefix_append _ _ : replies tr <+: sentBack k (serverIn tr)).trans
      hinv.sentBack_prefix
  · rw [hup, hheard, List.append_assoc]
    exact List.prefix_append _ _
  · rw [hdespatched]
    exact List.prefix_append _ _

/-- Client `k` is connected, and nothing is on its way. -/
structure AtRest (k : Nat) (s : RoundTrip) : Prop where
  connected : ∃ a c, s.srv.m_server.heap a = some c ∧ c.conn = k ∧ c.closing = none
  opened : s.srv.m_server.m_is_closing = false
  wires : s.up = [] ∧ s.down = []
  client : s.cli.inSetBuffer = false
  loop : s.srv.m_server.loop = .idle
  despatcher : inHand s.srv.m_server = []
  queues : s.srv.m_bufs = [] ∧ s.srv.temp_bufs = [] ∧ s.srv.m_server.m_send_buf = []

/-- A reader without a complete package, at the end of the stream, has read
everything. -/
theorem left_nil {left : List (List Byte)} {received : List Byte} (hfits : ∀ m ∈ left, Fits m)
    (h : received ++ [] = left.flatMap Msg2Package) (hmore : nextPackage D received = .more) :
    left = [] := by
  have hlens : ∀ m ∈ left, m.length < 2 ^ 31 := fun m hm => (hfits m hm).lt
  rcases (package_decodes D).next_of_append hlens h with ⟨-, -, hshort⟩ | ⟨m, ms, rest, -, hf, -⟩
  · rcases left with - | ⟨m, ms⟩
    · rfl
    · have hlt := hshort m ms rfl
      rw [← List.append_nil received, h, List.flatMap_cons, List.length_append] at hlt
      omega
  · rw [show (packageFraming D).next received = _ from hmore] at hf
    cases hf

/-- Everything that was pushed has been handed over. -/
theorem Inv.replies_eq (h : Inv D k tr s) (hsize : Bounded k tr) (hrest : AtRest k s) :
    replies tr = (sends k tr).map Prod.snd := by
  obtain ⟨a, c, hc, hk, hopen⟩ := hrest.connected
  obtain ⟨left, hdown, hreceives⟩ := h.down
  have hleft : left = [] := left_nil
    (fun m hm => h.fits_sends hsize m
      (h.sentBack_prefix.subset (hdown ▸ List.mem_append_right _ hm)))
    (hrest.wires.2 ▸ hreceives.stream) (hreceives.waiting hrest.client)
  have hdrained : s.srv.m_server.sendTemp = [] := not_not.mp fun hne => by
    have hloop := h.serving.line.temp hne
    rw [hrest.loop] at hloop
    cases hloop
  have hall : pushedIn (serverIn tr) = consumedIn (serverIn tr) := by
    rw [h.serving.line.queue, hdrained, hrest.queues.2.2, List.append_nil, List.append_nil]
  have hmem : a ∈ s.srv.m_server.m_clients := h.serving.pointed.registry.mem_of_open hc hopen
  rw [hleft, List.append_nil] at hdown
  rw [h.map_sends, hall, ← h.serving.outbox.kept a ⟨hmem, c, hc, hk⟩]
  exact hdown.symm

/-- Every request that gets an answer has got it. -/
theorem Inv.answers_eq (h : Inv D k tr s) (hsize : Bounded k tr) (hrest : AtRest k s) :
    List.Forall₂ MyServer.Answers ((requests tr).filter isAnswered)
      (((sends k tr).filter fun q => q.1 = m_pThread).map Prod.snd) := by
  obtain ⟨a, c, hc, hk, hopen⟩ := hrest.connected
  obtain ⟨hbufs, htemp, -⟩ := hrest.queues
  obtain ⟨left, hup, hahead⟩ := h.up
  have hidle : s.srv.m_server.loop ≠ .reading a := by
    rw [hrest.loop]
    exact nofun
  have hleft : left = [] := left_nil
    (fun m hm => EndToEnd.fits_of_le (hsize.1 m (hup ▸ List.mem_append_right _ hm)))
    (hrest.wires.1 ▸ hahead.stream hc hk hopen) (hahead.waiting hc hk hopen hidle)
  obtain ⟨handled, queued, answers, hheard, hanswers, hdespatched, hnone⟩ := h.answered
  rw [hrest.despatcher] at hdespatched
  rw [hnone hrest.opened htemp hbufs, List.append_nil] at hheard
  rw [hup, hleft, List.append_nil, hheard]
  rwa [hdespatched, show (meantFor k []).map _ = [] from rfl, List.append_nil] at hanswers

/-- **Nothing is lost.**  At rest the client has been handed everything that was
pushed for it, and each of its requests that gets an answer has got one. -/
theorem echo_complete (h : (machine D k).Run FreshAccept tr s) (hsize : Bounded k tr)
    (hrest : AtRest k s) :
    replies tr = (sends k tr).map Prod.snd ∧
      List.Forall₂ MyServer.Answers ((requests tr).filter isAnswered)
        (((sends k tr).filter fun q => q.1 = m_pThread).map Prod.snd) :=
  ⟨(inv_run h hsize).replies_eq hsize hrest, (inv_run h hsize).answers_eq hsize hrest⟩

end Invariant

/-! ### One request -/

/-- Nobody else is accepted. -/
def NoAccept (s : RoundTrip) : Act → Prop
  | .server a => s.srv.NoAccept a
  | .client _ => True

instance (s : RoundTrip) (a : Act) : Decidable (NoAccept s a) := by
  unfold NoAccept
  split <;> infer_instance

theorem freshAccept_of_noAccept (s : RoundTrip) (a : Act) (h : NoAccept s a) : FreshAccept s a := by
  cases a with
  | server a => exact MyServer.freshAccept_of_noAccept s.srv a h
  | client a => trivial

/-- Client 0 is accepted. -/
theorem accepted_run : (machine .lp64 0).Run FreshAccept ([] ++ [.server (.OnNewConnection 1 0)])
    { (machine .lp64 0).init with
      srv := { MyServer.init with
        m_server := { RJTcpServer.init.opened 1 RJTcpServer.init.newClient with m_clients := [1] }
        m_clients := [(1, 0)] } } := by
  refine .step (.start (M := machine .lp64 0)) (a := .server (.server (.accept 1 0 0 0 0))) ?_ rfl
  intro _ k
  exact MyServer.not_held_of_idle ⟨rfl, rfl⟩ rfl rfl (fun _ => rfl) 1 k

/-- One request and its answer; the client reads the answer in two parts. -/
theorem request_run :
    ∃ tr s, (machine .lp64 0).Run FreshAccept tr s ∧ AtRest 0 s ∧ Bounded 0 tr ∧
      requests tr = [MyServer.request] ∧ replies tr = [MyServer.request] := by
  obtain ⟨tr, s, hrun, hp⟩ := accepted_run.extend NoAccept freshAccept_of_noAccept
    [.client (.cli (.HandleConnection 0 0)), .client (.cli (.send 1 MyServer.request)),
      .client (.cli (.push 1)), .client (.cli (.signal 1)), .client (.cli .asyncCallBack),
      .client (.cli .lock), .client (.cli .drain), .client (.cli .drained),
      .server (.server (.read 1 (Msg2Package MyServer.request))), .server (.server .pass),
      .server (.server .pass), .server .swap, .server (.despatch fun _ => 0),
      .server (.server (.push 0)), .server (.server (.signal 0)),
      .server (.server .asyncCallBack), .server (.server .swap), .server (.server (.drain 0)),
      .server (.server .drained), .client (.HandleMsg 10 ((Msg2Package MyServer.request).take 10)),
      .client .pass, .client (.HandleMsg 36 ((Msg2Package MyServer.request).drop 10)),
      .client .pass, .client .pass]
    (fun q => decide (((q.1.srv.m_server.heap 1).any (fun c => c.conn = 0 ∧ c.closing = none) ∧
      q.1.srv.m_server.m_is_closing = false ∧ (q.1.up = [] ∧ q.1.down = []) ∧
      q.1.cli.inSetBuffer = false ∧ q.1.srv.m_server.loop = .idle ∧
      inHand q.1.srv.m_server = [] ∧
      (q.1.srv.m_bufs = [] ∧ q.1.srv.temp_bufs = [] ∧ q.1.srv.m_server.m_send_buf = [])) ∧
      sends 0 q.2 = [(0, MyServer.request)] ∧
      requests q.2 = [MyServer.request] ∧ replies q.2 = [MyServer.request])) (by decide +kernel)
  obtain ⟨⟨hconn, hopen, hwires, hclient, hloop, hhand, hqueues⟩, hsends, hrequests, hreplies⟩ :=
    of_decide_eq_true hp
  have hlen : MyServer.request.length ≤ 2 ^ 29 := by decide
  refine ⟨tr, s, hrun, ⟨?_, hopen, hwires, hclient, hloop, hhand, hqueues⟩, ⟨?_, ?_⟩, hrequests,
    hreplies⟩
  · obtain ⟨c, hc, hck⟩ := (Option.any_eq_true ..).mp hconn
    exact ⟨1, c, hc, of_decide_eq_true hck⟩
  · rw [hrequests]
    exact List.forall_mem_singleton.mpr hlen
  · rw [hsends]
    exact List.forall_mem_singleton.mpr fun _ => hlen

theorem echo_of_run_one :
    ∃ tr s, (machine .lp64 0).Run FreshAccept tr s ∧ replies tr = [MyServer.request] ∧
      replies tr <+: (sends 0 tr).map Prod.snd := by
  obtain ⟨tr, s, hrun, -, hsize, -, hreplies⟩ := request_run
  exact ⟨tr, s, hrun, hreplies, (echo_of_run hrun hsize).1⟩

theorem echo_complete_one :
    ∃ tr s, (machine .lp64 0).Run FreshAccept tr s ∧ requests tr = [MyServer.request] ∧
      replies tr = (sends 0 tr).map Prod.snd := by
  obtain ⟨tr, s, hrun, hrest, hsize, hrequests, -⟩ := request_run
  exact ⟨tr, s, hrun, hrequests, (echo_complete hrun hsize hrest).1⟩

end RoundTrip

end TestExamples
