/-
TestExamples/TcpNet.lean

`MyClient` on top of `RJTcpClient`, with `MyServer` at the other end.

`EchoNet` takes the transport for a bag of messages: a request may be served and a
reply delivered at any time and any number of times.  Here the transport is the one
of the source: `m_client.Send` frames the request and pushes it, the loop thread
writes it, the server reads, despatches and answers it, and the answer comes back
through the reader of the client into `MyClient::func`.

A call of `m_client.Send` is three steps, as in `RJTcpClient`, and other threads move
in between.  The thread of `MyClient` moves on with the push; it does nothing more
before `Send` has returned.

Every run of `TcpNet` is one of `EchoNet`, as far as the calls of `MyClient` go
(`echoNet_of_run`), so what holds of every run there holds here.
-/
import TestExamples.EchoRoundTrip
import TestExamples.Lib.Simulation
import TestExamples.MessageHeadRange
import TestExamples.MyClientCorrelation

namespace TestExamples

/-- `net` is `m_client` and all that it is connected to. -/
structure TcpNet where
  app : MyClient
  net : RoundTrip

namespace MyClient

/-- `func`.  `OnError` calls the application only. -/
def func (s : MyClient) : Notice → Option MyClient
  | .ON_MSG msg => s.OnMsg msg
  | .ON_CONNECTION => some (s.receiveMsg ON_CONNECTION_MSG)
  | .ON_ERROR | .ON_DISCONNECTION => some s

/-- The message a call of `Send` makes. -/
def frame (s : MyClient) (t : Thread) (junk : Block) : Option (List Byte) :=
  match s.pc t with
  | .registered cmd msg reqId | .asyncIssued cmd msg reqId => packSend junk cmd msg reqId
  | _ => none

/-- The thread of a step that neither sends nor receives. -/
def Act.thread : Act → Option Thread
  | .syncSend t _ _ | .register t | .wait t _ | .take t | .leave t | .asyncSend t _ _ => some t
  | .send _ _ _ _ | .onMsg _ => none

/-- The same client with other things in the vector of its despatcher. -/
def withInbox (s : MyClient) (vec : List (List Byte)) (sem : Nat) : MyClient :=
  { s with m_receiveMsgVec := vec, m_receiveMsgSem := sem }

end MyClient

namespace TcpNet

inductive Act
  | app (a : MyClient.Act)
  | send (t : Thread) (junk : Block)
  | push (t : Thread) (junk : Block)
  | net (a : RoundTrip.Act)

inductive Event
  | app (e : MyClient.Event)
  | net (e : RoundTrip.Event)
  deriving DecidableEq, Repr

/-- The calls of `m_callback`. -/
def notices (es : List RoundTrip.Event) : List Notice :=
  es.filterMap fun
    | .client (.m_callback n) => some n
    | _ => none

/-- A step of `m_client.Send`, which `MyClient` takes part in. -/
def sends : RoundTrip.Act → Bool
  | .client (.cli (.send _ _)) | .client (.cli (.push _)) => true
  | _ => false

/-- Thread `t` is not in a call of `m_client`. -/
def returned (s : TcpNet) (t : Thread) : Bool := s.net.cli.cli.pc t = .idle

abbrev Outcome := Option (TcpNet × List Event)

/-- A step of `MyClient` alone. -/
def appStep (s : TcpNet) (a : MyClient.Act) : Outcome :=
  (s.app.step a).map fun p => ({ s with app := p.1 }, p.2.map .app)

/-- One step. -/
def step (D : DataModel) (k : Nat) (s : TcpNet) : Act → Outcome
  | .app a =>
      match a.thread with
      | some t => if s.returned t then s.appStep a else none
      | none => none
  | .send t junk =>
      (s.app.frame t junk).bind fun frame =>
        (s.net.step D k (.client (.cli (.send t frame)))).bind fun p =>
          -- `Send` returns -1 at once where the client is not connected
          if ({ s with net := p.1 } : TcpNet).returned t then s.appStep (.send t junk false (-1))
          else some ({ s with net := p.1 }, p.2.map .net)
  | .push t junk =>
      match s.net.cli.cli.pc t with
      | .built frame =>
          if s.app.frame t junk = some frame then
            (s.net.step D k (.client (.cli (.push t)))).bind fun p =>
              (s.app.step (.send t junk true 0)).map fun q =>
                (⟨q.1, p.1⟩, p.2.map .net ++ q.2.map .app)
          else none
      | _ => none
  | .net a =>
      if sends a then none
      else
        (s.net.step D k a).bind fun p =>
          ((notices p.2).foldlM MyClient.func s.app).map fun c => (⟨c, p.1⟩, p.2.map .net)

def machine (D : DataModel) (k : Nat) : Machine TcpNet Act Event :=
  ⟨⟨.init, (RoundTrip.machine D k).init⟩, step D k⟩

/-- No client of the server is registered at an address held for somebody else. -/
def FreshAccept (s : TcpNet) : Act → Prop
  | .net a => s.net.FreshAccept a
  | _ => True

/-! ### What the history says -/

def appIn (tr : List Event) : List MyClient.Event :=
  tr.filterMap fun
    | .app e => some e
    | _ => none

def netIn (tr : List Event) : List RoundTrip.Event :=
  tr.filterMap fun
    | .net e => some e
    | _ => none

theorem appIn_append (tr es : List Event) : appIn (tr ++ es) = appIn tr ++ appIn es :=
  List.filterMap_append

theorem netIn_append (tr es : List Event) : netIn (tr ++ es) = netIn tr ++ netIn es :=
  List.filterMap_append

theorem history_app (es : List MyClient.Event) :
    appIn (es.map .app) = es ∧ netIn (es.map .app) = [] := by
  simp [appIn, netIn, List.filterMap_map]

theorem history_net (es : List RoundTrip.Event) :
    appIn (es.map .net) = [] ∧ netIn (es.map .net) = es := by
  simp [appIn, netIn, List.filterMap_map]

/-! ### The branches -/

section Inversion

variable {D : DataModel} {k : Nat} {s s' : TcpNet} {act : Act} {es : List Event}

/-- A message enters the queue of the client in a push. -/
theorem pushed_of_step {net net' : RoundTrip} {a : RoundTrip.Act} {es : List RoundTrip.Event}
    {msg : List Byte} (hs : net.step D k a = some (net', es))
    (he : .client (.cli (.pushed msg)) ∈ es) :
    ∃ t, a = .client (.cli (.push t)) ∧ net.cli.cli.pc t = .built msg := by
  cases a with
  | server a =>
      obtain ⟨up, srv, ses, -, -, rfl, -⟩ := RoundTrip.server_of_step hs
      simp at he
  | client a =>
      obtain ⟨down, c, ces, -, hstep, rfl, -⟩ := RoundTrip.client_of_step hs
      have hmem : ClientSession.Event.cli (.pushed msg) ∈ ces := by simpa using he
      have hpush : ∀ {r : RJTcpClient} {b res}, net.cli.cli.step b = some (r, res) →
          ClientSession.Event.cli (.pushed msg) ∈ res.map .cli →
            ∃ t, b = .push t ∧ net.cli.cli.pc t = .built msg := by
        intro r b res hb hmem
        have hmem : RJTcpClient.Event.pushed msg ∈ res := by simpa using hmem
        cases RJTcpClient.moves_of_step hb with
        | @push t msg' hpc =>
            obtain rfl := RJTcpClient.Event.pushed.inj (List.mem_singleton.mp hmem)
            exact ⟨t, rfl, hpc⟩
        | drain => cases List.mem_singleton.mp hmem
        | _ => cases hmem
      cases ClientSession.moves_of_step hstep with
      | drain hb | walked hb | cli hb =>
          obtain ⟨t, hb, hpc⟩ := hpush hb hmem
          exact ⟨t, congrArg (fun b => RoundTrip.Act.client (.cli b)) hb, hpc⟩
      | AfterSend => split_ifs at hmem <;> simp at hmem
      | _ => simp at hmem

/-- A call of `m_client.Send` begins without events. -/
theorem send_events {net net' : RoundTrip} {t : Thread} {frame : List Byte}
    {es : List RoundTrip.Event}
    (hs : net.step D k (.client (.cli (.send t frame))) = some (net', es)) : es = [] := by
  obtain ⟨down, c, ces, -, hstep, rfl, -⟩ := RoundTrip.client_of_step hs
  cases ClientSession.moves_of_step hstep with
  | cli hb => cases RJTcpClient.moves_of_step hb <;> rfl

/-- What `MyClient` gives the transport is the message of the call. -/
theorem mem_sent_of_frame {c : MyClient} {t : Thread} {junk : Block} {frame : List Byte}
    {ds : List MyClient.Event} (hframe : s.app.frame t junk = some frame)
    (hs : s.app.step (.send t junk true 0) = some (c, ds)) : frame ∈ EchoNet.sent ds := by
  unfold MyClient.frame at hframe
  cases MyClient.moves_of_step hs with
  | sent hpc hpack | asyncSent hpc hpack =>
      rw [hpc] at hframe
      obtain rfl := Option.some.inj (hframe.symm.trans hpack)
      simp [EchoNet.sent]
  | sendFailed _ _ hret => exact absurd rfl hret

/-- **The steps, branch by branch.**  A call of `m_client.Send` that is let in is a
step of the transport. -/
inductive Moves (D : DataModel) (k : Nat) (s : TcpNet) : Act → List Event → TcpNet → Prop
  | app {act a c ds} (ha : ∀ msg, a ≠ .onMsg msg) (hs : s.app.step a = some (c, ds)) :
      Moves D k s act (ds.map .app) { s with app := c }
  | push {t junk frame net nes c ds} (hpc : s.net.cli.cli.pc t = .built frame)
      (hframe : s.app.frame t junk = some frame)
      (hnet : s.net.step D k (.client (.cli (.push t))) = some (net, nes))
      (hs : s.app.step (.send t junk true 0) = some (c, ds)) :
      Moves D k s (.push t junk) (nes.map .net ++ ds.map .app) ⟨c, net⟩
  | net {act a net nes c} (hfresh : s.FreshAccept act → s.net.FreshAccept a)
      (hnet : s.net.step D k a = some (net, nes))
      (hpush : ∀ msg, .client (.cli (.pushed msg)) ∉ nes)
      (hc : (notices nes).foldlM MyClient.func s.app = some c) :
      Moves D k s act (nes.map .net) ⟨c, net⟩

theorem moves_of_appStep {a : MyClient.Act} (ha : ∀ msg, a ≠ .onMsg msg)
    (hs : s.appStep a = some (s', es)) : Moves D k s act es s' := by
  obtain ⟨⟨c, ds⟩, hstep, he⟩ := Option.map_eq_some_iff.mp hs
  obtain ⟨rfl, rfl⟩ := Prod.mk.inj he
  exact .app ha hstep

theorem moves_of_step (hs : s.step D k act = some (s', es)) : Moves D k s act es s' := by
  cases act with
  | app a =>
      simp only [step] at hs
      split at hs
      · next t ht =>
        obtain ⟨-, hs⟩ := Option.ite_none_right_eq_some.mp hs
        refine moves_of_appStep ?_ hs
        rintro msg rfl
        cases ht
      · cases hs
  | send t junk =>
      obtain ⟨frame, hframe, hs⟩ := Option.bind_eq_some_iff.mp hs
      obtain ⟨⟨net, nes⟩, hnet, hs⟩ := Option.bind_eq_some_iff.mp hs
      dsimp only at hs
      split at hs
      · exact moves_of_appStep (by simp) hs
      · obtain ⟨rfl, rfl⟩ := Prod.mk.inj (Option.some.inj hs)
        obtain rfl := send_events hnet
        have hok : s.net.FreshAccept (.client (.cli (.send t frame))) := trivial
        exact .net (fun _ => hok) hnet (by simp) rfl
  | push t junk =>
      simp only [step] at hs
      split at hs
      · next frame hpc =>
        obtain ⟨hframe, hs⟩ := Option.ite_none_right_eq_some.mp hs
        obtain ⟨⟨net, nes⟩, hnet, hs⟩ := Option.bind_eq_some_iff.mp hs
        obtain ⟨⟨c, ds⟩, hstep, he⟩ := Option.map_eq_some_iff.mp hs
        obtain ⟨rfl, rfl⟩ := Prod.mk.inj he
        exact .push hpc hframe hnet hstep
      · cases hs
  | net a =>
      simp only [step] at hs
      split at hs
      · cases hs
      · next hsends =>
        obtain ⟨⟨net, nes⟩, hnet, hs⟩ := Option.bind_eq_some_iff.mp hs
        obtain ⟨c, hc, he⟩ := Option.map_eq_some_iff.mp hs
        obtain ⟨rfl, rfl⟩ := Prod.mk.inj he
        refine .net id hnet (fun msg hmsg => ?_) hc
        obtain ⟨t, rfl, -⟩ := pushed_of_step hnet hmsg
        exact hsends rfl

end Inversion

end TcpNet

/-! ### The vector of the despatcher -/

namespace MyClient

variable {s s' : MyClient} {vec : List (List Byte)} {sem : Nat}

/-- The calls do not look at the vector. -/
theorem step_withInbox {a : Act} (ha : ∀ msg, a ≠ .onMsg msg) :
    (s.withInbox vec sem).step a = (s.step a).map fun p => (p.1.withInbox vec sem, p.2) := by
  cases a with
  | onMsg msg => exact absurd rfl (ha msg)
  | syncSend t cmd msg =>
      simp only [step, withInbox]
      split <;> rfl
  | register t =>
      simp only [step, withInbox]
      split <;> rfl
  | send t junk queued ret =>
      simp only [step, withInbox]
      split
      · next cmd msg reqId hpc =>
        cases packSend junk cmd msg reqId with
        | none => rfl
        | some frame =>
            simp only [Option.bind_some]
            split <;> rfl
      · next cmd msg reqId hpc =>
        cases packSend junk cmd msg reqId <;> rfl
      · rfl
  | wait t res =>
      simp only [step, withInbox]
      split <;> rfl
  | take t =>
      simp only [step, withInbox]
      split
      · next msg reqId hpc =>
        simp only [takeResult]
        cases s.m_reqResultMap reqId <;> rfl
      · rfl
  | leave t =>
      simp only [step, withInbox]
      split <;> rfl
  | asyncSend t cmd msg =>
      simp only [step, withInbox]
      split <;> rfl

/-- Nor does `OnMsg`. -/
theorem OnMsg_withInbox {msg : List Byte} (h : s.OnMsg msg = some s') (vec : List (List Byte))
    (sem : Nat) : ∃ vec' sem', (s.withInbox vec sem).OnMsg msg = some (s'.withInbox vec' sem') := by
  unfold OnMsg at h ⊢
  split at h
  · next hlen =>
    obtain rfl := Option.some.inj h
    exact ⟨vec, sem, if_pos hlen⟩
  · next hlen =>
    rw [if_neg hlen]
    dsimp only at h ⊢
    split at h
    · next hid =>
      rw [if_pos hid]
      split at h
      · next t hreg =>
        obtain ⟨n, hn, rfl⟩ := Option.map_eq_some_iff.mp h
        refine ⟨vec, sem, ?_⟩
        simp only [GetSyscReqSem, withInbox] at hreg ⊢
        rw [hreg]
        simp only [release]
        rw [show s.sems t = some n from hn]
        rfl
      · next hnone =>
        obtain rfl := Option.some.inj h
        refine ⟨vec ++ [msg], sem + 1, ?_⟩
        simp only [GetSyscReqSem, withInbox] at hnone ⊢
        rw [hnone]
        rfl
    · next hid =>
      obtain rfl := Option.some.inj h
      exact ⟨vec ++ [msg], sem + 1, if_neg hid⟩

end MyClient

namespace TcpNet

open MyServer (m_pThread)
open RoundTrip (Framed)

/-- The requests fit into the reader of the server, and its other threads send
nothing longer than a head. -/
def Bounded (k : Nat) (tr : List Event) : Prop :=
  (∀ m ∈ RoundTrip.requests (netIn tr), m.length ≤ 2 ^ 29) ∧
    ∀ q ∈ RoundTrip.sends k (netIn tr), q.1 ≠ m_pThread → q.2.length ≤ MSG_HEAD_LENGTH

/-- `EchoNet` has seen the same calls, and every request that is somewhere in the
transport. -/
structure Mirrors (D : DataModel) (k : Nat) (tr : List Event) (s : TcpNet) (e : EchoNet) :
    Prop where
  net : RoundTrip.Inv D k (netIn tr) s.net
  app : ∃ vec sem, e.cli = s.app.withInbox vec sem
  queue : Framed (· ∈ e.requests) s.net.cli.cli.m_send_buf
  requests : ∀ m ∈ RoundTrip.requests (netIn tr), m ∈ e.requests

section Simulation

variable {D : DataModel} {k : Nat} {tr : List Event} {s s' : TcpNet} {e : EchoNet}

theorem Bounded.net (h : Bounded k tr) : RoundTrip.Bounded k (netIn tr) :=
  ⟨h.1, fun q hq ht => (h.2 q hq ht).trans (by decide)⟩

theorem Bounded.of_append {es : List Event} (h : Bounded k (tr ++ es)) : Bounded k tr := by
  unfold Bounded at h ⊢
  rw [netIn_append, RoundTrip.requests_append, RoundTrip.sends_append] at h
  exact ⟨fun m hm => h.1 m (List.mem_append_left _ hm),
    fun q hq => h.2 q (List.mem_append_left _ hq)⟩

/-! ### The stretches of `EchoNet` -/

/-- A step of `MyClient` is one of `EchoNet`. -/
theorem echo_client {a : MyClient.Act} (ha : ∀ msg, a ≠ .onMsg msg) {c : MyClient}
    {es : List MyClient.Event} (happ : ∃ vec sem, e.cli = s.app.withInbox vec sem)
    (hs : s.app.step a = some (c, es)) :
    ∃ e', (EchoNet.machine.startAt e).Run AnyStep es e' ∧
      (∃ vec sem, e'.cli = c.withInbox vec sem) ∧
      e'.requests = e.requests ++ EchoNet.sent es := by
  obtain ⟨vec, sem, hcli⟩ := happ
  have hstep : e.cli.step a = some (c.withInbox vec sem, es) := by
    rw [hcli, MyClient.step_withInbox ha, hs]
    rfl
  have hecho : EchoNet.machine.step e (.client a) =
      some ({ e with cli := c.withInbox vec sem
                     requests := e.requests ++ EchoNet.sent es }, es) := by
    show EchoNet.step e (.client a) = _
    have hmap : EchoNet.step e (.client a) = (e.cli.step a).map fun p =>
        ({ e with cli := p.1, requests := e.requests ++ EchoNet.sent p.2 }, p.2) := by
      cases a with
      | onMsg msg => exact absurd rfl (ha msg)
      | _ => rfl
    rw [hmap, hstep]
    rfl
  exact ⟨_, .one trivial hecho, ⟨vec, sem, rfl⟩, rfl⟩

/-- A message comes: the server of `EchoNet` answers the request and the answer is
delivered. -/
theorem echo_func {n : Notice} {c c' : MyClient} (hcli : ∃ vec sem, e.cli = c.withInbox vec sem)
    (hmsg : ∀ msg, n = .ON_MSG msg → msg.length ≤ MSG_HEAD_LENGTH ∨
      ∃ req ∈ e.requests, MyServer.Answers req msg) (hc : c.func n = some c') :
    ∃ e', (EchoNet.machine.startAt e).Run AnyStep [] e' ∧
      (∃ vec sem, e'.cli = c'.withInbox vec sem) ∧ e'.requests = e.requests := by
  cases n with
  | ON_CONNECTION =>
      obtain ⟨vec, sem, hcli⟩ := hcli
      obtain rfl := Option.some.inj hc
      exact ⟨e, .start, ⟨vec, sem, hcli⟩, rfl⟩
  | ON_ERROR | ON_DISCONNECTION =>
      obtain rfl := Option.some.inj hc
      exact ⟨e, .start, hcli, rfl⟩
  | ON_MSG msg =>
      have hc : c.OnMsg msg = some c' := hc
      rcases hmsg msg rfl with hshort | ⟨req, hreq, junk, m, hm, hrep⟩
      · unfold MyClient.OnMsg at hc
        rw [if_pos hshort] at hc
        obtain rfl := Option.some.inj hc
        exact ⟨e, .start, hcli, rfl⟩
      · obtain ⟨vec, sem, hcli⟩ := hcli
        obtain ⟨vec', sem', hc⟩ := MyClient.OnMsg_withInbox hc vec sem
        have hserve : EchoNet.machine.step e (.serve req junk) =
            some ({ e with replies := e.replies ++ [msg] }, []) := by
          show EchoNet.step e (.serve req junk) = _
          simp only [EchoNet.step, if_pos hreq, hm, hrep, Option.map_some]
        have hreply : EchoNet.machine.step { e with replies := e.replies ++ [msg] } (.reply msg) =
            some ({ e with replies := e.replies ++ [msg], cli := c'.withInbox vec' sem' }, []) := by
          show EchoNet.step _ (.reply msg) = _
          simp only [EchoNet.step, List.mem_append_right _ (List.mem_singleton_self msg), if_true,
            hcli, hc, Option.map_some]
        have hfirst : (EchoNet.machine.startAt e).Run AnyStep [] _ := .one trivial hserve
        have hthen : (EchoNet.machine.startAt { e with replies := e.replies ++ [msg] }).Run
            AnyStep [] _ := .one trivial hreply
        exact ⟨_, hfirst.append hthen, ⟨vec', sem', rfl⟩, rfl⟩

/-- The calls of `m_callback` of a step. -/
theorem echo_notices {ns : List Notice} {c c' : MyClient}
    (hcli : ∃ vec sem, e.cli = c.withInbox vec sem)
    (hmsg : ∀ msg, .ON_MSG msg ∈ ns → msg.length ≤ MSG_HEAD_LENGTH ∨
      ∃ req ∈ e.requests, MyServer.Answers req msg) (hc : ns.foldlM MyClient.func c = some c') :
    ∃ e', (EchoNet.machine.startAt e).Run AnyStep [] e' ∧
      (∃ vec sem, e'.cli = c'.withInbox vec sem) ∧ e'.requests = e.requests := by
  induction ns generalizing c e with
  | nil =>
      obtain rfl := Option.some.inj hc
      exact ⟨e, .start, hcli, rfl⟩
  | cons n ns ih =>
      rw [List.foldlM_cons] at hc
      obtain ⟨c₁, hc₁, hc⟩ := Option.bind_eq_some_iff.mp hc
      obtain ⟨e₁, hrun₁, hcli₁, hreq₁⟩ :=
        echo_func hcli (fun msg hn => hmsg msg (hn ▸ List.mem_cons_self ..)) hc₁
      obtain ⟨e', hrun, hcli', hreq⟩ :=
        ih hcli₁ (fun msg hmem => hreq₁ ▸ hmsg msg (List.mem_cons_of_mem _ hmem)) hc
      exact ⟨e', hrun₁.append hrun, hcli', hreq.trans hreq₁⟩

/-! ### The steps of `TcpNet` -/

/-- The transport moves; what it pushes has the property `Q`. -/
theorem Mirrors.transport (h : Mirrors D k tr s e) (hsize : Bounded k tr) {a : RoundTrip.Act}
    (hok : s.net.FreshAccept a) {net : RoundTrip} {es : List RoundTrip.Event}
    (hs : s.net.step D k a = some (net, es)) {Q : List Byte → Prop} (hold : ∀ m ∈ e.requests, Q m)
    (hpush : ∀ msg, .client (.cli (.pushed msg)) ∈ es → Q msg) :
    RoundTrip.Inv D k (netIn tr ++ es) net ∧ Framed Q net.cli.cli.m_send_buf ∧
      ∀ m ∈ RoundTrip.requests (netIn tr ++ es), Q m := by
  refine ⟨h.net.step hsize.net hok hs, ?_⟩
  have hqueue : Framed Q s.net.cli.cli.m_send_buf := fun buf hbuf => by
    obtain ⟨msg, hmsg, hframe⟩ := h.queue buf hbuf
    exact ⟨msg, hold msg hmsg, hframe⟩
  rw [RoundTrip.requests_append]
  cases a with
  | client a =>
      obtain ⟨down, cli, ces, -, hstep, rfl, rfl⟩ := RoundTrip.client_of_step hs
      obtain ⟨hqueue', hwritten⟩ := RoundTrip.framed_of_step hqueue
        (fun msg hmsg => hpush msg (List.mem_map_of_mem hmsg)) hstep
      refine ⟨hqueue', fun m hm => ?_⟩
      rcases List.mem_append.mp hm with hm | hm
      · exact hold m (h.requests m hm)
      · unfold RoundTrip.requests at hm
        rw [show RoundTrip.clientIn (ces.map .client) = ces from
          (RoundTrip.history_client [] ces).1] at hm
        rcases hwritten with hnone | ⟨msg, hmsg, hone⟩
        · rw [hnone] at hm
          cases hm
        · rw [hone] at hm
          obtain rfl := List.mem_singleton.mp hm
          exact hmsg
  | server a =>
      obtain ⟨up, srv, ses, -, -, rfl, rfl⟩ := RoundTrip.server_of_step hs
      refine ⟨hqueue, fun m hm => ?_⟩
      have hnone : RoundTrip.requests
          (ses.map .server ++ (MyServer.pushes a ses).map fun q => .sent q.1 q.2) = [] :=
        congrArg (fun es => (RoundTrip.writtenIn es).map RoundTrip.payload)
          (RoundTrip.history_server [] ses (MyServer.pushes a ses)).1
      rw [hnone, List.append_nil] at hm
      exact hold m (h.requests m hm)

/-- A step of `MyClient` alone. -/
theorem Mirrors.client (h : Mirrors D k tr s e) {a : MyClient.Act} (ha : ∀ msg, a ≠ .onMsg msg)
    {c : MyClient} {ds : List MyClient.Event} (hs : s.app.step a = some (c, ds)) :
    ∃ e', (EchoNet.machine.startAt e).Run AnyStep ds e' ∧
      Mirrors D k (tr ++ ds.map .app) { s with app := c } e' := by
  obtain ⟨e', hrun, hcli, hreq⟩ := echo_client ha h.app hs
  have hnet : netIn (tr ++ ds.map .app) = netIn tr := by
    rw [netIn_append, (history_app ds).2, List.append_nil]
  refine ⟨e', hrun, ?_, hcli, fun buf hbuf => ?_, fun m hm => ?_⟩
  · rw [hnet]
    exact h.net
  · obtain ⟨msg, hmsg, hframe⟩ := h.queue buf hbuf
    exact ⟨msg, hreq ▸ List.mem_append_left _ hmsg, hframe⟩
  · rw [hnet] at hm
    exact hreq ▸ List.mem_append_left _ (h.requests m hm)

theorem mem_replies_of_notices {es : List RoundTrip.Event} {msg : List Byte}
    (h : .ON_MSG msg ∈ notices es) : msg ∈ RoundTrip.replies es := by
  obtain ⟨ev, hev, heq⟩ := List.mem_filterMap.mp h
  cases ev with
  | client ce =>
      cases ce with
      | m_callback n =>
          obtain rfl := Option.some.inj heq
          exact List.mem_filterMap.mpr ⟨_, List.mem_filterMap.mpr ⟨_, hev, rfl⟩, rfl⟩
      | _ => cases heq
  | _ => cases heq

/-- A step of the transport that pushes nothing, and the calls of `func` it makes. -/
theorem Mirrors.quiet (h : Mirrors D k tr s e) {a : RoundTrip.Act} (hok : s.net.FreshAccept a)
    {net : RoundTrip} {es : List RoundTrip.Event} (hsize : Bounded k (tr ++ es.map .net))
    (hs : s.net.step D k a = some (net, es))
    (hpush : ∀ msg, .client (.cli (.pushed msg)) ∉ es) {c : MyClient}
    (hc : (notices es).foldlM MyClient.func s.app = some c) :
    ∃ e', (EchoNet.machine.startAt e).Run AnyStep [] e' ∧
      Mirrors D k (tr ++ es.map .net) ⟨c, net⟩ e' := by
  have hnet : netIn (tr ++ es.map .net) = netIn tr ++ es := by
    rw [netIn_append, (history_net es).2]
  obtain ⟨hinv, hqueue, hrequests⟩ := h.transport hsize.of_append hok hs (fun _ hm => hm)
    fun msg hmsg => absurd hmsg (hpush msg)
  have hanswer : ∀ msg, .ON_MSG msg ∈ notices es → msg.length ≤ MSG_HEAD_LENGTH ∨
      ∃ req ∈ e.requests, MyServer.Answers req msg := by
    intro msg hmsg
    have hrep : msg ∈ RoundTrip.replies (netIn tr ++ es) := by
      unfold RoundTrip.replies RoundTrip.clientIn
      rw [List.filterMap_append, ClientSession.messagesIn_append]
      exact List.mem_append_right _ (mem_replies_of_notices hmsg)
    rcases hinv.request_of_replies hrep with ⟨req, hreq, hans⟩ | ⟨t, ht, hsent⟩
    · exact Or.inr ⟨req, hrequests req hreq, hans⟩
    · exact Or.inl (hsize.2 _ (hnet ▸ hsent) ht)
  obtain ⟨e', hrun, hcli, hreq⟩ := echo_notices h.app hanswer hc
  exact ⟨e', hrun, hnet ▸ hinv, hcli, hreq ▸ hqueue, hnet ▸ hreq ▸ hrequests⟩

/-- The push of a request. -/
theorem Mirrors.push (h : Mirrors D k tr s e) (hsize : Bounded k tr) {t : Thread} {junk : Block}
    {frame : List Byte} {net : RoundTrip} {nes : List RoundTrip.Event} {c : MyClient}
    {ds : List MyClient.Event} (hpc : s.net.cli.cli.pc t = .built frame)
    (hframe : s.app.frame t junk = some frame)
    (hnet : s.net.step D k (.client (.cli (.push t))) = some (net, nes))
    (hs : s.app.step (.send t junk true 0) = some (c, ds)) :
    ∃ e', (EchoNet.machine.startAt e).Run AnyStep ds e' ∧
      Mirrors D k (tr ++ (nes.map .net ++ ds.map .app)) ⟨c, net⟩ e' := by
  obtain ⟨e', hrun, hcli, hreq⟩ := echo_client (by simp) h.app hs
  -- the request that is pushed is the one that `EchoNet` is given
  have hsent : frame ∈ EchoNet.sent ds := mem_sent_of_frame hframe hs
  have hpush : ∀ msg, .client (.cli (.pushed msg)) ∈ nes → msg ∈ e'.requests := by
    intro msg hmsg
    obtain ⟨t', ht, hbuilt⟩ := pushed_of_step hnet hmsg
    obtain rfl : t = t' := by simpa using ht
    obtain rfl : msg = frame := ClientCall.built.inj (hbuilt.symm.trans hpc)
    exact hreq ▸ List.mem_append_right _ hsent
  have hok : s.net.FreshAccept (.client (.cli (.push t))) := trivial
  obtain ⟨hinv, hqueue, hrequests⟩ := h.transport hsize hok hnet
    (fun m hm => hreq ▸ List.mem_append_left _ hm) hpush
  have hview : netIn (tr ++ (nes.map .net ++ ds.map .app)) = netIn tr ++ nes := by
    rw [netIn_append, netIn_append, (history_net nes).2, (history_app ds).2, List.append_nil]
  exact ⟨e', hrun, hview ▸ hinv, hcli, hqueue, hview ▸ hrequests⟩

theorem Mirrors.step (h : Mirrors D k tr s e) {a : Act} {es : List Event}
    (hsize : Bounded k (tr ++ es)) (hok : s.FreshAccept a)
    (hstep : TcpNet.step D k s a = some (s', es)) :
    ∃ ds e', appIn (tr ++ es) = appIn tr ++ ds ∧ (EchoNet.machine.startAt e).Run AnyStep ds e' ∧
      Mirrors D k (tr ++ es) s' e' := by
  cases moves_of_step hstep with
  | @app _ a c ds ha hs =>
      obtain ⟨e', hrun, hmirrors⟩ := h.client ha hs
      exact ⟨ds, e', by rw [appIn_append, (history_app ds).1], hrun, hmirrors⟩
  | @push t junk frame net nes c ds hpc hframe hnet hs =>
      obtain ⟨e', hrun, hmirrors⟩ := h.push hsize.of_append hpc hframe hnet hs
      refine ⟨ds, e', ?_, hrun, hmirrors⟩
      rw [appIn_append, appIn_append, (history_net nes).1, (history_app ds).1, List.nil_append]
  | @net _ a net nes c hfresh hnet hpush hc =>
      obtain ⟨e', hrun, hmirrors⟩ := h.quiet (hfresh hok) hsize hnet hpush hc
      exact ⟨[], e', by rw [appIn_append, (history_net nes).1], hrun, hmirrors⟩

theorem mirrors_init : Mirrors D k [] (machine D k).init EchoNet.machine.init where
  net := .init
  app := ⟨[], 0, rfl⟩
  queue := nofun
  requests := nofun

/-- **What happens over the transport happens in `EchoNet`.**  The calls of
`MyClient` are the same, and so are its ids, its maps and its semaphores. -/
theorem echoNet_of_run (h : (machine D k).Run FreshAccept tr s) (hsize : Bounded k tr) :
    ∃ e, EchoNet.machine.Run AnyStep (appIn tr) e ∧
      ∃ vec sem, e.cli = s.app.withInbox vec sem := by
  have hsim : ∃ e, EchoNet.machine.Run AnyStep (appIn tr) e ∧ Mirrors D k tr s e :=
    h.simulate appIn (Bounded k) (Mirrors D k) (fun _ _ => Bounded.of_append) rfl mirrors_init
      (fun _ hmirrors hsize hok hs => hmirrors.step hsize hok hs) hsize
  obtain ⟨e, hrun, hmirrors⟩ := hsim
  exact ⟨e, hrun, hmirrors.app⟩

/-- **A `SyncSend` over TCP that succeeds returns the reply to its own request.** -/
theorem own_reply_of_run (h : (machine D k).Run FreshAccept tr s) (hsize : Bounded k tr)
    (hids : s.app.m_requestId < 10 ^ 8) {reqId : Nat} {msg : List Byte} {result : SyncSendRtn}
    (hret : .app (.syncReturned reqId msg result) ∈ tr) (hok : result.errorCode = RJ_S_OK) :
    result.value = msg ∧ cstr result.cmd = SERVER_CMD_STX_COMMAND := by
  obtain ⟨e, hrun, vec, sem, hcli⟩ := echoNet_of_run h hsize
  have hlt : e.cli.m_requestId < 10 ^ 8 := by rwa [hcli]
  have hmem : .syncReturned reqId msg result ∈ appIn tr := List.mem_filterMap.mpr ⟨_, hret, rfl⟩
  exact (EchoNet.correlated_run hrun hlt).2 reqId msg result hmem hok

end Simulation

/-! ### One call -/

/-- Nobody else is accepted. -/
def NoAccept (s : TcpNet) : Act → Prop
  | .net a => s.net.NoAccept a
  | _ => True

instance (s : TcpNet) (a : Act) : Decidable (NoAccept s a) := by
  unfold NoAccept
  split <;> infer_instance

theorem freshAccept_of_noAccept (s : TcpNet) (a : Act) (h : NoAccept s a) : FreshAccept s a := by
  cases a with
  | net a => exact RoundTrip.freshAccept_of_noAccept s.net a h
  | _ => trivial

/-- Client 0 is accepted. -/
theorem accepted_run :
    (machine .lp64 0).Run FreshAccept ([] ++ [.net (.server (.OnNewConnection 1 0))])
      { (machine .lp64 0).init with
        net := { (RoundTrip.machine .lp64 0).init with
          srv := { MyServer.init with
            m_server :=
              { RJTcpServer.init.opened 1 RJTcpServer.init.newClient with m_clients := [1] }
            m_clients := [(1, 0)] } } } := by
  refine .step (.start (M := machine .lp64 0))
    (a := .net (.server (.server (.accept 1 0 0 0 0)))) ?_ rfl
  intro _ k
  exact MyServer.not_held_of_idle ⟨rfl, rfl⟩ rfl rfl (fun _ => rfl) 1 k

/-- The request of the call. -/
def request : List Byte :=
  (49 :: List.replicate 8 0) ++ (SERVER_CMD_STX_COMMAND ++ List.replicate 20 0) ++ [65]

/-- A call of `SyncSend` by thread 5, up to the answer. -/
def answered : List Act :=
  [.net (.client (.cli (.HandleConnection 0 0))), .app (.syncSend 5 SERVER_CMD_STX_COMMAND [65]),
    .app (.register 5), .send 5 (fun _ => 0), .push 5 (fun _ => 0),
    .net (.client (.cli (.signal 5))), .net (.client (.cli .asyncCallBack)),
    .net (.client (.cli .lock)), .net (.client (.cli .drain)), .net (.client (.cli .drained)),
    .net (.server (.server (.read 1 (Msg2Package request)))), .net (.server (.server .pass)),
    .net (.server (.server .pass)), .net (.server .swap), .net (.server (.despatch fun _ => 0)),
    .net (.server (.server (.push 0))), .net (.server (.server (.signal 0))),
    .net (.server (.server .asyncCallBack)), .net (.server (.server .swap)),
    .net (.server (.server (.drain 0))), .net (.server (.server .drained)),
    .net (.client (.HandleMsg 47 (Msg2Package request))), .net (.client .pass),
    .net (.client .pass)]

theorem bounded_of_one {tr : List Event} (hrequests : RoundTrip.requests (netIn tr) = [request])
    (hsends : RoundTrip.sends 0 (netIn tr) = [(m_pThread, request)]) : Bounded 0 tr := by
  refine ⟨?_, ?_⟩
  · rw [hrequests]
    exact List.forall_mem_singleton.mpr (by decide)
  · rw [hsends]
    exact List.forall_mem_singleton.mpr fun hne => absurd rfl hne

/-- The call returns. -/
theorem returned_run :
    ∃ tr s, (machine .lp64 0).Run FreshAccept tr s ∧ Bounded 0 tr ∧ s.app.m_requestId < 10 ^ 8 ∧
      .app (.syncReturned 1 [65] ⟨RJ_S_OK, cmdField request, [65]⟩) ∈ tr := by
  obtain ⟨tr, s, hrun, hp⟩ := accepted_run.extend NoAccept freshAccept_of_noAccept
    (answered ++ [.app (.wait 5 .object), .app (.take 5), .app (.leave 5)])
    (fun q => decide ((q.1.app.m_requestId < 10 ^ 8 ∧
      .app (.syncReturned 1 [65] ⟨RJ_S_OK, cmdField request, [65]⟩) ∈ q.2) ∧
      RoundTrip.requests (netIn q.2) = [request] ∧
      RoundTrip.sends 0 (netIn q.2) = [(m_pThread, request)])) (by decide +kernel)
  obtain ⟨⟨hids, hret⟩, hrequests, hsends⟩ := of_decide_eq_true hp
  exact ⟨tr, s, hrun, bounded_of_one hrequests hsends, hids, hret⟩

theorem echoNet_of_run_one :
    ∃ tr s, (machine .lp64 0).Run FreshAccept tr s ∧
      .syncReturned 1 [65] ⟨RJ_S_OK, cmdField request, [65]⟩ ∈ appIn tr ∧
      ∃ e, EchoNet.machine.Run AnyStep (appIn tr) e ∧
        ∃ vec sem, e.cli = s.app.withInbox vec sem := by
  obtain ⟨tr, s, hrun, hsize, -, hret⟩ := returned_run
  exact ⟨tr, s, hrun, List.mem_filterMap.mpr ⟨_, hret, rfl⟩, echoNet_of_run hrun hsize⟩

theorem own_reply_of_run_one :
    ∃ tr s result, (machine .lp64 0).Run FreshAccept tr s ∧
      .app (.syncReturned 1 [65] result) ∈ tr ∧
      result.value = [65] ∧ cstr result.cmd = SERVER_CMD_STX_COMMAND := by
  obtain ⟨tr, s, hrun, hsize, hids, hret⟩ := returned_run
  exact ⟨tr, s, _, hrun, hret, own_reply_of_run hrun hsize hids hret rfl⟩

end TcpNet

end TestExamples
