/-
TestExamples/WebsocketppReplies.lean

The answers of websocketpp_server/Myserver.cpp.

The io thread puts messages into `m_receiveMsgVec`, the worker takes them out one
by one, and between the two connections come and go.  `Log` remembers what has
been received and what has been handled; the messages received are those handled,
the one in the hands of the worker and those in the queue, in this order, and the
texts sent are the answers to those handled (`replies_of_run`).
-/
import TestExamples.Lib.Simulation
import TestExamples.WebsocketppMyserver

namespace TestExamples

namespace Myserver

/-- The messages `TextReceived` was called with and those `handle_msg` was. -/
structure Log where
  received : List ConnectionMsg
  handled : List ConnectionMsg

def Log.next (s : Myserver) (act : Act) (g : Log) : Log :=
  match act with
  | .textReceived wsi message => { g with received := g.received ++ [⟨wsi, message⟩] }
  | .handle => { g with handled := g.handled ++ s.msg?.toList }
  | _ => g

/-- The server with its log. -/
def logged : Machine (Myserver × Log) Act Event := machine.withGhost ⟨[], []⟩ Log.next

/-- What is sent for a message, and to whom. -/
def reply (msg : ConnectionMsg) : Option (WSHandle × List Byte) :=
  if msg.msg = login then some (msg.wsi, login_sucess)
  else if msg.msg = logout then some (msg.wsi, logout_sucess)
  else if msg.msg = echo then some (msg.wsi, test_echo_rsp)
  else if msg.msg = stop then none
  else some (msg.wsi, msg.msg)

/-- The texts sent, in order. -/
def sentIn (tr : List Event) : List (WSHandle × List Byte) :=
  tr.filterMap fun
    | .SendText wsi message => some (wsi, message)
    | _ => none

section Replies

variable {s s' : Myserver} {act : Act} {msg : ConnectionMsg} {g : Log} {tr es : List Event}

theorem sentIn_append (tr es : List Event) : sentIn (tr ++ es) = sentIn tr ++ sentIn es :=
  List.filterMap_append

/-- **One message, at most one answer**, to the connection it came from. -/
theorem sentIn_handle_msg (s : Myserver) (msg : ConnectionMsg) :
    sentIn (s.handle_msg msg).2 = (reply msg).toList := by
  unfold handle_msg reply
  split_ifs
  · rfl
  · rfl
  · rfl
  -- `stop` closes connections and sends nothing
  · show sentIn (s.m_connections.map Event.CloseConnection ++ [.Stop]) = []
    refine List.filterMap_eq_nil_iff.mpr fun e he => ?_
    rcases List.mem_append.mp he with he | he
    · obtain ⟨wsi, -, rfl⟩ := List.mem_map.mp he
      rfl
    · obtain rfl := List.mem_singleton.mp he
      rfl
  · rfl

theorem reply_wsi {p : WSHandle × List Byte} (h : reply msg = some p) : p.1 = msg.wsi := by
  unfold reply at h
  split_ifs at h <;> exact (Option.some.inj h) ▸ rfl

/-- The answers to a connection are the answers to its messages. -/
theorem filter_reply (wsi : WSHandle) (msgs : List ConnectionMsg) :
    (msgs.filterMap reply).filter (·.1 = wsi) =
      (msgs.filter (·.wsi = wsi)).filterMap reply := by
  induction msgs with
  | nil => rfl
  | cons msg msgs ih =>
      rcases hr : reply msg with - | p
      · rw [List.filterMap_cons_none hr, ih]
        by_cases hw : msg.wsi = wsi
        · rw [List.filter_cons_of_pos (by simpa using hw), List.filterMap_cons_none hr]
        · rw [List.filter_cons_of_neg (by simpa using hw)]
      · rw [List.filterMap_cons_some hr]
        by_cases hw : msg.wsi = wsi
        · rw [List.filter_cons_of_pos (by simpa [reply_wsi hr] using hw),
            List.filter_cons_of_pos (by simpa using hw), List.filterMap_cons_some hr, ih]
        · rw [List.filter_cons_of_neg (by simpa [reply_wsi hr] using hw),
            List.filter_cons_of_neg (by simpa using hw), ih]

theorem handle_msg_queue (s : Myserver) (msg : ConnectionMsg) :
    (s.handle_msg msg).1.m_receiveMsgVec = s.m_receiveMsgVec := by
  unfold handle_msg
  split_ifs <;> rfl

/-- What has been received and what has been sent. -/
structure Replied (tr : List Event) (s : Myserver) (g : Log) : Prop where
  received : g.received = g.handled ++ s.msg?.toList ++ s.m_receiveMsgVec
  sent : sentIn tr = g.handled.filterMap reply

namespace Replied

theorem init : Replied [] Myserver.init ⟨[], []⟩ := ⟨rfl, rfl⟩

/-- Nothing is sent, and the messages stay where they are. -/
theorem keep (h : Replied tr s g) (hprocess : s'.process = s.process)
    (hqueue : s'.m_receiveMsgVec = s.m_receiveMsgVec) : Replied (tr ++ []) s' g := by
  have hmsg : s'.msg? = s.msg? := by
    unfold msg?
    rw [hprocess]
  rw [List.append_nil]
  refine ⟨?_, h.sent⟩
  rw [hmsg, hqueue]
  exact h.received

theorem step (h : Replied tr s g) (hs : s.step act = some (s', es)) :
    Replied (tr ++ es) s' (g.next s act) := by
  cases act with
  | newConnection wsi =>
      obtain ⟨-, hs⟩ := Option.ite_none_right_eq_some.mp hs
      obtain ⟨rfl, rfl⟩ := Prod.mk.inj (Option.some.inj hs)
      exact h.keep rfl rfl
  | textReceived wsi message =>
      obtain ⟨-, hs⟩ := Option.ite_none_right_eq_some.mp hs
      obtain ⟨rfl, rfl⟩ := Prod.mk.inj (Option.some.inj hs)
      rw [List.append_nil]
      refine ⟨?_, h.sent⟩
      show g.received ++ [_] = _ ++ _ ++ (s.m_receiveMsgVec ++ [_])
      rw [h.received, List.append_assoc _ s.m_receiveMsgVec]
      rfl
  | disconnection wsi =>
      obtain ⟨-, hs⟩ := Option.ite_none_right_eq_some.mp hs
      obtain ⟨rfl, rfl⟩ := Prod.mk.inj (Option.some.inj hs)
      exact h.keep rfl rfl
  | take =>
      have hreceived := h.received
      simp only [Myserver.step] at hs
      split at hs
      · obtain ⟨rfl, rfl⟩ := Prod.mk.inj (Option.some.inj hs)
        exact h.keep rfl rfl
      · next msg rest hpc hqueue =>
        obtain ⟨rfl, rfl⟩ := Prod.mk.inj (Option.some.inj hs)
        have hnone : s.msg? = none := by
          unfold msg?
          rw [hpc]
        rw [List.append_nil]
        refine ⟨?_, h.sent⟩
        rw [hnone, hqueue] at hreceived
        show g.received = g.handled ++ [msg] ++ rest
        rw [hreceived, Option.toList_none, List.append_nil, List.append_cons]
      · cases hs
  | handle =>
      simp only [Myserver.step] at hs
      split at hs
      · next msg hpc =>
        obtain ⟨rfl, rfl⟩ := Prod.mk.inj (Option.some.inj hs)
        have hmsg : s.msg? = some msg := by
          unfold msg?
          rw [hpc]
        have hreceived := h.received
        rw [hmsg] at hreceived
        refine ⟨?_, ?_⟩
        · show g.received = g.handled ++ s.msg?.toList ++ [] ++ (s.handle_msg msg).1.m_receiveMsgVec
          rw [hmsg, handle_msg_queue, List.append_nil]
          exact hreceived
        · show _ = (g.handled ++ s.msg?.toList).filterMap reply
          rw [sentIn_append, h.sent, sentIn_handle_msg, hmsg, List.filterMap_append]
          rfl
      · cases hs

end Replied

/-- **Every message is answered once.**  Whatever connections come and go, the
texts sent are the answers to the messages handled, in order; the messages
handled are the ones received, in order, up to the one in the hands of the worker
and those in the queue; and so it is for each connection by itself. -/
theorem replies_of_run {q : Myserver × Log} (h : logged.Run AnyStep tr q) :
    q.2.received = q.2.handled ++ q.1.msg?.toList ++ q.1.m_receiveMsgVec ∧
    sentIn tr = q.2.handled.filterMap reply ∧
    ∀ wsi, (sentIn tr).filter (·.1 = wsi) =
      (q.2.handled.filter (·.wsi = wsi)).filterMap reply := by
  have hinv : Replied tr q.1 q.2 := by
    refine h.invariant (fun tr q => Replied tr q.1 q.2) .init fun ih _ hs => ?_
    obtain ⟨hs, hg⟩ := Machine.withGhost_step.mp hs
    rw [hg]
    exact ih.step hs
  refine ⟨hinv.received, hinv.sent, fun wsi => ?_⟩
  rw [hinv.sent, filter_reply]

end Replies

/-- Two connections; one of them has left when its message is handled, and the other
has a message in the hands of the worker. -/
theorem replies_of_run_two :
    ∃ tr q, logged.Run AnyStep tr q ∧ q.1.conns 1 = .disconnected ∧ q.1.msg? = some ⟨2, echo⟩ ∧
      sentIn tr = [(1, [104, 105]), (2, login_sucess)] ∧
      sentIn tr = q.2.handled.filterMap reply := by
  obtain ⟨tr, q, hrun, hp⟩ := logged.run_of_exec AnyStep
    [.newConnection 1, .newConnection 2, .textReceived 1 [104, 105], .textReceived 2 login,
      .textReceived 2 echo, .take, .disconnection 1, .handle, .take, .handle, .take]
    (fun q => decide (q.1.1.conns 1 = .disconnected ∧ q.1.1.msg? = some ⟨2, echo⟩ ∧
      sentIn q.2 = [(1, [104, 105]), (2, login_sucess)])) (by decide +kernel)
  obtain ⟨hgone, hmsg, hsent⟩ := of_decide_eq_true hp
  exact ⟨tr, q, hrun, hgone, hmsg, hsent, (replies_of_run hrun).2.1⟩

end Myserver

end TestExamples
