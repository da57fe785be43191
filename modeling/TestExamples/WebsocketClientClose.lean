/-
TestExamples/WebsocketClientClose.lean

A `WebSock` of websock_net that has been closed.

`WebSock::Close` sets `bFirst_` and asks for the end of the connection it has a
handle of.  The places that schedule a reconnect look at `bFirst_`; the loops of
`run` that make the connections do not.  So an item that waits when `Close`
returns is attempted all the same; and `LWS_CALLBACK_CLIENT_ESTABLISHED` takes
`bFirst_` back, after which a loss schedules a reconnect again.

When `Close` has returned and who has called it is not in the state of the
client: a ghost remembers it (`Closes`).  `Settled` says of a step that no item
waits where `Close` returns, and that no reconnect is scheduled for a `WebSock`
that is closed.  In a run of such steps no connection is made for one
(`staysClosed_of_settled`).
-/
import TestExamples.Lib.Simulation
import TestExamples.WebsocketClientSteps

namespace TestExamples

def Origin.rest : Origin → List ConnectItem
  | .immediate rest => rest
  | .delayed _ | .check => []

/-- The items the thread has in hand, and those of `tmp_connect` behind it. -/
def ClientPc.items : ClientPc → List ConnectItem
  | .immediate rest => rest
  | .attempting item origin | .pushing item origin => item :: origin.rest
  | .registering _ _ origin | .failed _ origin => origin.rest
  | _ => []

namespace WebsocketClient

/-! ### Calls of Close -/

/-- `closed` says for which `WebSock` `Close` has returned without a `Connect`
since, `closing` in whose `Close` a thread is. -/
structure Closes where
  closed : WebSock → Bool
  closing : Thread → Option WebSock

namespace Closes

def init : Closes := ⟨fun _ => false, fun _ => none⟩

/-- The `WebSock` whose `Close` returns with a step. -/
def returned (s : WebsocketClient) (g : Closes) : Act → Option WebSock
  | .call _ websock .Close => if (s.socks websock).wsi_ ≠ 0 then none else some websock
  | .metaSend t => g.closing t
  | _ => none

def next (s : WebsocketClient) (act : Act) (g : Closes) : Closes where
  closed :=
    match act with
    | .connect websock => Function.update g.closed websock false
    | _ => (g.returned s act).elim g.closed fun websock => Function.update g.closed websock true
  closing :=
    match act with
    | .call t websock .Close =>
        if (s.socks websock).wsi_ ≠ 0 then Function.update g.closing t (some websock)
        else g.closing
    | .metaSend t => Function.update g.closing t none
    | _ => g.closing

end Closes

/-- The client that remembers the calls of `Close`. -/
def closeMachine (junk : WebSock → Wsi) : Machine (WebsocketClient × Closes) Act Event :=
  (machine junk).withGhost .init Closes.next

/-- **No call of `lws_client_connect_via_info` is made for a closed `WebSock`.** -/
def StaysClosed (q : WebsocketClient × Closes) : Prop :=
  ∀ wsi s' es websock, q.1.step (.attempt wsi) = some (s', es) →
    .attempted websock wsi ∈ es → q.2.closed websock = false

/-! ### What waits -/

/-- The items on their way to an attempt. -/
def waiting (s : WebsocketClient) : List ConnectItem :=
  s.connect_queue_ ++ (s.delayed_connect ++ s.loop.items)

/-- Nothing waits for a connection of `websock`. -/
def Unqueued (s : WebsocketClient) (websock : WebSock) : Prop :=
  ∀ item ∈ s.waiting, item.websock_ ≠ websock

instance (s : WebsocketClient) (websock : WebSock) : Decidable (s.Unqueued websock) :=
  inferInstanceAs (Decidable (∀ item ∈ s.waiting, item.websock_ ≠ websock))

/-- The `WebSock` for which the thread is about to schedule a reconnect. -/
def reconnects (s : WebsocketClient) : Option WebSock :=
  match s.loop with
  | .failed item _ =>
      let sock := s.socks item.websock_
      if sock.auto_reconnect_ && !sock.bFirst_ then some item.websock_ else none
  | _ => none

/-- Where a `Close` returns nothing waits for the `WebSock`, and no reconnect is
scheduled for a closed one. -/
def Settled (q : WebsocketClient × Closes) : Act → Prop
  | .pass _ => ∀ websock ∈ q.1.reconnects, q.2.closed websock = false
  | act => ∀ websock ∈ q.2.returned q.1 act, q.1.Unqueued websock

instance (q : WebsocketClient × Closes) (act : Act) : Decidable (Settled q act) := by
  unfold Settled
  split <;> infer_instance

section Close

variable {junk : WebSock → Wsi} {s s' : WebsocketClient} {q q' : WebsocketClient × Closes}
  {act : Act} {tr es : List Event} {item : ConnectItem}

theorem mem_waiting :
    item ∈ s.waiting ↔
      item ∈ s.connect_queue_ ∨ item ∈ s.delayed_connect ∨ item ∈ s.loop.items := by
  unfold waiting
  rw [List.mem_append, List.mem_append]

/-- Where an item comes from that waits behind a step. -/
inductive Waits (s : WebsocketClient) (item : ConnectItem) : Act → Prop
  | old {a} (h : item ∈ s.waiting) : Waits s item a
  | connected : Waits s item (.connect item.websock_)
  | scheduled {now} (h : s.reconnects = some item.websock_) : Waits s item (.pass now)

/-- Only the queues and what the thread has in hand count. -/
theorem Waits.congr (h : item ∈ s'.waiting) (hqueue : s'.connect_queue_ = s.connect_queue_)
    (hdelayed : s'.delayed_connect = s.delayed_connect)
    (hitems : ∀ i ∈ s'.loop.items, i ∈ s.loop.items) : Waits s item act := by
  rw [mem_waiting, hqueue, hdelayed] at h
  exact .old (mem_waiting.mpr (h.imp_right (Or.imp_right (hitems item))))

theorem items_next (origin : Origin) : origin.next.items = origin.rest := by
  cases origin <;> rfl

theorem reconnects_of_failed {origin : Origin} (hloop : s.loop = .failed item origin) :
    s.reconnects = if (s.socks item.websock_).auto_reconnect_ && !(s.socks item.websock_).bFirst_
      then some item.websock_ else none := by
  unfold reconnects
  rw [hloop]

theorem waits_of_reconsider {now : Int} {i : ConnectItem} {origin : Origin}
    (hloop : s.loop = .failed i origin)
    (h : item ∈ waiting { s with loop := s.reconsider now i origin }) :
    Waits s item (.pass now) := by
  have hrest : ∀ r ∈ origin.rest, r ∈ s.loop.items := by
    rw [hloop]
    exact fun _ => id
  have hreconnects := reconnects_of_failed hloop
  rcases mem_waiting.mp h with hqueue | hdelayed | hitems
  · exact .old (mem_waiting.mpr (.inl hqueue))
  · exact .old (mem_waiting.mpr (.inr (.inl hdelayed)))
  · unfold reconsider at hitems
    dsimp only at hitems
    split at hitems
    · next hagain =>
      rcases List.mem_cons.mp hitems with rfl | hitems
      · rw [if_pos hagain] at hreconnects
        exact .scheduled hreconnects
      · exact .old (mem_waiting.mpr (.inr (.inr (hrest item hitems))))
    · rw [items_next] at hitems
      exact .old (mem_waiting.mpr (.inr (.inr (hrest item hitems))))

theorem waits_of_pass {now : Int} (hp : Passes s now es s') (h : item ∈ s'.waiting) :
    Waits s item (.pass now) := by
  cases hp with
  | @due it i hloop hitem =>
      rcases mem_waiting.mp h with hqueue | hdelayed | hitems
      · exact .old (mem_waiting.mpr (.inl hqueue))
      · exact .old (mem_waiting.mpr (.inr (.inl (List.mem_of_mem_eraseIdx hdelayed))))
      · obtain rfl := List.mem_singleton.mp hitems
        exact .old (mem_waiting.mpr (.inr (.inl (List.mem_of_getElem? hitem))))
  | newConnect =>
      refine .congr h rfl rfl fun r hr => ?_
      dsimp only at hr
      split at hr <;> cases hr
  | swap =>
      rcases mem_waiting.mp h with hqueue | hdelayed | hitems
      · cases hqueue
      · exact .old (mem_waiting.mpr (.inr (.inl hdelayed)))
      · exact .old (mem_waiting.mpr (.inl hitems))
  | postpone hloop =>
      rcases mem_waiting.mp h with hqueue | hdelayed | hitems
      · exact .old (mem_waiting.mpr (.inl hqueue))
      · refine .old (mem_waiting.mpr (.inr ?_))
        rw [hloop]
        rcases List.mem_append.mp hdelayed with hold | hnew
        · exact .inl hold
        · obtain rfl := List.mem_singleton.mp hnew
          exact .inr (List.mem_cons_self ..)
      · refine .old (mem_waiting.mpr (.inr (.inr ?_)))
        rw [hloop]
        exact List.mem_cons_of_mem _ hitems
  | immediate hloop =>
      refine .congr h rfl rfl fun r hr => ?_
      rw [hloop]
      exact hr
  | @register _ _ origin hloop =>
      refine .congr h rfl rfl fun r hr => ?_
      have hrest : r ∈ origin.next.items := hr
      rw [items_next] at hrest
      rw [hloop]
      exact hrest
  | reconsider hloop => exact waits_of_reconsider hloop h
  | @push i origin hloop =>
      rcases mem_waiting.mp h with hqueue | hdelayed | hitems
      · rcases List.mem_append.mp hqueue with hold | hnew
        · exact .old (mem_waiting.mpr (.inl hold))
        · obtain rfl := List.mem_singleton.mp hnew
          refine .old (mem_waiting.mpr (.inr (.inr ?_)))
          rw [hloop]
          exact List.mem_cons_self ..
      · exact .old (mem_waiting.mpr (.inr (.inl hdelayed)))
      · refine .old (mem_waiting.mpr (.inr (.inr ?_)))
        rw [hloop]
        exact List.mem_cons_of_mem _ (items_next origin ▸ hitems)
  | newData =>
      refine .congr h rfl rfl fun r hr => ?_
      dsimp only at hr
      split at hr <;> cases hr
  | request _ hs =>
      obtain ⟨lws, rfl⟩ := lws_callback_on_writable_frame hs
      exact .congr h rfl rfl nofun
  | _ => exact .congr h rfl rfl nofun

/-- **What waits behind a step** has waited before, or comes from `Connect` or
from a reconnect that is scheduled. -/
theorem waits_of_step (hs : s.step act = some (s', es)) (h : item ∈ s'.waiting) :
    Waits s item act := by
  cases moves_of_step hs with
  | @connect websock =>
      rcases mem_waiting.mp h with hqueue | hrest
      · rcases List.mem_append.mp hqueue with hold | hnew
        · exact .old (mem_waiting.mpr (.inl hold))
        · obtain rfl := List.mem_singleton.mp hnew
          exact .connected
      · exact .old (mem_waiting.mpr (.inr hrest))
  | call _ hs =>
      obtain ⟨users, rfl⟩ := call_frame hs
      exact .congr h rfl rfl fun _ => id
  | metaSend _ hs =>
      obtain ⟨users, cache, keys, updated, rfl⟩ := metaSend_frame hs
      exact .congr h rfl rfl fun _ => id
  | pass hp => exact waits_of_pass hp h
  | created hloop =>
      refine .congr h rfl rfl fun r hr => ?_
      rw [hloop]
      exact List.mem_cons_of_mem _ hr
  | failed hloop =>
      refine .congr h rfl rfl fun r hr => ?_
      rw [hloop]
      exact List.mem_cons_of_mem _ hr
  | @established w c =>
      obtain ⟨lws, socks, hframe⟩ := established_frame s w c
      rw [hframe] at h
      exact .congr h rfl rfl fun _ => id
  | @writeable w c io =>
      obtain ⟨cache, keys, lws, loop, hframe, hpc⟩ := writeable_frame s w c io
      rw [hframe] at h
      refine .congr h rfl rfl fun r hr => ?_
      rcases hpc with rfl | rfl
      · exact hr
      · cases hr
  | write _ _ _ hs =>
      obtain ⟨lws, loop, rfl, hpc⟩ := writeOne_frame hs
      refine .congr h rfl rfl fun r hr => ?_
      rcases hpc with rfl | rfl <;> cases hr
  | destroy =>
      refine .congr h rfl rfl fun r hr => ?_
      unfold destroy at hr
      dsimp only at hr
      split at hr <;> cases hr
  | _ => exact .congr h rfl rfl fun _ => id

/-! ### Closed -/

/-- Nothing waits for a closed `WebSock`. -/
def Idle (q : WebsocketClient × Closes) : Prop :=
  ∀ websock, q.2.closed websock = true → q.1.Unqueued websock

theorem closed_next {g : Closes} {websock : WebSock}
    (h : (g.next s act).closed websock = true) :
    act ≠ .connect websock ∧ (g.returned s act = some websock ∨ g.closed websock = true) := by
  unfold Closes.next at h
  dsimp only at h
  split at h
  · next websock' =>
    rcases update_eq h with ⟨-, he⟩ | ⟨hne, h⟩
    · cases he
    · refine ⟨fun he => ?_, .inr h⟩
      injection he with he
      exact hne he.symm
  · next hne =>
    refine ⟨hne websock, ?_⟩
    rcases hret : g.returned s act with - | websock'
    · rw [hret] at h
      exact .inr h
    · rw [hret] at h
      rcases update_eq h with ⟨rfl, -⟩ | ⟨-, h⟩
      · exact .inl rfl
      · exact .inr h

theorem closed_of_returned {g : Closes} {websock : WebSock}
    (h : g.returned s act = some websock) : (g.next s act).closed websock = true := by
  unfold Closes.next
  dsimp only
  split
  · cases h
  · rw [h]
    exact Function.update_self ..

theorem Settled.unqueued (hok : Settled q act) {websock : WebSock}
    (h : q.2.returned q.1 act = some websock) : q.1.Unqueued websock := by
  cases act with
  | pass => cases h
  | _ => exact hok websock h

/-- **A settled step leaves nothing waiting for a closed `WebSock`.** -/
theorem Idle.step (h : Idle q) (hok : Settled q act) (hs : q.1.step act = some (q'.1, es))
    (hnext : q'.2 = q.2.next q.1 act) : Idle q' := by
  intro websock hclosed item hitem hsame
  rw [hnext] at hclosed
  obtain ⟨hconnect, hclosed⟩ := closed_next hclosed
  cases waits_of_step hs hitem with
  | old hold =>
      rcases hclosed with hret | hclosed
      · exact hok.unqueued hret item hold hsame
      · exact h websock hclosed item hold hsame
  | connected => exact hconnect (by rw [hsame])
  | scheduled hagain =>
      rw [hsame] at hagain
      rcases hclosed with hret | hclosed
      · cases hret
      · rw [hok websock hagain] at hclosed
        cases hclosed

theorem Idle.of_run (h : (closeMachine junk).Run Settled tr q) : Idle q := by
  refine h.invariant (fun _ q => Idle q) nofun fun ih hok hs => ?_
  obtain ⟨hstep, hnext⟩ := Machine.withGhost_step.mp hs
  exact ih.step hok hstep hnext

/-- An attempt is made for an item that waits. -/
theorem Idle.staysClosed (h : Idle q) : StaysClosed q := by
  intro wsi s' es websock hs hattempted
  have hunclosed : ∀ item origin, q.1.loop = .attempting item origin →
      q.2.closed item.websock_ = false := by
    intro item origin hloop
    refine Bool.eq_false_iff.mpr fun hclosed => h item.websock_ hclosed item ?_ rfl
    refine mem_waiting.mpr (.inr (.inr ?_))
    rw [hloop]
    exact List.mem_cons_self ..
  cases moves_of_step hs with
  | @created w item origin hloop =>
      injection List.mem_singleton.mp hattempted with hsame
      rw [hsame]
      exact hunclosed item origin hloop
  | @failed item origin hloop =>
      injection List.mem_singleton.mp hattempted with hsame
      rw [hsame]
      exact hunclosed item origin hloop

/-- **A closed `WebSock` stays closed** in a run of settled steps, for every
order of the calls, the losses, the attempts and the passes. -/
theorem staysClosed_of_settled (h : (closeMachine junk).Run Settled tr q) : StaysClosed q :=
  (Idle.of_run h).staysClosed

/-- Where `Close` returns, nothing else happens to the items. -/
theorem waiting_of_returned {websock : WebSock} (hs : s.step act = some (s', es)) {g : Closes}
    (h : g.returned s act = some websock) : s'.waiting = s.waiting := by
  cases moves_of_step hs with
  | call _ hs =>
      obtain ⟨users, rfl⟩ := call_frame hs
      rfl
  | metaSend _ hs =>
      obtain ⟨users, cache, keys, updated, rfl⟩ := metaSend_frame hs
      rfl
  | _ => cases h

theorem mem_waiting_of_reconnects {now : Int} {websock : WebSock}
    (h : s.reconnects = some websock) (hs : s.step (.pass now) = some (s', es)) :
    ∃ item ∈ s'.waiting, item.websock_ = websock := by
  unfold reconnects at h
  split at h
  · next item origin hloop =>
    dsimp only at h
    split at h
    · next hagain =>
      obtain rfl := Option.some.inj h
      simp only [WebsocketClient.step, pass, hloop] at hs
      obtain ⟨rfl, -⟩ := Prod.mk.inj (Option.some.inj hs)
      unfold reconsider
      dsimp only
      rw [if_pos hagain]
      exact ⟨_, mem_waiting.mpr (.inr (.inr (List.mem_cons_self ..))), rfl⟩
    · cases h
  · cases h

/-- The condition is exact: behind the first step that is not settled something
waits for a closed `WebSock`. -/
theorem not_idle_of_not_settled (hok : ¬ Settled q act) (hs : q.1.step act = some (q'.1, es))
    (hnext : q'.2 = q.2.next q.1 act) : ¬ Idle q' := by
  intro hidle
  have hreturned : ∀ websock ∈ q.2.returned q.1 act, q.1.Unqueued websock := by
    intro websock hret
    have hun := hidle websock (by rw [hnext]; exact closed_of_returned hret)
    unfold Unqueued at hun
    rwa [waiting_of_returned hs hret] at hun
  cases act with
  | pass now =>
      obtain ⟨websock, hw⟩ := not_forall.mp hok
      obtain ⟨hagain, hclosed⟩ := Classical.not_imp.mp hw
      obtain ⟨item, hitem, hsame⟩ := mem_waiting_of_reconnects hagain hs
      have hclosed' : q'.2.closed websock = true := by
        rw [hnext]
        exact Bool.eq_true_of_not_eq_false hclosed
      exact hidle websock hclosed' item hitem hsame
  | _ => exact hok hreturned

end Close

/-- A connection of the first `WebSock` is made, and the thread is back in
`lws_service`. -/
private def connectFirst : List Act :=
  [.connect 1, .setAutoReconnect 1 true, .pass 5, .pass 5, .pass 5, .pass 5, .pass 5,
    .attempt (some 5), .pass 5, .pass 5, .pass 5]

/-- The next pass of `run`, to the first attempt it makes. -/
private def nextPass : List Act := [.pass 9, .pass 9, .pass 9, .pass 9, .pass 9, .pass 9]

/-- The first `WebSock` is closed and its connection lost; the next attempt is
for another one. -/
theorem staysClosed_of_settled_two :
    ∃ tr q, (closeMachine fun _ => 0).Run Settled tr q ∧ q.2.closed 1 = true ∧
      q.1.loop = .attempting ⟨2, 0⟩ (.immediate []) ∧ StaysClosed q := by
  obtain ⟨tr, q, hrun, hp⟩ := (closeMachine fun _ => 0).run_of_exec Settled
    (List.flatten [connectFirst, [.established 5, .call 1 1 .Close, .metaSend 1, .destroy 5,
      .pass 5, .connect 2], nextPass])
    (fun r => decide (r.1.2.closed 1 = true ∧ r.1.1.loop = .attempting ⟨2, 0⟩ (.immediate [])))
    (by decide +kernel)
  obtain ⟨hclosed, hloop⟩ := of_decide_eq_true hp
  exact ⟨tr, q, hrun, hclosed, hloop, staysClosed_of_settled hrun⟩

/-- An attempt that is due for a closed `WebSock`. -/
theorem not_staysClosed_of_due {q : WebsocketClient × Closes} {item : ConnectItem}
    {origin : Origin} (hloop : q.1.loop = .attempting item origin)
    (hclosed : q.2.closed item.websock_ = true) : ¬ StaysClosed q := by
  intro h
  have hs : q.1.step (.attempt none) =
      some ({ q.1 with loop := .failed item origin }, [.attempted item.websock_ none]) := by
    simp only [step, hloop, attempt]
  rw [h _ _ _ _ hs (List.mem_singleton_self _)] at hclosed
  cases hclosed

/-- The connection is lost first, and `Close` returns while the item of the
reconnect waits. -/
theorem not_staysClosed :
    ¬ ∀ junk tr q, (closeMachine junk).Run AnyStep tr q → StaysClosed q := by
  intro h
  obtain ⟨tr, q, hrun, hp⟩ := (closeMachine fun _ => 0).run_of_exec AnyStep
    (List.flatten [connectFirst, [.established 5, .destroy 5, .pass 5, .pass 5,
      .call 1 1 .Close, .metaSend 1], nextPass])
    (fun r => decide (r.1.2.closed 1 = true ∧ r.1.1.loop = .attempting ⟨1, 8⟩ (.immediate [])))
    (by decide +kernel)
  obtain ⟨hclosed, hloop⟩ := of_decide_eq_true hp
  exact not_staysClosed_of_due hloop hclosed (h _ tr q hrun)

/-- That nothing waits where `Close` returns is not enough: it may return before
the connection is established. -/
theorem not_staysClosed_of_unqueued :
    ¬ ∀ junk tr q, (closeMachine junk).Run
      (fun q act => ∀ websock ∈ q.2.returned q.1 act, q.1.Unqueued websock) tr q →
        StaysClosed q := by
  intro h
  obtain ⟨tr, q, hrun, hp⟩ := (closeMachine fun _ => 0).run_of_exec
    (fun q act => ∀ websock ∈ q.2.returned q.1 act, q.1.Unqueued websock)
    (List.flatten [connectFirst, [.call 1 1 .Close, .metaSend 1, .established 5, .destroy 5,
      .pass 5, .pass 5], nextPass])
    (fun r => decide (r.1.2.closed 1 = true ∧ r.1.1.loop = .attempting ⟨1, 8⟩ (.immediate [])))
    (by decide +kernel)
  obtain ⟨hclosed, hloop⟩ := of_decide_eq_true hp
  exact not_staysClosed_of_due hloop hclosed (h _ tr q hrun)

end WebsocketClient

end TestExamples
