/-
TestExamples/RJTcpServerQueue.lean

The send queue of the server.

A package is made by a sending thread once `Send` has accepted the message,
pushed by it to `m_send_buf`, moved to `sendTemp` by the swap and taken from
there by the loop thread.  The two queues together are what has been pushed
and not been consumed; this one equation (`Queued.queue`) carries order and
exactly-once through every interleaving.  What a thread has had accepted is
what it has pushed and the package it is about to push (`calls_of_run`).
Whether a consumed package was written or deleted is read off the history:
`registeredIn` replays the calls of `OnNewConnection` and `OnDisconnection`.

Nothing is stranded as long as nobody calls `Close`: after it the callback
walks over the handles and leaves the queue alone.
-/
import TestExamples.RJTcpServerSteps

namespace TestExamples

namespace RJTcpServer

/-! ### What the history says -/

/-- The packages pushed, in order. -/
def pushedIn (tr : List Event) : List uv_tcp_send_buf :=
  tr.filterMap fun
    | .pushed _ buf => some buf
    | _ => none

/-- The packages accepted by `Send`, each with its thread, in order. -/
def acceptedIn (tr : List Event) : List (Thread × uv_tcp_send_buf) :=
  tr.filterMap fun
    | .accepted t buf => some (t, buf)
    | _ => none

/-- The packages pushed, each with its thread, in order. -/
def pushesIn (tr : List Event) : List (Thread × uv_tcp_send_buf) :=
  tr.filterMap fun
    | .pushed t buf => some (t, buf)
    | _ => none

/-- Those of thread `t`. -/
def ofThread (t : Thread) (calls : List (Thread × uv_tcp_send_buf)) : List uv_tcp_send_buf :=
  (calls.filter fun call => call.1 = t).map Prod.snd

/-- The package a thread has made and not pushed yet. -/
def unpushed : CallPc → List uv_tcp_send_buf
  | .built buf => [buf]
  | _ => []

/-- The packages handed to `uv_write`, in order. -/
def writtenIn (tr : List Event) : List uv_tcp_send_buf :=
  tr.filterMap fun
    | .uv_write _ buf _ => some buf
    | _ => none

/-- The packages handed to `uv_write` or deleted, in order. -/
def consumedIn (tr : List Event) : List uv_tcp_send_buf :=
  tr.filterMap fun
    | .uv_write _ buf _ | .dropped buf => some buf
    | _ => none

/-- The clients the application has been told of and not been told to
forget. -/
def registeredIn (tr : List Event) : List Addr := tr.foldl register []

/-- A package is written when its client is registered, and deleted when it is
not. -/
def DrainedRight (pre : List Event) (e : Event) : Prop :=
  (∀ k buf ret, e = .uv_write k buf ret → buf.client ∈ registeredIn pre) ∧
    ∀ buf, e = .dropped buf → buf.client ∉ registeredIn pre

theorem pushedIn_append (tr es : List Event) : pushedIn (tr ++ es) = pushedIn tr ++ pushedIn es :=
  List.filterMap_append

theorem acceptedIn_append (tr es : List Event) :
    acceptedIn (tr ++ es) = acceptedIn tr ++ acceptedIn es :=
  List.filterMap_append

theorem pushesIn_append (tr es : List Event) : pushesIn (tr ++ es) = pushesIn tr ++ pushesIn es :=
  List.filterMap_append

theorem ofThread_append (t : Thread) (calls calls' : List (Thread × uv_tcp_send_buf)) :
    ofThread t (calls ++ calls') = ofThread t calls ++ ofThread t calls' := by
  unfold ofThread
  rw [List.filter_append, List.map_append]

theorem map_pushesIn (tr : List Event) : (pushesIn tr).map Prod.snd = pushedIn tr := by
  unfold pushesIn pushedIn
  rw [List.map_filterMap]
  congr 1
  funext e
  cases e <;> rfl

theorem consumedIn_append (tr es : List Event) :
    consumedIn (tr ++ es) = consumedIn tr ++ consumedIn es :=
  List.filterMap_append

theorem registeredIn_append (tr es : List Event) :
    registeredIn (tr ++ es) = es.foldl register (registeredIn tr) :=
  List.foldl_append

theorem mem_consumedIn_of_write {es : List Event} {k : Nat} {buf : uv_tcp_send_buf} {ret : Int}
    (h : .uv_write k buf ret ∈ es) : buf ∈ consumedIn es :=
  List.mem_filterMap.mpr ⟨_, h, rfl⟩

theorem mem_consumedIn_of_dropped {es : List Event} {buf : uv_tcp_send_buf}
    (h : .dropped buf ∈ es) : buf ∈ consumedIn es :=
  List.mem_filterMap.mpr ⟨_, h, rfl⟩

/-- Writing is one way of consuming. -/
theorem writtenIn_sublist (tr : List Event) : (writtenIn tr).Sublist (consumedIn tr) := by
  induction tr with
  | nil => exact List.Sublist.slnil
  | cons e tr ih =>
      cases e with
      | uv_write k buf ret => exact ih.cons_cons buf
      | dropped buf => exact ih.cons buf
      | _ => exact ih

/-! ### The calls of `Send` -/

section Calls

variable {D : DataModel} {tr es : List Event} {s s' : RJTcpServer} {act : Act} {a : Addr}

theorem Drops.calls (hd : Drops s a es s') : acceptedIn es = [] ∧ pushesIn es = [] := by
  cases hd <;> exact ⟨rfl, rfl⟩

theorem Handles.calls {call : OnMsgCall} (hh : Handles s a call es s') :
    acceptedIn es = [] ∧ pushesIn es = [] := by
  cases hh with
  | drop _ hd => exact hd.calls
  | deliver => exact ⟨rfl, rfl⟩
  | skip => exact ⟨rfl, rfl⟩

/-- Only a call of `Send` has a package accepted. -/
theorem acceptedIn_of_moves (hm : Moves D s act es s')
    (hact : ∀ t client msg meant, act ≠ .send t client msg meant) : acceptedIn es = [] := by
  cases hm with
  | readEnd _ _ _ hd => exact hd.calls.1
  | passStop _ _ _ hh => exact hh.calls.1
  | passNext _ _ _ hh => exact hh.calls.1
  | drainFailed _ _ _ _ _ hd => exact hd.calls.1
  | sendFailed _ _ _ _ hd => exact hd.calls.1
  | send => exact absurd rfl (hact _ _ _ _)
  | _ => rfl

/-- The package at hand is pushed or kept; one that is accepted is at hand. -/
theorem calls_of_moves (hm : Moves D s act es s') (t : Thread) :
    unpushed (s.pc t) ++ ofThread t (acceptedIn es) =
      ofThread t (pushesIn es) ++ unpushed (s'.pc t) := by
  -- no thread moves
  have hsame : s'.pc = s.pc → acceptedIn es = [] ∧ pushesIn es = [] →
      unpushed (s.pc t) ++ ofThread t (acceptedIn es) =
        ofThread t (pushesIn es) ++ unpushed (s'.pc t) := by
    rintro hpc ⟨ha, hp⟩
    rw [hpc, ha, hp]
    exact List.append_nil _
  -- a thread moves that has nothing at hand, before and after
  have hmoved : ∀ {u : Thread} {q : CallPc}, unpushed (s.pc u) = [] → unpushed q = [] →
      unpushed (s.pc t) = unpushed (Function.update s.pc u q t) := by
    intro u q hold hnew
    rcases eq_or_ne t u with rfl | hne
    · rw [Function.update_self, hold, hnew]
    · rw [Function.update_of_ne hne]
  cases hm with
  | readEnd _ _ _ hd => exact hsame hd.pc_eq hd.calls
  | passStop _ _ _ hh => exact hsame hh.pc_eq hh.calls
  | passNext _ _ _ hh => exact hsame hh.pc_eq hh.calls
  | drainFailed _ _ _ _ _ hd => exact hsame hd.pc_eq hd.calls
  | sendFailed _ _ _ _ hd => exact hsame hd.pc_eq hd.calls
  | @send u client msg meant hpc =>
      rcases eq_or_ne t u with rfl | hne
      · simp [hpc, unpushed, ofThread, acceptedIn, pushesIn]
      · simp [ofThread, acceptedIn, pushesIn, hne, hne.symm]
  | @push u buf hpc =>
      rcases eq_or_ne t u with rfl | hne
      · simp [hpc, unpushed, ofThread, acceptedIn, pushesIn]
      · simp [ofThread, acceptedIn, pushesIn, hne, hne.symm]
  | signal hpc =>
      refine (List.append_nil _).trans (hmoved ?_ rfl)
      rcases hpc with hpc | hpc <;> rw [hpc] <;> rfl
  | close hpc => exact (List.append_nil _).trans (hmoved (hpc ▸ rfl) rfl)
  | setClosing hpc => exact (List.append_nil _).trans (hmoved (hpc ▸ rfl) rfl)
  | _ => exact hsame rfl ⟨rfl, rfl⟩

/-- **What `Send` has accepted** from a thread is what the thread has pushed and the
package it is about to push. -/
theorem calls_of_run {ok : RJTcpServer → Act → Prop} (h : (machine D).Run ok tr s) (t : Thread) :
    ofThread t (acceptedIn tr) = ofThread t (pushesIn tr) ++ unpushed (s.pc t) := by
  refine h.invariant (fun tr s => ofThread t (acceptedIn tr) =
    ofThread t (pushesIn tr) ++ unpushed (s.pc t)) rfl ?_
  intro tr s act s' es ih _ hs
  rw [acceptedIn_append, ofThread_append, ih, List.append_assoc,
    calls_of_moves (moves_of_step hs), pushesIn_append, ofThread_append, List.append_assoc]

theorem map_ofThread (t : Thread) (calls : List (Thread × uv_tcp_send_buf)) :
    (ofThread t calls).map (Prod.mk t) = calls.filter fun call => call.1 = t := by
  unfold ofThread
  rw [List.map_map]
  refine (List.map_congr_left fun call hcall => ?_).trans (List.map_id _)
  obtain rfl := of_decide_eq_true (List.mem_filter.mp hcall).2
  rfl

/-- Calls that are the same thread by thread are the same calls. -/
theorem perm_of_ofThread {calls calls' : List (Thread × uv_tcp_send_buf)}
    (h : ∀ t, ofThread t calls = ofThread t calls') : calls.Perm calls' := by
  refine List.perm_iff_count.mpr fun call => ?_
  have hcount : ∀ l : List (Thread × uv_tcp_send_buf),
      l.count call = ((ofThread call.1 l).map (Prod.mk call.1)).count call := fun l => by
    rw [map_ofThread]
    exact (List.count_filter (by simp)).symm
  rw [hcount, h, ← hcount]

end Calls

/-! ### The invariant -/

/-- Nobody calls `Close`. -/
def NoClose (_ : RJTcpServer) : Act → Prop
  | .close _ => False
  | _ => True

instance (s : RJTcpServer) (act : Act) : Decidable (NoClose s act) := by
  unfold NoClose
  split <;> infer_instance

/-- `AsyncCallBack` is due, or has been entered and has not swapped yet. -/
def WakeUpPending (s : RJTcpServer) : Prop :=
  s.async_pending = true ∨ s.loop = .asyncCallBack

structure Queued (tr : List Event) (s : RJTcpServer) : Prop where
  queue : pushedIn tr = consumedIn tr ++ s.sendTemp ++ s.m_send_buf
  right : Machine.Each DrainedRight tr
  notClosing : s.m_is_closing = false
  noClose : ∀ t, s.pc t ≠ .closing ∧ s.pc t ≠ .closed
  temp : s.sendTemp ≠ [] → s.loop = .draining
  wake : s.m_send_buf ≠ [] → WakeUpPending s ∨ ∃ t, s.pc t = .pushed

namespace Queued

variable {tr es : List Event} {s s' : RJTcpServer} {a : Addr}

/-- Outside the loop over it `sendTemp` is empty. -/
theorem temp_nil (h : Queued tr s) (hloop : s.loop ≠ .draining) : s.sendTemp = [] :=
  not_not.mp fun hne => hloop (h.temp hne)

/-- A step that consumes nothing adds nothing to check. -/
theorem right_append (h : Queued tr s) (hes : consumedIn es = []) :
    Machine.Each DrainedRight (tr ++ es) := by
  refine Machine.each_append.mpr ⟨h.right, fun pre e post he => ⟨?_, ?_⟩⟩
  · rintro k buf ret rfl
    have hmem : .uv_write k buf ret ∈ es := by rw [he]; simp
    have hcons := mem_consumedIn_of_write hmem
    rw [hes] at hcons
    cases hcons
  · rintro buf rfl
    have hmem : .dropped buf ∈ es := by rw [he]; simp
    have hcons := mem_consumedIn_of_dropped hmem
    rw [hes] at hcons
    cases hcons

/-- A step that leaves the queues alone. -/
theorem inert (h : Queued tr s) (hp : pushedIn es = []) (hc : consumedIn es = [])
    (hsb : s'.m_send_buf = s.m_send_buf) (hst : s'.sendTemp = s.sendTemp)
    (hcl : s'.m_is_closing = s.m_is_closing) (hpc : s'.pc = s.pc)
    (hpend : s'.async_pending = s.async_pending)
    (hloop : s'.loop = s.loop ∨ s.sendTemp = [] ∧ s.loop ≠ .asyncCallBack) :
    Queued (tr ++ es) s' where
  queue := by
    rw [pushedIn_append, consumedIn_append, hp, hc, List.append_nil, List.append_nil, hst, hsb]
    exact h.queue
  right := h.right_append hc
  notClosing := hcl.trans h.notClosing
  noClose := hpc ▸ h.noClose
  temp := fun hne => by
    rcases hloop with hl | ⟨hnil, -⟩
    · exact hl.trans (h.temp (hst ▸ hne))
    · exact absurd (hst.trans hnil) hne
  wake := fun hne => by
    rcases h.wake (hsb ▸ hne) with (hw | hw) | hw
    · exact Or.inl (Or.inl (hpend.trans hw))
    · rcases hloop with hl | ⟨-, hl⟩
      · exact Or.inl (Or.inr (hl.trans hw))
      · exact absurd hw hl
    · exact Or.inr (hpc ▸ hw)

/-- The loop thread leaves a place where `sendTemp` is empty. -/
theorem leave (h : Queued tr s) (hloop : s.loop ≠ .draining) (hasync : s.loop ≠ .asyncCallBack)
    (hp : pushedIn es = []) (hc : consumedIn es = [])
    (hsb : s'.m_send_buf = s.m_send_buf) (hst : s'.sendTemp = s.sendTemp)
    (hcl : s'.m_is_closing = s.m_is_closing) (hpc : s'.pc = s.pc)
    (hpend : s'.async_pending = s.async_pending) : Queued (tr ++ es) s' :=
  h.inert hp hc hsb hst hcl hpc hpend (Or.inr ⟨h.temp_nil hloop, hasync⟩)

theorem drops (h : Queued tr s) (hd : Drops s a es s') : Queued (tr ++ es) s' := by
  cases hd with
  | unknown => exact h.inert rfl rfl rfl rfl rfl rfl rfl (Or.inl rfl)
  | known => exact h.inert rfl rfl rfl rfl rfl rfl rfl (Or.inl rfl)

theorem handles {call : OnMsgCall} (h : Queued tr s) (hh : Handles s a call es s') :
    Queued (tr ++ es) s' := by
  cases hh with
  | drop _ hd => exact h.drops hd
  | deliver => exact h.inert rfl rfl rfl rfl rfl rfl rfl (Or.inl rfl)
  | skip => exact h.inert rfl rfl rfl rfl rfl rfl rfl (Or.inl rfl)

/-- The loop takes one package from `sendTemp`. -/
theorem pop (h : Queued tr s) {buf : uv_tcp_send_buf} {rest : List uv_tcp_send_buf} {e : Event}
    (hloop : s.loop = .draining) (hq : s.sendTemp = buf :: rest) (hp : pushedIn [e] = [])
    (hc : consumedIn [e] = [buf]) (hright : DrainedRight tr e) :
    Queued (tr ++ [e]) { s with sendTemp := rest } where
  queue := by
    rw [pushedIn_append, consumedIn_append, hp, hc, List.append_nil, h.queue, hq]
    simp
  right := Machine.each_concat.mpr ⟨h.right, hright⟩
  notClosing := h.notClosing
  noClose := h.noClose
  temp := fun _ => hloop
  wake := h.wake

/-- A sending thread goes on; what it does to `m_send_buf` it is about to
signal. -/
theorem sender (h : Queued tr s) {t : Thread} {q : CallPc} {mb : List uv_tcp_send_buf}
    {pend : Bool} (hq : q ≠ .closing ∧ q ≠ .closed)
    (hes : consumedIn es = [])
    (hmb : mb = s.m_send_buf ++ pushedIn es)
    (hwake : pend = true ∨
      pend = s.async_pending ∧ (q = .pushed ∨ pushedIn es = [] ∧ s.pc t ≠ .pushed)) :
    Queued (tr ++ es)
      ({ s with m_send_buf := mb, async_pending := pend }.setPc t q) where
  queue := by
    rw [pushedIn_append, consumedIn_append, hes, List.append_nil, h.queue]
    simp [hmb]
  right := h.right_append hes
  notClosing := h.notClosing
  noClose := fun t' => by
    rw [setPc_pc]
    rcases eq_or_ne t' t with rfl | hne
    · rwa [Function.update_self]
    · rw [Function.update_of_ne hne]
      exact h.noClose t'
  temp := h.temp
  wake := fun hne => by
    rcases hwake with hp | ⟨hp, rfl | ⟨hnone, hpc⟩⟩
    · exact Or.inl (Or.inl hp)
    · exact Or.inr ⟨t, Function.update_self ..⟩
    · have hold : s.m_send_buf ≠ [] := fun hnil => hne (by
        rw [setPc_m_send_buf, hmb, hnone, hnil]
        rfl)
      rcases h.wake hold with (hw | hw) | ⟨t', ht'⟩
      · exact Or.inl (Or.inl (hp.trans hw))
      · exact Or.inl (Or.inr hw)
      · -- the thread that has pushed is another one
        have hne' : t' ≠ t := fun he => hpc (he ▸ ht')
        exact Or.inr ⟨t', (Function.update_of_ne hne' ..).trans ht'⟩

/-- **One step of anyone but a caller of `Close`.** -/
theorem step {D : DataModel} {act : Act} (h : Queued tr s) (hreg : registeredIn tr = s.m_clients)
    (hok : NoClose s act) (hm : Moves D s act es s') : Queued (tr ++ es) s' := by
  have hsame : Queued (tr ++ []) s := by rwa [List.append_nil]
  cases hm with
  | acceptNone => exact hsame
  | acceptFailed => exact h.inert rfl rfl rfl rfl rfl rfl rfl (Or.inl rfl)
  | accepted => exact h.inert rfl rfl rfl rfl rfl rfl rfl (Or.inl rfl)
  | read hloop => exact h.leave (hloop ▸ nofun) (hloop ▸ nofun) rfl rfl rfl rfl rfl rfl rfl
  | readEnd _ _ _ hd => exact h.drops hd
  | passExit hloop => exact h.leave (hloop ▸ nofun) (hloop ▸ nofun) rfl rfl rfl rfl rfl rfl rfl
  | passMore hloop => exact h.leave (hloop ▸ nofun) (hloop ▸ nofun) rfl rfl rfl rfl rfl rfl rfl
  | @passStop a c r call es s' hloop _ _ hh =>
      have hidle : Queued (tr ++ []) { s.setClient a { c with reader := r } with loop := .idle } :=
        h.leave (hloop ▸ nofun) (hloop ▸ nofun) rfl rfl rfl rfl rfl rfl rfl
      rw [List.append_nil] at hidle
      exact hidle.handles hh
  | @passNext a c r call es s' _ _ _ hh =>
      have hr : Queued (tr ++ []) (s.setClient a { c with reader := r }) :=
        h.inert rfl rfl rfl rfl rfl rfl rfl (Or.inl rfl)
      rw [List.append_nil] at hr
      exact hr.handles hh
  | asyncCallBack hloop =>
      rw [List.append_nil]
      exact { h with
        temp := fun hne => absurd (h.temp_nil (hloop ▸ nofun)) hne
        wake := fun _ => Or.inl (Or.inr (if_neg (h.notClosing ▸ nofun))) }
  | swap hloop =>
      have hnil := h.temp_nil (hloop ▸ nofun)
      rw [List.append_nil]
      refine { h with
        queue := ?_
        temp := fun _ => rfl
        wake := fun hne => absurd hnil hne }
      rw [h.queue, hnil]
      simp
  | @drainSent c buf rest ret hloop hq hmem =>
      have hpop := h.pop (e := .uv_write c.conn buf ret) hloop hq rfl rfl
        ⟨fun _ _ _ he => by cases he; exact hreg ▸ hmem, nofun⟩
      have hput : Queued (tr ++ [.uv_write c.conn buf ret] ++ [])
          ({ s with sendTemp := rest }.setClient buf.client
            { c with writes := c.writes ++ [buf] }) :=
        hpop.inert rfl rfl rfl rfl rfl rfl rfl (Or.inl rfl)
      rwa [List.append_nil] at hput
  | @drainFailed c buf rest ret es s' hloop hq hmem _ _ hd =>
      have hpop := h.pop (e := .uv_write c.conn buf ret) hloop hq rfl rfl
        ⟨fun _ _ _ he => by cases he; exact hreg ▸ hmem, nofun⟩
      have hdrop := hpop.drops hd
      rwa [List.append_assoc] at hdrop
  | drainDropped hloop hq hmem =>
      exact h.pop hloop hq rfl rfl ⟨nofun, fun _ he => by cases he; exact hreg ▸ hmem⟩
  | drained hloop hq =>
      exact h.inert rfl rfl rfl rfl rfl rfl rfl (Or.inr ⟨hq, hloop ▸ nofun⟩)
  | walkClose => exact h.inert rfl rfl rfl rfl rfl rfl rfl (Or.inl rfl)
  | walkSkip => exact hsame
  | walked hloop => exact h.leave (hloop ▸ nofun) (hloop ▸ nofun) rfl rfl rfl rfl rfl rfl rfl
  | sent => exact h.inert rfl rfl rfl rfl rfl rfl rfl (Or.inl rfl)
  | @sendFailed a c buf rest _ es s' _ _ _ _ hd =>
      have hr : Queued (tr ++ []) (s.setClient a { c with writes := rest }) :=
        h.inert rfl rfl rfl rfl rfl rfl rfl (Or.inl rfl)
      rw [List.append_nil] at hr
      exact hr.drops hd
  | clientClose => exact h.inert rfl rfl rfl rfl rfl rfl rfl (Or.inl rfl)
  | closeNone => exact hsame
  | sendRefused => exact hsame
  | send hpc =>
      exact h.sender ⟨nofun, nofun⟩ rfl (List.append_nil _).symm
        (Or.inr ⟨rfl, Or.inr ⟨rfl, hpc ▸ nofun⟩⟩)
  | push => exact h.sender ⟨nofun, nofun⟩ rfl rfl (Or.inr ⟨rfl, Or.inl rfl⟩)
  | signal => exact h.sender ⟨nofun, nofun⟩ rfl (List.append_nil _).symm (Or.inl rfl)
  | closeAgain => exact hsame
  | close => exact hok.elim
  | @setClosing t hpc => exact absurd hpc (h.noClose t).1

/-- Once everybody has come to rest, everything pushed has been consumed. -/
theorem consumed_of_rest (h : Queued tr s) (hloop : s.loop = .idle)
    (hpend : s.async_pending = false) (hpc : ∀ t, s.pc t ≠ .pushed) :
    consumedIn tr = pushedIn tr := by
  have htemp : s.sendTemp = [] := h.temp_nil (hloop ▸ nofun)
  have hbuf : s.m_send_buf = [] := by
    by_contra hne
    rcases h.wake hne with (hw | hw) | ⟨t, ht⟩
    · rw [hpend] at hw
      cases hw
    · rw [hloop] at hw
      cases hw
    · exact hpc t ht
  rw [h.queue, htemp, hbuf, List.append_nil, List.append_nil]

theorem init : Queued [] RJTcpServer.init :=
  ⟨rfl, Machine.each_nil, rfl, fun _ => ⟨nofun, nofun⟩, nofun, nofun⟩

end Queued

theorem queued_run {D : DataModel} {tr : List Event} {s : RJTcpServer}
    (h : (machine D).Run NoClose tr s) : Queued tr s ∧ registeredIn tr = s.m_clients := by
  refine h.invariant (fun tr s => Queued tr s ∧ registeredIn tr = s.m_clients) ⟨.init, rfl⟩ ?_
  intro tr s act s' es ⟨hq, hreg⟩ hok hs
  have hm := moves_of_step hs
  refine ⟨hq.step hreg hok hm, ?_⟩
  rw [registeredIn_append, hreg, m_clients_step hm]

/-- **The send queue of the server.**  In every run without `Close`

* the packages a thread has had accepted by `Send` are, in the order of its calls,
  those it has pushed and the one it is about to push;
* the packages pushed are those consumed, those in `sendTemp` and those in
  `m_send_buf`, in this order: each is consumed once, in the order of the
  pushes;
* a package is handed to `uv_write` if its client is registered then, and
  deleted if it is not;
* the packages written for one client are in the order in which they were
  pushed;
* while `m_send_buf` holds anything, `AsyncCallBack` is due or some `Send` has
  pushed and not signalled yet, and `sendTemp` holds something only while the
  loop thread takes packages from it;
* once the loop has come to rest and no thread is between its push and its signal,
  everything pushed has been consumed, and once no thread is inside `Send` either,
  everything accepted. -/
theorem sendQueue {D : DataModel} {tr : List Event} {s : RJTcpServer}
    (h : (machine D).Run NoClose tr s) :
    (∀ t, ofThread t (acceptedIn tr) = ofThread t (pushesIn tr) ++ unpushed (s.pc t)) ∧
      pushedIn tr = consumedIn tr ++ s.sendTemp ++ s.m_send_buf ∧
      Machine.Each DrainedRight tr ∧
      (∀ a, ((writtenIn tr).filter fun buf => buf.client = a).Sublist
        ((pushedIn tr).filter fun buf => buf.client = a)) ∧
      (s.m_send_buf ≠ [] → WakeUpPending s ∨ ∃ t, s.pc t = .pushed) ∧
      (s.sendTemp ≠ [] → s.loop = .draining) ∧
      (s.loop = .idle → s.async_pending = false → (∀ t, s.pc t ≠ .pushed) →
        consumedIn tr = pushedIn tr) ∧
      (s.loop = .idle → s.async_pending = false → (∀ t, s.pc t = .idle) →
        ((acceptedIn tr).map Prod.snd).Perm (consumedIn tr)) := by
  have hq := (queued_run h).1
  refine ⟨calls_of_run h, hq.queue, hq.right, fun a => List.Sublist.filter _ ?_, hq.wake, hq.temp,
    hq.consumed_of_rest, fun hloop hpend hidle => ?_⟩
  · have hpre : (consumedIn tr).Sublist (pushedIn tr) := by
      rw [hq.queue, List.append_assoc]
      exact List.sublist_append_left _ _
    exact (writtenIn_sublist tr).trans hpre
  · have hcalls : (acceptedIn tr).Perm (pushesIn tr) := perm_of_ofThread fun t => by
      rw [calls_of_run h t, hidle t]
      exact List.append_nil _
    rw [hq.consumed_of_rest hloop hpend fun t => hidle t ▸ nofun, ← map_pushesIn]
    exact hcalls.map Prod.snd

/-- Two threads, one coalesced wake-up; the write to the first client fails,
and the second package for it is deleted in the same pass. -/
theorem sendQueue_two :
    ∃ tr s, (machine .lp64).Run NoClose tr s ∧
      ((∀ t, ofThread t (acceptedIn tr) = ofThread t (pushesIn tr) ++ unpushed (s.pc t)) ∧
        pushedIn tr = consumedIn tr ++ s.sendTemp ++ s.m_send_buf ∧
        Machine.Each DrainedRight tr ∧
        (∀ a, ((writtenIn tr).filter fun buf => buf.client = a).Sublist
          ((pushedIn tr).filter fun buf => buf.client = a)) ∧
        (s.m_send_buf ≠ [] → WakeUpPending s ∨ ∃ t, s.pc t = .pushed) ∧
        (s.sendTemp ≠ [] → s.loop = .draining) ∧
        (s.loop = .idle → s.async_pending = false → (∀ t, s.pc t ≠ .pushed) →
          consumedIn tr = pushedIn tr) ∧
        (s.loop = .idle → s.async_pending = false → (∀ t, s.pc t = .idle) →
          ((acceptedIn tr).map Prod.snd).Perm (consumedIn tr))) ∧
      acceptedIn tr = [(0, ⟨1, Msg2Package [65], 0⟩), (1, ⟨1, Msg2Package [66], 0⟩)] ∧
      consumedIn tr = [⟨1, Msg2Package [65], 0⟩, ⟨1, Msg2Package [66], 0⟩] ∧
      writtenIn tr = [⟨1, Msg2Package [65], 0⟩] := by
  obtain ⟨tr, s, hrun, hp⟩ := (machine .lp64).run_of_exec NoClose
    [.accept 1 0 0 0 0, .send 0 1 [65] 0, .send 1 1 [66] 0, .push 0, .push 1, .signal 1,
      .asyncCallBack, .swap, .signal 0, .drain (-32), .drain 0, .drained]
    (fun q => decide (
      acceptedIn q.2 = [(0, ⟨1, Msg2Package [65], 0⟩), (1, ⟨1, Msg2Package [66], 0⟩)] ∧
      consumedIn q.2 = [⟨1, Msg2Package [65], 0⟩, ⟨1, Msg2Package [66], 0⟩] ∧
      writtenIn q.2 = [⟨1, Msg2Package [65], 0⟩])) (by decide +kernel)
  exact ⟨tr, s, hrun, sendQueue hrun, of_decide_eq_true hp⟩

end RJTcpServer

end TestExamples
