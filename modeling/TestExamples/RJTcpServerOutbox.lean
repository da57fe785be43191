/-
TestExamples/RJTcpServerOutbox.lean

The packages for one client, from `Send` to its connection.

Between `Send` and `uv_write` a package stands in `m_send_buf` or in `sendTemp`,
also after `Close` (`Line`).  What has been written to client `k` are the first of
the packages meant for it that have been taken out of the queues, and all of them
as long as `k` is registered (`Outbox`): a package is left out only when its client
is gone, and a client that is gone does not come back.

This asks of every pointer on its way that it names its client and that the client
is found nowhere else (`Names`, `Located`).
-/
import TestExamples.RJTcpServerPointers
import TestExamples.RJTcpServerQueue

namespace TestExamples

namespace RJTcpServer

variable {D : DataModel} {s s' : RJTcpServer} {act : Act} {tr es : List Event} {a b : Addr}
  {k : Nat}

/-! ### Where a client is -/

/-- Client `k` is registered at `a`. -/
def RegisteredAt (s : RJTcpServer) (k : Nat) (a : Addr) : Prop :=
  a ∈ s.m_clients ∧ ∃ c, s.heap a = some c ∧ c.conn = k

/-- Client `k` has been created and is found nowhere but at `a`. -/
def Located (s : RJTcpServer) (a : Addr) (k : Nat) : Prop :=
  k < s.serial ∧ ∀ b c, s.heap b = some c → c.conn = k → b = a

/-- No client comes. -/
structure NoneComes (s s' : RJTcpServer) : Prop where
  serial : s'.serial = s.serial
  heap : ∀ {b c'}, s'.heap b = some c' → ∃ c, s.heap b = some c ∧ c.conn = c'.conn
  clients : ∀ {b}, b ∈ s'.m_clients → b ∈ s.m_clients

namespace NoneComes

theorem of_eq (hs : s'.serial = s.serial) (hh : s'.heap = s.heap)
    (hm : s'.m_clients = s.m_clients) : NoneComes s s' where
  serial := hs
  heap := fun hc => ⟨_, hh ▸ hc, rfl⟩
  clients := fun hb => hm ▸ hb

/-- A client changes and keeps its number. -/
theorem of_setClient {c d : uv_tcp_client} (hc : s.heap a = some c) (hconn : d.conn = c.conn)
    (hs : s'.serial = s.serial) (hh : s'.heap = Function.update s.heap a (some d))
    (hm : ∀ b ∈ s'.m_clients, b ∈ s.m_clients) : NoneComes s s' where
  serial := hs
  heap := fun {b e} he => by
    rw [hh] at he
    rcases heap_eq (s := s) he with ⟨rfl, rfl⟩ | ⟨-, hold⟩
    · exact ⟨c, hc, hconn.symm⟩
    · exact ⟨e, hold, rfl⟩
  clients := fun hb => hm _ hb

theorem trans {s'' : RJTcpServer} (h : NoneComes s s') (h' : NoneComes s' s'') :
    NoneComes s s'' where
  serial := h'.serial.trans h.serial
  heap := fun hc => by
    obtain ⟨c', hc', hconn'⟩ := h'.heap hc
    obtain ⟨c, hc, hconn⟩ := h.heap hc'
    exact ⟨c, hc, hconn.trans hconn'⟩
  clients := fun hb => h.clients (h'.clients hb)

theorem of_drops (hd : Drops s a es s') : NoneComes s s' := by
  cases hd with
  | unknown => exact of_eq rfl rfl rfl
  | @known c hmem hc =>
      exact of_setClient (d := { c with closing := some .ClientClose }) hc rfl rfl rfl
        fun b hb => List.mem_of_mem_erase hb

theorem of_handles {call : OnMsgCall} (hh : Handles s a call es s') : NoneComes s s' := by
  cases hh with
  | drop _ hd => exact of_drops hd
  | deliver => exact of_eq rfl rfl rfl
  | skip => exact of_eq rfl rfl rfl

end NoneComes

/-- **A step brings no client, or one with the next number.** -/
theorem noneComes_of_moves (hm : Moves D s act es s') :
    NoneComes s s' ∨ ∃ a c m, c.conn = s.serial ∧
      (m = s.m_clients ∨ m = s.m_clients ++ [a] ∧ a ≠ nullptr) ∧
      s' = { s.opened a c with m_clients := m } := by
  cases hm with
  | @acceptFailed a st i ac r _ _ =>
      exact Or.inr ⟨a, { s.newClient with closing := some .ClientClose }, s.m_clients, rfl,
        Or.inl rfl, rfl⟩
  | @accepted a st i ac r _ _ _ _ hnull =>
      exact Or.inr ⟨a, s.newClient, s.m_clients ++ [a], rfl, Or.inr ⟨rfl, hnull⟩, rfl⟩
  | @read a c _ r _ hc =>
      exact Or.inl (.of_setClient (d := { c with reader := r }) hc rfl rfl rfl fun _ hb => hb)
  | readEnd _ _ _ hd => exact Or.inl (.of_drops hd)
  | @passMore a c r _ hc =>
      exact Or.inl (.of_setClient (d := { c with reader := r }) hc rfl rfl rfl fun _ hb => hb)
  | @passStop a c r _ _ _ _ hc _ hh =>
      have hread : NoneComes s { s.setClient a { c with reader := r } with loop := .idle } :=
        .of_setClient (d := { c with reader := r }) hc rfl rfl rfl fun _ hb => hb
      exact Or.inl (hread.trans (.of_handles hh))
  | @passNext a c r _ _ _ _ hc _ hh =>
      have hread : NoneComes s (s.setClient a { c with reader := r }) :=
        .of_setClient (d := { c with reader := r }) hc rfl rfl rfl fun _ hb => hb
      exact Or.inl (hread.trans (.of_handles hh))
  | @drainSent c buf _ _ _ _ _ hc =>
      exact Or.inl (.of_setClient (d := { c with writes := c.writes ++ [buf] }) hc rfl rfl rfl
        fun _ hb => hb)
  | @drainFailed _ _ rest _ _ _ _ _ _ _ _ hd =>
      have hpop : NoneComes s { s with sendTemp := rest } := .of_eq rfl rfl rfl
      exact Or.inl (hpop.trans (.of_drops hd))
  | @walkClose a c _ hc =>
      exact Or.inl (.of_setClient (d := { c with closing := some .null }) hc rfl rfl rfl
        fun _ hb => hb)
  | @sent a c _ rest _ hc =>
      exact Or.inl (.of_setClient (d := { c with writes := rest }) hc rfl rfl rfl fun _ hb => hb)
  | @sendFailed a c _ rest _ _ _ _ hc _ _ hd =>
      have hput : NoneComes s (s.setClient a { c with writes := rest }) :=
        .of_setClient (d := { c with writes := rest }) hc rfl rfl rfl fun _ hb => hb
      exact Or.inl (hput.trans (.of_drops hd))
  | @clientClose a c _ _ _ _ =>
      refine Or.inl ⟨rfl, fun {b d} hd => ⟨d, ?_, rfl⟩, fun hb => hb⟩
      exact (of_update_none (f := s.heap) hd).2
  | _ => exact Or.inl (.of_eq rfl rfl rfl)

theorem serial_of_moves (hm : Moves D s act es s') : s.serial ≤ s'.serial := by
  rcases noneComes_of_moves hm with hkeep | ⟨a, c, m, -, -, rfl⟩
  · exact Nat.le_of_eq hkeep.serial.symm
  · exact Nat.le_succ _

/-- **A client stays where it is.** -/
theorem Located.step (h : Located s a k) (hm : Moves D s act es s') : Located s' a k := by
  refine ⟨Nat.lt_of_lt_of_le h.1 (serial_of_moves hm), fun b c' hc' hk => ?_⟩
  rcases noneComes_of_moves hm with hkeep | ⟨b', c, m, hconn, -, rfl⟩
  · obtain ⟨c, hc, hconn⟩ := hkeep.heap hc'
    exact h.2 b c hc (hconn.trans hk)
  · rcases heap_eq (s := { s with serial := s.serial + 1 }) hc' with ⟨-, rfl⟩ | ⟨-, hold⟩
    · exact absurd (hconn.symm.trans hk) (Nat.ne_of_gt h.1)
    · exact h.2 b c' hold hk

/-- **Nobody is registered again.** -/
theorem RegisteredAt.of_moves (h : RegisteredAt s' k a) (hk : k < s.serial)
    (hm : Moves D s act es s') : RegisteredAt s k a := by
  obtain ⟨ha, c', hc', hconn'⟩ := h
  rcases noneComes_of_moves hm with hkeep | ⟨b, c, m, hconn, hm', rfl⟩
  · obtain ⟨c, hc, hconn⟩ := hkeep.heap hc'
    exact ⟨hkeep.clients ha, c, hc, hconn.trans hconn'⟩
  · rcases heap_eq (s := { s with serial := s.serial + 1 }) hc' with ⟨-, rfl⟩ | ⟨hne, hold⟩
    · exact absurd (hconn.symm.trans hconn') (Nat.ne_of_gt hk)
    · refine ⟨?_, c', hold, hconn'⟩
      rcases hm' with rfl | ⟨rfl, -⟩
      · exact ha
      · exact (List.mem_append.mp ha).resolve_right (by simpa using hne)

/-- No client is registered at the null pointer. -/
theorem nullptr_step (h : nullptr ∉ s.m_clients) (hm : Moves D s act es s') :
    nullptr ∉ s'.m_clients := by
  rcases noneComes_of_moves hm with hkeep | ⟨a, c, m, -, rfl | ⟨rfl, hnull⟩, rfl⟩
  · exact fun hmem => h (hkeep.clients hmem)
  · exact h
  · intro hmem
    rcases List.mem_append.mp hmem with hmem | hmem
    · exact h hmem
    · exact hnull (List.mem_singleton.mp hmem).symm

/-- The client that a message comes from is registered. -/
theorem registeredAt_of_OnMsg {msg : List Byte} (hm : Moves D s act es s')
    (he : .OnMsg a k msg ∈ es) : RegisteredAt s' k a := by
  have hhandle : ∀ {s b call es}, Handles s b call es s' → .OnMsg a k msg ∈ es →
      RegisteredAt s' k a := by
    intro s b call es hh he
    cases hh with
    | drop _ hd => cases hd <;> simp at he
    | @deliver c _ _ _ hmem hc =>
        obtain ⟨rfl, rfl, -⟩ : a = b ∧ k = c.conn ∧ _ = _ := by simpa using he
        exact ⟨hmem, c, hc, rfl⟩
    | skip => simp at he
  cases hm with
  | readEnd _ _ _ hd => cases hd <;> simp at he
  | passStop _ _ _ hh => exact hhandle hh he
  | passNext _ _ _ hh => exact hhandle hh he
  | drainFailed _ _ _ _ _ hd => cases hd <;> simp at he
  | sendFailed _ _ _ _ hd => cases hd <;> simp at he
  | _ => simp at he

/-- The client that is announced is registered. -/
theorem registeredAt_of_OnNewConnection (hreg : Registry s) (hm : Moves D s act es s')
    (he : .OnNewConnection a k ∈ es) : RegisteredAt s' k a := by
  obtain ⟨rfl, rfl, -, -, hnames⟩ := names_of_OnNewConnection hreg hm he
  have hmem : a ∈ s'.m_clients := by
    rw [m_clients_step hm]
    exact List.mem_append_right _ (List.mem_singleton_self a)
  obtain ⟨c, hc⟩ := (hreg.step hm).alive hmem
  exact ⟨hmem, c, hc, hnames hmem c hc⟩

theorem RegisteredAt.located (h : RegisteredAt s k a) (hreg : Registry s) : Located s a k := by
  obtain ⟨-, c, hc, rfl⟩ := h
  exact ⟨hreg.serial hc, fun b c' hc' hk => hreg.inj hc' hc hk⟩

/-! ### The queues -/

/-- What has been pushed has been consumed or stands in one of the queues. -/
structure Line (tr : List Event) (s : RJTcpServer) : Prop where
  queue : pushedIn tr = consumedIn tr ++ s.sendTemp ++ s.m_send_buf
  temp : s.sendTemp ≠ [] → s.loop = .draining

namespace Line

theorem init : Line [] RJTcpServer.init := ⟨rfl, fun hne => absurd rfl hne⟩

/-- The queues stay as they are. -/
theorem keep (h : Line tr s) (hp : pushedIn es = []) (hc : consumedIn es = [])
    (hbuf : s'.m_send_buf = s.m_send_buf) (htemp : s'.sendTemp = s.sendTemp)
    (hloop : s'.loop = s.loop ∨ s.loop ≠ .draining) : Line (tr ++ es) s' where
  queue := by
    rw [pushedIn_append, consumedIn_append, hp, hc, List.append_nil, List.append_nil, hbuf, htemp]
    exact h.queue
  temp := fun hne => by
    have hold := h.temp (htemp ▸ hne)
    rcases hloop with hsame | hno
    · exact hsame.trans hold
    · exact absurd hold hno

theorem drops (h : Line tr s) (hd : Drops s a es s') : Line (tr ++ es) s' := by
  cases hd with
  | unknown => exact h.keep rfl rfl rfl rfl (Or.inl rfl)
  | known => exact h.keep rfl rfl rfl rfl (Or.inl rfl)

theorem handles {call : OnMsgCall} (h : Line tr s) (hh : Handles s a call es s') :
    Line (tr ++ es) s' := by
  cases hh with
  | drop _ hd => exact h.drops hd
  | deliver => exact h.keep rfl rfl rfl rfl (Or.inl rfl)
  | skip => exact h.keep rfl rfl rfl rfl (Or.inl rfl)

/-- The loop takes one package from `sendTemp`. -/
theorem pop (h : Line tr s) {buf : uv_tcp_send_buf} {rest : List uv_tcp_send_buf} {e : Event}
    (hloop : s.loop = .draining) (hq : s.sendTemp = buf :: rest) (hp : pushedIn [e] = [])
    (hc : consumedIn [e] = [buf]) (hs : s'.sendTemp = rest) (hbuf : s'.m_send_buf = s.m_send_buf)
    (hl : s'.loop = s.loop) : Line (tr ++ [e]) s' where
  queue := by
    rw [pushedIn_append, consumedIn_append, hp, hc, List.append_nil, h.queue, hq, hs, hbuf]
    simp
  temp := fun _ => hl.trans hloop

theorem step (h : Line tr s) (hm : Moves D s act es s') : Line (tr ++ es) s' := by
  cases hm with
  | readEnd _ _ _ hd => exact h.drops hd
  | read hloop | passExit hloop | passMore hloop =>
      exact h.keep rfl rfl rfl rfl (Or.inr (hloop ▸ nofun))
  | @passStop a c r call es s' hloop _ _ hh =>
      have hidle : Line (tr ++ []) { s.setClient a { c with reader := r } with loop := .idle } :=
        h.keep rfl rfl rfl rfl (Or.inr (hloop ▸ nofun))
      rw [List.append_nil] at hidle
      exact hidle.handles hh
  | @passNext a c r call es s' _ _ _ hh =>
      have hread : Line (tr ++ []) (s.setClient a { c with reader := r }) :=
        h.keep rfl rfl rfl rfl (Or.inl rfl)
      rw [List.append_nil] at hread
      exact hread.handles hh
  | asyncCallBack hloop | walked hloop => exact h.keep rfl rfl rfl rfl (Or.inr (hloop ▸ nofun))
  | swap hloop =>
      have hnil : s.sendTemp = [] := not_not.mp fun hne => by
        have hdraining := h.temp hne
        rw [hloop] at hdraining
        cases hdraining
      rw [List.append_nil]
      refine ⟨?_, fun _ => rfl⟩
      show pushedIn tr = consumedIn tr ++ s.m_send_buf ++ s.sendTemp
      rw [h.queue, hnil, List.append_nil, List.append_nil]
  | drainSent hloop hq => exact h.pop hloop hq rfl rfl rfl rfl rfl
  | @drainFailed c buf rest ret es s' hloop hq _ _ _ hd =>
      have hpop : Line (tr ++ [.uv_write c.conn buf ret]) { s with sendTemp := rest } :=
        h.pop hloop hq rfl rfl rfl rfl rfl
      have hdrop := hpop.drops hd
      rwa [List.append_assoc] at hdrop
  | drainDropped hloop hq => exact h.pop hloop hq rfl rfl rfl rfl rfl
  | drained hloop hq =>
      refine ⟨?_, fun hne => absurd hq hne⟩
      rw [List.append_nil]
      exact h.queue
  | @sendFailed a c buf rest _ es s' _ _ _ _ hd =>
      have hput : Line (tr ++ []) (s.setClient a { c with writes := rest }) :=
        h.keep rfl rfl rfl rfl (Or.inl rfl)
      rw [List.append_nil] at hput
      exact hput.drops hd
  | @push t buf hpc =>
      refine ⟨?_, h.temp⟩
      rw [pushedIn_append, consumedIn_append, h.queue]
      show _ ++ [buf] = _ ++ [] ++ s.sendTemp ++ (s.m_send_buf ++ [buf])
      rw [List.append_nil, ← List.append_assoc]
  | _ => exact h.keep rfl rfl rfl rfl (Or.inl rfl)

end Line

/-! ### One client -/

/-- The packages written to client `k`, in order. -/
def sentTo (k : Nat) (tr : List Event) : List uv_tcp_send_buf :=
  tr.filterMap fun
    | .uv_write k' buf ret => if k' = k ∧ ret = 0 then some buf else none
    | _ => none

/-- Those of the packages that are meant for client `k`. -/
def meantFor (k : Nat) (bufs : List uv_tcp_send_buf) : List uv_tcp_send_buf :=
  bufs.filter fun buf => buf.meant = k

theorem sentTo_append (tr es : List Event) : sentTo k (tr ++ es) = sentTo k tr ++ sentTo k es :=
  List.filterMap_append

theorem meantFor_append (bufs bufs' : List uv_tcp_send_buf) :
    meantFor k (bufs ++ bufs') = meantFor k bufs ++ meantFor k bufs' :=
  List.filter_append ..

/-- Nothing is written where nothing is consumed. -/
theorem sentTo_of_consumedIn (h : consumedIn es = []) : sentTo k es = [] := by
  refine List.filterMap_eq_nil_iff.mpr fun e he => ?_
  have hnone := List.filterMap_eq_nil_iff.mp h e he
  cases e with
  | uv_write => cases hnone
  | _ => rfl

/-- What client `k` has been sent, of what has been taken out of the queues for
it. -/
structure Outbox (k : Nat) (tr : List Event) (s : RJTcpServer) : Prop where
  unborn : s.serial ≤ k → meantFor k (consumedIn tr) = []
  sent : sentTo k tr <+: meantFor k (consumedIn tr)
  kept : ∀ a, RegisteredAt s k a → sentTo k tr = meantFor k (consumedIn tr)

/-- The pointer of every package on its way names its client, which is found
nowhere else. -/
def Addressed (s : RJTcpServer) : Prop :=
  ∀ buf, Sending s buf → Names s buf.client buf.meant ∧ Located s buf.client buf.meant

namespace Outbox

theorem init : Outbox k [] RJTcpServer.init where
  unborn := fun _ => rfl
  sent := List.nil_prefix
  kept := fun _ _ => rfl

/-- A client registered after the step has been sent everything before it. -/
theorem kept_of_moves (h : Outbox k tr s) (hm : Moves D s act es s') (ha : RegisteredAt s' k a) :
    sentTo k tr = meantFor k (consumedIn tr) := by
  rcases Nat.lt_or_ge k s.serial with hk | hk
  · exact h.kept a (ha.of_moves hk hm)
  -- the client has just come: nothing was meant for it
  · have hnil := h.unborn hk
    have hpre := h.sent
    rw [hnil] at hpre ⊢
    exact List.prefix_nil.mp hpre

/-- Nothing is consumed. -/
theorem quiet (h : Outbox k tr s) (hm : Moves D s act es s') (hc : consumedIn es = []) :
    Outbox k (tr ++ es) s' := by
  have hcons : consumedIn (tr ++ es) = consumedIn tr := by
    rw [consumedIn_append, hc, List.append_nil]
  have hsent : sentTo k (tr ++ es) = sentTo k tr := by
    rw [sentTo_append, sentTo_of_consumedIn hc, List.append_nil]
  refine ⟨fun hk => ?_, ?_, fun a ha => ?_⟩
  · rw [hcons]
    exact h.unborn (le_trans (serial_of_moves hm) hk)
  · rw [hcons, hsent]
    exact h.sent
  · rw [hcons, hsent]
    exact h.kept_of_moves hm ha

/-- One package is consumed that is not meant for the client. -/
theorem other (h : Outbox k tr s) (hm : Moves D s act es s') {buf : uv_tcp_send_buf}
    (hc : consumedIn es = [buf]) (hne : buf.meant ≠ k) (hsent : sentTo k es = []) :
    Outbox k (tr ++ es) s' := by
  have hcons : meantFor k (consumedIn (tr ++ es)) = meantFor k (consumedIn tr) := by
    rw [consumedIn_append, hc, meantFor_append]
    show _ ++ [buf].filter _ = _
    rw [List.filter_cons_of_neg (by simpa using hne), List.filter_nil, List.append_nil]
  have hsame : sentTo k (tr ++ es) = sentTo k tr := by rw [sentTo_append, hsent, List.append_nil]
  refine ⟨fun hk => ?_, ?_, fun a ha => ?_⟩
  · rw [hcons]
    exact h.unborn (le_trans (serial_of_moves hm) hk)
  · rw [hcons, hsame]
    exact h.sent
  · rw [hcons, hsame]
    exact h.kept_of_moves hm ha

/-- A package for the client is consumed: it is written, or the client is gone. -/
theorem own (h : Outbox k tr s) (hm : Moves D s act es s') {buf : uv_tcp_send_buf}
    (hc : consumedIn es = [buf]) (hk : buf.meant = k) (hborn : k < s.serial)
    (hout : sentTo k es = [buf] ∧ (∃ a, RegisteredAt s k a) ∨
      sentTo k es = [] ∧ ∀ a, ¬ RegisteredAt s' k a) : Outbox k (tr ++ es) s' := by
  have hcons : meantFor k (consumedIn (tr ++ es)) = meantFor k (consumedIn tr) ++ [buf] := by
    rw [consumedIn_append, hc, meantFor_append]
    show _ ++ [buf].filter _ = _
    rw [List.filter_cons_of_pos (by simpa using hk), List.filter_nil]
  refine ⟨fun hle => ?_, ?_, fun a ha => ?_⟩
  · exact absurd (lt_of_lt_of_le hborn (serial_of_moves hm)) (Nat.not_lt.mpr hle)
  · rw [hcons, sentTo_append]
    rcases hout with ⟨hsent, a, ha⟩ | ⟨hsent, -⟩
    · rewrite [hsent, h.kept a ha]
      exact List.prefix_refl _
    · rw [hsent, List.append_nil]
      exact h.sent.trans (List.prefix_append _ _)
  · rcases hout with ⟨hsent, a', ha'⟩ | ⟨-, hgone⟩
    · rw [hcons, sentTo_append, hsent, h.kept a' ha']
    · exact absurd ha (hgone a)

theorem step (h : Outbox k tr s) (hreg : Registry s) (haddr : Addressed s)
    (hm : Moves D s act es s') : Outbox k (tr ++ es) s' := by
  have hmoves := hm
  cases hm with
  | @drainSent c buf rest ret hloop hq hmem hc hret =>
      obtain ⟨hnames, hlocated⟩ := haddr buf (Or.inr (Or.inl (hq ▸ List.mem_cons_self ..)))
      have hconn : c.conn = buf.meant := hnames hmem c hc
      by_cases hk : buf.meant = k
      · refine h.own hmoves rfl hk (hk ▸ hlocated.1) (Or.inl ⟨?_, buf.client, hmem, c, hc, ?_⟩)
        · exact List.filterMap_cons_some (if_pos ⟨hconn.trans hk, hret⟩)
        · exact hconn.trans hk
      · refine h.other hmoves rfl hk ?_
        exact List.filterMap_cons_none (if_neg fun hand => hk (hconn.symm.trans hand.1))
  | @drainFailed c buf rest ret es s' hloop hq hmem hc hret hd =>
      obtain ⟨hnames, hlocated⟩ := haddr buf (Or.inr (Or.inl (hq ▸ List.mem_cons_self ..)))
      have hconn : c.conn = buf.meant := hnames hmem c hc
      cases hd with
      | unknown hno => exact absurd hmem hno
      | @known c' _ hc' =>
          have hnone : sentTo k [.uv_write c.conn buf ret, .OnDisconnection buf.client,
              .uv_close c'.conn] = [] :=
            List.filterMap_cons_none (if_neg fun hand => hret hand.2)
          by_cases hk : buf.meant = k
          · refine h.own hmoves rfl hk (hk ▸ hlocated.1) (Or.inr ⟨hnone, ?_⟩)
            -- the client has been taken out of `m_clients`
            rintro a ha
            obtain ⟨hmem', c₁, hc₁, hk₁⟩ := ha.of_moves (hk ▸ hlocated.1) hmoves
            obtain rfl := hlocated.2 a c₁ hc₁ (hk₁.trans hk.symm)
            exact ((List.Nodup.mem_erase_iff hreg.nodup).mp ha.1).1 rfl
          · exact h.other hmoves rfl hk hnone
  | @drainDropped buf rest ret hloop hq hmem =>
      obtain ⟨-, hlocated⟩ := haddr buf (Or.inr (Or.inl (hq ▸ List.mem_cons_self ..)))
      by_cases hk : buf.meant = k
      · refine h.own hmoves rfl hk (hk ▸ hlocated.1) (Or.inr ⟨rfl, ?_⟩)
        rintro a ⟨ha, c, hc, hconn⟩
        obtain rfl := hlocated.2 a c hc (hconn.trans hk.symm)
        exact hmem ha
      · exact h.other hmoves rfl hk rfl
  | readEnd _ _ _ hd => exact h.quiet hmoves (by cases hd <;> rfl)
  | passStop _ _ _ hh | passNext _ _ _ hh =>
      refine h.quiet hmoves ?_
      cases hh with
      | drop _ hd => cases hd <;> rfl
      | _ => rfl
  | sendFailed _ _ _ _ hd => exact h.quiet hmoves (by cases hd <;> rfl)
  | _ => exact h.quiet hmoves rfl

end Outbox

/-- **What a client has been sent** are the first of the packages pushed for it. -/
theorem sentTo_prefix (h : Outbox k tr s) (hline : Line tr s) :
    sentTo k tr <+: meantFor k (pushedIn tr) := by
  rw [hline.queue, List.append_assoc, meantFor_append]
  exact h.sent.trans (List.prefix_append _ _)

end RJTcpServer

end TestExamples
