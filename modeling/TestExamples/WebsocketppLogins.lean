/-
TestExamples/WebsocketppLogins.lean

The tables of logins of websocketpp_server/Myserver.cpp, statement by statement.

`handle_msg` and `Disconnection` touch `m_connections`, `m_con_map` and
`m_con_id` in sections of `m_connection_lock`, one container behind the other,
so that inside a section the tables need not agree.  Here every statement is a
step, any number of threads take them in any order, and any of them may call
`handle_msg` with any message or `Disconnection` with any handle.

A section as a whole does what the call does in one step
(`code_section`), and that keeps the tables in agreement
(`Numbered.after`): so they agree whenever the lock is free
(`loginsAgree_of_free`).  The id of a connection is the number of the login that
entered it, whatever other logins it sends later.
-/
import TestExamples.Lib.Guarded
import TestExamples.Lib.Since
import TestExamples.WebsocketppMyserver

namespace TestExamples

namespace Myserver

/-- A call of one of the threads. -/
inductive Call
  | handle_msg (msg : ConnectionMsg)
  | Disconnection (wsi : WSHandle)
  deriving DecidableEq, Repr

structure LoginTables where
  m_connections : List WSHandle
  m_con_map : WSHandle → Option Int32
  m_con_id : Int32

inductive LoginOp
  | connections_insert (wsi : WSHandle)
  | connections_erase (wsi : WSHandle)
  | connections_clear
  | con_map_pair (wsi : WSHandle)                 -- the pair of `wsi` and `m_con_id++`
  | con_map_insert (wsi : WSHandle) (id : Int32)
  | con_map_erase (wsi : WSHandle)
  | con_map_clear
  | close_all                                     -- `for (auto& item : m_connections)`
  | server (e : Event)                            -- a call of `m_pServer`
  deriving DecidableEq, Repr

def LoginTables.exec (t : LoginTables) : LoginOp → LoginTables × List LoginOp × List Event
  | .connections_insert wsi =>
      ({ t with m_connections :=
          if wsi ∈ t.m_connections then t.m_connections else t.m_connections ++ [wsi] }, [], [])
  | .connections_erase wsi =>
      ({ t with m_connections := t.m_connections.filter fun w => w ≠ wsi }, [], [])
  | .connections_clear => ({ t with m_connections := [] }, [], [])
  | .con_map_pair wsi =>
      ({ t with m_con_id := t.m_con_id + 1 }, [.con_map_insert wsi t.m_con_id], [])
  | .con_map_insert wsi id =>
      -- `insert` leaves an entry that is there
      ({ t with m_con_map := match t.m_con_map wsi with
          | some _ => t.m_con_map
          | none => Function.update t.m_con_map wsi (some id) }, [], [])
  | .con_map_erase wsi => ({ t with m_con_map := Function.update t.m_con_map wsi none }, [], [])
  | .con_map_clear => ({ t with m_con_map := fun _ => none }, [], [])
  | .close_all => (t, t.m_connections.map fun item => .server (.CloseConnection item), [])
  | .server e => (t, [], [e])

/-- `handle_msg`. -/
def handle_msg_code (msg : ConnectionMsg) : List (Stmt LoginOp) :=
  if msg.msg = login then
    [.lock, .op (.connections_insert msg.wsi), .op (.con_map_pair msg.wsi),
      .op (.server (.SendText msg.wsi login_sucess)), .unlock]
  else if msg.msg = logout then
    [.lock, .op (.connections_erase msg.wsi), .op (.con_map_erase msg.wsi),
      .op (.server (.SendText msg.wsi logout_sucess)), .op (.server (.CloseConnection msg.wsi)),
      .unlock]
  else if msg.msg = echo then [.op (.server (.SendText msg.wsi test_echo_rsp))]
  else if msg.msg = stop then
    [.lock, .op .close_all, .op .connections_clear, .op .con_map_clear, .unlock,
      .op (.server .Stop)]
  else [.op (.server (.SendText msg.wsi msg.msg))]

/-- `Disconnection`. -/
def Disconnection_code (wsi : WSHandle) : List (Stmt LoginOp) :=
  [.lock, .op (.connections_erase wsi), .op (.con_map_erase wsi), .unlock]

/-- The threads of the server on its tables. -/
def logins : Guarded LoginTables Call LoginOp Event where
  init := { m_connections := [], m_con_map := fun _ => none, m_con_id := 0 }
  code
    | .handle_msg msg => handle_msg_code msg
    | .Disconnection wsi => Disconnection_code wsi
  exec := LoginTables.exec

/-! ### What the tables are for -/

/-- `handle_msg` of a login. -/
def IsLogin (call : Call) : Bool :=
  match call with
  | .handle_msg msg => msg.msg = login
  | .Disconnection _ => false

def loginCount (calls : List Call) : Nat := calls.countP IsLogin

def LogsIn (w : WSHandle) (call : Call) : Prop := call = .handle_msg ⟨w, login⟩

/-- A logout, the end of the connection, or a stop. -/
def Leaves (w : WSHandle) (call : Call) : Prop :=
  call = .handle_msg ⟨w, logout⟩ ∨ call = .Disconnection w ∨ ∃ v, call = .handle_msg ⟨v, stop⟩

/-- The tables agree after the calls that have taken the lock: they hold the
same connections, no two with one id, and the id of a connection is the number
of logins before the first of its own since it was last out. -/
structure LoginsAgree (calls : List Call) (t : LoginTables) : Prop where
  same : ∀ w, w ∈ t.m_connections ↔ t.m_con_map w ≠ none
  distinct : ∀ v w id, t.m_con_map v = some id → t.m_con_map w = some id → v = w
  first : ∀ w id, t.m_con_map w = some id ↔
    ∃ pre, FirstSince (LogsIn w) (Leaves w) calls pre ∧ id.toInt = loginCount pre

/-! ### Whole calls -/

/-- What a call does in one step. -/
def after (s : Myserver) : Call → Myserver
  | .handle_msg msg => (s.handle_msg msg).1
  | .Disconnection wsi => s.Disconnection wsi

/-- The tables with `m_con_id` as the `int` it is. -/
def tables (s : Myserver) : LoginTables where
  m_connections := s.m_connections
  m_con_map := fun w => (s.m_con_map w).map Int32.ofNat
  m_con_id := Int32.ofNat s.m_con_id

structure Numbered (calls : List Call) (s : Myserver) : Prop where
  same : ∀ w, w ∈ s.m_connections ↔ s.m_con_map w ≠ none
  first : ∀ w n, s.m_con_map w = some n ↔
    ∃ pre, FirstSince (LogsIn w) (Leaves w) calls pre ∧ n = loginCount pre
  next : s.m_con_id = loginCount calls

section Logins

variable {s : Myserver} {calls : List Call} {call : Call} {w wsi : WSHandle}
  {c : List (Stmt LoginOp)} {tr : List (GuardedEvent Call Event)}
  {gs : GuardedState LoginTables Call LoginOp}

theorem local_server (e : Event) : logins.Local (.server e) := fun _ => ⟨rfl, rfl⟩

theorem tables_enter_map (s : Myserver) (wsi : WSHandle) :
    (s.enter wsi).tables.m_con_map = match s.tables.m_con_map wsi with
      | some _ => s.tables.m_con_map
      | none => Function.update s.tables.m_con_map wsi (some (Int32.ofNat s.m_con_id)) := by
  show Option.map Int32.ofNat ∘ (s.enter wsi).m_con_map = _
  rcases hmap : s.m_con_map wsi with - | n
  · have hnone : s.tables.m_con_map wsi = none := congrArg (Option.map Int32.ofNat) hmap
    have henter : (s.enter wsi).m_con_map =
        Function.update s.m_con_map wsi (some s.m_con_id) := by
      simp only [enter, hmap]
    rw [hnone, henter, Function.comp_update]
    rfl
  · have hsome : s.tables.m_con_map wsi = some (Int32.ofNat n) :=
      congrArg (Option.map Int32.ofNat) hmap
    have henter : (s.enter wsi).m_con_map = s.m_con_map := by simp only [enter, hmap]
    rw [hsome, henter]
    rfl

theorem tables_Disconnection (s : Myserver) (wsi : WSHandle) :
    (s.Disconnection wsi).tables = { s.tables with
      m_connections := s.m_connections.filter fun w => w ≠ wsi
      m_con_map := Function.update s.tables.m_con_map wsi none } := by
  have hmap : (s.Disconnection wsi).tables.m_con_map =
      Function.update s.tables.m_con_map wsi none := by
    show Option.map Int32.ofNat ∘ Function.update s.m_con_map wsi none = _
    rw [Function.comp_update]
    rfl
  rw [← hmap]
  rfl

theorem login_section (s : Myserver) (wsi : WSHandle) :
    logins.Section s.tables
      [.op (.connections_insert wsi), .op (.con_map_pair wsi),
        .op (.server (.SendText wsi login_sucess)), .unlock] (s.enter wsi).tables := by
  have hid : (s.enter wsi).tables.m_con_id = Int32.ofNat s.m_con_id + 1 := Int32.ofNat_add ..
  have hend : (s.enter wsi).tables = ⟨(s.enter wsi).m_connections,
      (s.enter wsi).tables.m_con_map, (s.enter wsi).tables.m_con_id⟩ := rfl
  rw [hend, hid, tables_enter_map]
  exact .op (.op (.op (.op .unlock)))

theorem erase_section (s : Myserver) (wsi : WSHandle) (hc : logins.Section
    (s.Disconnection wsi).tables c (s.Disconnection wsi).tables) :
    logins.Section s.tables (.op (.connections_erase wsi) :: .op (.con_map_erase wsi) :: c)
      (s.Disconnection wsi).tables := by
  refine .op (.op ?_)
  rw [tables_Disconnection] at hc ⊢
  exact hc

theorem stop_section (s : Myserver) :
    logins.Section s.tables
      [.op .close_all, .op .connections_clear, .op .con_map_clear, .unlock, .op (.server .Stop)]
      { s.tables with m_connections := [], m_con_map := fun _ => none } := by
  refine .op (Guarded.section_local ?_ (.op (.op .unlock)))
  intro a ha
  obtain ⟨item, -, rfl⟩ := List.mem_map.mp ha
  exact local_server _

/-- **The code of a call keeps what the whole call keeps.** -/
theorem keeps_code {Inv : List Call → Myserver → Prop}
    (h : ∀ calls s call, Inv calls s → Inv (calls ++ [call]) (s.after call)) (call : Call) :
    logins.Keeps (fun calls t => ∃ s, t = tables s ∧ Inv calls s) call false
      (logins.code call) := by
  have hsection : ∀ c, (∀ s : Myserver, logins.Section s.tables c (s.after call).tables) →
      ∀ calls t, (∃ s, t = tables s ∧ Inv calls s) →
        ∃ t', logins.Section t c t' ∧ ∃ s, t' = tables s ∧ Inv (calls ++ [call]) s := by
    rintro c hc calls t ⟨s, rfl, hs⟩
    exact ⟨_, hc s, _, rfl, h calls s call hs⟩
  cases call with
  | Disconnection wsi => exact ⟨hsection _ fun s => erase_section s wsi .unlock, trivial⟩
  | handle_msg msg =>
      show logins.Keeps _ _ false (handle_msg_code msg)
      unfold handle_msg_code
      split_ifs with hlogin hlogout hecho hstop
      · refine ⟨hsection _ fun s => ?_, trivial⟩
        have hafter : s.after (.handle_msg msg) = s.enter msg.wsi := by
          rw [after, Myserver.handle_msg, if_pos hlogin]
        rw [hafter]
        exact login_section s msg.wsi
      · refine ⟨hsection _ fun s => ?_, trivial⟩
        have hafter : s.after (.handle_msg msg) = s.Disconnection msg.wsi := by
          rw [after, Myserver.handle_msg, if_neg hlogin, if_pos hlogout]
        rw [hafter]
        exact erase_section s msg.wsi (.op (.op .unlock))
      · exact ⟨local_server _, trivial⟩
      · refine ⟨hsection _ fun s => ?_, local_server _, trivial⟩
        have hafter : (s.after (.handle_msg msg)).tables =
            { s.tables with m_connections := [], m_con_map := fun _ => none } := by
          rw [after, Myserver.handle_msg, if_neg hlogin, if_neg hlogout, if_neg hecho,
            if_pos hstop]
          rfl
        rw [hafter]
        exact stop_section s
      · exact ⟨local_server _, trivial⟩

/-! ### Agreement -/

/-- Who leaves with a message. -/
theorem leaves_handle_msg (w : WSHandle) (msg : ConnectionMsg) :
    Leaves w (.handle_msg msg) ↔ w = msg.wsi ∧ msg.msg = logout ∨ msg.msg = stop := by
  constructor
  · rintro (hmsg | hend | ⟨v, hmsg⟩)
    · obtain rfl := Call.handle_msg.inj hmsg
      exact .inl ⟨rfl, rfl⟩
    · cases hend
    · obtain rfl := Call.handle_msg.inj hmsg
      exact .inr rfl
  · obtain ⟨wsi, msg⟩ := msg
    rintro (⟨rfl, rfl⟩ | rfl)
    · exact .inl rfl
    · exact .inr (.inr ⟨wsi, rfl⟩)

theorem leaves_Disconnection (w wsi : WSHandle) : Leaves w (.Disconnection wsi) ↔ w = wsi := by
  constructor
  · rintro (hmsg | hend | ⟨v, hmsg⟩)
    · cases hmsg
    · exact (Call.Disconnection.inj hend).symm
    · cases hmsg
  · rintro rfl
    exact .inr (.inl rfl)

theorem not_leaves_login (w wsi : WSHandle) :
    ¬ Leaves w (.handle_msg ⟨wsi, login⟩) := by
  rw [leaves_handle_msg]
  rintro (⟨-, hlogout⟩ | hstop)
  · exact absurd (show login = logout from hlogout) (by decide)
  · exact absurd (show login = stop from hstop) (by decide)

theorem not_leaves_of_logsIn (h : LogsIn w call) : ¬ Leaves w call := by
  obtain rfl := h
  exact not_leaves_login w w

theorem loginCount_concat :
    loginCount (calls ++ [call]) = loginCount calls + if IsLogin call then 1 else 0 := by
  rw [loginCount, List.countP_append, List.countP_singleton]
  rfl

theorem Numbered.stays_iff (h : Numbered calls s) (w : WSHandle) :
    Stays (LogsIn w) (Leaves w) calls ↔ s.m_con_map w ≠ none := by
  rw [TestExamples.stays_iff fun _ => not_leaves_of_logsIn, Option.ne_none_iff_exists']
  constructor
  · rintro ⟨pre, hpre⟩
    exact ⟨loginCount pre, (h.first w _).mpr ⟨pre, hpre, rfl⟩⟩
  · rintro ⟨n, hn⟩
    obtain ⟨pre, hpre, -⟩ := (h.first w n).mp hn
    exact ⟨pre, hpre⟩

/-- A call that is no login keeps the entries of the connections that stay. -/
theorem Numbered.of_no_login {s' : Myserver} (h : Numbered calls s) (hcall : IsLogin call = false)
    (hsame : ∀ w, w ∈ s'.m_connections ↔ w ∈ s.m_connections ∧ ¬ Leaves w call)
    (hstay : ∀ w, ¬ Leaves w call → s'.m_con_map w = s.m_con_map w)
    (hleave : ∀ w, Leaves w call → s'.m_con_map w = none) (hnext : s'.m_con_id = s.m_con_id) :
    Numbered (calls ++ [call]) s' := by
  have hother : ∀ w, ¬ LogsIn w call := by
    rintro w rfl
    cases hcall
  refine ⟨fun w => ?_, fun w n => ?_, ?_⟩
  · rw [hsame, h.same]
    by_cases hw : Leaves w call
    · rw [hleave w hw]
      exact iff_of_false (fun hin => hin.2 hw) (not_not_intro rfl)
    · rw [hstay w hw]
      exact and_iff_left hw
  · simp only [firstSince_other (hother w)]
    by_cases hw : Leaves w call
    · rw [hleave w hw]
      exact iff_of_false (Option.some_ne_none n).symm fun ⟨pre, hpre, _⟩ => hpre.2 hw
    · simp only [hstay w hw, h.first, hw, not_false_eq_true, and_true]
  · rw [hnext, h.next, loginCount_concat, hcall]
    rfl

theorem enter_map (s : Myserver) (wsi w : WSHandle) : (s.enter wsi).m_con_map w =
    if w = wsi ∧ s.m_con_map w = none then some s.m_con_id else s.m_con_map w := by
  unfold Myserver.enter
  rcases hwsi : s.m_con_map wsi with - | n
  · show Function.update s.m_con_map wsi _ w = _
    by_cases hw : w = wsi
    · subst hw
      rw [Function.update_self, if_pos ⟨rfl, hwsi⟩]
    · rw [Function.update_of_ne hw, if_neg fun h => hw h.1]
  · refine (if_neg ?_).symm
    rintro ⟨rfl, hnone⟩
    rw [hwsi] at hnone
    cases hnone

theorem mem_enter (s : Myserver) (wsi w : WSHandle) :
    w ∈ (s.enter wsi).m_connections ↔ w ∈ s.m_connections ∨ w = wsi := by
  show (w ∈ if wsi ∈ s.m_connections then s.m_connections else s.m_connections ++ [wsi]) ↔ _
  split
  · next hin =>
    refine ⟨.inl, ?_⟩
    rintro (hw | rfl)
    · exact hw
    · exact hin
  · rw [List.mem_append, List.mem_singleton]

theorem Numbered.enter (h : Numbered calls s) (wsi : WSHandle) :
    Numbered (calls ++ [.handle_msg ⟨wsi, login⟩]) (s.enter wsi) := by
  have hlogin : ∀ w, LogsIn w (.handle_msg ⟨wsi, login⟩) ↔ w = wsi := by
    intro w
    constructor
    · intro hw
      exact (congrArg ConnectionMsg.wsi (Call.handle_msg.inj hw)).symm
    · rintro rfl
      rfl
  refine ⟨fun w => ?_, fun w n => ?_, ?_⟩
  · rw [mem_enter, enter_map, h.same]
    split
    · next hw => exact iff_of_true (.inr hw.1) (Option.some_ne_none _)
    · next hw =>
      refine ⟨?_, .inl⟩
      rintro (hin | rfl)
      · exact hin
      · exact fun hnone => hw ⟨rfl, hnone⟩
  · rw [enter_map]
    by_cases hw : w = wsi
    · by_cases hnone : s.m_con_map w = none
      · -- the first login of the connection
        have hout : ¬ Stays (LogsIn w) (Leaves w) calls := by
          rw [h.stays_iff]
          exact not_not_intro hnone
        have hnew : ∀ pre, FirstSince (LogsIn w) (Leaves w)
            (calls ++ [.handle_msg ⟨wsi, login⟩]) pre ↔ pre = calls := fun pre =>
          firstSince_new (fun _ => not_leaves_of_logsIn) ((hlogin w).mpr hw) hout
        rw [if_pos ⟨hw, hnone⟩, h.next]
        simp only [hnew, exists_eq_left, Option.some_inj]
        exact eq_comm
      · -- it is in already: `insert` changes nothing
        have hagain : ∀ pre, FirstSince (LogsIn w) (Leaves w)
            (calls ++ [.handle_msg ⟨wsi, login⟩]) pre ↔
              FirstSince (LogsIn w) (Leaves w) calls pre := fun pre =>
          firstSince_again (fun _ => not_leaves_of_logsIn) ((hlogin w).mpr hw)
            ((h.stays_iff w).mpr hnone)
        rw [if_neg fun h => hnone h.2, h.first]
        simp only [hagain]
    · rw [if_neg fun h => hw h.1, h.first]
      simp only [firstSince_other (mt (hlogin w).mp hw), not_leaves_login, not_false_eq_true,
        and_true]
  · rw [loginCount_concat, ← h.next]
    rfl

theorem Numbered.Disconnection (h : Numbered calls s) (hcall : IsLogin call = false)
    (hleaves : ∀ w, Leaves w call ↔ w = wsi) :
    Numbered (calls ++ [call]) (s.Disconnection wsi) := by
  refine h.of_no_login hcall (fun w => ?_) (fun w hw => ?_) (fun w hw => ?_) rfl
  · rw [hleaves]
    show w ∈ s.m_connections.filter (fun w => w ≠ wsi) ↔ _
    rw [List.mem_filter, decide_eq_true_iff]
  · exact Function.update_of_ne (mt (hleaves w).mpr hw) ..
  · obtain rfl := (hleaves w).mp hw
    exact Function.update_self ..

/-- **A whole call keeps the agreement.** -/
theorem Numbered.after (h : Numbered calls s) (call : Call) :
    Numbered (calls ++ [call]) (s.after call) := by
  cases call with
  | Disconnection wsi => exact h.Disconnection rfl fun w => leaves_Disconnection w wsi
  | handle_msg msg =>
      show Numbered _ (s.handle_msg msg).1
      unfold Myserver.handle_msg
      by_cases hlogin : msg.msg = login
      · obtain ⟨wsi, msg⟩ := msg
        obtain rfl : msg = login := hlogin
        rw [if_pos rfl]
        exact h.enter wsi
      · have hcall : IsLogin (.handle_msg msg) = false := decide_eq_false hlogin
        have hkeep : msg.msg ≠ logout → msg.msg ≠ stop →
            Numbered (calls ++ [.handle_msg msg]) s := by
          intro hlogout hstop
          have hstay : ∀ w, ¬ Leaves w (.handle_msg msg) := by
            intro w
            rw [leaves_handle_msg]
            rintro (⟨-, hmsg⟩ | hmsg)
            · exact hlogout hmsg
            · exact hstop hmsg
          exact h.of_no_login hcall (fun w => (and_iff_left (hstay w)).symm) (fun w _ => rfl)
            (fun w hw => absurd hw (hstay w)) rfl
        rw [if_neg hlogin]
        split_ifs with hlogout hecho hstop
        · refine h.Disconnection hcall fun w => ?_
          rw [leaves_handle_msg, hlogout]
          constructor
          · rintro (⟨hw, -⟩ | hstop)
            · exact hw
            · exact absurd hstop (by decide)
          · exact fun hw => .inl ⟨hw, rfl⟩
        · refine hkeep hlogout ?_
          rw [hecho]
          decide
        · have hleave : ∀ w, Leaves w (.handle_msg msg) := fun w =>
            (leaves_handle_msg w msg).mpr (.inr hstop)
          refine h.of_no_login hcall (fun w => ?_) (fun w hw => absurd (hleave w) hw)
            (fun w _ => rfl) rfl
          exact iff_of_false List.not_mem_nil fun hin => hin.2 (hleave w)
        · exact hkeep hlogout hstop

theorem numbered_init : Numbered [] init := by
  refine ⟨fun w => iff_of_false List.not_mem_nil (not_not_intro rfl), fun w n => ?_, rfl⟩
  exact iff_of_false (Option.some_ne_none n).symm fun ⟨pre, hpre, _⟩ => not_firstSince_nil hpre

theorem loginCount_mono {pre : List Call} (h : pre <+: calls) :
    loginCount pre ≤ loginCount calls := h.sublist.countP_le

/-- The tables of a server that agrees. -/
theorem Numbered.agree (h : Numbered calls s) (hbound : loginCount calls < 2 ^ 31) :
    LoginsAgree calls s.tables := by
  have hfirst : ∀ w id, s.tables.m_con_map w = some id ↔
      ∃ pre, FirstSince (LogsIn w) (Leaves w) calls pre ∧ id.toInt = loginCount pre := by
    intro w id
    have hsmall : ∀ pre, FirstSince (LogsIn w) (Leaves w) calls pre →
        (Int32.ofNat (loginCount pre)).toInt = loginCount pre := by
      rintro pre ⟨x, post, hcalls, -⟩
      exact Int32.toInt_ofNat_of_lt
        (Nat.lt_of_le_of_lt (loginCount_mono ⟨x :: post, hcalls.symm⟩) hbound)
    show (s.m_con_map w).map Int32.ofNat = some id ↔ _
    rw [Option.map_eq_some_iff]
    constructor
    · rintro ⟨n, hn, rfl⟩
      obtain ⟨pre, hpre, rfl⟩ := (h.first w n).mp hn
      exact ⟨pre, hpre, hsmall pre hpre⟩
    · rintro ⟨pre, hpre, hid⟩
      refine ⟨loginCount pre, (h.first w _).mpr ⟨pre, hpre, rfl⟩, ?_⟩
      exact Int32.toInt_inj.mp ((hsmall pre hpre).trans hid.symm)
  refine ⟨fun w => ?_, fun v w id hv hw => ?_, hfirst⟩
  · rw [show w ∈ s.tables.m_connections ↔ _ from h.same w]
    exact (not_congr Option.map_eq_none_iff).symm
  · obtain ⟨pre, ⟨x, post, hcalls, hx, -⟩, hid⟩ := (hfirst v id).mp hv
    obtain ⟨pre', ⟨x', post', hcalls', hx', -⟩, hid'⟩ := (hfirst w id).mp hw
    obtain rfl := hx
    obtain rfl := hx'
    have hcount : loginCount pre = loginCount pre' := Int.ofNat_inj.mp (hid.symm.trans hid')
    obtain ⟨-, heq⟩ := cut_unique (p := IsLogin) rfl rfl (hcalls.symm.trans hcalls') hcount
    exact congrArg ConnectionMsg.wsi (Call.handle_msg.inj heq)

/-- **A connection that stays keeps its id**, whatever else is handled. -/
theorem LoginsAgree.kept {t t' : LoginTables} {later : List Call} {id : Int32}
    (h : LoginsAgree calls t) (h' : LoginsAgree (calls ++ later) t')
    (hstay : ∀ call ∈ later, ¬ Leaves w call) (hid : t.m_con_map w = some id) :
    t'.m_con_map w = some id := by
  obtain ⟨pre, ⟨x, post, rfl, hx, hpost, hpre⟩, hcount⟩ := (h.first w id).mp hid
  refine (h'.first w id).mpr ⟨pre, ⟨x, post ++ later, by simp, hx, fun y hy => ?_, hpre⟩, hcount⟩
  rcases List.mem_append.mp hy with hy | hy
  · exact hpost y hy
  · exact hstay y hy

/-- **The tables agree whenever the lock is free**, as long as `m_con_id` has not
come to its end. -/
theorem loginsAgree_of_free (hrun : logins.machine.Run AnyStep tr gs) (hfree : gs.holder = none)
    (hbound : loginCount (taken tr) < 2 ^ 31) : LoginsAgree (taken tr) gs.shared := by
  have hkeeps := keeps_code fun calls s call (h : Numbered calls s) => h.after call
  obtain ⟨s, hs, hnumbered⟩ :=
    Guarded.inv_of_free ⟨init, rfl, numbered_init⟩ hkeeps hrun hfree
  rw [hs]
  exact hnumbered.agree hbound

/-- One connection logs in twice and another once, while a third is
disconnected. -/
theorem loginsAgree_of_free_two : ∃ tr gs, logins.machine.Run AnyStep tr gs ∧
    gs.shared.m_con_map 1 = some 0 ∧ gs.shared.m_con_map 2 = some 2 ∧
      LoginsAgree (taken tr) gs.shared := by
  obtain ⟨tr, gs, hrun, hp⟩ := logins.machine.run_of_exec AnyStep
    (List.flatten [[.call 0 (.handle_msg ⟨1, login⟩), .run 0, .run 0, .call 1 (.Disconnection 3)],
      List.replicate 4 (.run 0), [.run 1, .run 0, .call 0 (.handle_msg ⟨1, login⟩)],
      List.replicate 4 (.run 1), List.replicate 7 (.run 0),
      [.call 0 (.handle_msg ⟨2, login⟩)], List.replicate 7 (.run 0)])
    (fun q => decide (q.1.holder = none ∧ loginCount (taken q.2) < 2 ^ 31 ∧
      q.1.shared.m_con_map 1 = some 0 ∧ q.1.shared.m_con_map 2 = some 2)) (by decide +kernel)
  obtain ⟨hfree, hbound, hone, htwo⟩ := of_decide_eq_true hp
  exact ⟨tr, gs, hrun, hone, htwo, loginsAgree_of_free hrun hfree hbound⟩

end Logins

end Myserver

end TestExamples
