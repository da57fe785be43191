/-
TestExamples/HttpClient.lean

The client of mongoose_http_client/HttpClient.cpp.

What the network does during a call of `Get` is a parameter (`Network`): the
readings of the clock, the events of each `mg_mgr_poll`, the last one in
`mg_mgr_free` included, and the events when this closes the connection.  The
address is taken to be one mongoose can parse, so that there is a connection;
all events come from polls.

`end - begin` is a difference of two `UINT64`s and wraps.  It is compared with a
`double`, which is exact: `timeOut * 1e6` is an integer below 2^53.

`Get` sets `m_rsp` back and `m_exitFlag` never, and the close of the connection
sets it at the latest (`exitFlag_of_Get`).  A second call therefore makes no
pass of its loop: it returns what its last poll happens to bring.
-/
import TestExamples.Lib.Bytes
import TestExamples.Lib.Machine

namespace TestExamples

namespace HttpError

def OK : Int := 0
def ConnectError : Int := -1
def TimeOut : Int := -2

end HttpError

@[ext]
structure HttpRsp where
  error : Int
  rsp : List Byte
  deriving DecidableEq, Repr

structure HttpClient where
  m_rsp : HttpRsp
  m_exitFlag : Int
  deriving DecidableEq, Repr

/-- The events of mongoose. -/
inductive NetEvent
  | connect (status : Int)    -- `MG_EV_CONNECT`
  | reply (body : List Byte)  -- `MG_EV_HTTP_REPLY`
  | close                     -- `MG_EV_CLOSE`
  | other
  deriving DecidableEq, Repr

/-- What happens around a call of `Get`. -/
structure Network where
  begin : UInt64
  now : Nat → UInt64              -- the readings in the loop
  poll : Nat → List NetEvent      -- the events of each `mg_mgr_poll`
  closing : Nat → List NetEvent   -- those of `mg_close_conn`, behind so many polls

namespace HttpClient

/-- The constructor. -/
def new : HttpClient where
  m_rsp := ⟨HttpError.OK, []⟩
  m_exitFlag := 0

def ev_handler (c : HttpClient) : NetEvent → HttpClient
  | .connect status =>
      if status ≠ 0 then ⟨{ c.m_rsp with error := HttpError.ConnectError }, 1⟩ else c
  | .reply body => ⟨{ c.m_rsp with rsp := body }, 1⟩
  | .close => if c.m_exitFlag = 0 then { c with m_exitFlag := 1 } else c
  | .other => c

/-- `end - begin > timeOut * 1e6`. -/
def TimedOut (timeOut : Int) (net : Network) (k : Nat) : Prop :=
  ((net.now k - net.begin).toNat : Int) > timeOut * 1000000

instance (timeOut : Int) (net : Network) (k : Nat) : Decidable (TimedOut timeOut net k) :=
  inferInstanceAs (Decidable (_ > _))

/-- The loop of `Get` from its pass `k` on: the number of polls made. -/
def loop (timeOut : Int) (net : Network) : Nat → Nat → HttpClient → Option (Nat × HttpClient)
  | 0, _, _ => none
  | fuel + 1, k, c =>
      if c.m_exitFlag = 0 then
        if TimedOut timeOut net k then
          some (k, { c with m_rsp := { c.m_rsp with error := HttpError.TimeOut } })
        else loop timeOut net fuel (k + 1) ((net.poll k).foldl ev_handler c)
      else some (k, c)

/-- The last poll and the close. -/
def mg_mgr_free (net : Network) (k : Nat) (c : HttpClient) : HttpClient :=
  (net.poll k ++ net.closing k).foldl ev_handler c

/-- `Get`: the result, the number of polls of its loop and the client. -/
def Get (timeOut : Int) (net : Network) (fuel : Nat) (c : HttpClient) :
    Option (HttpRsp × Nat × HttpClient) :=
  (loop timeOut net fuel 0 { c with m_rsp := ⟨HttpError.OK, []⟩ }).map fun p =>
    let c' := mg_mgr_free net p.1 p.2
    (c'.m_rsp, p.1, c')

/-- The events received during a call whose loop makes `k` polls. -/
def seen (net : Network) (k : Nat) : List NetEvent :=
  (List.range k).flatMap net.poll ++ (net.poll k ++ net.closing k)

/-! ### A client and its calls -/

structure Call where
  timeOut : Int
  net : Network
  fuel : Nat

/-- A call that has returned. -/
structure Got where
  call : Call
  polls : Nat
  result : HttpRsp

def step (c : HttpClient) (call : Call) : Option (HttpClient × List Got) :=
  (Get call.timeOut call.net call.fuel c).map fun p => (p.2.2, [⟨call, p.2.1, p.1⟩])

/-- A client on which one `Get` is called after another. -/
def machine : Machine HttpClient Call Got := ⟨new, step⟩

/-- `OK` comes with a reply received during the call, and a client that has just
been constructed returns the same. -/
structure Right (got : Got) : Prop where
  reply : got.result.error = HttpError.OK →
    .reply got.result.rsp ∈ seen got.call.net got.polls
  fresh : ∃ fuel k c', Get got.call.timeOut got.call.net fuel new = some (got.result, k, c')

/-! ### What the events do -/

/-- The connection could not be made. -/
def failed : NetEvent → Bool
  | .connect status => status ≠ 0
  | _ => false

def body? : NetEvent → Option (List Byte)
  | .reply body => some body
  | _ => none

/-- The events after which the loop ends. -/
def Ends (e : NetEvent) : Prop := failed e = true ∨ body? e ≠ none ∨ e = .close

/-- Neither a reply nor a connection that could not be made. -/
def Silent (es : List NetEvent) : Prop := ∀ e ∈ es, failed e = false ∧ body? e = none

instance (es : List NetEvent) : Decidable (Silent es) :=
  inferInstanceAs (Decidable (∀ e ∈ es, _))

variable {timeOut : Int} {net : Network} {fuel k n : Nat} {c c' : HttpClient}
  {es es' : List NetEvent} {r : HttpRsp}

theorem ev_handler_error (c : HttpClient) (e : NetEvent) :
    (ev_handler c e).m_rsp.error =
      if failed e then HttpError.ConnectError else c.m_rsp.error := by
  cases e with
  | connect status =>
      by_cases h : status = 0
      · simp [ev_handler, failed, h]
      · simp [ev_handler, failed, h]
  | reply body => rfl
  | close =>
      by_cases h : c.m_exitFlag = 0
      · simp [ev_handler, failed, h]
      · simp [ev_handler, failed, h]
  | other => rfl

theorem ev_handler_rsp (c : HttpClient) (e : NetEvent) :
    (ev_handler c e).m_rsp.rsp = (body? e).getD c.m_rsp.rsp := by
  cases e with
  | connect status =>
      unfold ev_handler body?
      dsimp only
      split <;> rfl
  | reply body => rfl
  | close =>
      unfold ev_handler body?
      dsimp only
      split <;> rfl
  | other => rfl

theorem ev_handler_exitFlag (c : HttpClient) (e : NetEvent) :
    (ev_handler c e).m_exitFlag = 0 ↔ c.m_exitFlag = 0 ∧ ¬ Ends e := by
  unfold Ends
  cases e with
  | connect status =>
      by_cases h : status = 0
      · simp [ev_handler, failed, body?, h]
      · simp [ev_handler, failed, body?, h]
  | reply body => simp [ev_handler, body?]
  | close =>
      by_cases h : c.m_exitFlag = 0
      · simp [ev_handler, h]
      · simp [ev_handler, h]
  | other => simp [ev_handler, failed, body?]

theorem error_foldl (es : List NetEvent) (c : HttpClient) :
    (es.foldl ev_handler c).m_rsp.error =
      if es.any failed then HttpError.ConnectError else c.m_rsp.error := by
  induction es generalizing c with
  | nil => rfl
  | cons e es ih =>
      rw [List.foldl_cons, ih, ev_handler_error, List.any_cons]
      rcases failed e with - | -
      · rw [Bool.false_or, if_neg Bool.false_ne_true]
      · simp only [Bool.true_or, if_true, ite_self]

theorem rsp_foldl (es : List NetEvent) (c : HttpClient) :
    (es.foldl ev_handler c).m_rsp.rsp = (es.filterMap body?).getLastD c.m_rsp.rsp := by
  induction es generalizing c with
  | nil => rfl
  | cons e es ih =>
      rw [List.foldl_cons, ih, ev_handler_rsp]
      rcases hb : body? e with - | b
      · rw [List.filterMap_cons_none hb]
        rfl
      · rw [List.filterMap_cons_some hb, List.getLastD_cons]
        rfl

theorem exitFlag_foldl (es : List NetEvent) (c : HttpClient) :
    (es.foldl ev_handler c).m_exitFlag = 0 ↔ c.m_exitFlag = 0 ∧ ∀ e ∈ es, ¬ Ends e := by
  induction es generalizing c with
  | nil => simp
  | cons e es ih => rw [List.foldl_cons, ih, ev_handler_exitFlag, List.forall_mem_cons, and_assoc]

/-! ### What a call does -/

/-- The client behind the first `k` polls. -/
def after (net : Network) (k : Nat) (c : HttpClient) : HttpClient :=
  ((List.range k).flatMap net.poll).foldl ev_handler c

theorem after_succ (net : Network) (k : Nat) (c : HttpClient) :
    after net (k + 1) c = (net.poll k).foldl ev_handler (after net k c) := by
  rw [after, List.range_succ, List.flatMap_append, List.foldl_append, List.flatMap_singleton]
  rfl

theorem after_exitFlag (net : Network) (k : Nat) (c : HttpClient) :
    (after net k c).m_exitFlag = 0 ↔
      c.m_exitFlag = 0 ∧ ∀ j < k, ∀ e ∈ net.poll j, ¬ Ends e := by
  rw [after, exitFlag_foldl]
  simp only [List.mem_flatMap, List.mem_range, forall_exists_index, and_imp]
  exact and_congr_right fun _ => ⟨fun h j hj e he => h e j hj he, fun h e j hj he => h j hj e he⟩

/-- **The loop.**  It passes as long as the flag is clear and the time is not up. -/
theorem loop_spec (h : loop timeOut net fuel k (after net k c) = some (n, c')) :
    k ≤ n ∧ (∀ j, k ≤ j → j < n → (after net j c).m_exitFlag = 0 ∧ ¬ TimedOut timeOut net j) ∧
      ((after net n c).m_exitFlag ≠ 0 ∧ c' = after net n c ∨
        (after net n c).m_exitFlag = 0 ∧ TimedOut timeOut net n ∧
          c' = { after net n c with
            m_rsp := { (after net n c).m_rsp with error := HttpError.TimeOut } }) := by
  induction fuel generalizing k with
  | zero => cases h
  | succ fuel ih =>
      unfold loop at h
      split at h
      · next hflag =>
        split at h
        · next htime =>
          obtain ⟨rfl, rfl⟩ := Prod.mk.inj (Option.some.inj h)
          exact ⟨le_rfl, fun j hle hlt => absurd hlt (Nat.not_lt.mpr hle),
            .inr ⟨hflag, htime, rfl⟩⟩
        · next htime =>
          rw [← after_succ] at h
          obtain ⟨hle, hall, hend⟩ := ih h
          refine ⟨Nat.le_of_succ_le hle, fun j hkj hjn => ?_, hend⟩
          rcases Nat.eq_or_lt_of_le hkj with rfl | hlt
          · exact ⟨hflag, htime⟩
          · exact hall j hlt hjn
      · next hflag =>
        obtain ⟨rfl, rfl⟩ := Prod.mk.inj (Option.some.inj h)
        exact ⟨le_rfl, fun j hle hlt => absurd hlt (Nat.not_lt.mpr hle), .inl ⟨hflag, rfl⟩⟩

/-- A call that returns: how often its loop polled, and what it makes of the
events received. -/
structure Returns (timeOut : Int) (net : Network) (c : HttpClient) (n : Nat) (r : HttpRsp) :
    Prop where
  polls : ∀ j < n, (c.m_exitFlag = 0 ∧ ∀ i < j, ∀ e ∈ net.poll i, ¬ Ends e) ∧
    ¬ TimedOut timeOut net j
  rsp : r.rsp = ((seen net n).filterMap body?).getLastD []
  error : ¬ (c.m_exitFlag = 0 ∧ ∀ i < n, ∀ e ∈ net.poll i, ¬ Ends e) ∧
      r.error = (if (seen net n).any failed then HttpError.ConnectError else HttpError.OK) ∨
    (c.m_exitFlag = 0 ∧ ∀ i < n, ∀ e ∈ net.poll i, ¬ Ends e) ∧ TimedOut timeOut net n ∧
      r.error = (if (seen net n).any failed then HttpError.ConnectError else HttpError.TimeOut)

theorem foldl_seen (net : Network) (k : Nat) (c : HttpClient) :
    (seen net k).foldl ev_handler c = mg_mgr_free net k (after net k c) := by
  rw [seen, List.foldl_append]
  rfl

theorem returns_of_Get (h : Get timeOut net fuel c = some (r, n, c')) :
    Returns timeOut net c n r ∧
      (c'.m_exitFlag = 0 ↔ c.m_exitFlag = 0 ∧ ∀ e ∈ seen net n, ¬ Ends e) := by
  obtain ⟨⟨k, c₁⟩, hloop, hr⟩ := Option.map_eq_some_iff.mp h
  obtain ⟨rfl, hrest⟩ := Prod.mk.inj hr
  obtain ⟨rfl, rfl⟩ := Prod.mk.inj hrest
  obtain ⟨-, hall, hend⟩ := loop_spec (k := 0) hloop
  simp only [ne_eq, after_exitFlag] at hall hend
  have hrsp := rsp_foldl (seen net k) ⟨⟨HttpError.OK, []⟩, c.m_exitFlag⟩
  have herr := error_foldl (seen net k) ⟨⟨HttpError.OK, []⟩, c.m_exitFlag⟩
  have hflag := exitFlag_foldl (seen net k) ⟨⟨HttpError.OK, []⟩, c.m_exitFlag⟩
  rw [foldl_seen] at hrsp herr hflag
  rcases hend with ⟨hset, rfl⟩ | ⟨hclear, htime, rfl⟩
  · exact ⟨⟨fun j hj => hall j (Nat.zero_le j) hj, hrsp, .inl ⟨hset, herr⟩⟩, hflag⟩
  · have hrsp' := hrsp
    have hflag' := hflag
    rw [mg_mgr_free, rsp_foldl] at hrsp'
    rw [mg_mgr_free, exitFlag_foldl] at hflag'
    refine ⟨⟨fun j hj => hall j (Nat.zero_le j) hj, ?_, .inr ⟨hclear, htime, ?_⟩⟩, ?_⟩
    · rw [mg_mgr_free, rsp_foldl]
      exact hrsp'
    · -- no poll of the loop has reported a failed connection
      have hnone : ((List.range k).flatMap net.poll).any failed = false := by
        refine List.any_eq_false.mpr fun e he hfail => ?_
        obtain ⟨j, hj, hej⟩ := List.mem_flatMap.mp he
        exact hclear.2 j (List.mem_range.mp hj) e hej (.inl hfail)
      have hsame : (seen net k).any failed = (net.poll k ++ net.closing k).any failed := by
        rw [seen, List.any_append, hnone, Bool.false_or]
      rw [mg_mgr_free, error_foldl, hsame]
    · rw [mg_mgr_free, exitFlag_foldl]
      exact hflag'

/-- **The flag stays.**  Where the connection is closed during a call, the flag
is set when the call returns. -/
theorem exitFlag_of_Get (h : Get timeOut net fuel c = some (r, n, c'))
    (hclose : .close ∈ seen net n) : c'.m_exitFlag ≠ 0 := by
  intro hzero
  exact ((returns_of_Get h).2.mp hzero).2 _ hclose (.inr (.inr rfl))

/-! ### When the result is right -/

/-- The connection is closed before anything else has come of it. -/
def ClosedEarly (timeOut : Int) (net : Network) : Prop :=
  ∃ k, (∀ j ≤ k, ¬ TimedOut timeOut net j) ∧ (∀ j < k, ∀ e ∈ net.poll j, ¬ Ends e) ∧
    .close ∈ net.poll k ∧ Silent (net.poll k ++ (net.poll (k + 1) ++ net.closing (k + 1)))

/-- The first poll brings the result, if the time is not up before it. -/
def Decided (timeOut : Int) (net : Network) : Prop :=
  ¬ Silent (net.poll 0) ∧ Silent (net.closing 0 ++ (net.poll 1 ++ net.closing 1)) ∧
    (TimedOut timeOut net 0 → (net.poll 0).any failed = true)

theorem mem_of_getLastD_ne {es : List NetEvent} (h : es.filterMap body? ≠ []) :
    .reply ((es.filterMap body?).getLastD []) ∈ es := by
  have hmem : (es.filterMap body?).getLastD [] ∈ es.filterMap body? := by
    rw [List.getLastD_eq_getLast?, List.getLast?_eq_some_getLast h]
    exact List.getLast_mem h
  obtain ⟨e, he, hb⟩ := List.mem_filterMap.mp hmem
  cases e with
  | reply body =>
      obtain rfl := Option.some.inj hb
      exact he
  | connect | close | other => cases hb

theorem silent_seen (hgoing : ∀ j < k, ∀ e ∈ net.poll j, ¬ Ends e)
    (hsilent : Silent (net.poll k ++ (net.poll (k + 1) ++ net.closing (k + 1)))) :
    Silent (seen net (k + 1)) := by
  intro e he
  rw [seen, List.range_succ, List.flatMap_append, List.flatMap_singleton, List.append_assoc,
    List.mem_append] at he
  rcases he with he | he
  · obtain ⟨j, hj, hej⟩ := List.mem_flatMap.mp he
    have hne := hgoing j (List.mem_range.mp hj) e hej
    exact ⟨Bool.eq_false_iff.mpr fun hf => hne (.inl hf), not_not.mp fun hb => hne (.inr (.inl hb))⟩
  · exact hsilent e he

/-- **A call that finds the flag clear** is right unless the connection is closed
early. -/
theorem right_iff_of_clear (hflag : c.m_exitFlag = 0)
    (h : Get timeOut net fuel c = some (r, n, c')) :
    Right ⟨⟨timeOut, net, fuel⟩, n, r⟩ ↔ ¬ ClosedEarly timeOut net := by
  obtain ⟨hpolls, hrsp, herr⟩ := (returns_of_Get h).1
  constructor
  · rintro ⟨hreply, -⟩ ⟨k, htime, hgoing, hclose, hsilent⟩
    -- the loop ends behind the poll that brings the close
    have hn : n = k + 1 := by
      rcases Nat.lt_trichotomy n (k + 1) with hlt | he | hgt
      · rcases herr with ⟨hset, -⟩ | ⟨-, hup, -⟩
        · exact absurd ⟨hflag, fun i hi => hgoing i (by omega)⟩ hset
        · exact absurd hup (htime n (by omega))
      · exact he
      · exact absurd (.inr (.inr rfl)) ((hpolls (k + 1) hgt).1.2 k (Nat.lt_succ_self k) _ hclose)
    subst hn
    have hsilent' := silent_seen hgoing hsilent
    rcases herr with ⟨-, hok⟩ | ⟨hgoing', -⟩
    · rw [List.any_eq_false.mpr fun e he => Bool.eq_false_iff.mp (hsilent' e he).1,
        if_neg Bool.false_ne_true] at hok
      exact absurd (hsilent' _ (hreply hok)).2 nofun
    · exact absurd (.inr (.inr rfl)) (hgoing'.2 k (Nat.lt_succ_self k) _ hclose)
  · intro hclosed
    refine ⟨fun hok => ?_, fuel, n, c', ?_⟩
    · show .reply r.rsp ∈ seen net n
      rw [hrsp]
      by_contra hno
      have hnil : (seen net n).filterMap body? = [] := not_not.mp fun hne =>
        hno (mem_of_getLastD_ne hne)
      rcases herr with ⟨hset, he⟩ | ⟨-, -, he⟩
      · have hnone : (seen net n).any failed = false := by
          by_contra hany
          rw [if_pos (Bool.eq_true_of_not_eq_false hany), hok] at he
          exact absurd he (by decide)
        have hsilent : Silent (seen net n) := fun e hmem =>
          ⟨Bool.eq_false_iff.mpr (List.any_eq_false.mp hnone e hmem),
            List.filterMap_eq_nil_iff.mp hnil e hmem⟩
        -- the loop has ended, and for no other reason than the close
        have hset' : ¬ ∀ i < n, ∀ e ∈ net.poll i, ¬ Ends e := fun hall => hset ⟨hflag, hall⟩
        push Not at hset'
        obtain ⟨i, hi, e, hei, hends⟩ := hset'
        have hn : n = i + 1 := by
          by_contra hne
          exact (hpolls (i + 1) (by omega)).1.2 i (Nat.lt_succ_self i) e hei hends
        subst hn
        have hpoll : ∀ e ∈ net.poll i, e ∈ seen net (i + 1) := fun e he =>
          List.mem_append_left _ (List.mem_flatMap.mpr ⟨i, List.mem_range.mpr hi, he⟩)
        refine hclosed ⟨i, fun j hj => (hpolls j (by omega)).2, (hpolls i hi).1.2, ?_, ?_⟩
        · rcases hends with hf | hb | rfl
          · exact absurd ((hsilent e (hpoll e hei)).1.symm.trans hf) Bool.false_ne_true
          · exact absurd (hsilent e (hpoll e hei)).2 hb
          · exact hei
        · intro e he
          rcases List.mem_append.mp he with he | he
          · exact hsilent e (hpoll e he)
          · exact hsilent e (List.mem_append_right _ he)
      · rw [hok] at he
        split at he <;> exact absurd he (by decide)
    · rw [← h]
      unfold Get
      rw [hflag]
      rfl

/-- Silent events add nothing to a result. -/
theorem silent_append (es : List NetEvent) (h : Silent es') :
    (es ++ es').any failed = es.any failed ∧
      (es ++ es').filterMap body? = es.filterMap body? := by
  have hany : es'.any failed = false := List.any_eq_false.mpr fun e he =>
    Bool.eq_false_iff.mp (h e he).1
  have hnil : es'.filterMap body? = [] := List.filterMap_eq_nil_iff.mpr fun e he => (h e he).2
  rw [List.any_append, hany, Bool.or_false, List.filterMap_append, hnil, List.append_nil]
  exact ⟨rfl, rfl⟩

/-- What `Get` returns is computed from where its loop ends. -/
theorem Get_of_loop (timeOut : Int) (net : Network) (fuel : Nat) (c : HttpClient)
    (h : (loop timeOut net fuel 0 { c with m_rsp := ⟨HttpError.OK, []⟩ }).map Prod.fst = some k) :
    ∃ r c', Get timeOut net fuel c = some (r, k, c') := by
  obtain ⟨⟨k', c₁⟩, hloop, rfl⟩ := Option.map_eq_some_iff.mp h
  unfold Get
  rw [hloop]
  exact ⟨_, _, rfl⟩

/-- A call that finds the flag clear and whose first poll ends its loop. -/
theorem Get_new_of_ends (timeOut : Int) (h : ∃ e ∈ net.poll 0, Ends e) :
    ∃ r k c', Get timeOut net 2 new = some (r, k, c') ∧
      k = if TimedOut timeOut net 0 then 0 else 1 := by
  obtain ⟨e, he, hends⟩ := h
  have hset : ((net.poll 0).foldl ev_handler ⟨⟨HttpError.OK, []⟩, 0⟩).m_exitFlag ≠ 0 :=
    fun hzero => ((exitFlag_foldl _ _).mp hzero).2 e he hends
  by_cases htime : TimedOut timeOut net 0
  · obtain ⟨r, c', hget⟩ := Get_of_loop timeOut net 2 new (k := 0) (by simp [loop, new, htime])
    exact ⟨r, 0, c', hget, (if_pos htime).symm⟩
  · obtain ⟨r, c', hget⟩ := Get_of_loop timeOut net 2 new (k := 1)
      (by simp [loop, new, htime, hset])
    exact ⟨r, 1, c', hget, (if_neg htime).symm⟩

/-- **A call that finds the flag set** makes no pass, and is right where the first
poll brings the result. -/
theorem right_of_decided (hflag : c.m_exitFlag ≠ 0)
    (h : Get timeOut net fuel c = some (r, n, c')) (hd : Decided timeOut net) :
    Right ⟨⟨timeOut, net, fuel⟩, n, r⟩ := by
  obtain ⟨hsome, hsilent, htime⟩ := hd
  obtain ⟨hpolls, hrsp, herr⟩ := (returns_of_Get h).1
  have hn : n = 0 := by
    by_contra hne
    exact hflag (hpolls 0 (Nat.pos_of_ne_zero hne)).1.1
  subst hn
  have herr : r.error = if (seen net 0).any failed then HttpError.ConnectError else HttpError.OK :=
    herr.elim And.right fun hclear => absurd hclear.1.1 hflag
  obtain ⟨hrest₀, hrest₁⟩ := List.forall_mem_append.mp hsilent
  obtain ⟨hany₀, hbody₀⟩ := silent_append (net.poll 0) hrest₀
  obtain ⟨hany₁, hbody₁⟩ := silent_append (net.poll 0) hrest₁
  have hseen₀ : seen net 0 = net.poll 0 ++ net.closing 0 := rfl
  have hseen₁ : seen net 1 = net.poll 0 ++ (net.poll 1 ++ net.closing 1) := by
    rw [seen, List.range_one, List.flatMap_singleton]
  rw [← hseen₀] at hany₀ hbody₀
  rw [← hseen₁] at hany₁ hbody₁
  -- the first poll brings a reply or reports that there is no connection
  have hsome' : (net.poll 0).any failed = true ∨ (net.poll 0).filterMap body? ≠ [] := by
    by_contra hno
    rw [not_or, not_not, Bool.not_eq_true] at hno
    exact hsome fun e he => ⟨Bool.eq_false_iff.mpr (List.any_eq_false.mp hno.1 e he),
      List.filterMap_eq_nil_iff.mp hno.2 e he⟩
  have hends : ∃ e ∈ net.poll 0, Ends e := by
    rcases hsome' with hany | hne
    · obtain ⟨e, he, hf⟩ := List.any_eq_true.mp hany
      exact ⟨e, he, .inl hf⟩
    · rw [ne_eq, List.filterMap_eq_nil_iff] at hne
      push Not at hne
      obtain ⟨e, he, hb⟩ := hne
      exact ⟨e, he, .inr (.inl hb)⟩
  refine ⟨fun hok => ?_, 2, ?_⟩
  · show .reply r.rsp ∈ seen net 0
    rw [hrsp]
    refine mem_of_getLastD_ne ?_
    rw [hbody₀]
    refine hsome'.resolve_left fun hany => ?_
    rw [hany₀, if_pos hany] at herr
    exact absurd (herr.symm.trans hok) (by decide)
  · show ∃ k c', Get timeOut net 2 new = some (r, k, c')
    obtain ⟨r', k, c₁, hget, hk⟩ := Get_new_of_ends timeOut hends
    obtain ⟨-, hrsp', herr'⟩ := (returns_of_Get hget).1
    by_cases ht : TimedOut timeOut net 0
    · rw [if_pos ht] at hk
      subst hk
      have hany := htime ht
      have he : r'.error = HttpError.ConnectError := by
        rcases herr' with ⟨-, he⟩ | ⟨-, -, he⟩ <;> rwa [hany₀, if_pos hany] at he
      rw [hany₀, if_pos hany] at herr
      have hsame : r' = r := HttpRsp.ext (he.trans herr.symm) (hrsp'.trans hrsp.symm)
      exact ⟨0, c₁, hsame ▸ hget⟩
    · rw [if_neg ht] at hk
      subst hk
      have he : r'.error = r.error := by
        obtain ⟨e, hmem, hend⟩ := hends
        rcases herr' with ⟨-, he⟩ | ⟨hgoing, -⟩
        · rw [he, herr, hany₀, hany₁]
        · exact absurd hend (hgoing.2 0 Nat.one_pos e hmem)
      have hsame : r' = r := HttpRsp.ext he (by rw [hrsp', hrsp, hbody₀, hbody₁])
      exact ⟨1, c₁, hsame ▸ hget⟩

/-- The call finds the flag clear and the connection is not closed early, or the
first poll brings the result. -/
def Clean (c : HttpClient) (call : Call) : Prop :=
  (c.m_exitFlag = 0 → ¬ ClosedEarly call.timeOut call.net) ∧
    (c.m_exitFlag ≠ 0 → Decided call.timeOut call.net)

/-- **Results do not depend on what was before**, in every run of calls that are
clean. -/
theorem right_of_clean {tr : List Got} (h : machine.Run Clean tr c) : ∀ got ∈ tr, Right got := by
  refine h.invariant (fun tr _ => ∀ got ∈ tr, Right got) nofun
    fun {tr c call c' es} ih hok hs => ?_
  obtain ⟨⟨r, n, c₁⟩, hget, he⟩ := Option.map_eq_some_iff.mp hs
  obtain ⟨rfl, rfl⟩ := Prod.mk.inj he
  intro got hgot
  rcases List.mem_append.mp hgot with hold | hnew
  · exact ih got hold
  · obtain rfl := List.mem_singleton.mp hnew
    by_cases hflag : c.m_exitFlag = 0
    · exact (right_iff_of_clear hflag hget).mpr (hok.1 hflag)
    · exact right_of_decided hflag hget (hok.2 hflag)

/-- The connection is made in the first poll and the reply comes in the second. -/
def twoPolls : Network where
  begin := 0
  now := fun _ => 0
  poll := fun
    | 0 => [.connect 0]
    | 1 => [.reply [0x61]]
    | _ => []
  closing := fun _ => [.close]

/-- All of it in the first poll. -/
def onePoll : Network where
  begin := 0
  now := fun _ => 0
  poll := fun
    | 0 => [.connect 0, .reply [0x62]]
    | _ => []
  closing := fun _ => [.close]

theorem right_of_clean_two :
    ∃ tr c, machine.Run Clean tr c ∧
      tr.map Got.result = [⟨HttpError.OK, [0x61]⟩, ⟨HttpError.OK, [0x62]⟩] ∧
      ∀ got ∈ tr, Right got := by
  have hfirst : Clean new ⟨3000, twoPolls, 3⟩ := by
    refine ⟨fun _ hclosed => ?_, fun hflag => absurd rfl hflag⟩
    obtain ⟨k, -, -, hclose, -⟩ := hclosed
    rcases k with - | - | k <;> simp [twoPolls] at hclose
  have hsecond : ∀ c : HttpClient, c.m_exitFlag = 1 → Clean c ⟨3000, onePoll, 1⟩ := by
    intro c hflag
    refine ⟨fun hzero => absurd (hflag.symm.trans hzero) (by decide), fun _ => ?_⟩
    exact ⟨by decide, by decide, by decide⟩
  have hrun := (Machine.Run.start.step (M := machine) hfirst rfl).step (hsecond _ rfl) rfl
  exact ⟨_, _, hrun, rfl, right_of_clean hrun⟩

/-- The same call twice: the second returns at once, with `OK` and nothing
else. -/
theorem not_right : ¬ ∀ tr c, machine.Run AnyStep tr c → ∀ got ∈ tr, Right got := by
  intro h
  have hrun : machine.Run AnyStep _ _ :=
    (Machine.Run.start.step (a := ⟨3000, twoPolls, 3⟩) trivial rfl).step
      (a := ⟨3000, twoPolls, 3⟩) trivial rfl
  have hright := h _ _ hrun ⟨⟨3000, twoPolls, 3⟩, 0, ⟨HttpError.OK, []⟩⟩ (List.mem_append_right _
    (List.mem_singleton_self _))
  have hreply := hright.reply rfl
  exact absurd hreply (by decide)

end HttpClient

end TestExamples
