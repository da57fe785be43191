/-
TestExamples/MyClientCorrelation.lean

A synchronous request gets its own reply.

`EchoNet` puts `MyClient` in front of `MyServer`.  What the client hands to
the transport goes into `requests`, what `EchoCmd` answers into `replies`, and
nothing ever leaves either of them: a request may be served and a reply
delivered at any time, in any order and any number of times, or not at all.

The invariant reads the ids drawn off the history: `I i m` says that the id
`i` was drawn for the payload `m`.  Every message on the network carries an id
with the payload it was drawn for, so does every entry of `m_reqResultMap`,
and a permit of a registered semaphore stands for an entry of that map under
the id of its owner.  One step preserves it as long as the id fits the eight
characters `OnMsg` reads.
-/
import TestExamples.MyClientSteps

namespace TestExamples

open MyClient (Event)

/-- The client, the requests it has handed to the transport and the replies
the server has handed to it. -/
structure EchoNet where
  cli : MyClient
  requests : List (List Byte)
  replies : List (List Byte)

namespace EchoNet

inductive Act
  | client (a : MyClient.Act)
  | serve (frame : List Byte) (junk : Block)
  | reply (msg : List Byte)

/-- The messages among the events of a step. -/
def sent (es : List Event) : List (List Byte) :=
  es.filterMap fun
    | .sent frame => some frame
    | _ => none

/-- One step: the client moves by itself, the server takes up a request, or a
reply reaches the client. -/
def step (s : EchoNet) : Act → Option (EchoNet × List Event)
  | .client (.onMsg _) => none
  | .client a =>
      (s.cli.step a).map fun p =>
        ({ s with cli := p.1, requests := s.requests ++ sent p.2 }, p.2)
  | .serve frame junk =>
      if frame ∈ s.requests then
        match MyServer.DespatchMsg frame with
        | some (some m) =>
            (MyServer.packEcho junk m.id m.cmd m.value).map fun r =>
              ({ s with replies := s.replies ++ [r] }, [])
        | some none => some (s, [])
        | none => none
      else none
  | .reply msg =>
      if msg ∈ s.replies then
        (s.cli.OnMsg msg).map fun c => ({ s with cli := c }, [])
      else none

def machine : Machine EchoNet Act Event := ⟨⟨.init, [], []⟩, step⟩

end EchoNet

/-! ### The invariant -/

/-- The id a call holds and the payload it holds it for. -/
def SendPc.own? : SendPc → Option (Nat × List Byte)
  | .issued _ m i | .registered _ m i | .asyncIssued _ m i => some (i, m)
  | .waiting m i | .acquired m i | .leaving m i _ => some (i, m)
  | .idle => none

/-- The id of a `SyncSend` that has not got a permit yet. -/
def SendPc.pending? : SendPc → Option Nat
  | .issued _ _ i | .registered _ _ i | .waiting _ i => some i
  | _ => none

/-- What `SyncSend` owes its caller. -/
def SyncSendRtn.Correct (r : SyncSendRtn) (msg : List Byte) : Prop :=
  r.errorCode = RJ_S_OK → r.value = msg ∧ cstr r.cmd = SERVER_CMD_STX_COMMAND

structure Correlated (I : Nat → List Byte → Prop) (s : EchoNet) : Prop where
  range : ∀ {i m}, I i m → 1 ≤ i ∧ i ≤ s.cli.m_requestId
  unique : ∀ {i m m'}, I i m → I i m' → m = m'
  owns : ∀ {t i m}, (s.cli.pc t).own? = some (i, m) → I i m
  inj : ∀ {t t' i}, (s.cli.pc t).reqId? = some i → (s.cli.pc t').reqId? = some i → t = t'
  requests : ∀ {f}, f ∈ s.requests → ∃ i m, I i m ∧ Carries f i m
  replies : ∀ {g}, g ∈ s.replies → ∃ i m, I i m ∧ Carries g i m ∧
    cstr (cmdField g) = SERVER_CMD_STX_COMMAND
  results : ∀ {i : Nat} {v}, s.cli.m_reqResultMap i = some v →
    ∃ m, I i m ∧ cstr (v.take CMD_LENGTH) = SERVER_CMD_STX_COMMAND ∧ v.drop CMD_LENGTH = m
  registered : ∀ {i : Nat} {t}, s.cli.m_reqSemMap i = some t → (s.cli.pc t).reqId? = some i
  permits : ∀ {t i n}, (s.cli.pc t).pending? = some i → s.cli.sems t = some (n + 1) →
    s.cli.m_reqResultMap i ≠ none
  acquired : ∀ {t msg i}, s.cli.pc t = .acquired msg i → s.cli.m_reqResultMap i ≠ none
  leaving : ∀ {t msg i r}, s.cli.pc t = .leaving msg i r → r.Correct msg

theorem SendPc.reqId?_of_pending? {p : SendPc} {i : Nat} (h : p.pending? = some i) :
    p.reqId? = some i := by
  cases p <;> simp_all [SendPc.pending?, SendPc.reqId?]

theorem SendPc.own?_of_reqId? {p : SendPc} {i : Nat} (h : p.reqId? = some i) :
    ∃ m, p.own? = some (i, m) := by
  cases p <;> simp_all [SendPc.own?, SendPc.reqId?]

namespace Correlated

variable {I : Nat → List Byte → Prop} {s : EchoNet}

@[simp] theorem setPc_pc (c : MyClient) (t : Thread) (q : SendPc) :
    (c.setPc t q).pc = Function.update c.pc t q := rfl

/-! ### One lemma for each thing a step changes -/

/-- A thread moves on. -/
theorem move (h : Correlated I s) {t : Thread} {q : SendPc}
    (hreg : ∀ {i : Nat}, s.cli.m_reqSemMap i = some t → q.reqId? = some i)
    (hinj : ∀ {t' i}, t' ≠ t → q.reqId? = some i → (s.cli.pc t').reqId? ≠ some i)
    (hown : ∀ {i m}, q.own? = some (i, m) → I i m)
    (hpend : ∀ {i n}, q.pending? = some i → s.cli.sems t = some (n + 1) →
      s.cli.m_reqResultMap i ≠ none)
    (hacq : ∀ {msg i}, q = .acquired msg i → s.cli.m_reqResultMap i ≠ none)
    (hleave : ∀ {msg i r}, q = .leaving msg i r → r.Correct msg) :
    Correlated I { s with cli := s.cli.setPc t q } := by
  refine
    { h with
      owns := fun {t'} => ?_
      inj := fun {t₁ t₂ i} h₁ h₂ => ?_
      registered := fun {i t'} hr => ?_
      permits := fun {t'} => ?_
      acquired := fun {t'} => ?_
      leaving := fun {t'} => ?_ }
  · exact forall_update (P := fun _ (p : SendPc) => ∀ {i m}, p.own? = some (i, m) → I i m)
      hown (fun _ _ => h.owns) t'
  · rw [setPc_pc] at h₁ h₂
    rcases eq_or_ne t₁ t with h₁t | hne₁
    · rw [h₁t, Function.update_self] at h₁
      rcases eq_or_ne t₂ t with h₂t | hne₂
      · rw [h₁t, h₂t]
      · rw [Function.update_of_ne hne₂] at h₂
        exact absurd h₂ (hinj hne₂ h₁)
    · rw [Function.update_of_ne hne₁] at h₁
      rcases eq_or_ne t₂ t with h₂t | hne₂
      · rw [h₂t, Function.update_self] at h₂
        exact absurd h₁ (hinj hne₁ h₂)
      · rw [Function.update_of_ne hne₂] at h₂
        exact h.inj h₁ h₂
  · exact forall_update (P := fun t' (p : SendPc) => s.cli.m_reqSemMap i = some t' →
      p.reqId? = some i) hreg (fun _ _ => h.registered) t' hr
  · exact forall_update (P := fun t' (p : SendPc) => ∀ {i n}, p.pending? = some i →
      s.cli.sems t' = some (n + 1) → s.cli.m_reqResultMap i ≠ none)
      hpend (fun _ _ => h.permits) t'
  · exact forall_update (P := fun _ (p : SendPc) => ∀ {msg i}, p = .acquired msg i →
      s.cli.m_reqResultMap i ≠ none) hacq (fun _ _ => h.acquired) t'
  · exact forall_update
      (P := fun _ (p : SendPc) => ∀ {msg i r}, p = .leaving msg i r → r.Correct msg)
      hleave (fun _ _ => h.leaving) t'

/-- A thread moves on and keeps its id. -/
theorem advance (h : Correlated I s) {t : Thread} {q : SendPc}
    (hid : q.reqId? = (s.cli.pc t).reqId?)
    (hown : ∀ {i m}, q.own? = some (i, m) → I i m)
    (hpend : ∀ {i}, q.pending? = some i → (s.cli.pc t).pending? = some i)
    (hacq : ∀ {msg i}, q = .acquired msg i → s.cli.m_reqResultMap i ≠ none)
    (hleave : ∀ {msg i r}, q = .leaving msg i r → r.Correct msg) :
    Correlated I { s with cli := s.cli.setPc t q } :=
  h.move (fun hr => hid.trans (h.registered hr))
    (fun hne hq ht' => hne (h.inj ht' (hid.symm.trans hq))) hown
    (fun hq hs => h.permits (hpend hq) hs) hacq hleave

/-- The permits of one semaphore change. -/
theorem setSem (h : Correlated I s) {t : Thread} {v : Option Nat}
    (hv : ∀ {i n}, (s.cli.pc t).pending? = some i → v = some (n + 1) →
      s.cli.m_reqResultMap i ≠ none) :
    Correlated I { s with cli := { s.cli with sems := Function.update s.cli.sems t v } } := by
  refine { h with permits := fun {t' i n} hp hs => ?_ }
  rcases update_eq hs with ⟨rfl, hnew⟩ | ⟨-, hold⟩
  · exact hv hp hnew
  · exact h.permits hp hold

/-- A semaphore is registered under the id its owner holds. -/
theorem setReqSem (h : Correlated I s) {t : Thread} {i : Nat}
    (ht : (s.cli.pc t).reqId? = some i) :
    Correlated I { s with
      cli := { s.cli with m_reqSemMap := Function.update s.cli.m_reqSemMap i (some t) } } := by
  refine { h with registered := fun {j t'} hj => ?_ }
  rcases update_eq hj with ⟨hji, hnew⟩ | ⟨-, hold⟩
  · obtain rfl : j = i := by exact_mod_cast hji
    obtain rfl := Option.some.inj hnew
    exact ht
  · exact h.registered hold

/-- A registration goes. -/
theorem clearReqSem (h : Correlated I s) (i : Int) :
    Correlated I { s with
      cli := { s.cli with m_reqSemMap := Function.update s.cli.m_reqSemMap i none } } := by
  refine { h with registered := fun {j t'} hj => ?_ }
  rcases update_eq hj with ⟨-, hnew⟩ | ⟨-, hold⟩
  · exact absurd hnew (by simp)
  · exact h.registered hold

/-- A result is stored under the id it carries. -/
theorem setResult (h : Correlated I s) {i : Nat} {m v : List Byte} (hI : I i m)
    (hcmd : cstr (v.take CMD_LENGTH) = SERVER_CMD_STX_COMMAND) (hval : v.drop CMD_LENGTH = m) :
    Correlated I { s with
      cli := { s.cli with
        m_reqResultMap := Function.update s.cli.m_reqResultMap i (some v) } } := by
  have hne : ∀ {j : Nat}, s.cli.m_reqResultMap j ≠ none →
      Function.update s.cli.m_reqResultMap (i : Int) (some v) j ≠ none := by
    intro j hj hnone
    rcases update_eq hnone with ⟨-, hnew⟩ | ⟨-, hold⟩
    · exact absurd hnew (by simp)
    · exact hj hold
  refine
    { h with
      results := fun {j w} hj => ?_
      permits := fun hp hs => hne (h.permits hp hs)
      acquired := fun ha => hne (h.acquired ha) }
  rcases update_eq hj with ⟨hji, hnew⟩ | ⟨-, hold⟩
  · obtain rfl : j = i := by exact_mod_cast hji
    obtain rfl := Option.some.inj hnew
    exact ⟨m, hI, hcmd, hval⟩
  · exact h.results hold

/-- A result goes once its owner needs it no more. -/
theorem clearResult (h : Correlated I s) {t : Thread} {msg : List Byte} {i : Nat}
    {r : SyncSendRtn} (ht : s.cli.pc t = .leaving msg i r) :
    Correlated I { s with
      cli := { s.cli with m_reqResultMap := Function.update s.cli.m_reqResultMap i none } } := by
  have hti : (s.cli.pc t).reqId? = some i := by rw [ht]; rfl
  -- whoever still waits for a result holds another id
  have hother : ∀ {t' j}, (s.cli.pc t').reqId? = some j → (∀ m r, s.cli.pc t' ≠ .leaving m i r) →
      (j : Int) ≠ i := by
    intro t' j hj hl hji
    obtain rfl : j = i := by exact_mod_cast hji
    exact hl msg r (h.inj hj hti ▸ ht)
  refine
    { h with
      results := fun {j w} hj => ?_
      permits := fun {t' j n} hp hs => ?_
      acquired := fun {t' m j} ha => ?_ }
  · rcases update_eq hj with ⟨-, hnew⟩ | ⟨-, hold⟩
    · exact absurd hnew (by simp)
    · exact h.results hold
  · have hji := hother (SendPc.reqId?_of_pending? hp) fun m r hl => by
      rw [hl] at hp
      exact absurd hp (by simp [SendPc.pending?])
    show Function.update s.cli.m_reqResultMap (i : Int) none (j : Int) ≠ none
    rw [Function.update_of_ne hji]
    exact h.permits hp hs
  · have hpc : s.cli.pc t' = .acquired m j := ha
    have hji := hother (by rw [hpc]; rfl) fun m r hl => by
      rw [hpc] at hl
      exact absurd hl (by simp)
    show Function.update s.cli.m_reqResultMap (i : Int) none (j : Int) ≠ none
    rw [Function.update_of_ne hji]
    exact h.acquired hpc

/-- Requests join the network. -/
theorem addRequests (h : Correlated I s) (fs : List (List Byte))
    (hfs : ∀ f ∈ fs, ∃ i m, I i m ∧ Carries f i m) :
    Correlated I { s with requests := s.requests ++ fs } :=
  { h with requests := fun hf => (List.mem_append.mp hf).elim h.requests (hfs _) }

/-- A reply joins the network. -/
theorem addReply (h : Correlated I s) {g : List Byte} {i : Nat} {m : List Byte} (hI : I i m)
    (hg : Carries g i m) (hcmd : cstr (cmdField g) = SERVER_CMD_STX_COMMAND) :
    Correlated I { s with replies := s.replies ++ [g] } := by
  refine { h with replies := fun {g'} hg' => ?_ }
  rcases List.mem_append.mp hg' with hold | hnew
  · exact h.replies hold
  · rw [List.mem_singleton.mp hnew]
    exact ⟨i, m, hI, hg, hcmd⟩

/-- The next id is drawn for `msg`. -/
theorem issue (h : Correlated I s) (msg : List Byte) :
    Correlated (fun i m => I i m ∨ (i = s.cli.m_requestId + 1 ∧ m = msg))
      { s with cli := { s.cli with m_requestId := s.cli.m_requestId + 1 } } where
  range := by
    rintro i m (hI | ⟨rfl, rfl⟩)
    · obtain ⟨hle, hge⟩ := h.range hI
      exact ⟨hle, Nat.le_succ_of_le hge⟩
    · exact ⟨Nat.succ_le_succ (Nat.zero_le _), Nat.le_refl _⟩
  unique := by
    -- an id above `m_requestId` was not drawn before
    have hnew : ∀ {m}, ¬ I (s.cli.m_requestId + 1) m := fun hI =>
      absurd (h.range hI).2 (Nat.not_succ_le_self _)
    rintro i m m' (hI | ⟨rfl, rfl⟩) (hI' | ⟨hi, hm⟩)
    · exact h.unique hI hI'
    · exact absurd (hi ▸ hI) hnew
    · exact absurd hI' hnew
    · exact hm.symm
  owns := fun ho => Or.inl (h.owns ho)
  inj := h.inj
  requests := fun hf =>
    let ⟨i, m, hI, hc⟩ := h.requests hf
    ⟨i, m, Or.inl hI, hc⟩
  replies := fun hg =>
    let ⟨i, m, hI, hc⟩ := h.replies hg
    ⟨i, m, Or.inl hI, hc⟩
  results := fun hr =>
    let ⟨m, hI, hc⟩ := h.results hr
    ⟨m, Or.inl hI, hc⟩
  registered := h.registered
  permits := h.permits
  acquired := h.acquired
  leaving := h.leaving

/-- No call holds an id above the counter. -/
theorem reqId?_le (h : Correlated I s) {t : Thread} {i : Nat}
    (ht : (s.cli.pc t).reqId? = some i) : i ≤ s.cli.m_requestId := by
  obtain ⟨m, hm⟩ := SendPc.own?_of_reqId? ht
  exact (h.range (h.owns hm)).2

/-! ### One lemma for each step -/

section Steps

variable {t : Thread} {cmd msg : List Byte} {i : Nat}

theorem syncSend (h : Correlated I s) (cmd msg : List Byte) (hpc : s.cli.pc t = .idle) :
    Correlated (fun i m => I i m ∨ (i = s.cli.m_requestId + 1 ∧ m = msg))
      { s with
        cli := { s.cli with
          m_requestId := s.cli.m_requestId + 1
          sems := Function.update s.cli.sems t (some 0) }.setPc t
            (.issued cmd msg (s.cli.m_requestId + 1)) } := by
  have hsem := (h.issue msg).setSem (t := t) (v := some 0) fun _ hv => absurd hv (by simp)
  refine hsem.move (fun hr => ?_) (fun _ hq ht' => ?_) (fun hq => ?_) (fun _ hs => ?_) nofun nofun
  · have := h.registered hr
    rw [hpc] at this
    exact absurd this (by simp [SendPc.reqId?])
  · obtain rfl := Option.some.inj hq
    exact absurd (h.reqId?_le ht') (Nat.not_succ_le_self _)
  · obtain ⟨rfl, rfl⟩ := Prod.mk.inj (Option.some.inj hq)
    exact Or.inr ⟨rfl, rfl⟩
  · have hz : Function.update s.cli.sems t (some 0) t = some _ := hs
    rw [Function.update_self] at hz
    exact absurd hz (by simp)

theorem asyncSend (h : Correlated I s) (cmd msg : List Byte) (hpc : s.cli.pc t = .idle) :
    Correlated (fun i m => I i m ∨ (i = s.cli.m_requestId + 1 ∧ m = msg))
      { s with
        cli := { s.cli with m_requestId := s.cli.m_requestId + 1 }.setPc t
          (.asyncIssued cmd msg (s.cli.m_requestId + 1)) } := by
  refine (h.issue msg).advance ?_ (fun hq => ?_) nofun nofun nofun
  · show none = (s.cli.pc t).reqId?
    rw [hpc]
    rfl
  · obtain ⟨rfl, rfl⟩ := Prod.mk.inj (Option.some.inj hq)
    exact Or.inr ⟨rfl, rfl⟩

/-- `insert` finds an entry there already. -/
theorem registerAgain (h : Correlated I s) (hpc : s.cli.pc t = .issued cmd msg i) :
    Correlated I { s with cli := s.cli.setPc t (.registered cmd msg i) } := by
  refine h.advance ?_ (fun hq => ?_) (fun hq => ?_) nofun nofun
  · rw [hpc]
    rfl
  · exact h.owns (t := t) (by rw [hpc]; exact hq)
  · rw [hpc]
    exact hq

theorem register (h : Correlated I s) (hpc : s.cli.pc t = .issued cmd msg i) :
    Correlated I { s with
      cli := { s.cli with
        m_reqSemMap := Function.update s.cli.m_reqSemMap i (some t) }.setPc t
          (.registered cmd msg i) } :=
  (h.setReqSem (t := t) (by rw [hpc]; rfl)).registerAgain hpc

/-- A call leaves without a result: `Send` or `Wait` has failed. -/
theorem fail (h : Correlated I s) (hid : (s.cli.pc t).reqId? = some i)
    (hown : (s.cli.pc t).own? = some (i, msg)) {err : Int} (herr : err ≠ RJ_S_OK) :
    Correlated I { s with cli := s.cli.setPc t (.leaving msg i ⟨err, [], []⟩) } := by
  refine h.advance hid.symm (fun hq => h.owns (hown.trans hq)) nofun nofun ?_
  intro msg' i' r hq hok
  obtain ⟨-, -, rfl⟩ : msg = msg' ∧ i = i' ∧ _ = r := by simpa using hq
  exact absurd hok herr

theorem sendOk (h : Correlated I s) (hpc : s.cli.pc t = .registered cmd msg i) :
    Correlated I { s with cli := s.cli.setPc t (.waiting msg i) } := by
  refine h.advance ?_ (fun hq => ?_) (fun hq => ?_) nofun nofun
  · rw [hpc]
    rfl
  · exact h.owns (t := t) (by rw [hpc]; exact hq)
  · rw [hpc]
    exact hq

theorem asyncReturn (h : Correlated I s) (hpc : s.cli.pc t = .asyncIssued cmd msg i) :
    Correlated I { s with cli := s.cli.setPc t .idle } :=
  h.advance (by rw [hpc]; rfl) nofun nofun nofun nofun

/-- A wait that ends with a permit ends with a result in the map. -/
theorem waitOk (h : Correlated I s) (hpc : s.cli.pc t = .waiting msg i) {n : Nat}
    (hsem : s.cli.sems t = some (n + 1)) :
    Correlated I { s with
      cli := { s.cli with
        sems := Function.update s.cli.sems t (some n) }.setPc t (.acquired msg i) } := by
  have hres : s.cli.m_reqResultMap i ≠ none := h.permits (by rw [hpc]; rfl) hsem
  have hsems : Correlated I { s with
      cli := { s.cli with sems := Function.update s.cli.sems t (some n) } } :=
    h.setSem fun hp _ => h.permits hp hsem
  refine hsems.advance ?_ (fun hq => ?_) nofun (fun hq => ?_) nofun
  · show some i = (s.cli.pc t).reqId?
    rw [hpc]
    rfl
  · exact h.owns (t := t) (by rw [hpc]; exact hq)
  · obtain ⟨-, rfl⟩ : msg = _ ∧ i = _ := by simpa using hq
    exact hres

/-- **The result taken after a successful wait is the caller's own.** -/
theorem takeOk (h : Correlated I s) (hpc : s.cli.pc t = .acquired msg i) :
    Correlated I { s with
      cli := (s.cli.takeResult i).2.setPc t (.leaving msg i (s.cli.takeResult i).1) } := by
  rcases hres : s.cli.m_reqResultMap i with - | v
  · exact absurd hres (h.acquired hpc)
  · have hown : (s.cli.pc t).own? = some (i, msg) := by rw [hpc]; rfl
    obtain ⟨m, hI, hcmd, hval⟩ := h.results hres
    obtain rfl := h.unique hI (h.owns hown)
    have hleave : Correlated I { s with
        cli := s.cli.setPc t
          (.leaving m i ⟨RJ_S_OK, v.take CMD_LENGTH, v.drop CMD_LENGTH⟩) } := by
      refine h.advance (by rw [hpc]; rfl) (fun hq => h.owns (hown.trans hq)) nofun nofun ?_
      intro msg' i' r hq _
      obtain ⟨rfl, -, rfl⟩ : m = msg' ∧ i = i' ∧ _ = r := by simpa using hq
      exact ⟨hval, hcmd⟩
    have hclear := hleave.clearResult (t := t) (i := i) (Function.update_self ..)
    have htake : s.cli.takeResult i = (⟨RJ_S_OK, v.take CMD_LENGTH, v.drop CMD_LENGTH⟩,
        { s.cli with m_reqResultMap := Function.update s.cli.m_reqResultMap i none }) := by
      rw [MyClient.takeResult, hres]
    rw [htake]
    exact hclear

theorem leave (h : Correlated I s) {r : SyncSendRtn} (hpc : s.cli.pc t = .leaving msg i r) :
    Correlated I { s with cli := (s.cli.unregister t i).setPc t .idle } := by
  have hclear := ((h.clearResult hpc).clearReqSem i).setSem (t := t) (v := none) nofun
  refine hclear.move (fun {j} hr => ?_) nofun nofun nofun nofun nofun
  -- the only registration of the thread was under its own id
  rcases update_eq hr with ⟨-, hnew⟩ | ⟨hne, hold⟩
  · exact absurd hnew (by simp)
  · have := h.registered hold
    rw [hpc] at this
    obtain rfl := Option.some.inj this
    exact absurd rfl hne

/-- **A reply is filed under the id it carries.** -/
theorem onMsg (h : Correlated I s) {g : List Byte} (hg : g ∈ s.replies) {c : MyClient}
    (hc : s.cli.OnMsg g = some c) : Correlated I { s with cli := c } := by
  obtain ⟨i, m, hI, hcar, hcmd⟩ := h.replies hg
  cases MyClient.files_of_OnMsg hc with
  | short => exact h
  | @stored t n hreg =>
      rw [hcar.replyId] at hreg ⊢
      have hres := h.setResult (v := g.drop REQ_ID_LENGH) hI hcmd
        (by rw [List.drop_drop]; exact hcar.value_eq)
      refine hres.setSem fun {j n} hp _ => ?_
      -- the owner of the semaphore holds the id of the reply
      have hj := (SendPc.reqId?_of_pending? hp).symm.trans (h.registered hreg)
      obtain rfl := Option.some.inj hj
      intro hnone
      rcases update_eq hnone with ⟨-, hnew⟩ | ⟨hne, -⟩
      · exact absurd hnew (by simp)
      · exact hne rfl
  | queued => exact { h with }

/-- **The server answers a request under the id it came with.** -/
theorem serve (h : Correlated I s) (hlt : s.cli.m_requestId < 10 ^ 8) {f r : List Byte}
    (hf : f ∈ s.requests) {x : MsgFields} (hx : MyServer.DespatchMsg f = some (some x))
    {junk : Block} (hr : MyServer.packEcho junk x.id x.cmd x.value = some r) :
    Correlated I { s with replies := s.replies ++ [r] } := by
  obtain ⟨i, m, hI, hcar⟩ := h.requests hf
  rw [MyServer.DespatchMsg, hcar.parseMsg, Option.map_some] at hx
  split at hx
  · next hcmd =>
    obtain rfl := Option.some.inj (Option.some.inj hx)
    obtain ⟨hrc, hrcmd⟩ := packMsg_spec (Nat.lt_of_le_of_lt (h.range hI).2 hlt) hr
    have hlen : (cstr (cmdField f)).length < CMD_LENGTH := by
      rw [hcmd]
      decide
    exact h.addReply hI hrc ((hrcmd hlen).trans hcmd)
  · exact absurd hx (by simp)

end Steps

/-- Calls drawn from a list of events keep what they had. -/
theorem of_no_issue (h : Correlated I s) {es : List Event} (hes : ∀ i m, .issued i m ∉ es) :
    Correlated (fun i m => I i m ∨ .issued i m ∈ es) s := by
  have hI : (fun i m => I i m ∨ Event.issued i m ∈ es) = I := by
    funext i m
    exact propext (or_iff_left (hes i m))
  rwa [hI]

/-- What a step of the client makes of the network. -/
def after (s : EchoNet) (c : MyClient) (es : List Event) : EchoNet :=
  { s with cli := c, requests := s.requests ++ EchoNet.sent es }

/-- The message of a call that is about to send carries the id of the call. -/
theorem carries (h : Correlated I s) (hlt : s.cli.m_requestId < 10 ^ 8) {t : Thread} {i : Nat}
    {cmd msg frame : List Byte} {junk : Block} (hown : (s.cli.pc t).own? = some (i, msg))
    (hf : MyClient.packSend junk cmd msg i = some frame) :
    ∀ f ∈ [frame], ∃ i m, I i m ∧ Carries f i m := by
  intro f hmem
  obtain rfl := List.mem_singleton.mp hmem
  have hI := h.owns hown
  exact ⟨i, msg, hI, (packMsg_spec (Nat.lt_of_le_of_lt (h.range hI).2 hlt) hf).1⟩

/-- One step of the client: the calls, and what they return. -/
theorem client (h : Correlated I s) (hlt : s.cli.m_requestId < 10 ^ 8) {a : MyClient.Act}
    (ha : ∀ m, a ≠ .onMsg m) {c : MyClient} {es : List Event} (hs : s.cli.step a = some (c, es)) :
    Correlated (fun i m => I i m ∨ .issued i m ∈ es) (after s c es) ∧
      ∀ i m r, .syncReturned i m r ∈ es → r.Correct m := by
  -- a step without events leaves the network as it was
  have hquiet : ∀ {c}, Correlated I { s with cli := c } →
      Correlated (fun i m => I i m ∨ Event.issued i m ∈ []) (after s c []) ∧
        ∀ i m r, Event.syncReturned i m r ∈ [] → r.Correct m := by
    intro c hc
    refine ⟨?_, nofun⟩
    rw [after, show s.requests ++ EchoNet.sent [] = s.requests from List.append_nil _]
    exact hc.of_no_issue nofun
  cases MyClient.moves_of_step hs with
  | onMsg => exact absurd rfl (ha _)
  | @syncSend t cmd msg hpc =>
      refine ⟨?_, by simp⟩
      have hnew := h.syncSend cmd msg hpc
      simpa [after, EchoNet.sent] using hnew
  | register hpc => exact hquiet (h.register hpc)
  | registerAgain hpc => exact hquiet (h.registerAgain hpc)
  | sent hpc hframe =>
      have hcar := h.carries hlt (by rw [hpc]; rfl) hframe
      exact ⟨((h.sendOk hpc).addRequests _ hcar).of_no_issue (by simp), by simp⟩
  | @sendFailed t _ _ _ _ _ _ queued hpc hframe hret =>
      have hcar := h.carries hlt (t := t) (by rw [hpc]; rfl) hframe
      have hfail := h.fail (t := t) (by rw [hpc]; rfl) (by rw [hpc]; rfl) hret
      cases queued with
      | false => exact hquiet hfail
      | true => exact ⟨(hfail.addRequests _ hcar).of_no_issue (by simp), by simp⟩
  | @asyncSent t _ _ _ _ _ _ _ hpc hframe =>
      have hcar := h.carries hlt (t := t) (by rw [hpc]; rfl) hframe
      split
      · refine ⟨Correlated.of_no_issue (I := I) ?_ (by simp), by simp⟩
        have hidle := (h.asyncReturn hpc).addRequests [] (by simp)
        simpa [after, EchoNet.sent] using hidle
      · refine ⟨Correlated.of_no_issue (I := I) ?_ (by simp), by simp⟩
        have hidle := (h.asyncReturn hpc).addRequests _ hcar
        simpa [after, EchoNet.sent] using hidle
  | granted hpc hsem => exact hquiet (h.waitOk hpc hsem)
  | waitFailed hpc herr => exact hquiet (h.fail (by rw [hpc]; rfl) (by rw [hpc]; rfl) herr)
  | take hpc => exact hquiet (h.takeOk hpc)
  | @leave t msg i r hpc =>
      refine ⟨Correlated.of_no_issue (I := I) ?_ (by simp), ?_⟩
      · have hidle := h.leave hpc
        simpa [after, EchoNet.sent] using hidle
      · intro i' m' r' hmem
        obtain ⟨rfl, rfl, rfl⟩ : i' = i ∧ m' = msg ∧ r' = r := by simpa using hmem
        exact h.leaving hpc
  | @asyncSend t cmd msg hpc =>
      refine ⟨?_, by simp⟩
      have hnew := h.asyncSend cmd msg hpc
      simpa [after, EchoNet.sent] using hnew

end Correlated

/-! ### Runs -/

namespace EchoNet

/-- The ids drawn in a history. -/
def issuedIn (tr : List Event) : Nat → List Byte → Prop := fun i m => .issued i m ∈ tr

theorem correlated_init : Correlated (issuedIn []) machine.init where
  range := nofun
  unique := nofun
  owns := nofun
  inj := nofun
  requests := nofun
  replies := nofun
  results := nofun
  registered := nofun
  permits := nofun
  acquired := nofun
  leaving := nofun

/-- The counter of the network never goes back. -/
theorem requestId_le {s s' : EchoNet} {a : Act} {es : List Event}
    (hs : step s a = some (s', es)) : s.cli.m_requestId ≤ s'.cli.m_requestId := by
  cases a with
  | client a =>
      cases a with
      | onMsg m => simp [step] at hs
      | _ =>
          obtain ⟨⟨c, es'⟩, hc, h⟩ := Option.map_eq_some_iff.mp hs
          obtain ⟨rfl, -⟩ := Prod.mk.inj h
          exact MyClient.requestId_le hc
  | serve frame junk =>
      simp only [step] at hs
      split at hs
      · split at hs
        · obtain ⟨r, -, h⟩ := Option.map_eq_some_iff.mp hs
          obtain ⟨rfl, -⟩ := Prod.mk.inj h
          exact Nat.le_refl _
        · obtain ⟨rfl, -⟩ := Prod.mk.inj (Option.some.inj hs)
          exact Nat.le_refl _
        · simp at hs
      · simp at hs
  | reply msg =>
      simp only [step] at hs
      split at hs
      · obtain ⟨c, hc, h⟩ := Option.map_eq_some_iff.mp hs
        obtain ⟨rfl, -⟩ := Prod.mk.inj h
        exact (MyClient.OnMsg_requestId hc).ge
      · simp at hs

/-- **One step of the network keeps the ids and their payloads together**, and
what `SyncSend` returns in it is what it owes. -/
theorem correlated_step {I : Nat → List Byte → Prop} {s s' : EchoNet} {a : Act} {es : List Event}
    (h : Correlated I s) (hlt : s.cli.m_requestId < 10 ^ 8) (hs : step s a = some (s', es)) :
    Correlated (fun i m => I i m ∨ .issued i m ∈ es) s' ∧
      ∀ i m r, .syncReturned i m r ∈ es → r.Correct m := by
  cases a with
  | client a =>
      cases a with
      | onMsg m => simp [step] at hs
      | _ =>
          obtain ⟨⟨c, es'⟩, hc, h'⟩ := Option.map_eq_some_iff.mp hs
          obtain ⟨rfl, rfl⟩ := Prod.mk.inj h'
          exact h.client hlt (by simp) hc
  | serve frame junk =>
      simp only [step] at hs
      split at hs
      · next hmem =>
        split at hs
        · next x hx =>
          obtain ⟨r, hr, h'⟩ := Option.map_eq_some_iff.mp hs
          obtain ⟨rfl, rfl⟩ := Prod.mk.inj h'
          exact ⟨(h.serve hlt hmem hx hr).of_no_issue nofun, nofun⟩
        · obtain ⟨rfl, rfl⟩ := Prod.mk.inj (Option.some.inj hs)
          exact ⟨h.of_no_issue nofun, nofun⟩
        · simp at hs
      · simp at hs
  | reply msg =>
      simp only [step] at hs
      split at hs
      · next hmem =>
        obtain ⟨c, hc, h'⟩ := Option.map_eq_some_iff.mp hs
        obtain ⟨rfl, rfl⟩ := Prod.mk.inj h'
        exact ⟨(h.onMsg hmem hc).of_no_issue nofun, nofun⟩
      · simp at hs

/-- Along a run, as long as the ids drawn have at most eight digits. -/
theorem correlated_run {tr : List Event} {s : EchoNet} (h : machine.Run AnyStep tr s)
    (hlt : s.cli.m_requestId < 10 ^ 8) :
    Correlated (issuedIn tr) s ∧ ∀ i m r, .syncReturned i m r ∈ tr → r.Correct m := by
  refine h.invariant (fun tr s => s.cli.m_requestId < 10 ^ 8 → Correlated (issuedIn tr) s ∧
      ∀ i m r, .syncReturned i m r ∈ tr → r.Correct m)
    (fun _ => ⟨correlated_init, nofun⟩) ?_ hlt
  intro tr s a s' es ih _ hs hlt'
  have hlt : s.cli.m_requestId < 10 ^ 8 := Nat.lt_of_le_of_lt (requestId_le hs) hlt'
  obtain ⟨hcorr, hret⟩ := ih hlt
  obtain ⟨hcorr', hret'⟩ := correlated_step hcorr hlt hs
  refine ⟨?_, fun i m r hmem => ?_⟩
  · have hI : issuedIn (tr ++ es) = fun i m => issuedIn tr i m ∨ .issued i m ∈ es := by
      funext i m
      exact propext List.mem_append
    rwa [hI]
  · exact (List.mem_append.mp hmem).elim (hret i m r) (hret' i m r)

/-- **A `SyncSend` that succeeds returns the reply to its own request.**  The
ids drawn have at most eight digits. -/
theorem syncSend_own_reply {tr : List Event} {s : EchoNet} (h : machine.Run AnyStep tr s)
    (hids : s.cli.m_requestId < 10 ^ 8) {reqId : Nat} {msg : List Byte} {result : SyncSendRtn}
    (hret : .syncReturned reqId msg result ∈ tr) (hmsg : msg ≠ [])
    (hok : result.errorCode = RJ_S_OK) :
    result.value = msg ∧ cstr result.cmd = SERVER_CMD_STX_COMMAND ∧ result.value ≠ [] := by
  obtain ⟨hvalue, hcmd⟩ := (correlated_run h hids).2 reqId msg result hret hok
  exact ⟨hvalue, hcmd, hvalue ▸ hmsg⟩

/-- The requests of two threads, answered in the reverse order; the reply to
the first is delivered once more after its call has returned. -/
theorem syncSend_own_reply_two :
    ∃ tr s, machine.Run AnyStep tr s ∧
      ∃ result, .syncReturned 1 [65] result ∈ tr ∧ result.value = [65] ∧
        cstr result.cmd = SERVER_CMD_STX_COMMAND ∧ result.value ≠ [] := by
  let stx := SERVER_CMD_STX_COMMAND
  let frame (i : Byte) (b : Byte) : List Byte :=
    (i :: List.replicate 8 0) ++ (stx ++ List.replicate 20 0) ++ [b]
  let result : SyncSendRtn := ⟨RJ_S_OK, stx ++ List.replicate 20 0, [65]⟩
  obtain ⟨tr, s, hrun, hp⟩ := machine.run_of_exec AnyStep
    [.client (.syncSend 0 stx [65]), .client (.syncSend 1 stx [66]),
      .client (.register 0), .client (.register 1),
      .client (.send 0 (fun _ => 0) true 0), .client (.send 1 (fun _ => 0) true 0),
      .serve (frame 50 66) (fun _ => 0), .reply (frame 50 66),
      .serve (frame 49 65) (fun _ => 0), .reply (frame 49 65),
      .client (.wait 0 .object), .client (.take 0), .client (.leave 0),
      .reply (frame 49 65), .client (.wait 1 .object)]
    (fun q => decide (q.1.cli.m_requestId < 10 ^ 8) &&
      decide (.syncReturned 1 [65] result ∈ q.2)) (by decide +kernel)
  obtain ⟨hids, hret⟩ := Bool.and_eq_true_iff.mp hp
  have hret := of_decide_eq_true hret
  exact ⟨tr, s, hrun, result, hret,
    syncSend_own_reply hrun (of_decide_eq_true hids) hret (by decide) rfl⟩

end EchoNet

end TestExamples
