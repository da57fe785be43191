/-
TestExamples/RJTcpClientSession.lean

The loop thread of RJCommon/RJTcpClient.cpp with all its callbacks: what the
client receives, the writes that fail, and the calls of `m_callback`.

The sending side is that of RJTcpClient.lean, one field here.  Added to it are
the reader, the writes libuv has not completed, and whether libuv reads from
the connection.  `HandleMsg` with bytes is one step that appends to
`m_reader` and one step for each evaluation of the loop of `SetBuffer`, as in
the server; with `nread` at most zero it is one step.

libuv reads from `uv_read_start` on, until a read callback has brought the end
of the stream or an error, or until `uv_close`.  A read callback with `nread`
zero is neither; it changes nothing for libuv.  `uv_close` is called in
`CloseAll`, at its end.
-/
import TestExamples.RJTcpClient

namespace TestExamples

/-- The codes of `m_callback`, with the message of `ON_MSG`. -/
inductive Notice
  | ON_CONNECTION
  | ON_MSG (msg : List Byte)
  | ON_ERROR
  | ON_DISCONNECTION
  deriving DecidableEq, Repr

/-- `RJTcpClient` with everything its loop thread works on. -/
structure ClientSession where
  cli : RJTcpClient
  m_reader : BufferReader
  reading : Bool              -- libuv calls `HandleMsg`
  inSetBuffer : Bool          -- the loop thread is in the loop of `SetBuffer`
  writes : List (List Byte)   -- the writes libuv has not completed
  closed : Bool               -- `m_uv_client` has been closed

/-- The steps of the loop thread. -/
def RJTcpClient.Act.onLoop : RJTcpClient.Act → Bool
  | .HandleConnection _ _ | .asyncCallBack | .lock | .drain | .drained | .walked => true
  | _ => false

namespace ClientSession

inductive Act
  | cli (a : RJTcpClient.Act)
  | HandleMsg (nread : Int) (msg : List Byte)
  | pass
  | drainFailed (ret : Int)
  | AfterSend (status : Int)

def Act.onLoop : Act → Bool
  | .cli a => a.onLoop
  | _ => true

/-- `uv_writeFailed` is a write libuv has refused; `HandleMsg` and `AfterSend`
are the callbacks with the result they get. -/
inductive Event
  | cli (e : RJTcpClient.Event)
  | uv_writeFailed (buf : List Byte) (ret : Int)
  | HandleMsg (nread : Int)
  | AfterSend (status : Int)
  | m_callback (n : Notice)
  deriving DecidableEq, Repr

def init : ClientSession where
  cli := .init
  m_reader := .new
  reading := false
  inSetBuffer := false
  writes := []
  closed := false

abbrev Outcome := Option (ClientSession × List Event)

/-- `OnMsg`: what `m_callback` is told about a call of the reader. -/
def OnMsg (call : OnMsgCall) : Notice :=
  match call.msg with
  | none => .ON_ERROR
  | some msg => if call.size < 0 then .ON_ERROR else .ON_MSG msg

/-- `HandleConnection`. -/
def HandleConnection (s : ClientSession) (status readRet : Int) : Outcome :=
  (s.cli.step (.HandleConnection status readRet)).map fun p =>
    if status ≠ 0 then ({ s with cli := p.1 }, [.m_callback .ON_ERROR])
    else if readRet ≠ 0 then ({ s with cli := p.1 }, [.m_callback .ON_ERROR])
    else ({ s with cli := p.1, reading := true }, [.m_callback .ON_CONNECTION])

/-- `HandleMsg`, with bytes up to the loop of `SetBuffer`. -/
def HandleMsg (s : ClientSession) (nread : Int) (msg : List Byte) : Outcome :=
  if 0 < nread then
    if msg.length = nread then
      (s.m_reader.receive msg).map fun r =>
        ({ s with m_reader := r, inSetBuffer := true }, [.HandleMsg nread])
    else none
  else
    -- libuv stops reading after the end of the stream and after an error
    some ({ s with reading := decide (nread = 0) },
      [.HandleMsg nread, .m_callback .ON_DISCONNECTION])

/-- One evaluation of the loop of `SetBuffer`. -/
def SetBufferPass (D : DataModel) (s : ClientSession) : Outcome :=
  match s.m_reader.pass D with
  | .exit => some ({ s with inSetBuffer := false }, [])
  | .stop none r => some ({ s with m_reader := r, inSetBuffer := false }, [])
  | .stop (some call) r =>
      some ({ s with m_reader := r, inSetBuffer := false }, [.m_callback (OnMsg call)])
  | .next call r => some ({ s with m_reader := r }, [.m_callback (OnMsg call)])

/-- The body of the loop of `AsyncCallBack` where `uv_write` fails. -/
def drainFailed (s : ClientSession) (ret : Int) : Outcome :=
  match s.cli.loop, s.cli.m_send_buf with
  | .draining, buf :: rest =>
      some ({ s with cli := { s.cli with m_send_buf := rest } },
        [.uv_writeFailed buf ret, .m_callback .ON_ERROR])
  | _, _ => none

/-- `AfterSend` for the oldest write. -/
def AfterSend (s : ClientSession) (status : Int) : Outcome :=
  match s.writes with
  | [] => none
  | _ :: rest =>
      some ({ s with writes := rest },
        if status ≠ 0 then [.AfterSend status, .m_callback .ON_ERROR] else [.AfterSend status])

/-- The loop thread waits in `uv_run`. -/
def Idle (s : ClientSession) : Prop := s.cli.loop = .idle ∧ s.inSetBuffer = false

instance (s : ClientSession) : Decidable s.Idle := inferInstanceAs (Decidable (_ ∧ _))

/-- One step. -/
def step (D : DataModel) (s : ClientSession) : Act → Outcome
  | .cli (.HandleConnection status readRet) =>
      -- the connect request of a closed handle is cancelled
      if s.Idle ∧ (s.closed = true → status ≠ 0) then s.HandleConnection status readRet else none
  | .cli .drain =>
      (s.cli.step .drain).map fun p =>
        ({ s with cli := p.1, writes := s.writes ++ s.cli.m_send_buf.take 1 }, p.2.map .cli)
  | .cli .walked =>
      (s.cli.step .walked).map fun p =>
        ({ s with cli := p.1, reading := false, closed := true }, p.2.map .cli)
  | .cli a =>
      if a.onLoop = true → s.inSetBuffer = false then
        (s.cli.step a).map fun p => ({ s with cli := p.1 }, p.2.map .cli)
      else none
  | .HandleMsg nread msg => if s.Idle ∧ s.reading = true then s.HandleMsg nread msg else none
  | .pass => if s.inSetBuffer = true then s.SetBufferPass D else none
  | .drainFailed ret => if ret ≠ 0 then s.drainFailed ret else none
  | .AfterSend status =>
      -- the writes of a closed handle complete with an error
      if s.Idle ∧ (s.closed = true → status ≠ 0) then s.AfterSend status else none

/-- `RJTcpClient` with its loop thread as a machine. -/
def machine (D : DataModel) : Machine ClientSession Act Event := ⟨init, step D⟩

/-! ### The branches -/

/-- **The steps, branch by branch.**  `es` is what the sending side does. -/
inductive Moves (D : DataModel) (s : ClientSession) : Act → List Event → ClientSession → Prop
  | connectFailed {status readRet c es}
      (hs : s.cli.step (.HandleConnection status readRet) = some (c, es)) :
      Moves D s (.cli (.HandleConnection status readRet)) [.m_callback .ON_ERROR]
        { s with cli := c }
  | connected {c es} (hs : s.cli.step (.HandleConnection 0 0) = some (c, es)) :
      Moves D s (.cli (.HandleConnection 0 0)) [.m_callback .ON_CONNECTION]
        { s with cli := c, reading := true }
  | drain {c es} (hs : s.cli.step .drain = some (c, es)) :
      Moves D s (.cli .drain) (es.map .cli)
        { s with cli := c, writes := s.writes ++ s.cli.m_send_buf.take 1 }
  | walked {c es} (hs : s.cli.step .walked = some (c, es)) :
      Moves D s (.cli .walked) (es.map .cli) { s with cli := c, reading := false, closed := true }
  | cli {a c es} (hs : s.cli.step a = some (c, es)) :
      Moves D s (.cli a) (es.map .cli) { s with cli := c }
  | received {nread msg r} (hreading : s.reading = true) (hn : 0 < nread)
      (hr : s.m_reader.receive msg = some r) :
      Moves D s (.HandleMsg nread msg) [.HandleMsg nread]
        { s with m_reader := r, inSetBuffer := true }
  | ended {nread msg} (hreading : s.reading = true) (hn : nread ≤ 0) :
      Moves D s (.HandleMsg nread msg) [.HandleMsg nread, .m_callback .ON_DISCONNECTION]
        { s with reading := decide (nread = 0) }
  | passExit : Moves D s .pass [] { s with inSetBuffer := false }
  | passMore {r} : Moves D s .pass [] { s with m_reader := r, inSetBuffer := false }
  | passStop {r call} (hp : s.m_reader.pass D = .stop (some call) r) :
      Moves D s .pass [.m_callback (OnMsg call)] { s with m_reader := r, inSetBuffer := false }
  | passNext {r call} (hp : s.m_reader.pass D = .next call r) :
      Moves D s .pass [.m_callback (OnMsg call)] { s with m_reader := r }
  | drainFailed {ret buf rest} (hret : ret ≠ 0) (hq : s.cli.m_send_buf = buf :: rest) :
      Moves D s (.drainFailed ret) [.uv_writeFailed buf ret, .m_callback .ON_ERROR]
        { s with cli := { s.cli with m_send_buf := rest } }
  | AfterSend {status buf rest} (hw : s.writes = buf :: rest) :
      Moves D s (.AfterSend status)
        (if status ≠ 0 then [.AfterSend status, .m_callback .ON_ERROR] else [.AfterSend status])
        { s with writes := rest }

section Inversion

variable {D : DataModel} {s s' : ClientSession} {es : List Event}

theorem moves_of_HandleConnection {status readRet : Int}
    (h : s.HandleConnection status readRet = some (s', es)) :
    Moves D s (.cli (.HandleConnection status readRet)) es s' := by
  obtain ⟨⟨c, ces⟩, hs, he⟩ := Option.map_eq_some_iff.mp h
  dsimp only at he
  split at he
  · obtain ⟨rfl, rfl⟩ := Prod.mk.inj he
    exact .connectFailed hs
  · next hstatus =>
    obtain rfl := not_not.mp hstatus
    split at he
    · obtain ⟨rfl, rfl⟩ := Prod.mk.inj he
      exact .connectFailed hs
    · next hread =>
      obtain rfl := not_not.mp hread
      obtain ⟨rfl, rfl⟩ := Prod.mk.inj he
      exact .connected hs

theorem moves_of_HandleMsg {nread : Int} {msg : List Byte}
    (h : s.step D (.HandleMsg nread msg) = some (s', es)) :
    Moves D s (.HandleMsg nread msg) es s' := by
  simp only [step] at h
  split at h
  · next hidle =>
    unfold HandleMsg at h
    split at h
    · next hn =>
      split at h
      · obtain ⟨r, hr, he⟩ := Option.map_eq_some_iff.mp h
        obtain ⟨rfl, rfl⟩ := Prod.mk.inj he
        exact .received hidle.2 hn hr
      · cases h
    · next hn =>
      obtain ⟨rfl, rfl⟩ := Prod.mk.inj (Option.some.inj h)
      exact .ended hidle.2 (Int.not_lt.mp hn)
  · cases h

theorem moves_of_pass (h : s.step D .pass = some (s', es)) : Moves D s .pass es s' := by
  simp only [step] at h
  split at h
  · unfold SetBufferPass at h
    split at h
    · obtain ⟨rfl, rfl⟩ := Prod.mk.inj (Option.some.inj h)
      exact .passExit
    · obtain ⟨rfl, rfl⟩ := Prod.mk.inj (Option.some.inj h)
      exact .passMore
    · next call r hp =>
      obtain ⟨rfl, rfl⟩ := Prod.mk.inj (Option.some.inj h)
      exact .passStop hp
    · next call r hp =>
      obtain ⟨rfl, rfl⟩ := Prod.mk.inj (Option.some.inj h)
      exact .passNext hp
  · cases h

theorem moves_of_cli {a : RJTcpClient.Act} (h : s.step D (.cli a) = some (s', es)) :
    Moves D s (.cli a) es s' := by
  have key : (if a.onLoop = true → s.inSetBuffer = false then
      (s.cli.step a).map fun p => ({ s with cli := p.1 }, p.2.map .cli) else none) =
        some (s', es) → Moves D s (.cli a) es s' := by
    intro hs
    split at hs
    · obtain ⟨⟨c, ces⟩, hc, he⟩ := Option.map_eq_some_iff.mp hs
      obtain ⟨rfl, rfl⟩ := Prod.mk.inj he
      exact .cli hc
    · cases hs
  cases a with
  | HandleConnection status readRet =>
      simp only [step] at h
      split at h
      · exact moves_of_HandleConnection h
      · cases h
  | drain =>
      obtain ⟨⟨c, ces⟩, hc, he⟩ := Option.map_eq_some_iff.mp h
      obtain ⟨rfl, rfl⟩ := Prod.mk.inj he
      exact .drain hc
  | walked =>
      obtain ⟨⟨c, ces⟩, hc, he⟩ := Option.map_eq_some_iff.mp h
      obtain ⟨rfl, rfl⟩ := Prod.mk.inj he
      exact .walked hc
  | _ => exact key h

theorem moves_of_step {a : Act} (h : s.step D a = some (s', es)) : Moves D s a es s' := by
  cases a with
  | cli a => exact moves_of_cli h
  | HandleMsg nread msg => exact moves_of_HandleMsg h
  | pass => exact moves_of_pass h
  | drainFailed ret =>
      simp only [step] at h
      split at h
      · next hret =>
        unfold drainFailed at h
        split at h
        · next buf rest _ hq =>
          obtain ⟨rfl, rfl⟩ := Prod.mk.inj (Option.some.inj h)
          exact .drainFailed hret hq
        · cases h
      · cases h
  | AfterSend status =>
      simp only [step] at h
      split at h
      · unfold AfterSend at h
        split at h
        · cases h
        · next buf rest hw =>
          obtain ⟨rfl, rfl⟩ := Prod.mk.inj (Option.some.inj h)
          exact .AfterSend hw
      · cases h

end Inversion

end ClientSession

end TestExamples
