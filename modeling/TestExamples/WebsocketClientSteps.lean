/-
TestExamples/WebsocketClientSteps.lean

The steps of the websocket client, branch by branch.

`Passes` lists what the service thread does by itself, `Moves` what any step
can do, each with the condition under which it does it; `moves_of_step` is the
inversion of `step`.  The frames say which fields the functions with branches
of their own may change.
-/
import TestExamples.WebsocketClient
import TestExamples.WebsocketServerSteps

namespace TestExamples

namespace WebsocketClient

/-- What the service thread does by itself. -/
inductive Passes (s : WebsocketClient) (now : Int) : List Event → WebsocketClient → Prop
  | top (hloop : s.loop = .top) : Passes s now [] { s with nowtime := now, loop := .delayed 0 }
  | due {it item} (hloop : s.loop = .delayed it) (hitem : s.delayed_connect[it]? = some item)
      (hdue : item.timestamp_ < s.nowtime) :
      Passes s now [] { s with
        delayed_connect := s.delayed_connect.eraseIdx it
        loop := .attempting item (.delayed it) }
  | early {it item} (hloop : s.loop = .delayed it) (hitem : s.delayed_connect[it]? = some item)
      (hearly : s.nowtime ≤ item.timestamp_) :
      Passes s now [] { s with loop := .delayed (it + 1) }
  | delayedEnd {it} (hloop : s.loop = .delayed it) (hend : s.delayed_connect[it]? = none) :
      Passes s now [] { s with loop := .newConnect }
  | newConnect (hloop : s.loop = .newConnect) :
      Passes s now [] { s with loop := if s.has_new_connect_ then .swapping else .newData }
  | swap (hloop : s.loop = .swapping) :
      Passes s now [] { s with
        connect_queue_ := []
        has_new_connect_ := false
        loop := .immediate s.connect_queue_ }
  | immediateEnd (hloop : s.loop = .immediate []) : Passes s now [] { s with loop := .newData }
  | postpone {item rest} (hloop : s.loop = .immediate (item :: rest))
      (hlate : s.nowtime ≤ item.timestamp_) :
      Passes s now [] { s with
        delayed_connect := s.delayed_connect ++ [item]
        loop := .immediate rest }
  | immediate {item rest} (hloop : s.loop = .immediate (item :: rest))
      (hdue : item.timestamp_ < s.nowtime) :
      Passes s now [] { s with loop := .attempting item (.immediate rest) }
  | register {w websock origin} (hloop : s.loop = .registering w websock origin) :
      Passes s now [] (s.register w websock origin)
  | reconsider {item origin} (hloop : s.loop = .failed item origin) :
      Passes s now [] { s with loop := s.reconsider now item origin }
  | push {item origin} (hloop : s.loop = .pushing item origin) :
      Passes s now [] (s.push item origin)
  | newData (hloop : s.loop = .newData) :
      Passes s now [] { s with loop := if s.bnew_data_to_send_ then .collecting else .service }
  | collect (hloop : s.loop = .collecting) : Passes s now [] s.collect
  | requestEnd (hloop : s.loop = .requesting []) : Passes s now [] { s with loop := .service }
  | request {w rest es s'} (hloop : s.loop = .requesting (w :: rest))
      (hs : lws_callback_on_writable { s with loop := .requesting rest } w = (s', es)) :
      Passes s now es s'
  | skip {w rest} (hloop : s.loop = .requesting (w :: rest)) (hw : w = 0) :
      Passes s now [] { s with loop := .requesting rest }
  | around (hloop : s.loop = .service) : Passes s now [] { s with loop := .top }

/-- **The steps, branch by branch.** -/
inductive Moves (s : WebsocketClient) : Act → List Event → WebsocketClient → Prop
  | connect {websock} :
      Moves s (.connect websock) [] { s with
        connect_queue_ := s.connect_queue_ ++ [⟨websock, 0⟩]
        has_new_connect_ := true }
  | setAutoReconnect {websock enable} :
      Moves s (.setAutoReconnect websock enable) []
        (s.setSock websock { s.socks websock with auto_reconnect_ := enable })
  | setReconnectInterval {websock secs} (hsecs : 0 < secs) :
      Moves s (.setReconnectInterval websock secs) []
        (s.setSock websock { s.socks websock with interval_ := secs })
  | keepInterval {websock secs} (hsecs : secs ≤ 0) :
      Moves s (.setReconnectInterval websock secs) [] s
  | call {t websock call es s'} (hidle : s.users t = none)
      (hs : s.call t websock call = (s', es)) : Moves s (.call t websock call) es s'
  | metaSend {t m es s'} (ht : s.users t = some m)
      (hs : (s.setUser t none).ClinetMetaSend m = some (s', es)) : Moves s (.metaSend t) es s'
  | destruct {websock} (hwsi : (s.socks websock).wsi_ ≠ 0) :
      Moves s (.destruct websock) [] (s.eraseItem (s.socks websock).wsi_)
  | destructNull {websock} (hwsi : (s.socks websock).wsi_ = 0) :
      Moves s (.destruct websock) [] s
  | pass {now es s'} (hp : Passes s now es s') : Moves s (.pass now) es s'
  | created {w item origin} (hloop : s.loop = .attempting item origin) (hnew : s.lws w = none)
      (hw : w ≠ 0) :
      Moves s (.attempt (some w)) [.attempted item.websock_ (some w)]
        (s.created w item.websock_ origin)
  | failed {item origin} (hloop : s.loop = .attempting item origin) :
      Moves s (.attempt none) [.attempted item.websock_ none]
        { s with loop := .failed item origin }
  | established {w c} (hloop : s.loop = .service) (hc : s.lws w = some c) (huser : c.user = none)
      (hopen : c.closing = false) : Moves s (.established w) [] (s.established w c)
  | writeable {w c io} (hloop : s.loop = .service) (hc : s.lws w = some c)
      (hreq : c.requested = true) (hopen : c.closing = false) (huser : c.user = some io) :
      Moves s (.writeable w) [] (s.writeable w c io)
  | unready {w c} (hloop : s.loop = .service) (hc : s.lws w = some c) (huser : c.user = none) :
      Moves s (.writeable w) [] (s.setLws w { c with requested := false })
  | write {w c io partially es s'} (hloop : s.loop = .writing w) (hc : s.lws w = some c)
      (huser : c.user = some io) (hs : s.writeOne w c io partially = (s', es)) :
      Moves s (.write partially) es s'
  | destroy {w c} (hloop : s.loop = .service) (hc : s.lws w = some c) :
      Moves s (.destroy w) [] (s.destroy w)

/-! ### Inversion -/

theorem passes_of_pass {s s' : WebsocketClient} {now : Int} {es : List Event}
    (h : s.pass now = some (s', es)) : Passes s now es s' := by
  unfold pass at h
  split at h
  case h_1 hloop =>
    obtain ⟨rfl, rfl⟩ := Prod.mk.inj (Option.some.inj h)
    exact .top hloop
  case h_2 it hloop =>
    split at h
    · next item hitem =>
      split at h
      · next hdue =>
        obtain ⟨rfl, rfl⟩ := Prod.mk.inj (Option.some.inj h)
        exact .due hloop hitem hdue
      · next hearly =>
        obtain ⟨rfl, rfl⟩ := Prod.mk.inj (Option.some.inj h)
        exact .early hloop hitem (Int.not_lt.mp hearly)
    · next hend =>
      obtain ⟨rfl, rfl⟩ := Prod.mk.inj (Option.some.inj h)
      exact .delayedEnd hloop hend
  case h_3 hloop =>
    obtain ⟨rfl, rfl⟩ := Prod.mk.inj (Option.some.inj h)
    exact .newConnect hloop
  case h_4 hloop =>
    obtain ⟨rfl, rfl⟩ := Prod.mk.inj (Option.some.inj h)
    exact .swap hloop
  case h_5 hloop =>
    obtain ⟨rfl, rfl⟩ := Prod.mk.inj (Option.some.inj h)
    exact .immediateEnd hloop
  case h_6 item rest hloop =>
    split at h
    · next hlate =>
      obtain ⟨rfl, rfl⟩ := Prod.mk.inj (Option.some.inj h)
      exact .postpone hloop hlate
    · next hdue =>
      obtain ⟨rfl, rfl⟩ := Prod.mk.inj (Option.some.inj h)
      exact .immediate hloop (Int.not_le.mp hdue)
  case h_7 w websock origin hloop =>
    obtain ⟨rfl, rfl⟩ := Prod.mk.inj (Option.some.inj h)
    exact .register hloop
  case h_8 item origin hloop =>
    obtain ⟨rfl, rfl⟩ := Prod.mk.inj (Option.some.inj h)
    exact .reconsider hloop
  case h_9 item origin hloop =>
    obtain ⟨rfl, rfl⟩ := Prod.mk.inj (Option.some.inj h)
    exact .push hloop
  case h_10 hloop =>
    obtain ⟨rfl, rfl⟩ := Prod.mk.inj (Option.some.inj h)
    exact .newData hloop
  case h_11 hloop =>
    obtain ⟨rfl, rfl⟩ := Prod.mk.inj (Option.some.inj h)
    exact .collect hloop
  case h_12 hloop =>
    obtain ⟨rfl, rfl⟩ := Prod.mk.inj (Option.some.inj h)
    exact .requestEnd hloop
  case h_13 w rest hloop =>
    dsimp only at h
    split at h
    · exact .request hloop (Option.some.inj h)
    · next hw =>
      obtain ⟨rfl, rfl⟩ := Prod.mk.inj (Option.some.inj h)
      exact .skip hloop (not_not.mp hw)
  case h_14 hloop =>
    obtain ⟨rfl, rfl⟩ := Prod.mk.inj (Option.some.inj h)
    exact .around hloop
  all_goals cases h

/-- **Inversion of `step`.** -/
theorem moves_of_step {s s' : WebsocketClient} {act : Act} {es : List Event}
    (h : s.step act = some (s', es)) : Moves s act es s' := by
  cases act with
  | connect websock =>
      obtain ⟨rfl, rfl⟩ := Prod.mk.inj (Option.some.inj h)
      exact .connect
  | setAutoReconnect websock enable =>
      obtain ⟨rfl, rfl⟩ := Prod.mk.inj (Option.some.inj h)
      exact .setAutoReconnect
  | setReconnectInterval websock secs =>
      simp only [step] at h
      split at h
      · next hsecs =>
        obtain ⟨rfl, rfl⟩ := Prod.mk.inj (Option.some.inj h)
        exact .setReconnectInterval hsecs
      · next hsecs =>
        obtain ⟨rfl, rfl⟩ := Prod.mk.inj (Option.some.inj h)
        exact .keepInterval (Int.not_lt.mp hsecs)
  | call t websock call =>
      simp only [step] at h
      split at h
      · next hidle =>
        obtain ⟨-, h⟩ := Option.ite_none_right_eq_some.mp h
        exact .call hidle (Option.some.inj h)
      · cases h
  | metaSend t =>
      simp only [step] at h
      split at h
      · next m ht => exact .metaSend ht h
      · cases h
  | destruct websock =>
      obtain ⟨rfl, rfl⟩ := Prod.mk.inj (Option.some.inj h)
      split
      · next hwsi => exact .destruct hwsi
      · next hwsi => exact .destructNull (not_not.mp hwsi)
  | pass now => exact .pass (passes_of_pass h)
  | attempt wsi =>
      simp only [step] at h
      split at h
      · next item origin hloop =>
        cases wsi with
        | some w =>
            simp only [attempt] at h
            split at h
            · next hnew =>
              obtain ⟨hw, h⟩ := Option.ite_none_right_eq_some.mp h
              obtain ⟨rfl, rfl⟩ := Prod.mk.inj (Option.some.inj h)
              exact .created hloop hnew hw
            · cases h
        | none =>
            obtain ⟨rfl, rfl⟩ := Prod.mk.inj (Option.some.inj h)
            exact .failed hloop
      · cases h
  | established w =>
      simp only [step] at h
      split at h
      · next c hloop hc =>
        obtain ⟨⟨huser, hopen⟩, h⟩ := Option.ite_none_right_eq_some.mp h
        obtain ⟨rfl, rfl⟩ := Prod.mk.inj (Option.some.inj h)
        exact .established hloop hc huser hopen
      · cases h
  | writeable w =>
      simp only [step] at h
      split at h
      · next c hloop hc =>
        obtain ⟨⟨hreq, hopen⟩, h⟩ := Option.ite_none_right_eq_some.mp h
        split at h
        · next io huser =>
          obtain ⟨rfl, rfl⟩ := Prod.mk.inj (Option.some.inj h)
          exact .writeable hloop hc hreq hopen huser
        · next huser =>
          obtain ⟨rfl, rfl⟩ := Prod.mk.inj (Option.some.inj h)
          exact .unready hloop hc huser
      · cases h
  | write partially =>
      simp only [step] at h
      split at h
      · next w hloop =>
        split at h
        · next c hc =>
          obtain ⟨io, huser, he⟩ := Option.map_eq_some_iff.mp h
          exact .write hloop hc huser he
        · cases h
      · cases h
  | destroy w =>
      simp only [step] at h
      split at h
      · next c hloop hc =>
        obtain ⟨rfl, rfl⟩ := Prod.mk.inj (Option.some.inj h)
        exact .destroy hloop hc
      · cases h

/-! ### Frames -/

section Frames

variable {s s' : WebsocketClient} {w : Wsi} {c : Lws} {io : ClientInOut} {partially : Bool}
  {es : List Event}

theorem call_frame {t : Thread} {websock : WebSock} {call : Call}
    (h : s.call t websock call = (s', es)) :
    ∃ users, s' = { s.setSock websock (call.first (s.socks websock)) with users := users } := by
  unfold WebsocketClient.call at h
  dsimp only at h
  split at h
  · split at h
    · exact ⟨_, (Prod.mk.inj h).1.symm⟩
    · exact ⟨s.users, (Prod.mk.inj h).1.symm⟩
  · exact ⟨s.users, (Prod.mk.inj h).1.symm⟩

theorem metaSend_frame {t : Thread} {m : Sending}
    (h : (s.setUser t none).ClinetMetaSend m = some (s', es)) :
    ∃ users cache keys updated, s' = { s with
      users := users, client_message_cache_ := cache, keys := keys
      bnew_data_to_send_ := updated } := by
  obtain ⟨p, -, he⟩ := Option.map_eq_some_iff.mp h
  exact ⟨_, _, _, _, (Prod.mk.inj he).1.symm⟩

theorem lws_callback_on_writable_frame (h : s.lws_callback_on_writable w = (s', es)) :
    ∃ lws, s' = { s with lws := lws } := by
  unfold lws_callback_on_writable at h
  split at h
  · exact ⟨_, (Prod.mk.inj h).1.symm⟩
  · exact ⟨s.lws, (Prod.mk.inj h).1.symm⟩

theorem established_frame (s : WebsocketClient) (w : Wsi) (c : Lws) :
    ∃ lws socks, s.established w c = { s with lws := lws, socks := socks } := by
  unfold established
  dsimp only
  split <;> exact ⟨_, _, rfl⟩

theorem advance_frame (s : WebsocketClient) (w : Wsi) (c : Lws) (io : ClientInOut)
    (partially : Bool) :
    ∃ lws loop, (s.advance w c io partially).1 = { s with lws := lws, loop := loop } ∧
      (loop = .service ∨ loop = .writing w) := by
  unfold advance
  dsimp only
  split_ifs
  · exact ⟨_, .service, rfl, .inl rfl⟩
  · obtain ⟨lws, hs⟩ := lws_callback_on_writable_frame (s := { s.setLws w { c with
      user := some { io with send_ := [], curSendPos_ := 0 } } with loop := .service }) (w := w) rfl
    exact ⟨lws, .service, hs, .inl rfl⟩
  · exact ⟨_, .service, rfl, .inl rfl⟩
  · exact ⟨_, .writing w, rfl, .inr rfl⟩

theorem writeOne_frame (h : s.writeOne w c io partially = (s', es)) :
    ∃ lws loop, s' = { s with lws := lws, loop := loop } ∧
      (loop = .service ∨ loop = .writing w) := by
  have hadvance := advance_frame s w c io partially
  unfold writeOne at h
  split at h
  · dsimp only at h
    split at h
    · exact ⟨_, .service, (Prod.mk.inj h).1.symm, .inl rfl⟩
    all_goals
      rw [(Prod.mk.inj h).1] at hadvance
      exact hadvance
  · exact ⟨s.lws, .service, (Prod.mk.inj h).1.symm, .inl rfl⟩

theorem writeable_frame (s : WebsocketClient) (w : Wsi) (c : Lws) (io : ClientInOut) :
    ∃ cache keys lws loop, s.writeable w c io = { s with
      client_message_cache_ := cache, keys := keys, lws := lws, loop := loop } ∧
      (loop = s.loop ∨ loop = .writing w) := by
  unfold writeable
  dsimp only
  split_ifs
  · split
    · split_ifs
      · exact ⟨_, _, _, s.loop, rfl, .inl rfl⟩
      · exact ⟨_, _, _, s.loop, rfl, .inl rfl⟩
      · exact ⟨_, _, _, .writing w, rfl, .inr rfl⟩
    · exact ⟨_, _, _, s.loop, rfl, .inl rfl⟩
  · exact ⟨_, _, _, .writing w, rfl, .inr rfl⟩

end Frames

end WebsocketClient

end TestExamples
