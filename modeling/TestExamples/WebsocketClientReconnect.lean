/-
TestExamples/WebsocketClientReconnect.lean

The queue of connections to make, and its flag.

`Connect` and `check_reconnect` put an item into `connect_queue_` and set
`has_new_connect_` in the same section, and the pass that takes the items clears
the flag in the section in which it takes them.  The two loops over connections
that are due put an item back when the attempt fails, and leave the flag as it
is: unless another item has set it in the meantime, the item waits until some
other connection is queued.  `Flagged` asks for just that; in a run of such
steps a queue that is not empty has its flag set (`pickedUp_of_flagged`).
-/
import TestExamples.WebsocketClientSteps

namespace TestExamples

namespace WebsocketClient

/-- **No item is forgotten**: where there is an item the flag is set, so that
the next pass gets to the swap, and the swap takes all of them. -/
structure PickedUp (s : WebsocketClient) : Prop where
  flag : s.connect_queue_ ≠ [] → s.has_new_connect_ = true
  seen : s.connect_queue_ ≠ [] → s.loop = .newConnect → ∀ now,
    (s.pass now).map (fun p => p.1.loop) = some .swapping
  taken : s.loop = .swapping → ∀ now,
    (s.pass now).map (fun p => p.1.loop) = some (.immediate s.connect_queue_)

/-- The thread is about to put an item back after a failed attempt. -/
def retrying (s : WebsocketClient) : Bool :=
  match s.loop with
  | .pushing _ (.delayed _) | .pushing _ (.immediate _) => true
  | _ => false

/-- An item is put back after a failed attempt only while the flag is set. -/
def Flagged (s : WebsocketClient) : Act → Prop
  | .pass _ => s.retrying = true → s.has_new_connect_ = true
  | _ => True

instance (s : WebsocketClient) : ∀ act, Decidable (s.Flagged act)
  | .pass _ => inferInstanceAs (Decidable (s.retrying = true → _))
  | .connect _ | .setAutoReconnect _ _ | .setReconnectInterval _ _ | .call _ _ _ | .metaSend _
  | .destruct _ | .attempt _ | .established _ | .writeable _ | .write _ | .destroy _ =>
      inferInstanceAs (Decidable True)

section PickedUp

variable {junk : WebSock → Wsi} {s s' : WebsocketClient} {act : Act} {tr es : List Event}

/-! ### The steps -/

/-- What is queued and whether the flag is set. -/
def queue (s : WebsocketClient) : List ConnectItem × Bool := (s.connect_queue_, s.has_new_connect_)

/-- The flag is set while something is queued. -/
def Noted (s : WebsocketClient) : Prop := s.connect_queue_ ≠ [] → s.has_new_connect_ = true

theorem Noted.congr (h : Noted s) (hqueue : s'.queue = s.queue) : Noted s' := by
  obtain ⟨hitems, hflag⟩ := Prod.mk.inj hqueue
  unfold Noted
  rw [show s'.connect_queue_ = _ from hitems, show s'.has_new_connect_ = _ from hflag]
  exact h

theorem retrying_of {pc : ClientPc} (h : s.loop = pc) :
    s.retrying = retrying { s with loop := pc } := by
  rw [← h]

/-- What the service thread does by itself: only the two loops put back an item
without the flag. -/
theorem Noted.pass_iff {now : Int} (h : Noted s) (hp : Passes s now es s') :
    Noted s' ↔ s.Flagged (.pass now) := by
  have hquiet : s.retrying = false → Noted s' → (Noted s' ↔ s.Flagged (.pass now)) := by
    intro hno hs'
    refine iff_of_true hs' fun hyes => ?_
    rw [hno] at hyes
    cases hyes
  cases hp with
  | top hl | due hl | early hl | delayedEnd hl | newConnect hl | immediateEnd hl | postpone hl
  | immediate hl | register hl | reconsider hl | newData hl | collect hl | requestEnd hl
  | skip hl | around hl => exact hquiet (retrying_of hl) (h.congr rfl)
  | swap hl => exact hquiet (retrying_of hl) fun hne => absurd rfl hne
  | request hl hs =>
      obtain ⟨lws, rfl⟩ := lws_callback_on_writable_frame hs
      exact hquiet (retrying_of hl) (h.congr rfl)
  | @push item origin hl =>
      have hne : s.connect_queue_ ++ [item] ≠ [] := by simp
      have hnoted : Noted (s.push item origin) ↔
          (if origin = .check then true else s.has_new_connect_) = true :=
        ⟨fun hs' => hs' hne, fun hflag _ => hflag⟩
      rw [hnoted]
      show _ ↔ (s.retrying = true → s.has_new_connect_ = true)
      rw [retrying_of hl]
      cases origin with
      | delayed | immediate => exact ⟨fun hflag _ => hflag, fun hflag => hflag rfl⟩
      | check => exact iff_of_true rfl nofun

/-- **The flag goes with the queue exactly in the flagged steps.** -/
theorem Noted.step_iff (h : Noted s) (hm : Moves s act es s') : Noted s' ↔ s.Flagged act := by
  cases hm with
  | connect => exact iff_of_true (fun _ => rfl) True.intro
  | setAutoReconnect | setReconnectInterval | keepInterval | destruct | destructNull | created
  | failed | unready | destroy => exact iff_of_true (h.congr rfl) True.intro
  | call _ hs =>
      obtain ⟨users, rfl⟩ := call_frame hs
      exact iff_of_true (h.congr rfl) True.intro
  | metaSend _ hs =>
      obtain ⟨users, cache, keys, updated, rfl⟩ := metaSend_frame hs
      exact iff_of_true (h.congr rfl) True.intro
  | @established w c =>
      obtain ⟨lws, socks, hframe⟩ := established_frame s w c
      exact iff_of_true (h.congr (by rw [hframe]; rfl)) True.intro
  | @writeable w c io =>
      obtain ⟨cache, keys, lws, loop, hframe, -⟩ := writeable_frame s w c io
      exact iff_of_true (h.congr (by rw [hframe]; rfl)) True.intro
  | write _ _ _ hs =>
      obtain ⟨lws, loop, rfl, -⟩ := writeOne_frame hs
      exact iff_of_true (h.congr rfl) True.intro
  | pass hp => exact h.pass_iff hp

theorem Noted.of_run (h : (machine junk).Run Flagged tr s) : Noted s :=
  h.invariant (fun _ s => Noted s) (fun hne => absurd rfl hne) fun ih hok hs =>
    (ih.step_iff (moves_of_step hs)).mpr hok

theorem Noted.pickedUp (h : Noted s) : PickedUp s where
  flag := h
  seen := fun hne hloop now => by
    unfold pass
    rw [hloop]
    show some (if s.has_new_connect_ then _ else _) = _
    rw [h hne]
    rfl
  taken := fun hloop now => by
    unfold pass
    rw [hloop]
    rfl

/-- **No reconnect is forgotten in a run of flagged steps**, for every order of
the calls, the losses, the attempts and the passes. -/
theorem pickedUp_of_flagged (h : (machine junk).Run Flagged tr s) : PickedUp s :=
  (Noted.of_run h).pickedUp

/-- The condition is exact: behind the first step that is not flagged the queue
has an item and the flag is not set. -/
theorem not_pickedUp_of_not_flagged (h : (machine junk).Run Flagged tr s)
    (hs : s.step act = some (s', es)) (hok : ¬ s.Flagged act) : ¬ PickedUp s' := by
  intro hpicked
  apply hok
  exact ((Noted.of_run h).step_iff (moves_of_step hs)).mp hpicked.flag

end PickedUp

/-- A connection is lost, and the next attempt fails while a `Connect` has set the
flag: both items are there for the next pass. -/
theorem pickedUp_of_flagged_two :
    ∃ tr s, (machine fun _ => 0).Run Flagged tr s ∧
      s.connect_queue_ = [⟨2, 0⟩, ⟨1, 12⟩] ∧ s.has_new_connect_ = true ∧ PickedUp s := by
  obtain ⟨tr, s, hrun, hp⟩ := (machine fun _ => 0).run_of_exec Flagged
    [.connect 1, .setAutoReconnect 1 true, .pass 5, .pass 5, .pass 5, .pass 5, .pass 5,
      .attempt (some 5), .pass 5, .pass 5, .pass 5, .established 5, .destroy 5, .pass 5, .pass 5,
      .pass 5, .pass 9, .pass 9, .pass 9, .pass 9, .pass 9, .attempt none, .connect 2, .pass 9,
      .pass 9]
    (fun q => decide (q.1.connect_queue_ = [⟨2, 0⟩, ⟨1, 12⟩] ∧ q.1.has_new_connect_ = true))
    (by decide +kernel)
  obtain ⟨hqueue, hflag⟩ := of_decide_eq_true hp
  exact ⟨tr, s, hrun, hqueue, hflag, pickedUp_of_flagged hrun⟩

/-- A connection is lost and the next attempt fails: the item put back is not
noted. -/
theorem not_pickedUp :
    ¬ ∀ junk tr s, (machine junk).Run AnyStep tr s → PickedUp s := by
  intro h
  obtain ⟨tr, s, hrun, hp⟩ := (machine fun _ => 0).run_of_exec AnyStep
    [.connect 1, .setAutoReconnect 1 true, .pass 5, .pass 5, .pass 5, .pass 5, .pass 5,
      .attempt (some 5), .pass 5, .pass 5, .pass 5, .established 5, .destroy 5, .pass 5, .pass 5,
      .pass 5, .pass 9, .pass 9, .pass 9, .pass 9, .pass 9, .attempt none, .pass 9, .pass 9]
    (fun q => decide (q.1.connect_queue_ = [⟨1, 12⟩] ∧ q.1.has_new_connect_ = false))
    (by decide +kernel)
  obtain ⟨hqueue, hflag⟩ := of_decide_eq_true hp
  have hset := (h _ tr s hrun).flag (by rw [show s.connect_queue_ = _ from hqueue]; nofun)
  rw [show s.has_new_connect_ = false from hflag] at hset
  cases hset

end WebsocketClient

end TestExamples
