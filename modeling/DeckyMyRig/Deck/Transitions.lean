import DeckyMyRig.Deck.Controller
import DeckyMyRig.Lib.Runs

/-!
# Transient power states

`_status`, `start` and `stop` touch the controller only after their last
network wait, in one go, so a run of the controller is a sequence of such
endings (`controllerStep`), in any order and at times that do not decrease.
What the controller then holds for a device is the state of its last report
and the deadline of its last action (`Recorded`).
-/

namespace DeckyMyRig.Deck

open Octets Machine

/-- A call of the controller, with what it was told before it ends. -/
inductive PowerCall
  /-- `_status` without a credential: the end of `client.probe`. -/
  | probe (outcome : Except Raised Unit)
  /-- `_status` with a credential: the end of `client.status`. -/
  | check (outcome : Except Raised Protobuf.StatusResponse)
  | start (sent : Except Raised Unit) (paired : Except Raised Bool)
  | stop (outcome : Option (Except Raised Unit))

structure Ending where
  device : Device
  call : PowerCall
  now : Nat

def Ending.apply (L : Libraries) (c : Controller) (i : Ending) :
    Controller × Except Raised StatusResult :=
  match i.call with
  | .probe outcome => c.probed i.device i.now outcome
  | .check outcome => c.checked L i.device i.now outcome
  | .start sent paired => c.start i.device sent paired i.now
  | .stop outcome => c.stopped i.device i.now outcome

theorem status_ends (L : Libraries) (U : Urllib) (c : Controller) (device : Device)
    (secret : Option Bytes) (timestamp : Int) (nonce : Bytes) (answers : List Answer) (now : Nat) :
    c.status L U device secret timestamp nonce answers now =
      Ending.apply L c ⟨device, match secret with
        | none => .probe (HostClient.probe L U device answers)
        | some secret =>
          .check (HostClient.status L U device secret timestamp nonce answers), now⟩ := by
  cases secret <;> rfl

theorem stop_ends (L : Libraries) (U : Urllib) (c : Controller) (device : Device) (secret : Bytes)
    (timestamp : Int) (nonce : Bytes) (answers : List Answer) (now : Nat) :
    c.stop L U device secret timestamp nonce answers now =
      Ending.apply L c ⟨device,
        .stop (some (HostClient.shutdown L U device secret timestamp nonce answers)), now⟩ := rfl

structure Report where
  ending : Ending
  answer : Except Raised StatusResult

def controllerStep (L : Libraries) (s : Controller × Nat) (i : Ending) :
    Option ((Controller × Nat) × List Report) :=
  if s.2 ≤ i.now then some (((i.apply L s.1).1, i.now), [⟨i, (i.apply L s.1).2⟩]) else none

/-- Every look at the store finds the device `d` paired, or every one does not. -/
def Ending.finds (d : Text) (paired : Bool) (i : Ending) : Prop :=
  i.device.id = d →
    match i.call with
    | .probe _ => paired = false
    | .check _ => paired = true
    | .start _ found => found = .ok paired
    | .stop outcome => outcome.isSome = paired

def PowerCall.isPoll : PowerCall → Bool
  | .probe _ | .check _ => true
  | .start .. | .stop _ => false

def PowerCall.unreachable : PowerCall → Bool
  | .probe (.error (.host kind _ _)) => kind ≠ .protocol
  | .check (.error (.host kind _ _)) =>
    kind ≠ .authentication && kind ≠ .integrity && kind ≠ .protocol && kind ≠ .identity
  | _ => false

-- ---------------------------------------------------------------------------
-- What a log says
-- ---------------------------------------------------------------------------

def Report.recorded (d : Text) (r : Report) : Option DeviceState :=
  match r.answer with
  | .ok result => if r.ending.device.id = d then some result.state else none
  | .error _ => none

def Report.deadline (timeout : Nat) (d : Text) (r : Report) : Option Nat :=
  match r.answer with
  | .ok _ =>
    if r.ending.device.id = d ∧ r.ending.call.isPoll = false then some (r.ending.now + timeout)
      else none
  | .error _ => none

def lastOf (f : Report → Option α) (tr : List Report) : Option α := (tr.filterMap f).getLast?

theorem lastOf_append (f : Report → Option α) (tr : List Report) (r : Report) :
    lastOf f (tr ++ [r]) = (f r).or (lastOf f tr) := by
  cases h : f r with
  | none => simp [lastOf, h]
  | some a => simp [lastOf, h]

theorem lastOf_append_none {f : Report → Option α} (h : ∀ r ∈ b, f r = none) :
    lastOf f (a ++ b) = lastOf f a := by
  simp [lastOf, List.filterMap_eq_nil_iff.mpr h]

def Report.reports (r : Report) (state : DeviceState) : Prop :=
  ∃ result, r.answer = .ok result ∧ result.state = state

/-- The controller holds what the log says of `d`. -/
structure Recorded (timeout : Nat) (d : Text) (tr : List Report) (c : Controller) : Prop where
  configured : c.transitionTimeout = timeout
  state : c.states.get? d = lastOf (·.recorded d) tr
  deadline : c.deadlines.get? d = lastOf (·.deadline timeout d) tr

-- ---------------------------------------------------------------------------
-- One call
-- ---------------------------------------------------------------------------

def Concludes (c : Controller) (deviceId : Text) (x : Controller × Except Raised StatusResult) :
    Prop :=
  (∃ e, x = (c, .error e)) ∨ ∃ state found message, x = c.result deviceId state found message

section
variable {c c' : Controller} {L : Libraries} {i : Ending} {timeout : Nat} {d : Text}

theorem probed_concludes (outcome : Except Raised Unit) :
    Concludes c device.id (c.probed device now outcome) := by
  unfold Controller.probed
  split
  · exact .inr ⟨_, _, _, rfl⟩
  · split
    · exact .inr ⟨_, _, _, rfl⟩
    · split <;> exact .inr ⟨_, _, _, rfl⟩
  · exact .inl ⟨_, rfl⟩

theorem checked_concludes (outcome : Except Raised Protobuf.StatusResponse) :
    Concludes c device.id (c.checked L device now outcome) := by
  unfold Controller.checked
  split
  · split
    · exact .inr ⟨_, _, _, rfl⟩
    · exact .inl ⟨_, rfl⟩
  · split
    · exact .inr ⟨_, _, _, rfl⟩
    · exact .inr ⟨_, _, _, rfl⟩
    · exact .inr ⟨_, _, _, rfl⟩
    · exact .inr ⟨_, _, _, rfl⟩
    · split <;> exact .inr ⟨_, _, _, rfl⟩
  · exact .inl ⟨_, rfl⟩

theorem Ending.poll_concludes (h : i.call.isPoll = true) :
    Concludes c i.device.id (i.apply L c) := by
  obtain ⟨device, call, now⟩ := i
  cases call with
  | probe outcome => exact probed_concludes outcome
  | check outcome => exact checked_concludes outcome
  | start | stop => cases h

theorem Ending.action_cases (hread : ∀ sent e, i.call ≠ .start sent (.error e))
    (h : i.call.isPoll = false) :
    (∃ e, i.apply L c = (c, .error e)) ∨ ∃ state found message,
      (state = .starting ∨ state = .stopping) ∧
      i.apply L c = (c.enter i.device.id state i.now).result i.device.id state found message := by
  obtain ⟨device, call, now⟩ := i
  cases call with
  | probe | check => cases h
  | start sent paired =>
    cases sent with
    | error e => exact .inl ⟨e, rfl⟩
    | ok =>
      cases paired with
      | error e => exact absurd rfl (hread _ e)
      | ok paired => exact .inr ⟨.starting, _, _, .inl rfl, rfl⟩
  | stop outcome =>
    cases outcome with
    | none => exact .inl ⟨_, rfl⟩
    | some outcome =>
      cases outcome with
      | error e => exact .inl ⟨e, rfl⟩
      | ok => exact .inr ⟨.stopping, _, _, .inr rfl, rfl⟩

theorem Ending.finds.read (h : i.finds d paired) (hd : i.device.id = d) (sent : Except Raised Unit)
    (e : Raised) : i.call ≠ .start sent (.error e) := by
  intro hcall
  have h := h hd
  rw [hcall] at h
  cases h

theorem Ending.apply_timeout (L : Libraries) (c : Controller) (i : Ending) :
    (i.apply L c).1.transitionTimeout = c.transitionTimeout := by
  cases hpoll : i.call.isPoll with
  | true =>
    rcases Ending.poll_concludes (c := c) (L := L) hpoll with ⟨e, heq⟩ |
      ⟨state, found, message, heq⟩
    · rw [heq]
    · rw [heq]
      rfl
  | false =>
    obtain ⟨device, call, now⟩ := i
    cases call with
    | probe | check => cases hpoll
    | start sent paired => cases sent <;> cases paired <;> rfl
    | stop outcome => rcases outcome with _ | _ | _ <;> rfl

theorem Ending.apply_frame (hne : i.device.id ≠ d) :
    (i.apply L c).1.states.get? d = c.states.get? d ∧
      (i.apply L c).1.deadlines.get? d = c.deadlines.get? d := by
  cases hpoll : i.call.isPoll with
  | true =>
    rcases Ending.poll_concludes (c := c) (L := L) hpoll with ⟨e, heq⟩ |
      ⟨state, found, message, heq⟩
    · simp [heq]
    · simp [heq, Controller.result, Dict.get?_set, hne]
  | false =>
    obtain ⟨device, call, now⟩ := i
    cases call with
    | probe | check => cases hpoll
    | start sent paired =>
      cases sent <;> cases paired <;>
        simp [Ending.apply, Controller.start, Controller.enter,
          Controller.result, Dict.get?_set, hne]
    | stop outcome =>
      rcases outcome with _ | _ | _ <;>
        simp [Ending.apply, Controller.stopped, Controller.enter,
          Controller.result, Dict.get?_set, hne]

theorem Recorded.next (hi : Recorded timeout d tr c) (hfinds : i.finds d paired) :
    Recorded timeout d (tr ++ [⟨i, (i.apply L c).2⟩]) (i.apply L c).1 := by
  obtain ⟨hconf, hstate, hdeadline⟩ := hi
  by_cases hd : i.device.id = d
  · cases hpoll : i.call.isPoll with
    | true =>
      rcases Ending.poll_concludes hpoll with ⟨e, heq⟩ | ⟨state, found, message, heq⟩
      · rw [heq]
        exact ⟨hconf, by simp [lastOf_append, Report.recorded, hstate],
          by simp [lastOf_append, Report.deadline, hdeadline]⟩
      · rw [heq]
        refine ⟨hconf, ?_, ?_⟩
        · simp [lastOf_append, Report.recorded, Controller.result, Dict.get?_set, hd]
        · simp [lastOf_append, Report.deadline, Controller.result, hpoll, hdeadline]
    | false =>
      rcases Ending.action_cases (hfinds.read hd) hpoll with ⟨e, heq⟩ |
        ⟨state, found, message, -, heq⟩
      · rw [heq]
        exact ⟨hconf, by simp [lastOf_append, Report.recorded, hstate],
          by simp [lastOf_append, Report.deadline, hdeadline]⟩
      · rw [heq]
        refine ⟨hconf, ?_, ?_⟩
        · simp [lastOf_append, Report.recorded, Controller.result, Dict.get?_set, hd]
        · simp [lastOf_append, Report.deadline, Controller.result, Controller.enter,
            Dict.get?_set, hd, hpoll, hconf]
  · obtain ⟨hstate', hdeadline'⟩ := Ending.apply_frame (L := L) (c := c) hd
    have hrecorded : Report.recorded d ⟨i, (i.apply L c).2⟩ = none := by
      simp only [Report.recorded, hd, ↓reduceIte]
      split <;> rfl
    have hset : Report.deadline timeout d ⟨i, (i.apply L c).2⟩ = none := by
      simp only [Report.deadline, hd, false_and, ↓reduceIte]
      split <;> rfl
    refine ⟨(Ending.apply_timeout L c i).trans hconf, ?_, ?_⟩
    · simp [lastOf_append, hrecorded, hstate', hstate]
    · simp [lastOf_append, hset, hdeadline', hdeadline]

-- ---------------------------------------------------------------------------
-- Polls
-- ---------------------------------------------------------------------------

theorem transition_eq_some {state : DeviceState} :
    c.transition d now = some state ↔
      c.states.get? d = some state ∧ ∃ deadline, c.deadlines.get? d =
        some deadline ∧ now < deadline := by
  unfold Controller.transition
  cases hd : c.deadlines.get? d with
  | none => simp
  | some deadline => simp [Option.filter_eq_some_iff]

def Controller.unreached (c : Controller) (deviceId : Text) (now : Nat) (paired : Bool) :
    DeviceState :=
  match c.transition deviceId now with
  | some .starting => .starting
  | some .stopping => if paired then .stopping else .offline
  | _ => .offline

theorem unreached_iff {state : DeviceState} (htransient : state = .starting ∨ state = .stopping) :
    c.unreached d now paired = state ↔
      (state = .stopping → paired = true) ∧ c.transition d now = some state := by
  unfold Controller.unreached
  rcases htransient with rfl | rfl
  · cases c.transition d now with
    | none => simp
    | some state => cases state <;> cases paired <;> simp
  · cases c.transition d now with
    | none => simp
    | some state => cases state <;> cases paired <;> simp

theorem probed_host (hkind : kind ≠ .protocol) (status : Option Nat) :
    (c.probed device now (.error (.host kind message status))).2 =
      .ok ⟨c.unreached device.id now false, .unpaired, message⟩ := by
  simp only [Controller.probed, hkind, ↓reduceIte, Controller.unreached]
  cases c.transition device.id now with
  | none => rfl
  | some state => cases state <;> rfl

theorem checked_host
    (hkind : PowerCall.unreachable (.check (.error (.host kind message status))) = true) :
    (c.checked L device now (.error (.host kind message status))).2 =
      .ok ⟨c.unreached device.id now true, .paired, message⟩ := by
  cases kind with
  | authentication | integrity | protocol | identity => cases hkind
  | pairing | unavailable | host =>
    simp only [Controller.checked, Controller.unreached]
    cases c.transition device.id now with
    | none => rfl
    | some state => cases state <;> rfl

theorem reached_state (hpoll : i.call.isPoll = true) (hreach : i.call.unreachable = false)
    (h : (i.apply L c).2 = .ok result) : result.state = .online ∨ result.state = .unknown := by
  obtain ⟨device, call, now⟩ := i
  cases call with
  | start | stop => cases hpoll
  | probe outcome =>
    cases outcome with
    | ok =>
      cases h
      exact .inl rfl
    | error e =>
      cases e with
      | host kind message status =>
        have hkind : kind = .protocol := by simpa [PowerCall.unreachable] using hreach
        simp only [Ending.apply, Controller.probed, hkind, ↓reduceIte] at h
        cases h
        exact .inr rfl
      | _ => cases h
  | check outcome =>
    cases outcome with
    | ok response =>
      have h : (c.checked L device now (.ok response)).2 = .ok result := h
      exact .inl (Controller.checked_response h)
    | error e =>
      cases e with
      | host kind message status =>
        cases kind with
        | authentication =>
          cases h
          exact .inl rfl
        | integrity | protocol | identity =>
          cases h
          exact .inr rfl
        | pairing | unavailable | host => cases hreach
      | _ => cases h

theorem unreachable_state (hfinds : i.finds i.device.id paired) (h : i.call.unreachable = true) :
    ∃ result, (i.apply L c).2 = .ok result ∧
      result.state = c.unreached i.device.id i.now paired := by
  obtain ⟨device, call, now⟩ := i
  have hfinds := hfinds rfl
  cases call with
  | start | stop => cases h
  | probe outcome =>
    obtain rfl : paired = false := hfinds
    cases outcome with
    | ok => cases h
    | error e =>
      cases e with
      | host kind message status =>
        have hkind : kind ≠ .protocol := by simpa [PowerCall.unreachable] using h
        exact ⟨_, probed_host hkind status, rfl⟩
      | _ => cases h
  | check outcome =>
    obtain rfl : paired = true := hfinds
    cases outcome with
    | ok => cases h
    | error e =>
      cases e with
      | host kind message status => exact ⟨_, checked_host (L := L) h, rfl⟩
      | _ => cases h

theorem Ending.poll_reports (hpoll : i.call.isPoll = true) (hfinds : i.finds i.device.id paired)
    {state : DeviceState} (htransient : state = .starting ∨ state = .stopping) :
    Report.reports ⟨i, (i.apply L c).2⟩ state ↔
      i.call.unreachable = true ∧ (state = .stopping → paired = true) ∧
        c.transition i.device.id i.now = some state := by
  cases hreach : i.call.unreachable with
  | true =>
    obtain ⟨result, hanswer, hstate⟩ := unreachable_state (c := c) (L := L) hfinds hreach
    simp [Report.reports, hanswer, hstate, unreached_iff htransient]
  | false =>
    refine iff_of_false ?_ (by simp)
    rintro ⟨result, hanswer, rfl⟩
    have := reached_state hpoll hreach hanswer
    rcases this with h | h <;> simp [h] at htransient

-- ---------------------------------------------------------------------------
-- Runs
-- ---------------------------------------------------------------------------

theorem controllerStep_eq_some {s s' : Controller × Nat}
    (h : controllerStep L s i = some (s', out)) :
    s.2 ≤ i.now ∧ s' = ((i.apply L s.1).1, i.now) ∧ out = [⟨i, (i.apply L s.1).2⟩] := by
  unfold controllerStep at h
  split at h
  · cases h
    exact ⟨‹_›, rfl, rfl⟩
  · cases h

theorem Recorded.run {s : Controller × Nat}
    (h : Run (controllerStep L) (fun _ i => i.finds d paired) (⟨[], [], timeout⟩, t0) tr s) :
    Recorded timeout d tr s.1 := by
  refine h.invariant (I := fun tr s => Recorded timeout d tr s.1) ⟨rfl, rfl, rfl⟩ ?_
  intro tr s i s' out hi hfinds hs
  obtain ⟨-, rfl, rfl⟩ := controllerStep_eq_some hs
  exact hi.next hfinds

theorem Ending.action_state (hfinds : i.finds i.device.id paired) (haction : i.call.isPoll = false)
    (h : Report.reports ⟨i, (i.apply L c).2⟩ state) :
    (state = .starting ∨ state = .stopping) ∧ (state = .stopping → paired = true) := by
  obtain ⟨result, hanswer, rfl⟩ := h
  obtain ⟨device, call, now⟩ := i
  have hfinds := hfinds rfl
  cases call with
  | probe | check => cases haction
  | start sent found =>
    cases sent with
    | error e => cases hanswer
    | ok =>
      cases found with
      | error e => cases hfinds
      | ok found =>
        cases hanswer
        exact ⟨.inl rfl, fun h => by cases h⟩
  | stop outcome =>
    rcases outcome with _ | _ | _
    · cases hanswer
    · cases hanswer
    · cases hanswer
      exact ⟨.inr rfl, fun _ => hfinds.symm⟩

structure UnderWay (d : Text) (state : DeviceState) (due : Nat) (c : Controller) : Prop where
  recorded : c.states.get? d = some state
  deadline : c.deadlines.get? d = some due

/-- A call after which the transition of `d` goes on: a poll that does not
reach the host, or an action that fails. -/
def Report.lets (d : Text) (r : Report) : Prop :=
  r.ending.device.id = d →
    if r.ending.call.isPoll then r.ending.call.unreachable = true else ∃ e, r.answer = .error e

theorem UnderWay.next {state : DeviceState} (hi : UnderWay d state due c)
    (hfinds : i.finds d paired) (htransient : state = .starting ∨ state = .stopping)
    (hpaired : state = .stopping → paired = true)
    (hnow : i.now < due) (hlets : Report.lets d ⟨i, (i.apply L c).2⟩) :
    UnderWay d state due (i.apply L c).1 := by
  by_cases hd : i.device.id = d
  · subst hd
    have hlets := hlets rfl
    have hunder : c.transition i.device.id i.now = some state :=
      transition_eq_some.mpr ⟨hi.recorded, due, hi.deadline, hnow⟩
    cases hpoll : i.call.isPoll with
    | true =>
      rw [hpoll, if_pos rfl] at hlets
      obtain ⟨result, hanswer, hstate⟩ :=
        (Ending.poll_reports (c := c) (L := L) hpoll hfinds htransient).mpr
        ⟨hlets, hpaired, hunder⟩
      rcases Ending.poll_concludes (c := c) (L := L) hpoll with ⟨e, heq⟩ |
        ⟨state', found, message, heq⟩
      · simp [heq] at hanswer
      · obtain rfl : state' = state := by
          simp only [heq, Controller.result, Except.ok.injEq] at hanswer
          rw [← hstate, ← hanswer]
        rw [heq]
        exact ⟨by simp [Controller.result, Dict.get?_set], hi.deadline⟩
    | false =>
      rw [hpoll, if_neg Bool.false_ne_true] at hlets
      obtain ⟨e, hanswer⟩ := hlets
      rcases Ending.action_cases (c := c) (L := L) (hfinds.read rfl) hpoll with
        ⟨e', heq⟩ | ⟨state', found, message, -, heq⟩
      · rw [heq]
        exact hi
      · simp [heq, Controller.result] at hanswer
  · obtain ⟨hstate, hdeadline⟩ := Ending.apply_frame (L := L) (c := c) hd
    exact ⟨hstate.trans hi.recorded, hdeadline.trans hi.deadline⟩

theorem UnderWay.run {state : DeviceState} {s s' : Controller × Nat} (hi : UnderWay d state due s.1)
    (h : Run (controllerStep L) (fun _ i => i.finds d paired) s tr s')
    (htransient : state = .starting ∨ state = .stopping)
    (hpaired : state = .stopping → paired = true)
    (hlets : ∀ r ∈ tr, r.lets d) (hnow : s'.2 < due) : UnderWay d state due s'.1 := by
  refine h.invariant (I := fun tr s' => (∀ r ∈ tr, r.lets d) → s'.2 < due →
    UnderWay d state due s'.1)
    (fun _ _ => hi) ?_ hlets hnow
  intro tr s i s' out hi hfinds hs hlets hnow
  obtain ⟨hle, rfl, rfl⟩ := controllerStep_eq_some hs
  refine (hi (fun r hr => hlets r (List.mem_append_left _ hr)) (hle.trans_lt hnow)).next
    hfinds htransient
    hpaired hnow (hlets _ ?_)
  exact List.mem_append_right _ (List.mem_singleton.mpr rfl)

theorem UnderWay.action {s : Controller × Nat} {action : Report} {older mid : List Report}
    (h : Run (controllerStep L) (fun _ i => i.finds d paired) (⟨[], [], timeout⟩, t0)
      (older ++ action :: mid) s)
    (hd : action.ending.device.id = d) (haction : action.ending.call.isPoll = false)
    (hdone : action.reports state) :
    (state = .starting ∨ state = .stopping) ∧ (state = .stopping → paired = true) ∧
      ∃ s', UnderWay d state (action.ending.now + timeout) s'.1 ∧
        Run (controllerStep L) (fun _ i => i.finds d paired) s' mid s := by
  obtain ⟨before, i, after, hbefore, hfinds, hstep, hmid⟩ :=
    h.at_event (fun hs => ⟨_, (controllerStep_eq_some hs).2.2⟩) rfl
  have hafter := Recorded.run (hbefore.next hfinds hstep)
  obtain ⟨-, -, he⟩ := controllerStep_eq_some hstep
  obtain rfl := List.singleton_injective he
  subst hd
  obtain ⟨htransient, hpaired⟩ := Ending.action_state hfinds haction hdone
  obtain ⟨result, hanswer, rfl⟩ := hdone
  refine ⟨htransient, hpaired, after, ⟨?_, ?_⟩, hmid⟩
  · rw [hafter.state, lastOf_append, Report.recorded, hanswer]
    simp
  · rw [hafter.deadline, lastOf_append, Report.deadline, hanswer]
    simp [haction]

end

/-- A device for runs on fixed inputs, which is started and not found. -/
def sleeper : Device := { id := "rig".toList, name := [], address := [], mac := [] }

def sleeperStart : Ending := ⟨sleeper, .start (.ok ()) (.ok false), 10⟩

def sleeperPoll : Ending := ⟨sleeper, .probe (.error (.host .unavailable [] none)), 129⟩

/-- In every run of the controller in which a device stays paired or stays
unpaired: a poll that cannot reach the host reports the transient state exactly
if that was recorded last and the deadline of the last successful action is
ahead. So polls that do not reach the host report the state of an action until
the timeout has passed since, and no poll reports a transient state from then
on. -/
theorem transients_last_until_deadline {L : Libraries} {timeout t0 : Nat} {d : Text} {paired : Bool}
    {past future : List Report} {poll : Report}
    (h : Run (controllerStep L) (fun _ i => i.finds d paired) (⟨[], [], timeout⟩, t0)
      (past ++ poll :: future) s)
    (hd : poll.ending.device.id = d) (hpoll : poll.ending.call.isPoll = true) :
    (poll.ending.call.unreachable = true →
      ∀ state, state = .starting ∨ state = .stopping ∧ paired = true →
        (poll.reports state ↔ lastOf (·.recorded d) past = some state ∧
          ∃ deadline ∈ lastOf (·.deadline timeout d) past, poll.ending.now < deadline)) ∧
    ∀ older action mid, past = older ++ action :: mid → action.ending.device.id = d →
      action.ending.call.isPoll = false → ∀ state, action.reports state →
      (∀ r ∈ mid, r.deadline timeout d = none) →
      ((∀ r ∈ mid, r.ending.device.id = d → r.ending.call.isPoll = true →
        r.ending.call.unreachable = true) →
        poll.ending.call.unreachable = true → poll.ending.now < action.ending.now + timeout →
        poll.reports state) ∧
      (action.ending.now + timeout ≤ poll.ending.now → ¬ poll.reports .starting ∧
        ¬ poll.reports .stopping) := by
  obtain ⟨c, i, after, hbefore, hfinds, hstep, -⟩ :=
    h.at_event (fun hs => ⟨_, (controllerStep_eq_some hs).2.2⟩) rfl
  obtain ⟨hle, -, he⟩ := controllerStep_eq_some hstep
  obtain rfl := List.singleton_injective he
  subst hd
  have hrecorded := Recorded.run hbefore
  have hreports {state : DeviceState} (htransient : state = .starting ∨ state = .stopping) :=
    Ending.poll_reports (c := c.1) (L := L) hpoll hfinds htransient
  simp only [transition_eq_some, hrecorded.state, hrecorded.deadline] at hreports
  refine ⟨fun hreach state hstate => ?_, ?_⟩
  · rcases hstate with rfl | ⟨rfl, rfl⟩
    · simp [hreports, hreach]
    · simp [hreports, hreach]
  · rintro older action mid rfl hd haction state hdone hlast
    obtain ⟨htransient, hpaired, s', hholds, hmid⟩ := UnderWay.action hbefore hd haction hdone
    refine ⟨fun hpolls hreach hnow => ?_, fun hnow => ?_⟩
    · have hlets : ∀ r ∈ mid, r.lets i.device.id := by
        intro r hr hd
        split
        · exact hpolls r hr hd ‹_›
        · rename_i hact
          cases hanswer : r.answer with
          | error e => exact ⟨e, rfl⟩
          | ok result =>
            have hnone := hlast r hr
            simp [Report.deadline, hanswer, hd, hact] at hnone
      have hstill := hholds.run hmid htransient hpaired hlets (hle.trans_lt hnow)
      exact (Ending.poll_reports hpoll hfinds htransient).mpr
        ⟨hreach, hpaired, transition_eq_some.mpr ⟨hstill.recorded, _, hstill.deadline, hnow⟩⟩
    · have hdue : lastOf (·.deadline timeout i.device.id) (older ++ action :: mid) =
          some (action.ending.now + timeout) := by
        obtain ⟨result, hanswer, -⟩ := hdone
        rw [List.append_cons, lastOf_append_none hlast, lastOf_append, Report.deadline, hanswer]
        simp [hd, haction]
      have hover {state : DeviceState} (htransient : state = .starting ∨ state = .stopping) :
          ¬ Report.reports ⟨i, (i.apply L c.1).2⟩ state := by
        simp only [hreports htransient, hdue, Option.some.injEq]
        rintro ⟨-, -, -, due, rfl, hlt⟩
        exact Nat.not_lt.mpr hnow hlt
      exact ⟨hover (.inl rfl), hover (.inr rfl)⟩

/-- Started at 10 s, an unpaired device that is not found is starting at
129 s. -/
theorem starting_at_129_seconds :
    ∃ action poll s, Run (controllerStep .sample) (fun _ i => i.finds "rig".toList false)
        (⟨[], [], 120⟩, 0) ([action] ++ [poll]) s ∧
      action.ending = sleeperStart ∧ poll.ending = sleeperPoll ∧ poll.reports .starting := by
  have hrun : Run (controllerStep .sample) (fun _ i => i.finds "rig".toList false)
      (⟨[], [], 120⟩, 0) ([] ++ [_] ++ [_]) _ :=
    .next (.next (i := sleeperStart) .refl (fun _ => rfl) (if_pos (by decide)))
      (i := sleeperPoll) (fun _ => rfl) (if_pos (by decide))
  have hmid :=
    (transients_last_until_deadline hrun rfl rfl).2 [] _ [] rfl rfl rfl .starting ⟨_, rfl, rfl⟩
    (by simp)
  exact ⟨_, _, _, hrun, rfl, rfl, hmid.1 (by simp) rfl (by decide)⟩

end DeckyMyRig.Deck
