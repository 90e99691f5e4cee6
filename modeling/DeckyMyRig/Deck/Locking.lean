import DeckyMyRig.Deck.Transitions
import DeckyMyRig.Lib.Checked

/-!
# Actions under the lock of their device

`start` and `stop` of `decky/py_modules/decky_my_rig/controller.py` run under
`locks[device_id]`, which lets its callers through in the order of their calls.
`stop` keeps it while it waits for the answer to its request; `_status` does not
take it. A call of `stop` that was in line while another one was accepted still
sends its request, as it does not look at the state that it finds.
-/

namespace DeckyMyRig.Deck

open Octets Machine Checked

inductive PowerAction
  | start
  | stop

/-- A call of `stop` between its request and the answer. -/
structure StopCall where
  device : Device
  secret : Bytes
  timestamp : Int
  nonce : Bytes

structure Actions where
  controller : Controller
  /-- The last reading of `time.monotonic`. -/
  clock : Nat
  /-- The calls in line for the lock of a device. The first one has it. -/
  line : Text → List PowerAction
  /-- The call that has the lock and waits for an answer. -/
  waiting : Text → Option StopCall

inductive ActionInput
  | call (deviceId : Text) (action : PowerAction)
  /-- A call of `_status` ends. -/
  | poll (ending : Ending)
  /-- `start` gets the lock. -/
  | start (deviceId : Text) (device : Except Raised Device) (sent : Except Raised Unit)
    (paired : Except Raised Bool) (now : Nat)
  /-- `stop` gets the lock. -/
  | stop (deviceId : Text) (device : Except Raised Device) (secret : Except Raised (Option Bytes))
    (timestamp : Int) (nonce : Bytes) (now : Nat)
  /-- The network answers the request of `stop`. -/
  | answer (deviceId : Text) (answers : List Answer) (now : Nat)

inductive ActionEvent
  /-- A shutdown request is given to `urlopen`. -/
  | sent (deviceId : Text) (now : Nat)
  | ended (ending : Ending)

def HostClient.shutdownHeaders (L : Libraries) (credential : Bytes)
    (timestamp : Int) (nonce : Bytes) :
    Except Raised Auth.AuthHeaders := do
  let body ← Protobuf.shutdownRequest
  Auth.sign L credential "POST".toList shutdownPath body timestamp nonce

namespace Actions

def new (timeout now : Nat) : Actions := ⟨⟨[], [], timeout⟩, now, fun _ => [], fun _ => none⟩

def joined (s : Actions) (deviceId : Text) (action : PowerAction) : Actions :=
  { s with line := fun d => if d = deviceId then s.line d ++ [action] else s.line d }

def released (s : Actions) (deviceId : Text) (now : Nat) : Actions :=
  { s with
    clock := now
    line := fun d => if d = deviceId then (s.line d).tail else s.line d
    waiting := fun d => if d = deviceId then none else s.waiting d }

def ended (L : Libraries) (s : Actions) (ending : Ending) : Actions × List ActionEvent :=
  ({ s with controller := (ending.apply L s.controller).1, clock := ending.now }, [.ended ending])

def started (L : Libraries) (s : Actions) (deviceId : Text) (sent : Except Raised Unit)
    (paired : Except Raised Bool) (now : Nat) :
    Except Raised Device → Option (Actions × List ActionEvent)
  | .error _ => some (s.released deviceId now, [])
  | .ok device =>
    if device.id = deviceId then
      some ((s.released deviceId now).ended L ⟨device, .start sent paired, now⟩)
    else none

/-- `stop` up to its request. -/
def requested (L : Libraries) (s : Actions) (deviceId : Text)
    (secret : Except Raised (Option Bytes))
    (timestamp : Int) (nonce : Bytes) (now : Nat) : Except Raised Device →
      Option (Actions × List ActionEvent)
  | .error _ => some (s.released deviceId now, [])
  | .ok device =>
    if device.id = deviceId then
      match secret with
      | .error _ => some (s.released deviceId now, [])
      | .ok none => some ((s.released deviceId now).ended L ⟨device, .stop none, now⟩)
      | .ok (some secret) =>
        match HostClient.shutdownHeaders L secret timestamp nonce with
        | .error e =>
          some ((s.released deviceId now).ended L ⟨device, .stop (some (.error e)), now⟩)
        | .ok _ =>
          let call : StopCall := ⟨device, secret, timestamp, nonce⟩
          some ({ s with clock := now, waiting := fun d =>
            if d = deviceId then some call else s.waiting d }, [.sent deviceId now])
    else none

def answered (L : Libraries) (U : Urllib) (s : Actions) (deviceId : Text) (answers : List Answer)
    (now : Nat) (call : StopCall) : Actions × List ActionEvent :=
  let outcome := HostClient.shutdown L U call.device call.secret call.timestamp call.nonce answers
  (s.released deviceId now).ended L ⟨call.device, .stop (some outcome), now⟩

end Actions

def ActionInput.now (clock : Nat) : ActionInput → Nat
  | .call .. => clock
  | .poll ending => ending.now
  | .start _ _ _ _ now | .stop _ _ _ _ _ now | .answer _ _ now => now

def actionStep (L : Libraries) (U : Urllib) (s : Actions) (i : ActionInput) :
    Option (Actions × List ActionEvent) :=
  if i.now s.clock < s.clock then none
  else
    match i with
    | .call deviceId action => some (s.joined deviceId action, [])
    | .poll ending => if ending.call.isPoll then some (s.ended L ending) else none
    | .start deviceId device sent paired now =>
      match s.line deviceId, s.waiting deviceId with
      | .start :: _, none => s.started L deviceId sent paired now device
      | _, _ => none
    | .stop deviceId device secret timestamp nonce now =>
      match s.line deviceId, s.waiting deviceId with
      | .stop :: _, none => s.requested L deviceId secret timestamp nonce now device
      | _, _ => none
    | .answer deviceId answers now => (s.waiting deviceId).map (s.answered L U deviceId answers now)

theorem shutdown_unsigned (h : HostClient.shutdownHeaders L secret timestamp nonce = .error e)
    (U : Urllib) (device : Device) (answers : List Answer) :
    HostClient.shutdown L U device secret timestamp nonce answers = .error e := by
  simp only [HostClient.shutdownHeaders, HostClient.shutdown, HostClient.post] at h ⊢
  cases hbody : Protobuf.shutdownRequest with
  | error e' =>
    rw [hbody] at h
    cases h
    rfl
  | ok body =>
    rw [hbody] at h
    have hsign : Auth.sign L secret "POST".toList HostClient.shutdownPath body timestamp nonce =
      .error e := h
    rw [ok_bind, hsign]
    rfl

-- ---------------------------------------------------------------------------
-- What the endings say
-- ---------------------------------------------------------------------------

def Ending.accepts (d : Text) (i : Ending) : Bool :=
  i.device.id = d && i.call matches .stop (some (.ok ()))

/-- The call sets the state of `d`, other than from what it finds: it is an
action that succeeds, or a poll that is answered, or one without a credential. -/
def Ending.changes (L : Libraries) (d : Text) (i : Ending) : Bool :=
  i.device.id = d &&
    match i.call with
    | .probe (.ok ()) | .probe (.error (.host ..)) => true
    | .probe (.error _) => false
    | .check (.ok response) => (compareVersions L Protobuf.pluginVersion response.hostVersion).isOk
    | .check (.error (.host ..)) => !i.call.unreachable
    | .check (.error _) => false
    | .start sent _ => sent.isOk
    | .stop outcome => outcome matches some (.ok ())

def lastChange (L : Libraries) (d : Text) (endings : List Ending) : Option Ending :=
  (endings.filter (·.changes L d)).getLast?

def ActionEvent.ending : ActionEvent → Option Ending
  | .ended ending => some ending
  | .sent .. => none

abbrev ActionLog := List (Event Actions ActionInput ActionEvent)

def endings (tr : ActionLog) : List Ending := tr.flatMap fun e => e.seen.filterMap (·.ending)

/-- When a call of `stop` for `d` has the lock, the device and its credential,
and has signed its request. -/
def ActionInput.requests (L : Libraries) (d : Text) : ActionInput → Option Nat
  | .stop deviceId (.ok _) (.ok (some secret)) timestamp nonce now =>
    if deviceId = d ∧ (HostClient.shutdownHeaders L secret timestamp nonce).isOk then
      some now else none
  | _ => none

theorem lastChange_append (L : Libraries) (d : Text) (is : List Ending) (i : Ending) :
    lastChange L d (is ++ [i]) = if i.changes L d then some i else lastChange L d is := by
  unfold lastChange
  cases h : i.changes L d <;> simp [h]

theorem endings_append (tr : ActionLog) (e : Event Actions ActionInput ActionEvent) :
    endings (tr ++ [e]) = endings tr ++ e.seen.filterMap (·.ending) := by
  simp [endings]

-- ---------------------------------------------------------------------------
-- One call
-- ---------------------------------------------------------------------------

section
variable {c : Controller} {L : Libraries} {i : Ending} {d : Text}

theorem transition_congr {c c' : Controller} (hstate : c'.states.get? d = c.states.get? d)
    (hdeadline : c'.deadlines.get? d = c.deadlines.get? d) (now : Nat) :
    c'.transition d now = c.transition d now := by
  simp only [Controller.transition, hstate, hdeadline]

theorem transition_result (c : Controller) (d : Text) (state : DeviceState) (found : PairingState)
    (message : Text) (now : Nat) :
    (c.result d state found message).1.transition d now =
      if now < (c.deadlines.get? d).getD 0 then some state else none := by
  by_cases h : now < (c.deadlines.get? d).getD 0 <;>
    simp [Controller.transition, Controller.result, Dict.get?_set, h]

theorem transition_enter (c : Controller) (d : Text) (state : DeviceState) (t now : Nat) :
    (c.enter d state t).transition d now = if now < t + c.transitionTimeout then some state
      else none := by
  simp [Controller.transition, Controller.enter, Dict.get?_set, Option.filter_some]

/-- A poll that does not reach the host leaves the transition under way. -/
theorem checked_transition {t now : Nat} (hnow : t ≤ now)
    (hkind : PowerCall.unreachable (.check (.error (.host kind message status))) = true) :
    (c.checked L device t (.error (.host kind message status))).1.transition device.id now =
      some .stopping ↔ c.transition device.id now = some .stopping := by
  have hstill : c.transition device.id t = some .stopping ∧
      now < (c.deadlines.get? device.id).getD 0 ↔
        c.transition device.id now = some .stopping := by
    simp only [Controller.transition, Option.filter_eq_some_iff, decide_eq_true_eq]
    refine ⟨fun h => ⟨h.1.1, h.2⟩, fun h => ⟨⟨h.1, hnow.trans_lt h.2⟩, h.2⟩⟩
  rw [← hstill]
  cases kind with
  | authentication | integrity | protocol | identity => cases hkind
  | pairing | unavailable | host =>
    simp only [Controller.checked]
    split
    all_goals simp_all [transition_result]

theorem Ending.transition_apply {now : Nat} (hnow : i.now ≤ now) :
    (i.apply L c).1.transition d now = some .stopping ↔
      if i.changes L d then i.accepts d = true ∧ now < i.now + c.transitionTimeout
      else c.transition d now = some .stopping := by
  by_cases hd : i.device.id = d
  · subst hd
    obtain ⟨device, call, t⟩ := i
    cases call with
    | probe outcome =>
      cases outcome with
      | ok =>
        simp [Ending.changes, Ending.accepts, Ending.apply, Controller.probed, transition_result]
      | error e =>
        cases e with
        | host kind message status =>
          simp only [Ending.changes, Ending.accepts, Ending.apply, Controller.probed]
          split <;> [skip; split] <;> simp [transition_result]
        | _ => simp [Ending.changes, Ending.apply, Controller.probed]
    | check outcome =>
      cases outcome with
      | ok response =>
        simp only [Ending.changes, Ending.accepts, Ending.apply, Controller.checked]
        cases compareVersions L Protobuf.pluginVersion response.hostVersion with
        | ok relation => simp [Except.isOk, Except.toBool, transition_result]
        | error e => simp [Except.isOk, Except.toBool]
      | error e =>
        cases e with
        | host kind message status =>
          cases kind with
          | authentication | integrity | protocol | identity =>
            simp [Ending.changes, Ending.accepts, Ending.apply, Controller.checked,
              PowerCall.unreachable, transition_result]
          | pairing | unavailable | host =>
            rw [if_neg (by simp [Ending.changes, PowerCall.unreachable])]
            exact checked_transition hnow rfl
        | _ => simp [Ending.changes, Ending.apply, Controller.checked]
    | start sent paired =>
      cases sent with
      | error e => simp [Ending.changes, Ending.apply, Controller.start, Except.isOk, Except.toBool]
      | ok =>
        cases paired with
        | error e =>
          simp [Ending.changes, Ending.accepts, Ending.apply, Controller.start, Except.isOk,
            Except.toBool, transition_enter]
        | ok paired =>
          simp [Ending.changes, Ending.accepts, Ending.apply, Controller.start, Except.isOk,
            Except.toBool, transition_result]
    | stop outcome =>
      rcases outcome with _ | _ | _
      · simp [Ending.changes, Ending.apply, Controller.stopped]
      · simp [Ending.changes, Ending.apply, Controller.stopped]
      · simp [Ending.changes, Ending.accepts, Ending.apply, Controller.stopped, transition_result,
          Controller.enter, Dict.get?_set]
  · obtain ⟨hstate, hdeadline⟩ := Ending.apply_frame (L := L) (c := c) hd
    simp [Ending.changes, hd, transition_congr hstate hdeadline]

-- ---------------------------------------------------------------------------
-- One step
-- ---------------------------------------------------------------------------

inductive Actions.Progress (L : Libraries) (s : Actions) (input : ActionInput) (s' : Actions) :
    List ActionEvent → Prop
  | kept (hclock : s.clock ≤ s'.clock) (hkept : s'.controller = s.controller)
    (hrequests : ∀ d, input.requests L d = none) : Progress L s input s' []
  | sent (deviceId : Text) (hclock : s.clock ≤ s'.clock) (hkept : s'.controller = s.controller)
    (hrequests : ∀ d, input.requests L d = if deviceId = d then some s'.clock else none) :
    Progress L s input s' [.sent deviceId s'.clock]
  | ended (ending : Ending) (hclock : s.clock ≤ s'.clock) (hnow : s'.clock = ending.now)
    (happly : s'.controller = (ending.apply L s.controller).1)
    (hrequests : ∀ d, input.requests L d = none) :
    Progress L s input s' [.ended ending]

theorem requested_progress {s s' : Actions} (hclock : s.clock ≤ now)
    (h : s.requested L deviceId secret timestamp nonce now (.ok device) = some (s', out)) :
    Actions.Progress L s (.stop deviceId (.ok device) secret timestamp nonce now) s' out := by
  obtain ⟨-, h⟩ := Option.ite_none_right_eq_some.mp h
  split at h
  · cases h
    exact .kept hclock rfl fun _ => rfl
  · cases h
    exact .ended ⟨device, .stop none, now⟩ hclock rfl rfl fun _ => rfl
  · split at h
    · rename_i hheaders
      cases h
      exact .ended ⟨device, .stop (some (.error _)), now⟩ hclock rfl rfl fun d => by
        simp [ActionInput.requests, hheaders, Except.isOk, Except.toBool]
    · rename_i hheaders
      cases h
      exact .sent deviceId hclock rfl fun d => by
        simp [ActionInput.requests, hheaders, Except.isOk, Except.toBool]

theorem actionStep_progress {s s' : Actions} (h : actionStep L U s input = some (s', out)) :
    Actions.Progress L s input s' out := by
  obtain ⟨hclock, h⟩ := Option.ite_none_left_eq_some.mp h
  have hclock := Nat.le_of_not_lt hclock
  cases input with
  | call deviceId action =>
    cases h
    exact .kept (Nat.le_refl _) rfl fun _ => rfl
  | poll ending =>
    obtain ⟨-, heq⟩ := Option.ite_none_right_eq_some.mp h
    cases heq
    exact .ended ending hclock rfl rfl fun _ => rfl
  | start deviceId device sent paired now =>
    simp only at h
    split at h
    · cases device with
      | error e =>
        cases h
        exact .kept hclock rfl fun _ => rfl
      | ok device =>
        obtain ⟨-, heq⟩ := Option.ite_none_right_eq_some.mp h
        cases heq
        exact .ended ⟨device, .start sent paired, now⟩ hclock rfl rfl fun _ => rfl
    · cases h
  | stop deviceId device secret timestamp nonce now =>
    simp only at h
    split at h
    · cases device with
      | error e =>
        cases h
        exact .kept hclock rfl fun _ => rfl
      | ok device => exact requested_progress hclock h
    · cases h
  | answer deviceId answers now =>
    obtain ⟨call, -, heq⟩ := Option.map_eq_some_iff.mp h
    cases heq
    exact .ended ⟨call.device, .stop (some _), now⟩ hclock rfl rfl fun _ => rfl

theorem Actions.Progress.sent_iff {now : Nat} (h : Actions.Progress L s input s' out) :
    .sent d now ∈ out ↔ input.requests L d = some now := by
  cases h with
  | kept _ _ hrequests => simp [hrequests]
  | sent deviceId _ _ hrequests =>
    rw [hrequests, List.mem_singleton]
    by_cases hd : deviceId = d
    · simp [hd, eq_comm]
    · simp [hd, Ne.symm hd]
  | ended _ _ _ _ hrequests => simp [hrequests]

theorem Actions.Progress.clock_le {now : Nat} (h : Actions.Progress L s input s' out)
    (hnow : input.requests L d = some now) : s.clock ≤ now := by
  cases h with
  | kept _ _ hrequests | ended _ _ _ _ hrequests =>
    rw [hrequests] at hnow
    cases hnow
  | sent deviceId hclock _ hrequests =>
    obtain ⟨-, heq⟩ := Option.ite_none_right_eq_some.mp ((hrequests d).symm.trans hnow)
    cases heq
    exact hclock

-- ---------------------------------------------------------------------------
-- Runs
-- ---------------------------------------------------------------------------

/-- The controller has the transition of `d` to STOPPING under way exactly if
the last call that set its state is a `stop` whose deadline is ahead. -/
structure Tracked (L : Libraries) (timeout : Nat) (d : Text) (is : List Ending) (s : Actions) :
    Prop where
  configured : s.controller.transitionTimeout = timeout
  stopping : ∀ now, s.clock ≤ now → (s.controller.transition d now = some .stopping ↔
    ∃ a ∈ lastChange L d is, a.accepts d = true ∧ now < a.now + timeout)

theorem Tracked.next {s s' : Actions} (hi : Tracked L timeout d (endings tr) s)
    (h : Actions.Progress L s input s' out) :
    Tracked L timeout d (endings (tr ++ [⟨s, input, s', out⟩])) s' := by
  rw [endings_append]
  cases h with
  | kept hclock hkept | sent _ hclock hkept =>
    refine ⟨hkept ▸ hi.configured, fun now hnow => ?_⟩
    rw [hkept]
    simpa [ActionEvent.ending] using hi.stopping now (hclock.trans hnow)
  | ended ending hclock hend happly =>
    refine ⟨by rw [happly, Ending.apply_timeout, hi.configured], fun now hnow => ?_⟩
    have hlast : lastChange L d (endings tr ++ [ActionEvent.ended ending].filterMap (·.ending)) =
        if ending.changes L d then some ending else lastChange L d (endings tr) :=
      lastChange_append L d (endings tr) ending
    rw [happly, Ending.transition_apply (hend ▸ hnow), hi.configured, hlast]
    split
    · simp
    · exact hi.stopping now (hclock.trans hnow)

theorem tracked_run (h : Run (logged (actionStep L U)) (fun _ _ => True) (.new timeout t0) tr s) :
    Tracked L timeout d (endings tr) s := by
  have h0 : Tracked L timeout d [] (.new timeout t0) :=
    ⟨rfl, fun _ _ => iff_of_false (by rintro ⟨⟩) (by simp [lastChange])⟩
  refine h.invariant (I := fun tr s => Tracked L timeout d (endings tr) s) h0 ?_
  intro tr s input s' es hi _ hs
  obtain ⟨out, hstep, rfl⟩ := logged_eq_some hs
  exact hi.next (actionStep_progress hstep)

end

def ActionEvent.sends (d : Text) (now : Nat) : ActionEvent → Bool
  | .sent deviceId now' => deviceId = d && now' = now
  | .ended _ => false

theorem ActionEvent.sends_eq_true {e : ActionEvent} (h : e.sends d now = true) :
    e = .sent d now := by
  cases e with
  | sent deviceId now' => simpa [ActionEvent.sends] using h
  | ended => cases h

/-- In every run of actions and polls, no shutdown request leaves for a device
while an accepted `stop` is under way, exactly if no call of `stop` gets to its
request before the deadline of the last accepted one, unless the state was set
since. -/
theorem no_duplicate_shutdown_iff {L : Libraries} {d : Text}
    (h : Run (logged (actionStep L U)) (fun _ _ => True) (.new timeout t0) tr s) :
    (∀ pre e post now, tr = pre ++ e :: post → (∃ i ∈ endings pre, i.accepts d = true) →
      .sent d now ∈ e.seen → e.before.controller.transition d now ≠ some .stopping) ↔
    ∀ pre e post now, tr = pre ++ e :: post → e.input.requests L d = some now →
      ∀ a ∈ lastChange L d (endings pre), a.accepts d = true → a.now + timeout ≤ now := by
  have hmoment : ∀ pre e post now, tr = pre ++ e :: post →
      (.sent d now ∈ e.seen ↔ e.input.requests L d = some now) ∧
        (e.input.requests L d = some now → (e.before.controller.transition d now = some .stopping ↔
          ∃ a ∈ lastChange L d (endings pre), a.accepts d = true ∧ now < a.now + timeout)) := by
    rintro pre e post now rfl
    obtain ⟨hpre, -, hstep, -⟩ := h.at_logged
    have hprogress := actionStep_progress hstep
    exact ⟨hprogress.sent_iff, fun hnow =>
      (tracked_run hpre).stopping now (hprogress.clock_le hnow)⟩
  constructor
  · intro hnone pre e post now htr hnow a ha haccepts
    obtain ⟨hsent, hstopping⟩ := hmoment pre e post now htr
    by_contra hlt
    have hmem : a ∈ endings pre := List.mem_of_mem_filter (List.mem_of_mem_getLast? ha)
    exact hnone pre e post now htr ⟨a, hmem, haccepts⟩ (hsent.mpr hnow)
      ((hstopping hnow).mpr ⟨a, ha, haccepts, Nat.lt_of_not_le hlt⟩)
  · intro hlate pre e post now htr _ hseen hstill
    obtain ⟨hsent, hstopping⟩ := hmoment pre e post now htr
    have hnow := hsent.mp hseen
    obtain ⟨a, ha, haccepts, hlt⟩ := (hstopping hnow).mp hstill
    exact Nat.not_le_of_lt hlt (hlate pre e post now htr hnow a ha haccepts)

def sleeperStop (now : Nat) : ActionInput :=
  .stop sleeper.id (.ok sleeper) (.ok (some (List.replicate 32 7))) 0 (List.replicate 16 9) now

def sleeperAccepts (now : Nat) : ActionInput :=
  .answer sleeper.id [.reply ⟨202, by decide, [("x-decky-response-signature".toList,
    hexEncode (beBytes 32 0x9cb3910873a5ef7f3f55adfbcdf4241162a58d5586b80289a314c47d7ebb3994))],
      .ok [8, 1]⟩] now

/-- Accepted at 10 s, a device is stopped again at 130 s. -/
theorem stop_again_after_deadline :
    ∃ tr s, Run (logged (actionStep .sample ⟨fun _ _ => .refused⟩)) (fun _ _ => True)
      (.new 120 0) tr s ∧ (tr.flatMap (·.seen)).countP (fun e => e matches .sent ..) = 2 ∧
      ∀ pre e post now, tr = pre ++ e :: post → (∃ i ∈ endings pre, i.accepts sleeper.id = true) →
        .sent sleeper.id now ∈ e.seen → e.before.controller.transition sleeper.id now ≠
          some .stopping := by
  obtain ⟨tr, s, hrun, hp⟩ := Run.exists_of_exec (logged (actionStep .sample ⟨fun _ _ => .refused⟩))
    (fun _ _ => True) (.new 120 0)
    [.call sleeper.id .stop, .call sleeper.id .stop, sleeperStop 10,
      sleeperAccepts 10, sleeperStop 130]
    (fun _ tr => (tr.flatMap (·.seen)).countP (fun e => e matches .sent ..) = 2 &&
      (List.range tr.length).all fun n =>
        tr[n]?.all fun e => (e.input.requests .sample sleeper.id).all
        fun now => (lastChange .sample sleeper.id (endings (tr.take n))).all fun a =>
          a.now + 120 ≤ now)
    (by decide +kernel)
  simp only [Bool.and_eq_true, decide_eq_true_eq, List.all_eq_true, List.mem_range,
    Option.all_eq_true] at hp
  obtain ⟨hcount, hlate⟩ := hp
  refine ⟨tr, s, hrun, hcount, (no_duplicate_shutdown_iff hrun).mpr ?_⟩
  rintro pre e post now rfl hnow a ha -
  exact hlate pre.length (by simp) e (by simp) now hnow a (by simpa using ha)

/-- Two calls of `stop`: the first is accepted at 10 s, and the other one, in
line since, sends its request at 11 s. -/
theorem queued_stop_sends_again :
    ∃ pre e now s, Run (logged (actionStep .sample ⟨fun _ _ => .refused⟩))
      (fun _ _ => True) (.new 120 0)
        (pre ++ [e]) s ∧ (∃ i ∈ endings pre, i.accepts sleeper.id = true) ∧
        .sent sleeper.id now ∈ e.seen ∧
      e.before.controller.transition sleeper.id now = some .stopping := by
  obtain ⟨tr, s, hrun, hp⟩ := Run.exists_of_exec (logged (actionStep .sample ⟨fun _ _ => .refused⟩))
    (fun _ _ => True) (.new 120 0)
    [.call sleeper.id .stop, .call sleeper.id .stop, sleeperStop 10,
      sleeperAccepts 10, sleeperStop 11]
    (fun _ tr => tr.getLast?.any fun e => (endings tr.dropLast).any (·.accepts sleeper.id) &&
      e.seen.any (·.sends sleeper.id 11) &&
        e.before.controller.transition sleeper.id 11 = some .stopping)
    (by decide +kernel)
  obtain ⟨e, hlast, hp⟩ := (Option.any_eq_true _ _).mp hp
  obtain ⟨pre, rfl⟩ := List.getLast?_eq_some_iff.mp hlast
  rw [List.dropLast_concat] at hp
  simp only [Bool.and_eq_true, List.any_eq_true, decide_eq_true_eq] at hp
  obtain ⟨⟨haccepted, x, hx, hsends⟩, hstopping⟩ := hp
  exact ⟨pre, e, 11, s, hrun, haccepted, ActionEvent.sends_eq_true hsends ▸ hx, hstopping⟩

end DeckyMyRig.Deck
