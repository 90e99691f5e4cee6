import DeckyMyRig.Deck.Transitions
import DeckyMyRig.Deck.Documents

/-!
# The Quick Access panel

`decky/src/components/DeviceRow.tsx`, `decky/src/hooks/useDevices.ts` and the rows
of `decky/src/views/QuickAccess.tsx`, as a machine over one life of the panel: its
polls, the presses of its buttons, the answers of the backend and its timers. The
panel is rendered again after every change of its state, before the next press.
What the backend answers is an input.
-/

namespace DeckyMyRig.Frontend

open Octets Machine Deck

-- ---------------------------------------------------------------------------
-- `DeviceRow`
-- ---------------------------------------------------------------------------

structure Row where
  name : Text
  stateLabel : Text
  message : Option Text
  disabled : Bool
  /-- A press calls `onPair`, and not `onAction`. -/
  pairs : Bool
  caption : Text
  ariaLabel : Text

/-- `labels` -/
def stateText : DeviceState → Text
  | .offline => "○ Offline".toList
  | .starting => "◌ Starting…".toList
  | .online => "● Online".toList
  | .stopping => "◌ Stopping…".toList
  | .unknown => "? Unknown".toList

/-- `pairingLabel` -/
def pairingText : PairingState → Text
  | .unpaired => "Not paired".toList
  | .pairing => "Pairing…".toList
  | .pairingFailed => "Pair again".toList
  | .pairingExpired => "Pairing expired".toList
  | .paired => []

/-- `status?.pairing ?? (device.paired ? "paired" : "unpaired")` -/
def shownPairing (device : Device) (status : Option StatusResult) : PairingState :=
  (status.map (·.pairing)).getD (if device.paired then .paired else .unpaired)

def isPending (state : DeviceState) : Bool := state = .starting || state = .stopping

def deviceRow (device : Device) (status : Option StatusResult) : Row :=
  let state := (status.map (·.state)).getD .unknown
  let shown := shownPairing device status
  let pending := isPending state
  let online := state = .online || state = .stopping
  let pairingAction := state = .online && shown ≠ .paired && shown ≠ .pairing
  let actionable := state = .offline || (state = .online && shown = .paired)
  let action :=
    if pairingAction then "Pair".toList else if online then "Stop".toList else "Start".toList
  { name := device.name
    stateLabel :=
      if (pairingText shown).isEmpty then stateText state
      else stateText state ++ " • ".toList ++ pairingText shown
    message := (status.map (·.message)).filter fun m => !m.isEmpty && m ≠ "Online".toList
    disabled := pending || (!actionable && !pairingAction)
    pairs := pairingAction
    caption := if pending then "…".toList else action
    ariaLabel := action ++ " ".toList ++ device.name }

-- ---------------------------------------------------------------------------
-- `useDevices`
-- ---------------------------------------------------------------------------

/-- A call of `act` between its request and the answer. -/
structure PendingAction where
  device : Device
  shown : PairingState

structure QuickAccess where
  devices : List Device
  statuses : Dict Text StatusResult
  error : Option Text
  mounted : Bool
  refreshGeneration : Nat
  /-- The promise of a poll, by its generation. -/
  refreshInFlight : Option Nat
  actionTimers : List Nat
  /-- The polls that have not ended, by their generations. -/
  polls : List Nat
  actions : List PendingAction
  /-- The number that `setTimeout` returns next. -/
  nextTimer : Nat

inductive PanelInput
  /-- The interval, or a caller of `refresh`. -/
  | refresh
  /-- A poll ends, with both answers or without. -/
  | refreshed (generation : Nat) (outcome : Option (Settings × Dict Text StatusResult))
  /-- A press of the button in a row. -/
  | press (row : Nat)
  /-- The request of a call of `act` ends. -/
  | acted (i : Nat) (outcome : Option StatusResult)
  | timeout (timer : Nat)
  | unmount

inductive PanelCall
  | getDevices
  | getStatuses
  | startDevice (deviceId : Text)
  | stopDevice (deviceId : Text)
  | navigate (path : Text)
  deriving DecidableEq

namespace QuickAccess

def refresh (s : QuickAccess) : QuickAccess × List PanelCall :=
  match s.refreshInFlight with
  | some _ => (s, [])
  | none =>
    let generation := s.refreshGeneration + 1
    ({ s with
        refreshGeneration := generation
        refreshInFlight := some generation
        polls := s.polls ++ [generation] }, [.getDevices, .getStatuses])

/-- What `refresh` makes of both answers, or of a failure. -/
def received (s : QuickAccess) : Option (Settings × Dict Text StatusResult) → QuickAccess
  | some (settings, nextStatuses) =>
    { s with devices := settings.devices, statuses := nextStatuses, error := none }
  | none => { s with error := some "PC status could not be refreshed.".toList }

def refreshed (s : QuickAccess) (generation : Nat)
    (outcome : Option (Settings × Dict Text StatusResult)) :
    QuickAccess :=
  let shown := if s.mounted ∧ generation = s.refreshGeneration then s.received outcome else s
  { shown with
    polls := s.polls.erase generation
    refreshInFlight := if s.refreshInFlight = some generation then none else s.refreshInFlight }

def act (s : QuickAccess) (device : Device) : QuickAccess × List PanelCall :=
  let current := (s.statuses.get? device.id).map (·.state)
  let shown := shownPairing device (s.statuses.get? device.id)
  if current = some .starting ∨ current = some .stopping then (s, [])
  else
    let online := current = some .online
    ({ s with
        statuses := s.statuses.set device.id
          ⟨if online then .stopping else .starting, shown, "Request in progress.".toList⟩
        actions := s.actions ++ [⟨device, shown⟩] },
      [if online then .stopDevice device.id else .startDevice device.id])

def answered (s : QuickAccess) (action : PendingAction) : Option StatusResult → QuickAccess
  | some result =>
    { s with
      statuses := s.statuses.set action.device.id result
      actionTimers := s.actionTimers ++ [s.nextTimer]
      nextTimer := s.nextTimer + 1 }
  | none =>
    { s with
      statuses := s.statuses.set action.device.id
        ⟨.unknown, action.shown, "The action failed. Try again.".toList⟩ }

def acted (s : QuickAccess) (action : PendingAction) (outcome : Option StatusResult) :
    QuickAccess :=
  if s.mounted then s.answered action outcome else s

/-- `onClick` of the row of a device. -/
def press (s : QuickAccess) (device : Device) : QuickAccess × List PanelCall :=
  if (deviceRow device (s.statuses.get? device.id)).pairs then
    (s, [.navigate "/decky-remote-power/settings".toList])
  else s.act device

def initial : QuickAccess := ⟨[], [], none, true, 0, none, [], [], [], 0⟩

def opened : QuickAccess := initial.refresh.1

def step (s : QuickAccess) : PanelInput → Option (QuickAccess × List PanelCall)
  | .refresh => if s.mounted then some s.refresh else none
  | .refreshed generation outcome =>
    if generation ∈ s.polls then some (s.refreshed generation outcome, []) else none
  | .press row =>
    match s.devices[row]? with
    | some device =>
      if s.mounted ∧ (deviceRow device (s.statuses.get? device.id)).disabled = false then
        some (s.press device)
      else none
    | none => none
  | .acted i outcome =>
    match s.actions[i]? with
    | some action => some ({ s with actions := s.actions.eraseIdx i }.acted action outcome, [])
    | none => none
  | .timeout timer =>
    if timer ∈ s.actionTimers then
      some ({ s with actionTimers := s.actionTimers.erase timer }.refresh) else none
  | .unmount =>
    if s.mounted then
      some ({ s with
        mounted := false, refreshGeneration := s.refreshGeneration + 1, actionTimers := [] }, [])
    else none

end QuickAccess

def Requests (d : Text) (e : Event QuickAccess PanelInput PanelCall) : Prop :=
  .startDevice d ∈ e.seen ∨ .stopDevice d ∈ e.seen

/-- `start_device` and `stop_device` answer what the controller does. -/
def Answered (_ : QuickAccess) (input : PanelInput) : Prop :=
  ∀ i result, input = .acted i (some result) →
    ∃ L c ending, PowerCall.isPoll ending.call = false ∧ (Ending.apply L c ending).2 = .ok result

/-- The request behind the button of a row with this status, the state that the row
shows next, and the caption of the button. -/
inductive Offered (d : Text) (r : StatusResult) : PanelCall → DeviceState → Text → Prop
  | start : r.state = .offline → Offered d r (.startDevice d) .starting "Start".toList
  | stop : r.state = .online → r.pairing = .paired →
      Offered d r (.stopDevice d) .stopping "Stop".toList

/-- What the panel shows after a poll: both answers, or that it failed beside what
was shown before. -/
def PollShown (before after : QuickAccess) : Option (Settings × Dict Text StatusResult) → Prop
  | some (settings, statuses) =>
    after.devices = settings.devices ∧ after.statuses = statuses ∧ after.error = none
  | none =>
    after.devices = before.devices ∧ after.statuses = before.statuses ∧
      after.error = some "PC status could not be refreshed.".toList

-- ---------------------------------------------------------------------------
-- One step
-- ---------------------------------------------------------------------------

section
variable {s s' : QuickAccess}

@[simp] theorem refresh_statuses (s : QuickAccess) : s.refresh.1.statuses = s.statuses := by
  unfold QuickAccess.refresh
  split <;> rfl

theorem refresh_calls {call : PanelCall} (h : call ∈ s.refresh.2) :
    call = .getDevices ∨ call = .getStatuses := by
  unfold QuickAccess.refresh at h
  split at h
  · cases h
  · simpa using h

theorem press_cases (h : (deviceRow device (s.statuses.get? device.id)).disabled = false) :
    s.press device = (s, [.navigate "/decky-remote-power/settings".toList]) ∨
    ∃ r call state caption, s.statuses.get? device.id = some r ∧
    Offered device.id r call state caption ∧
      (deviceRow device (s.statuses.get? device.id)).caption = caption ∧
      s.press device =
        ({ s with
            statuses := s.statuses.set device.id ⟨state, r.pairing, "Request in progress.".toList⟩
            actions := s.actions ++ [⟨device, r.pairing⟩] }, [call]) := by
  unfold QuickAccess.press
  split
  · exact .inl rfl
  · rename_i hpairs
    refine .inr ?_
    cases hstatus : s.statuses.get? device.id with
    | none => simp [hstatus, deviceRow, isPending] at h
    | some r =>
      obtain ⟨state, shown, message⟩ := r
      simp only [hstatus, deviceRow, isPending, shownPairing, Option.map_some,
        Option.getD_some] at h hpairs
      cases state with
      | offline =>
        refine ⟨_, _, _, _, rfl, .start rfl, rfl, ?_⟩
        simp [QuickAccess.act, hstatus, shownPairing]
      | online =>
        cases shown with
        | paired =>
          refine ⟨_, _, _, _, rfl, .stop rfl rfl, rfl, ?_⟩
          simp [QuickAccess.act, hstatus, shownPairing]
        | unpaired | pairing | pairingFailed | pairingExpired => simp at h hpairs
      | starting | stopping | unknown => simp at h

inductive PanelStep (s : QuickAccess) : PanelInput → QuickAccess → List PanelCall → Prop
  | refresh : s.mounted = true → PanelStep s .refresh s.refresh.1 s.refresh.2
  | refreshed : generation ∈ s.polls → PanelStep s (.refreshed generation outcome)
      (s.refreshed generation outcome) []
  | settings : s.mounted = true → PanelStep s (.press row) s
      [.navigate "/decky-remote-power/settings".toList]
  | requested {row : Nat} {device : Device} {r : StatusResult} {call : PanelCall}
      {state : DeviceState} {caption : Text} : s.mounted = true → s.devices[row]? = some device →
        s.statuses.get? device.id = some r →
      Offered device.id r call state caption →
      (deviceRow device (s.statuses.get? device.id)).caption = caption →
      PanelStep s (.press row)
        { s with
          statuses := s.statuses.set device.id ⟨state, r.pairing, "Request in progress.".toList⟩
          actions := s.actions ++ [⟨device, r.pairing⟩] } [call]
  | acted : s.actions[i]? = some action →
      PanelStep s (.acted i outcome)
        ({ s with actions := s.actions.eraseIdx i }.acted action outcome) []
  | timeout : timer ∈ s.actionTimers →
      PanelStep s (.timeout timer) ({ s with actionTimers := s.actionTimers.erase timer }.refresh).1
        ({ s with actionTimers := s.actionTimers.erase timer }.refresh).2
  | unmount : s.mounted = true →
      PanelStep s .unmount
        { s with
          mounted := false, refreshGeneration := s.refreshGeneration + 1, actionTimers := [] } []

theorem panelStep_of_step (h : s.step input = some (s', out)) : PanelStep s input s' out := by
  cases input with
  | refresh =>
    simp only [QuickAccess.step] at h
    split at h
    · rename_i hmounted
      obtain ⟨rfl, rfl⟩ := Prod.mk.inj (Option.some.inj h)
      exact .refresh hmounted
    · cases h
  | refreshed generation outcome =>
    simp only [QuickAccess.step] at h
    split at h
    · rename_i hpoll
      cases h
      exact .refreshed hpoll
    · cases h
  | press row =>
    simp only [QuickAccess.step] at h
    split at h
    · rename_i device hdevice
      split at h
      · rename_i hpressed
        rcases press_cases hpressed.2 with heq |
          ⟨r, call, state, caption, hstatus, hoffer, hcaption, heq⟩
        · rw [heq] at h
          cases h
          exact .settings hpressed.1
        · rw [heq] at h
          cases h
          exact .requested hpressed.1 hdevice hstatus hoffer hcaption
      · cases h
    · cases h
  | acted i outcome =>
    simp only [QuickAccess.step] at h
    split at h
    · rename_i action haction
      cases h
      exact .acted haction
    · cases h
  | timeout timer =>
    simp only [QuickAccess.step] at h
    split at h
    · rename_i htimer
      obtain ⟨rfl, rfl⟩ := Prod.mk.inj (Option.some.inj h)
      exact .timeout htimer
    · cases h
  | unmount =>
    simp only [QuickAccess.step] at h
    split at h
    · rename_i hmounted
      cases h
      exact .unmount hmounted
    · cases h

theorem requests_cases (h : PanelStep s input s' out) (he : Requests d ⟨s, input, s', out⟩) :
    ∃ row device r call state caption, input = .press row ∧
      s.devices[row]? = some device ∧ device.id = d ∧
      s.statuses.get? d = some r ∧ Offered d r call state caption ∧
      (deviceRow device (s.statuses.get? d)).caption = caption ∧ out = [call] ∧
      s'.statuses.get? d = some ⟨state, r.pairing, "Request in progress.".toList⟩ := by
  have hother (hcalls : ∀ call ∈ out, call = .getDevices ∨ call = .getStatuses) :
      ¬ Requests d ⟨s, input, s', out⟩ := by
    rintro (hmem | hmem)
    · rcases hcalls _ hmem with heq | heq <;> cases heq
    · rcases hcalls _ hmem with heq | heq <;> cases heq
  cases h with
  | refresh | timeout => exact absurd he (hother fun _ => refresh_calls)
  | refreshed | acted | unmount => exact absurd he (hother (by simp))
  | settings => simp [Requests] at he
  | @requested row device r call state caption hmounted hdevice hstatus hoffer hcaption =>
    obtain rfl : device.id = d := by
      cases hoffer with
      | start => simpa [Requests, eq_comm] using he
      | stop => simpa [Requests, eq_comm] using he
    exact ⟨row, device, r, call, state, caption, rfl, hdevice, rfl, hstatus, hoffer, hcaption, rfl,
      by rw [Dict.get?_set, if_pos rfl]⟩

theorem refreshed_statuses (s : QuickAccess) (generation : Nat)
    (outcome : Option (Settings × Dict Text StatusResult)) :
    (s.refreshed generation outcome).statuses = s.statuses ∨
      ∃ settings statuses, outcome = some (settings, statuses) ∧
        (s.refreshed generation outcome).statuses = statuses := by
  unfold QuickAccess.refreshed
  split
  · rcases outcome with _ | ⟨settings, statuses⟩
    · exact .inl rfl
    · exact .inr ⟨settings, statuses, rfl, rfl⟩
  · exact .inl rfl

theorem acted_statuses (s : QuickAccess) (action : PendingAction) (outcome : Option StatusResult) :
    (s.acted action outcome).statuses = s.statuses ∨
      (s.acted action outcome).statuses = s.statuses.set action.device.id
        (outcome.getD ⟨.unknown, action.shown, "The action failed. Try again.".toList⟩) := by
  unfold QuickAccess.acted
  split
  · refine .inr ?_
    cases outcome with
    | none => rfl
    | some result => rfl
  · exact .inl rfl

@[simp] theorem refreshed_mounted (s : QuickAccess) (generation : Nat)
    (outcome : Option (Settings × Dict Text StatusResult)) :
    (s.refreshed generation outcome).mounted = s.mounted := by
  unfold QuickAccess.refreshed
  split
  · rcases outcome with _ | ⟨settings, statuses⟩ <;> rfl
  · rfl

@[simp] theorem refreshed_timers (s : QuickAccess) (generation : Nat)
    (outcome : Option (Settings × Dict Text StatusResult)) :
    (s.refreshed generation outcome).actionTimers = s.actionTimers := by
  unfold QuickAccess.refreshed
  split
  · rcases outcome with _ | ⟨settings, statuses⟩ <;> rfl
  · rfl

theorem acted_frame (s : QuickAccess) (action : PendingAction) (outcome : Option StatusResult) :
    (s.acted action outcome).mounted = s.mounted ∧
      (s.acted action outcome).refreshGeneration = s.refreshGeneration ∧
      (s.acted action outcome).refreshInFlight = s.refreshInFlight ∧
      (s.acted action outcome).polls = s.polls ∧
      (s.mounted = false → s.acted action outcome = s) := by
  unfold QuickAccess.acted
  split
  · rename_i hmounted
    have hshown : s.mounted ≠ false := by simp [hmounted]
    cases outcome with
    | none => exact ⟨rfl, rfl, rfl, rfl, fun h => absurd h hshown⟩
    | some result => exact ⟨rfl, rfl, rfl, rfl, fun h => absurd h hshown⟩
  · exact ⟨rfl, rfl, rfl, rfl, fun _ => rfl⟩

theorem action_answer {L : Libraries} {c : Controller} {ending : Ending} {r : StatusResult}
    (hcall : ending.call.isPoll = false) (h : (ending.apply L c).2 = .ok r) :
    r.state = .starting ∨ r.state = .stopping := by
  obtain ⟨device, call, now⟩ := ending
  cases call with
  | probe | check => cases hcall
  | start sent paired =>
    rcases sent with _ | _
    · cases h
    · rcases paired with _ | _
      · cases h
      · cases h
        exact .inl rfl
  | stop outcome =>
    rcases outcome with _ | _ | _
    · cases h
    · cases h
    · cases h
      exact .inr rfl

-- ---------------------------------------------------------------------------
-- Between two requests
-- ---------------------------------------------------------------------------

/-- The row of `d` offers nothing, or shows what one of the polls found. -/
def Waits (d : Text) (log : List (Event QuickAccess PanelInput PanelCall)) (s : QuickAccess) :
    Prop :=
  (∃ r, s.statuses.get? d = some r ∧ (r.state = .starting ∨ r.state = .stopping ∨
    r.state = .unknown)) ∨ ∃ poll ∈ log, ∃ generation settings statuses,
      poll.input = .refreshed generation (some (settings, statuses)) ∧
        s.statuses.get? d = statuses.get? d

theorem Offered.waits {call : PanelCall} {state : DeviceState}
    (h : Offered d r call state caption) :
    state = .starting ∨ state = .stopping ∨ state = .unknown := by
  cases h with
  | start => exact .inl rfl
  | stop => exact .inr (.inl rfl)

theorem Waits.congr (h : Waits d log s) (heq : s'.statuses.get? d = s.statuses.get? d) :
    Waits d (log ++ [e]) s' := by
  unfold Waits
  rw [heq]
  rcases h with h | ⟨poll, hmem, h⟩
  · exact .inl h
  · exact .inr ⟨poll, List.mem_append_left _ hmem, h⟩

theorem Waits.set {r : StatusResult} (h : Waits d log s)
    (hstate : r.state = .starting ∨ r.state = .stopping ∨ r.state = .unknown)
    (heq : s'.statuses = s.statuses.set d' r) : Waits d (log ++ [e]) s' := by
  by_cases hd : d' = d
  · refine .inl ⟨r, ?_, hstate⟩
    rw [heq, Dict.get?_set, if_pos hd]
  · refine h.congr ?_
    rw [heq, Dict.get?_set, if_neg hd]

theorem Waits.next {input : PanelInput} (hi : Waits d log s) (hanswer : Answered s input)
    (h : PanelStep s input s' out) : Waits d (log ++ [⟨s, input, s', out⟩]) s' := by
  cases h with
  | refresh | timeout => exact hi.congr (by rw [refresh_statuses])
  | @refreshed generation outcome _ =>
    rcases refreshed_statuses s generation outcome with heq | ⟨settings, statuses, rfl, heq⟩
    · exact hi.congr (by rw [heq])
    · exact .inr ⟨_, List.mem_append_right _ List.mem_cons_self, generation, settings,
        statuses, rfl, by rw [heq]⟩
  | settings | unmount => exact hi.congr rfl
  | requested _ _ _ hoffer _ => exact hi.set hoffer.waits rfl
  | @acted i action outcome _ =>
    rcases acted_statuses { s with actions := s.actions.eraseIdx i } action outcome with heq | heq
    · exact hi.congr (by rw [heq])
    · refine hi.set ?_ heq
      cases outcome with
      | none => exact .inr (.inr rfl)
      | some result =>
        obtain ⟨L, c, ending, hcall, hresult⟩ := hanswer i result rfl
        exact (action_answer hcall hresult).elim .inl fun h => .inr (.inl h)

theorem Waits.run (h : Run (logged QuickAccess.step) Answered s log s') (h0 : Waits d [] s) :
    Waits d log s' := by
  refine h.invariant (I := fun log s => Waits d log s) h0 ?_
  intro log s input s' es hi hanswer hl
  obtain ⟨out, hs, rfl⟩ := logged_eq_some hl
  exact hi.next hanswer (panelStep_of_step hs)

-- ---------------------------------------------------------------------------
-- Polls and the end of the panel
-- ---------------------------------------------------------------------------

/-- One poll at most is under way. While the panel is shown, it is the one of the
current generation; afterwards there are no timers. -/
structure Tidy (s : QuickAccess) : Prop where
  polls : s.polls = s.refreshInFlight.toList
  current : s.mounted = true → ∀ generation ∈ s.polls, generation = s.refreshGeneration
  timers : s.mounted = false → s.actionTimers = []

theorem Tidy.refresh (hi : Tidy s) (hmounted : s.mounted = true) : Tidy s.refresh.1 := by
  unfold QuickAccess.refresh
  split
  · exact hi
  · rename_i hnone
    have hempty : s.polls = [] := by rw [hi.polls, hnone]; rfl
    refine ⟨by simp [hempty], by simp [hempty], fun h => ?_⟩
    rw [hmounted] at h
    cases h

theorem Tidy.next (hi : Tidy s) (h : PanelStep s input s' out) : Tidy s' := by
  obtain ⟨hpolls, hcurrent, htimers⟩ := hi
  cases h with
  | refresh hmounted => exact Tidy.refresh ⟨hpolls, hcurrent, htimers⟩ hmounted
  | timeout htimer =>
    by_cases hmounted : s.mounted = true
    · exact Tidy.refresh ⟨hpolls, hcurrent, fun h => absurd hmounted (by simpa using h)⟩ hmounted
    · rw [htimers (by simpa using hmounted)] at htimer
      cases htimer
  | @refreshed generation outcome hmem =>
    have hflight : s.refreshInFlight = some generation := by
      rw [hpolls] at hmem
      simpa using hmem
    have hnone : s.polls.erase generation = [] := by
      rw [hpolls, hflight]
      simp
    refine ⟨?_, ?_, ?_⟩
    · simp [QuickAccess.refreshed, hflight, hnone]
    · simp [QuickAccess.refreshed, hnone]
    · intro hunmounted
      rw [refreshed_mounted] at hunmounted
      rw [refreshed_timers]
      exact htimers hunmounted
  | settings => exact ⟨hpolls, hcurrent, htimers⟩
  | requested => exact ⟨hpolls, hcurrent, htimers⟩
  | @acted i action outcome _ =>
    obtain ⟨hmounted, hgeneration, hflight, hsame, hquiet⟩ :=
      acted_frame { s with actions := s.actions.eraseIdx i } action outcome
    refine ⟨by rw [hsame, hflight]; exact hpolls, ?_, ?_⟩
    · rw [hmounted, hsame, hgeneration]
      exact hcurrent
    · rw [hmounted]
      intro hunmounted
      rw [hquiet hunmounted]
      exact htimers hunmounted
  | unmount => exact ⟨hpolls, nofun, fun _ => rfl⟩

theorem Tidy.shows (hi : Tidy s) (hmounted : s.mounted = true) (hmem : generation ∈ s.polls)
    (outcome : Option (Settings × Dict Text StatusResult)) :
    PollShown s (s.refreshed generation outcome) outcome := by
  have hcurrent := hi.current hmounted generation hmem
  cases outcome <;> simp [PollShown, QuickAccess.refreshed, hmounted, hcurrent,
    QuickAccess.received]

theorem Tidy.opened : Tidy .opened := Tidy.refresh ⟨rfl, by simp [QuickAccess.initial], nofun⟩ rfl

structure Closed (last s : QuickAccess) : Prop where
  tidy : Tidy s
  unmounted : s.mounted = false
  devices : s.devices = last.devices
  statuses : s.statuses = last.statuses
  error : s.error = last.error

theorem Tidy.closed (hi : Tidy s) (h : PanelStep s .unmount s' out) : Closed s s' := by
  have htidy := hi.next h
  cases h with
  | unmount => exact ⟨htidy, rfl, rfl, rfl, rfl⟩

theorem Closed.next {last : QuickAccess} (hi : Closed last s) (h : PanelStep s input s' out) :
    Closed last s' ∧ out = [] := by
  obtain ⟨htidy, hunmounted, hdevices, hstatuses, herror⟩ := hi
  have htidy' := htidy.next h
  have hshown : s.mounted ≠ true := by simp [hunmounted]
  cases h with
  | refresh hmounted | settings hmounted | requested hmounted
  | unmount hmounted => exact absurd hmounted hshown
  | timeout htimer =>
    rw [htidy.timers hunmounted] at htimer
    cases htimer
  | refreshed =>
    refine ⟨⟨htidy', ?_, ?_, ?_, ?_⟩, rfl⟩ <;> simp [QuickAccess.refreshed, *]
  | @acted i action outcome _ =>
    obtain ⟨-, -, -, -, hquiet⟩ :=
      acted_frame { s with actions := s.actions.eraseIdx i } action outcome
    have heq := hquiet hunmounted
    rw [heq] at htidy' ⊢
    exact ⟨⟨htidy', hunmounted, hdevices, hstatuses, herror⟩, rfl⟩

theorem Closed.run {last : QuickAccess} (h : Run (logged QuickAccess.step) P s log s')
    (hi : Closed last s) :
    Closed last s' ∧ ∀ e ∈ log, e.seen = [] :=
  h.forall_logged hi fun hi _ hs => hi.next (panelStep_of_step hs)

end

/-- In every run of the panel: no more than one poll is under way, and a poll that
ends while the panel is shown is shown, also one that failed. A panel that was closed
asks nobody for anything any more, keeps what it showed and has no timers left,
however the polls and requests end that it leaves behind. -/
theorem closed_panel_is_quiet {s : QuickAccess}
    (h : Run (logged QuickAccess.step) (fun _ _ => True) .opened tr s) :
    s.polls.length ≤ 1 ∧
    (∀ e ∈ tr, ∀ generation outcome, e.input = .refreshed generation outcome →
      e.before.mounted = true → PollShown e.before e.after outcome) ∧
    ∀ pre e post, tr = pre ++ e :: post → e.input = .unmount →
      s.actionTimers = [] ∧ s.devices = e.before.devices ∧ s.statuses = e.before.statuses ∧
        s.error = e.before.error ∧ ∀ e' ∈ post, e'.seen = [] := by
  obtain ⟨htidy, hshows⟩ := h.forall_logged
    (Q := fun e => ∀ generation outcome, e.input = .refreshed generation outcome →
      e.before.mounted = true → PollShown e.before e.after outcome)
    Tidy.opened (fun {s input s' out} hi _ hs => by
      refine ⟨hi.next (panelStep_of_step hs), ?_⟩
      rintro generation outcome rfl hmounted
      cases panelStep_of_step hs with
      | refreshed hmem => exact hi.shows hmounted hmem outcome)
  refine ⟨?_, hshows, ?_⟩
  · rw [htidy.polls]
    cases s.refreshInFlight <;> simp
  · rintro pre e post rfl hinput
    obtain ⟨hbefore, -, hs, hafter⟩ := h.at_logged
    have htidy : Tidy e.before :=
      (hbefore.forall_logged (Q := fun _ => True) Tidy.opened
        fun hi _ hs => ⟨hi.next (panelStep_of_step hs), trivial⟩).1
    have hclosed : Closed e.before e.after := htidy.closed (hinput ▸ panelStep_of_step hs)
    obtain ⟨⟨htidy, hunmounted, hdevices, hstatuses, herror⟩, hquiet⟩ := hclosed.run hafter
    exact ⟨htidy.timers hunmounted, hdevices, hstatuses, herror, hquiet⟩

/-- A panel that is closed during its first poll shows nothing of it. -/
theorem closed_during_first_poll :
    ∃ e e' s, Run (logged QuickAccess.step) (fun _ _ => True) .opened
      [e, e'] s ∧ e.input = .unmount ∧
      e'.input = .refreshed 1 (some ({ devices := [sleeper] }, [])) ∧
      List.length s.devices = 0 := by
  have hrun : Run (logged QuickAccess.step) (fun _ _ => True) .opened ([] ++ [_] ++ [_]) _ :=
    .next (.next .refl (i := .unmount) trivial rfl)
      (i := .refreshed 1 (some ({ devices := [sleeper] }, []))) trivial rfl
  obtain ⟨-, -, hclosed⟩ := closed_panel_is_quiet hrun
  obtain ⟨-, hdevices, -⟩ := hclosed [] _ [_] rfl rfl
  exact ⟨_, _, _, hrun, rfl, rfl, congrArg List.length hdevices⟩

/-- In every run of the panel in which the backend answers requests for power as
the controller does: between two such requests for one PC, a poll has ended that
found it off, or on and paired. The second request is the one for what that poll
found, and the caption of the pressed button names it. So a PC is not asked twice
for one press or for what a poll found once, and an action that failed cannot be
tried again before the next poll. -/
theorem power_requests_follow_a_poll {d : Text} {s : QuickAccess}
    {e e' : Event QuickAccess PanelInput PanelCall}
    {pre mid post : List (Event QuickAccess PanelInput PanelCall)}
    (h : Run (logged QuickAccess.step) Answered .opened (pre ++ e :: (mid ++ e' :: post)) s)
    (he : Requests d e) (he' : Requests d e') :
    ∃ poll ∈ mid, ∃ generation settings statuses r call state caption,
      poll.input = .refreshed generation (some (settings, statuses)) ∧ statuses.get? d = some r ∧
      Offered d r call state caption ∧ e'.seen = [call] ∧
      ∃ row device, e'.input = .press row ∧ e'.before.devices[row]? = some device ∧ device.id = d ∧
        (deviceRow device (e'.before.statuses.get? d)).caption = caption := by
  obtain ⟨-, -, hfirst, hrest⟩ := h.at_logged
  obtain ⟨hmid, -, hsecond, -⟩ := hrest.at_logged
  have hwaits : Waits d mid e'.before := by
    obtain ⟨_, _, _, _, state, _, -, -, -, -, hoffer, -, -, hshown⟩ :=
      requests_cases (panelStep_of_step hfirst) he
    exact Waits.run hmid (.inl ⟨_, hshown, hoffer.waits⟩)
  obtain ⟨row, device, r, call, state, caption, hinput, hdevice, hd, hstatus, hoffer,
      hcaption, hseen, -⟩ :=
    requests_cases (panelStep_of_step hsecond) he'
  rcases hwaits with ⟨r', hstatus', hstate⟩ | ⟨poll, hpoll, generation, settings,
    statuses, hanswer, hfound⟩
  · rw [hstatus] at hstatus'
    cases hstatus'
    -- a row that waits offers nothing
    cases hoffer with
    | start hoffline => simp [hoffline] at hstate
    | stop honline => simp [honline] at hstate
  · exact ⟨poll, hpoll, generation, settings, statuses, r, call, state, caption, hanswer,
      hfound ▸ hstatus, hoffer, hseen, row, device, hinput, hdevice, hd, hcaption⟩

def sleeperPolled (state : DeviceState) : PanelInput :=
  .refreshed (if state = .offline then 1 else 2)
    (some ({ devices := [sleeper] }, [(sleeper.id, ⟨state, .paired, []⟩)]))

/-- A PC that is found off is started; found on and paired by the next poll, it is
stopped. -/
theorem sleeper_started_and_stopped :
    ∃ pre e mid e' post s, Run (logged QuickAccess.step) Answered .opened
      (pre ++ e :: (mid ++ e' :: post)) s ∧
      e.seen = [.startDevice sleeper.id] ∧ e'.seen = [.stopDevice sleeper.id] ∧
      ∃ poll ∈ mid, ∃ generation settings statuses r,
        poll.input = .refreshed generation (some (settings, statuses)) ∧
        statuses.get? sleeper.id = some r ∧ (r.state = .offline ∨ r.state = .online) := by
  have hrun : Run (logged QuickAccess.step) Answered .opened
      ([] ++ [_] ++ [_] ++ [_] ++ [_] ++ [_]) _ :=
    .next (.next (.next (.next (.next .refl
      (i := sleeperPolled .offline) nofun rfl)
      (i := .press 0) nofun rfl)
      (i := .refresh) nofun rfl)
      (i := sleeperPolled .online) nofun rfl)
      (i := .press 0) nofun rfl
  have hrun : Run (logged QuickAccess.step) Answered .opened ([_] ++ _ :: ([_, _] ++ _ :: [])) _ :=
    hrun
  obtain ⟨poll, hpoll, generation, settings, statuses, r, call, state, caption, hinput,
      hfound, hoffer, -⟩ :=
    power_requests_follow_a_poll hrun (.inl List.mem_cons_self) (.inr List.mem_cons_self)
  refine ⟨[_], _, [_, _], _, [], _, hrun, rfl, rfl, poll, hpoll, generation, settings,
    statuses, r, hinput, hfound, ?_⟩
  cases hoffer with
  | start h => exact .inl h
  | stop h => exact .inr h

end DeckyMyRig.Frontend
