import DeckyMyRig.Deck.Contents
import DeckyMyRig.Deck.Transitions
import DeckyMyRig.Lib.Pool

/-!
# A poll of all devices

`statuses` of `decky/py_modules/decky_my_rig/controller.py`: a pool of calls of
`_status`, one for each device of a snapshot of the store, of which a semaphore
lets so many run at a time. The calls end in any order; meanwhile `start`, `stop`
and other calls of `_status` go on with the same controller. `gather` collects
what each call returned or raised.
-/

namespace DeckyMyRig.Deck

open Octets Machine

structure StatusJob where
  device : Device
  secret : Option Bytes

/-- The clock and the nonce of a request, the answers of the network, and the
reading of `time.monotonic` at its end. -/
structure StatusCall where
  timestamp : Int
  nonce : Bytes
  answers : List Answer
  now : Nat

abbrev StatusPool := Pool.State Controller StatusJob (Except Raised StatusResult)

abbrev StatusInput := Pool.Input StatusCall Ending

/-- The check of `__init__`. -/
def checkConcurrency (statusConcurrency : Int) : Except Raised Nat :=
  if statusConcurrency < 1 then .error (.value "status_concurrency must be at least one".toList)
  else .ok statusConcurrency.toNat

/-- `limited_status`, from the answers of the network on. -/
def limitedStatus (L : Libraries) (U : Urllib) (job : StatusJob)
    (call : StatusCall) (c : Controller) :
    Controller × Except Raised StatusResult :=
  c.status L U job.device job.secret call.timestamp call.nonce call.answers call.now

namespace StatusPool

def start (c : Controller) (limit : Nat) (settings : Settings) (credentials : Credentials) :
    StatusPool :=
  Pool.start c limit (settings.devices.map fun device => ⟨device, credentials.get? device.id⟩)

def step (L : Libraries) (U : Urllib) :
    StatusPool → StatusInput → Option (StatusPool × List Unit) :=
  Pool.step (limitedStatus L U) fun ending c => (ending.apply L c).1

end StatusPool

def reported (device : Device) : Except Raised StatusResult → StatusResult
  | .ok result => result
  | .error _ => ⟨.unknown, if device.paired then .paired else .unpaired,
      "Status check failed.".toList⟩

def entries (devices : List Device) (results : List (Except Raised StatusResult)) :
    List (Text × StatusResult) :=
  (devices.zip results).map fun r => (r.1.id, reported r.1 r.2)

/-- `statuses`, once `gather` has the results. -/
def gathered (settings : Settings) (results : List (Except Raised StatusResult)) :
    Except Raised (Dict Text StatusResult) :=
  -- `zip(..., strict=True)`
  if results.length < settings.devices.length then
    .error (.value "zip() argument 2 is shorter than argument 1".toList)
  else if settings.devices.length < results.length then
    .error (.value "zip() argument 2 is longer than argument 1".toList)
  else .ok (.ofList (entries settings.devices results))

/-- The pairing that a report may show of a device with this credential. -/
def PairingState.Fits (secret : Option Bytes) (shown : PairingState) : Prop :=
  if secret.isSome then shown = .paired ∨ shown = .pairingFailed else shown = .unpaired

def Concerns (d : Text) (e : Event StatusPool StatusInput Unit) : Prop :=
  match e.input with
  | .acquire => False
  | .finish i _ => ∃ t, e.before.tasks[i]? = some t ∧ t.job.device.id = d
  | .other ending => ending.device.id = d

-- ---------------------------------------------------------------------------
-- One call
-- ---------------------------------------------------------------------------

section
variable {L : Libraries} {U : Urllib} {c : Controller} {job : StatusJob} {call : StatusCall}

theorem checked_fits {r : StatusResult} (h : (c.checked L device now outcome).2 = .ok r) :
    r.pairing = .paired ∨ r.pairing = .pairingFailed := by
  unfold Controller.checked at h
  split at h
  · split at h
    · cases h
      exact .inl rfl
    · cases h
  · split at h
    · cases h
      exact .inr rfl
    · cases h
      exact .inl rfl
    · cases h
      exact .inl rfl
    · cases h
      exact .inr rfl
    · split at h <;> cases h <;> exact .inl rfl
  · cases h

theorem probed_fits {r : StatusResult} (h : (c.probed device now outcome).2 = .ok r) :
    r.pairing = .unpaired := by
  unfold Controller.probed at h
  split at h
  · cases h
    rfl
  · split at h
    · cases h
      rfl
    · split at h <;> cases h <;> rfl
  · cases h

theorem limitedStatus_ends (L : Libraries) (U : Urllib) (job : StatusJob)
    (call : StatusCall) (c : Controller) :
    ∃ ending : Ending, ending.device = job.device ∧ ending.call.isPoll = true ∧
      limitedStatus L U job call c = ending.apply L c := by
  obtain ⟨device, secret⟩ := job
  cases secret with
  | none => exact ⟨⟨device, .probe _, call.now⟩, rfl, rfl, rfl⟩
  | some secret => exact ⟨⟨device, .check _, call.now⟩, rfl, rfl, rfl⟩

theorem limitedStatus_fits {r : StatusResult} (h : (limitedStatus L U job call c).2 = .ok r) :
    r.pairing.Fits job.secret := by
  obtain ⟨device, secret⟩ := job
  cases secret with
  | none => exact probed_fits h
  | some secret => exact checked_fits h

theorem limitedStatus_records {r : StatusResult} (h : (limitedStatus L U job call c).2 = .ok r) :
    (limitedStatus L U job call c).1.states.get? job.device.id = some r.state := by
  obtain ⟨ending, hdevice, hpoll, heq⟩ := limitedStatus_ends L U job call c
  rw [heq] at h ⊢
  rcases Ending.poll_concludes (c := c) (L := L) hpoll with ⟨e, happly⟩ |
    ⟨state, found, message, happly⟩
  · rw [happly] at h
    cases h
  · rw [happly] at h ⊢
    cases h
    rw [Controller.result, ← hdevice, Dict.get?_set, if_pos rfl]

theorem limitedStatus_frame (hne : job.device.id ≠ d) :
    (limitedStatus L U job call c).1.states.get? d = c.states.get? d := by
  obtain ⟨ending, hdevice, -, heq⟩ := limitedStatus_ends L U job call c
  rw [heq]
  exact (Ending.apply_frame (hdevice ▸ hne)).1

theorem reported_fits (contents : Contents py) (h : device ∈ contents.devices) :
    (reported device (limitedStatus L U ⟨device, contents.credentials.get? device.id⟩ call
      c).2).pairing.Fits
      (contents.credentials.get? device.id) := by
  cases hfound : (limitedStatus L U ⟨device, contents.credentials.get? device.id⟩ call c).2 with
  | ok r => exact limitedStatus_fits hfound
  | error e =>
    -- The flag of a device of the snapshot is the one its credential gives it.
    have hflag : device.paired = (contents.credentials.get? device.id).isSome := by
      rw [← Dict.has_eq_isSome, ← contents.flag_eq h]
    simp only [reported, PairingState.Fits, hflag]
    split <;> simp

-- ---------------------------------------------------------------------------
-- The answer
-- ---------------------------------------------------------------------------

theorem checkConcurrency_pos (h : checkConcurrency n = .ok limit) : 0 < limit := by
  unfold checkConcurrency at h
  split at h
  · cases h
  · cases h
    omega

theorem gathered_ok {settings : Settings} (h : results.length = settings.devices.length) :
    gathered settings results = .ok (.ofList (entries settings.devices results)) := by
  rw [gathered, if_neg (by omega), if_neg (by omega)]

theorem gathered_keys {devices : List Device} (h : results.length = devices.length) :
    ((Dict.ofList (entries devices results)).get? d).isSome ↔
      ∃ device ∈ devices, device.id = d := by
  have hkeys : (entries devices results).map Prod.fst = devices.map (·.id) := by
    calc (entries devices results).map Prod.fst
      _ = ((devices.zip results).map Prod.fst).map (·.id) := by simp [entries]
      _ = devices.map (·.id) := by rw [List.map_fst_zip h.ge]
  rw [Dict.isSome_get?_ofList, hkeys, List.mem_map]

theorem gathered_entry {devices : List Device} {i : Nat} (hdevice : devices[i]? = some device)
    (hresult : results[i]? = some result)
    (hlast : ∀ later ∈ devices.drop (i + 1), later.id ≠ device.id) :
    (Dict.ofList (entries devices results)).get? device.id = some (reported device result) := by
  obtain ⟨before, after, rfl, rfl, -⟩ := Pool.split_at hdevice
  obtain ⟨before', after', rfl, hlen, -⟩ := Pool.split_at hresult
  have hsplit : entries (before ++ device :: after) (before' ++ result :: after') =
      entries before before' ++ (device.id, reported device result) :: entries after after' := by
    simp [entries, List.zip_append hlen.symm]
  rw [hsplit]
  refine Dict.get?_ofList (e := (device.id, reported device result)) fun e he => ?_
  obtain ⟨⟨later, found⟩, hmem, rfl⟩ := List.mem_map.mp he
  refine hlast later ?_
  rw [List.append_cons, List.drop_left' (by simp)]
  exact (List.of_mem_zip hmem).1

-- ---------------------------------------------------------------------------
-- Runs
-- ---------------------------------------------------------------------------

theorem frame_run {P : StatusPool → StatusInput → Prop} {s s' : StatusPool}
    (h : Run (logged (StatusPool.step L U)) P s tr s') (hquiet : ∀ e ∈ tr, ¬ Concerns d e) :
    s'.shared.states.get? d = s.shared.states.get? d := by
  refine h.invariant (I := fun tr s' => (∀ e ∈ tr, ¬ Concerns d e) →
    s'.shared.states.get? d = s.shared.states.get? d) (fun _ => rfl) ?_ hquiet
  intro tr s₁ input s₂ es ih _ hl hquiet
  obtain ⟨out, hs, rfl⟩ := logged_eq_some hl
  rw [← ih fun e he => hquiet e (List.mem_append_left _ he)]
  have hstep := hquiet ⟨s₁, input, s₂, out⟩ (by simp)
  rcases Pool.step_cases hs with ⟨before, job, after, rfl, -, -, rfl⟩ |
    ⟨i, call, job, rfl, hjob, rfl⟩ |
    ⟨ending, rfl, rfl⟩
  · rfl
  · exact limitedStatus_frame fun hd => hstep ⟨_, hjob, hd⟩
  · exact (Ending.apply_frame hstep).1

end

/-- In every interleaving of a poll with other calls: no more than the permitted
number of requests are under way, and while a result is missing a request is
under way or can begin. The poll takes two steps for each device, and its answer
has an entry for each one. The entry of a device (the last one, if several have
its identifier) is what its own call returned with its own credential, or the
report of a failed check if that call raised, whatever the other calls did; the
pairing that it shows is the one in the store, and its state is the one the
controller goes on from unless a later call changes it. -/
theorem statuses_report_each_device {L : Libraries} {U : Urllib} {py : Python}
    {contents : Contents py}
    {c : Controller} {limit : Nat} {s : StatusPool} (hlimit : checkConcurrency n = .ok limit)
    (h : Run (logged (StatusPool.step L U)) (fun _ _ => True)
      (.start c limit contents.settings contents.credentials) tr s) :
    Pool.inUse s.tasks ≤ limit ∧
    (Pool.results s.tasks = none →
      (∃ (i : Nat) (job : StatusJob), s.tasks[i]? = some (.running job)) ∨
        ∃ s' out, StatusPool.step L U s .acquire = some (s', out)) ∧
    (tr.filter (!·.input.isOther)).length ≤ 2 * contents.devices.length ∧
    ∀ results, Pool.results s.tasks = some results →
      ∃ answer, gathered contents.settings results = .ok answer ∧
        (∀ d, (answer.get? d).isSome ↔ ∃ device ∈ contents.devices, device.id = d) ∧
        ∀ (i : Nat) (device : Device), contents.devices[i]? = some device →
          (∀ later ∈ contents.devices.drop (i + 1), later.id ≠ device.id) →
          ∃ pre e post call, tr = pre ++ e :: post ∧ e.input = .finish i call ∧
            (∀ e' ∈ post, e'.input.finishes i = false) ∧
            ∃ found, found = limitedStatus L U ⟨device, contents.credentials.get? device.id⟩ call
              e.before.shared ∧ answer.get? device.id = some (reported device found.2) ∧
              (reported device found.2).pairing.Fits (contents.credentials.get? device.id) ∧
              ((∀ e' ∈ post, ¬ Concerns device.id e') → ∀ r, found.2 = .ok r →
                s.shared.states.get? device.id = some r.state) := by
  have hserved := Pool.Served.run h
  have hplaces := hserved.places
  have hsteps := hserved.steps
  have hpermits := hserved.permits
  simp only [List.length_map] at hsteps
  refine ⟨by omega, hserved.progress (checkConcurrency_pos hlimit),
    Nat.le_of_add_right_le hsteps.le, ?_⟩
  intro results hresults
  obtain ⟨hlen, hplace⟩ := Pool.getElem?_results hresults
  have hlen : results.length = contents.devices.length := by
    rw [hlen, ← List.length_map Pool.Task.job, hplaces, List.length_map]
    rfl
  refine ⟨_, gathered_ok hlen, fun d => gathered_keys hlen, fun i device hdevice hlast => ?_⟩
  obtain ⟨result, hresult, hdone⟩ := hplace i ⟨device, contents.credentials.get? device.id⟩
    (by rw [hplaces, List.getElem?_map]; exact congrArg _ hdevice)
  obtain ⟨pre, e, post, call, rfl, hinput, hshared, rfl, -, honce⟩ := hserved.done _ _ _ hdone
  refine ⟨pre, e, post, call, rfl, hinput, honce, _, rfl,
    gathered_entry hdevice hresult hlast, ?_, ?_⟩
  · exact reported_fits contents (List.mem_of_getElem? hdevice)
  · intro hquiet r hr
    obtain ⟨-, -, -, hafter⟩ := h.at_logged
    rw [frame_run hafter hquiet, hshared]
    exact limitedStatus_records hr

def twoPcs : List Device :=
  [{ id := "den".toList, name := "Den".toList, address := "den.local".toList,
      mac := "AA:BB:CC:DD:EE:01".toList },
    { id := "attic".toList, name := "Attic".toList, address := "attic.local".toList,
      mac := "AA:BB:CC:DD:EE:02".toList }]

theorem twoPcs_normal (py : Python) : ∀ device ∈ twoPcs, device.Normal py := by
  intro device h
  rcases List.mem_pair.mp h with rfl | rfl
  · exact ⟨rfl, rfl, rfl, rfl, rfl⟩
  · exact ⟨rfl, rfl, rfl, rfl, rfl⟩

theorem twoPcs_identified :
    ∀ device ∈ twoPcs, storedIdentifier (.str device.id) = .ok device.id := by
  intro device h
  rcases List.mem_pair.mp h with rfl | rfl
  · rfl
  · rfl

def twoPcsContents : Contents ⟨fun _ => none, fun _ => [], fun _ => []⟩ :=
  .of twoPcs [] (twoPcs_normal _) twoPcs_identified keyed_nil

/-- With one permit and a broken answer for the first PC, the second one is still
checked, and found to be off. -/
theorem broken_answer_spares_attic :
    ∃ tr s results answer, Run (logged (StatusPool.step .sample ⟨fun _ _ => .refused⟩))
      (fun _ _ => True)
        (.start ⟨[], [], 120⟩ 1 twoPcsContents.settings twoPcsContents.credentials) tr s ∧
      Pool.inUse s.tasks ≤ 1 ∧ Pool.results s.tasks = some results ∧
      gathered twoPcsContents.settings results = .ok answer ∧
      answer.get? "den".toList = some ⟨.unknown, .unpaired, "Status check failed.".toList⟩ ∧
      (answer.get? "attic".toList).map (·.state) = some .offline := by
  let call (answers : List Answer) : StatusCall := ⟨0, [], answers, 0⟩
  have hrun : Run (logged (StatusPool.step .sample ⟨fun _ _ => .refused⟩)) (fun _ _ => True)
      (.start ⟨[], [], 120⟩ 1 twoPcsContents.settings twoPcsContents.credentials) _ _ :=
    .next (.next (.next (.next .refl (i := .acquire) trivial rfl)
      (i := .finish 0 (call [.fault .http])) trivial rfl) (i := .acquire) trivial rfl)
      (i := .finish 1 (call [])) trivial rfl
  obtain ⟨hinUse, -, -, hanswer⟩ := statuses_report_each_device (n := 1) rfl hrun
  obtain ⟨answer, hgathered, -⟩ := hanswer _ rfl
  refine ⟨_, _, _, answer, hrun, hinUse, rfl, hgathered, ?_⟩
  cases hgathered
  exact ⟨rfl, rfl⟩

end DeckyMyRig.Deck
