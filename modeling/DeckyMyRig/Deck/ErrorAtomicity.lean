import DeckyMyRig.Deck.CrashAtomicity
import Mathlib.Tactic.IntervalCases

/-!
# Calls that raise

One file-system call of an `upsert`, `delete` or `mark_paired` raises, and the
exception reaches the caller. The store holds what it held before only if the
call that raised came no later than its `os.replace`, or if what had been
replaced by then was replaced by the same.
-/

namespace DeckyMyRig.Deck

open Octets Texts Faults Checked Store

-- ---------------------------------------------------------------------------
-- Calls and their steps
-- ---------------------------------------------------------------------------

inductive Call
  | upsert (values : Dict Text Json) (deviceId : Option Text) (uuid : Text)
  | commit (operation : Commit)

def Call.run (py : Python) : Call → Action Unit
  | .upsert values deviceId uuid => do
    let _ ← Store.upsert py values deviceId uuid
  | .commit operation => operation.run py

/-- The directory has changed by the time this step is taken. -/
def WriteStep.late : WriteStep → Bool
  | .openDirectory | .syncDirectory => true
  | _ => false

def writeSteps (file : File) : List FileStep :=
  [.write file .create, .write file .write, .write file .sync, .write file .chmod,
    .write file .replace, .write file .openDirectory, .write file .syncDirectory]

def removeSteps : List FileStep := [.remove .unlink, .remove .openDirectory, .remove .syncDirectory]

def recoverySteps : List FileStep := writeSteps .credentials ++ writeSteps .settings ++ removeSteps

def commitSteps : List FileStep := writeSteps .transaction ++ recoverySteps

def Disk.recoverySteps (disk : Disk) : List FileStep :=
  if disk.transaction.isSome then Deck.recoverySteps else []

/-- The steps that the call takes after them. A device that `upsert` refuses, or
one that `mark_paired` does not find, is not written. -/
def Call.steps (c : Contents py) : Call → List FileStep
  | .upsert values deviceId uuid =>
    if (newDevice py values (identifierOr deviceId uuid)).toBool then writeSteps .settings else []
  | .commit (.delete _) => commitSteps
  | .commit (.markPaired deviceId _ _) =>
    if c.devices.any (·.id = deviceId) then commitSteps else []

-- ---------------------------------------------------------------------------
-- Calls that change nothing
-- ---------------------------------------------------------------------------

def Call.KeepsSettings (c : Contents py) : Call → Prop
  | .upsert values deviceId uuid =>
    ∃ device existing, newDevice py values (identifierOr deviceId uuid) = .ok device ∧
      c.devices.find? (·.id = device.id) = some existing ∧ device.keepHost existing = existing
  | .commit (.delete deviceId) => ∀ device ∈ c.devices, device.id ≠ deviceId
  | .commit (.markPaired deviceId _ facts) =>
    ∀ device, c.devices.find? (·.id = deviceId) = some device →
      device.hostId = .str facts.hostId ∧ device.hostVersion = .str facts.hostVersion ∧
        device.protocolVersion = .int facts.protocolVersion

def Call.KeepsCredentials (c : Contents py) : Call → Prop
  | .upsert _ _ _ => True
  | .commit (.delete deviceId) => c.credentials.has deviceId = false
  | .commit (.markPaired deviceId credential _) => c.credentials.get? deviceId = some credential

/-- An exception of this step does no harm: it comes before the directory
changes, or the change that it leaves behind is none. -/
def Call.Spared (c : Contents py) (call : Call) : FileStep → Prop
  | .write .settings step => step.late = true → call.KeepsSettings c
  | .write .credentials step => step.late = true → call.KeepsCredentials c
  | .write .transaction step => step.late = true → call.KeepsCredentials c ∧ call.KeepsSettings c
  | .remove _ => call.KeepsCredentials c ∧ call.KeepsSettings c

-- ---------------------------------------------------------------------------
-- The step that raises
-- ---------------------------------------------------------------------------

variable {py : Python}

theorem atomicWrite_raises (py : Python) {file : File} (h : (writeSteps file)[k]? = some step)
    (value : Json) (disk : Disk) :
    ∃ s, step = .write file s ∧ atomicWrite py file value disk (plan k .raises) =
      (.raised (.os step), if s.late then disk.replace (py.dumps value) file else disk, []) := by
  have hk : k < 7 := (List.getElem?_eq_some_iff.mp h).1
  interval_cases k <;> cases h <;> exact ⟨_, rfl, rfl⟩

/-- What a commit leaves when a step of it raises. -/
def interrupted (py : Python) (settings : Settings) (credentials previousCredentials : Credentials)
    (disk : Disk) : FileStep → Disk
  | .write .transaction step =>
    if step.late then disk.replace (py.dumps (transactionDocument settings credentials))
      .transaction
    else disk
  | .write .credentials step =>
    -- the flag is not set, so nothing is rolled back
    if step.late then (disk.replace (py.dumps credentials.document) .credentials).unlink
    else disk.unlink
  | .write .settings step =>
    let disk := disk.replace (py.dumps previousCredentials.document) .credentials
    if step.late then (disk.replace (py.dumps settings.publicDict) .settings).unlink
    else disk.unlink
  | .remove step =>
    let disk := (disk.replace (py.dumps credentials.document) .credentials).replace
      (py.dumps settings.publicDict) .settings
    if step = .unlink then disk.replace (py.dumps (transactionDocument settings credentials))
      .transaction
    else disk.unlink

theorem commit_raises (h : commitSteps[k]? = some step) (settings previousSettings : Settings)
    (credentials previousCredentials : Credentials) (disk : Disk) :
    Store.commit py settings credentials previousSettings previousCredentials disk
      (plan k .raises) =
      (.raised (.os step), interrupted py settings credentials previousCredentials disk step,
        []) := by
  have hk : k < 24 := (List.getElem?_eq_some_iff.mp h).1
  interval_cases k <;> cases h <;> rfl

theorem commit_returns (settings previousSettings : Settings)
    (credentials previousCredentials : Credentials) (disk : Disk) (k : Nat) :
    (Store.commit py settings credentials previousSettings previousCredentials disk
      (plan (k + 24) .raises)).1 = .ok () :=
  rfl

-- ---------------------------------------------------------------------------
-- What is read afterwards
-- ---------------------------------------------------------------------------

theorem snapshot_none {disk : Disk} (h : disk.transaction = none) (v : Settings × Credentials) :
    (snapshot py disk []).1 = .ok v ↔ readFiles py disk = .ok v := by
  have hcredentials : Store.credentials py disk [] =
      Prog.lift (readCredentials py disk.credentials) disk [] := by
    show Prog.bind (recoverTransaction py) _ disk [] = _
    simp only [Prog.bind, recover_none h]
    rfl
  have hsnapshot : snapshot py disk [] = Prog.lift (readFiles py disk) disk [] := by
    show Prog.bind (recoverTransaction py) (fun _ => Prog.bind (Store.credentials py) _) disk [] = _
    simp only [Prog.bind, recover_none h, hcredentials, readFiles]
    cases readCredentials py disk.credentials with
    | error e => rfl
    | ok credentials =>
      show Prog.bind (Prog.lift (readSettings py disk.settings credentials)) _ disk [] = _
      cases hs : readSettings py disk.settings credentials with
      | error e => simp [hs, Prog.bind, Prog.lift, Prog.throw, bind, Except.bind]
      | ok settings => simp [hs, Prog.bind, Prog.lift, Prog.pure, bind, Except.bind, pure]
  rw [hsnapshot]
  cases readFiles py disk with
  | error e => simp [Prog.lift, Prog.throw]
  | ok v' => simp [Prog.lift, Prog.pure]

section
variable {devices : List Device} (hn : ∀ device ∈ devices, device.Normal py) {c : Contents py}

theorem identified_of_flagged (h : Settings.flagged { devices } c.credentials = c.settings) :
    ∀ device ∈ devices, storedIdentifier (.str device.id) = .ok device.id := by
  intro device hd
  have hmem : { device with paired := c.credentials.has device.id } ∈ c.settings.devices := by
    rw [← h]
    exact List.mem_map.mpr ⟨device, hd, rfl⟩
  exact c.identified { device with paired := c.credentials.has device.id } hmem

include hn

theorem readSettings_iff (hr : py.Readable (Settings.publicDict { devices })) :
    readSettings py (some (py.dumps (Settings.publicDict { devices }))) c.credentials =
      .ok c.settings ↔ Settings.flagged { devices } c.credentials = c.settings := by
  rw [readSettings_dumps hr, decodeSettings_publicDict]
  constructor
  · intro h
    split at h
    · rename_i decoded hdecoded
      have hid := identified_of_decoded hn hdecoded
      rw [decodeDevices_publicDict hn hid] at hdecoded
      cases hdecoded
      rw [← Settings.flagged_unpaired]
      exact Except.ok.inj h
    · cases h
  · intro h
    rw [decodeDevices_publicDict hn (identified_of_flagged h), ← h]
    exact congrArg Except.ok (Settings.flagged_unpaired devices c.credentials)

end

theorem readCredentials_iff {values : Credentials} {c : Contents py}
    (hr : py.Readable values.document) :
    readCredentials py (some (py.dumps values.document)) = .ok c.credentials ↔
      values = c.credentials := by
  constructor
  · intro h
    simp only [readCredentials, json_dumps hr, ok_bind] at h
    split at h
    · rename_i hd
      cases h
      exact (eq_of_decodeCredentials hd).symm
    · cases h
  · rintro rfl
    exact readCredentials_dumps hr (decodeCredentials_document c.keyed)

theorem readTransaction_of_snapshot {disk : Disk} (ht : disk.transaction = some text)
    (h : (snapshot py disk []).1 = .ok v) :
    ∃ documents, readTransaction py text = .ok documents := by
  cases hread : readTransaction py text with
  | ok documents => exact ⟨documents, rfl⟩
  | error e =>
    have hrecover : recoverTransaction py disk [] =
        (.raised (.store recoveryMessage), disk, []) := by
      rw [recover_some ht, hread]
      rfl
    have hsnapshot : snapshot py disk [] = (.raised (.store recoveryMessage), disk, []) := by
      show Prog.bind (recoverTransaction py) _ disk [] = _
      simp only [Prog.bind, hrecover]
    rw [hsnapshot] at h
    cases h

/-- A transaction that a commit has written is rolled forward: what is read then
is stored already, if both of its documents are. -/
theorem snapshot_pending {devices : List Device} {values : Credentials} {disk : Disk}
    {c : Contents py}
    (hn : ∀ device ∈ devices, device.Normal py) (hr : Readable py { devices } values)
    (ht : disk.transaction = some (py.dumps (transactionDocument { devices } values))) :
    (snapshot py disk []).1 = .ok c.value ↔
      values = c.credentials ∧ Settings.flagged { devices } c.credentials = c.settings := by
  -- once the decoders accept the two documents, they are contents
  have haccepted : (∀ device ∈ devices, storedIdentifier (.str device.id) = .ok device.id) →
      (∀ e ∈ values, e.1 ≠ [] ∧ e.2.length = 32) → ((snapshot py disk []).1 = .ok c.value ↔
        values = c.credentials ∧ Settings.flagged { devices } c.credentials = c.settings) := by
    intro hid hk
    have hcarries : Carries py disk _ _ _ := (carries_written hn hid hk hr disk).of_transaction ht
    rw [snapshot_holds hcarries.holds]
    simp only [Result.ok.injEq, Contents.value, Prod.mk.injEq]
    constructor
    · rintro ⟨hs, rfl⟩
      exact ⟨rfl, hs⟩
    · rintro ⟨rfl, hs⟩
      exact ⟨hs, rfl⟩
  constructor
  · intro h
    obtain ⟨documents, hread⟩ := readTransaction_of_snapshot ht h
    rw [readTransaction_document hr.transaction] at hread
    obtain ⟨values', hvalues, hread⟩ := bind_eq_ok hread
    obtain ⟨settings, hsettings, -⟩ := bind_eq_ok hread
    have hid : ∀ device ∈ devices, storedIdentifier (.str device.id) = .ok device.id := by
      rw [decodeSettings_publicDict] at hsettings
      split at hsettings
      · rename_i hdecoded
        exact identified_of_decoded hn hdecoded
      · cases hsettings
    have hk := decodeCredentials_ok hvalues
    rw [eq_of_decodeCredentials hvalues] at hk
    exact (haccepted hid hk).mp h
  · rintro ⟨rfl, h⟩
    exact (haccepted (identified_of_flagged h) c.keyed).mpr ⟨rfl, h⟩

theorem interrupted_iff {disk : Disk} {c : Contents py} {devices : List Device}
    {values : Credentials} (hd : Settled py disk c) (hn : ∀ device ∈ devices, device.Normal py)
    (hr : Readable py { devices } values)
    (hp : py.Readable c.credentials.document) (step : FileStep) :
    (snapshot py (interrupted py { devices } values c.credentials disk step) []).1 = .ok c.value ↔
      match step with
      | .write .transaction s => s.late = true →
        values = c.credentials ∧ Settings.flagged { devices } c.credentials = c.settings
      | .write .credentials s => s.late = true → values = c.credentials
      | .write .settings s =>
        s.late = true → Settings.flagged { devices } c.credentials = c.settings
      | .remove _ =>
        values = c.credentials ∧ Settings.flagged { devices } c.credentials = c.settings := by
  have hprevious := readCredentials_dumps hp (decodeCredentials_document c.keyed)
  cases step with
  | remove s =>
    simp only [interrupted]
    split
    · exact snapshot_pending hn hr rfl
    · rw [snapshot_none rfl, readFiles_iff]
      exact and_congr (readCredentials_iff hr.credentials) (readSettings_iff hn hr.settings)
  | write file s =>
    cases file with
    | transaction =>
      simp only [interrupted]
      split
      · rename_i hlate
        simp only [hlate, true_imp_iff]
        exact snapshot_pending hn hr rfl
      · rename_i hearly
        refine iff_of_true ?_ fun hlate => absurd hlate hearly
        rw [snapshot_settled hd]
    | credentials =>
      simp only [interrupted]
      split
      · rename_i hlate
        simp only [hlate, true_imp_iff]
        rw [snapshot_none rfl, readFiles_iff]
        exact (and_iff_left hd.read.2).trans (readCredentials_iff hr.credentials)
      · rename_i hearly
        refine iff_of_true ?_ fun hlate => absurd hlate hearly
        rw [snapshot_none rfl, readFiles_iff]
        exact hd.read
    | settings =>
      simp only [interrupted]
      split
      · rename_i hlate
        simp only [hlate, true_imp_iff]
        rw [snapshot_none rfl, readFiles_iff]
        exact (and_iff_right hprevious).trans (readSettings_iff hn hr.settings)
      · rename_i hearly
        refine iff_of_true ?_ fun hlate => absurd hlate hearly
        rw [snapshot_none rfl, readFiles_iff]
        exact ⟨hprevious, hd.read.2⟩

-- ---------------------------------------------------------------------------
-- Settings that stay the same
-- ---------------------------------------------------------------------------

theorem map_flag (c : Contents py) {devices : List Device}
    (h : ∀ device ∈ devices, device ∈ c.devices) :
    devices.map (fun device => { device with paired := c.credentials.has device.id }) =
      devices := by
  refine (List.map_congr_left fun device hd => ?_).trans (List.map_id devices)
  exact c.flag_eq (h device hd)

theorem flagged_split {c : Contents py} {before after : List Device} {device device' : Device}
    (hc : c.devices = before ++ device :: after) :
    Settings.flagged { devices := before ++ device' :: after } c.credentials = c.settings ↔
      { device' with paired := c.credentials.has device'.id } = device := by
  have hbefore : ∀ d ∈ before, d ∈ c.devices := fun d hd => by simp [hc, hd]
  have hafter : ∀ d ∈ after, d ∈ c.devices := fun d hd => by simp [hc, hd]
  simp only [Settings.flagged, Contents.settings, hc, List.map_append, List.map_cons,
    map_flag c hbefore, map_flag c hafter, Settings.mk.injEq, true_and, List.append_cancel_left_eq,
    List.cons.injEq, and_true]

theorem find_split {p : α → Bool} {before after : List α} (hbefore : ∀ y ∈ before, p y = false)
    (hx : p x = true) : (before ++ x :: after).find? p = some x := by
  rw [List.find?_append, List.find?_eq_none.mpr fun y hy => by simp [hbefore y hy]]
  simp [hx]

theorem Commit.credentials_iff (operation : Commit) (c : Contents py) :
    operation.credentials c.credentials = c.credentials ↔
      (Call.commit operation).KeepsCredentials c := by
  cases operation with
  | delete deviceId => exact Dict.remove_eq_self_iff
  | markPaired deviceId credential facts => exact Dict.set_eq_self_iff

theorem pairWith_eq_iff {c : Contents py} {device : Device} (hd : device ∈ c.devices)
    (facts : HostFacts) :
    { device.pairWith facts with paired := c.credentials.has device.id } = device ↔
      device.hostId = .str facts.hostId ∧ device.hostVersion = .str facts.hostVersion ∧
        device.protocolVersion = .int facts.protocolVersion := by
  have hflag : c.credentials.has device.id = device.paired := congrArg Device.paired (c.flag_eq hd)
  rw [hflag]
  constructor
  · intro h
    exact ⟨(congrArg Device.hostId h).symm, (congrArg Device.hostVersion h).symm,
      (congrArg Device.protocolVersion h).symm⟩
  · rintro ⟨hid, hversion, hprotocol⟩
    rw [Device.pairWith, ← hid, ← hversion, ← hprotocol]

theorem Commit.settings_iff (operation : Commit) (c : Contents py) :
    Settings.flagged { devices := (operation.settings c.settings).devices } c.credentials =
      c.settings ↔ (Call.commit operation).KeepsSettings c := by
  cases operation with
  | delete deviceId =>
    have hmem : ∀ d ∈ c.devices.filter (·.id ≠ deviceId), d ∈ c.devices :=
      fun d hd => List.mem_of_mem_filter hd
    have hmap := map_flag c hmem
    simp only [Settings.flagged, Commit.settings, Contents.settings, hmap, Settings.mk.injEq,
      true_and, List.filter_eq_self, Call.KeepsSettings, decide_eq_true_eq, ne_eq]
  | markPaired deviceId credential facts =>
    rcases updateFirst_cases (fun device : Device => device.id = deviceId) (Device.pairWith facts)
      c.devices with ⟨hnone, hall⟩ | ⟨before, device, after, hsplit, hbefore, hdevice, hsome⟩
    · have hfind : c.devices.find? (·.id = deviceId) = none :=
        List.find?_eq_none.mpr fun d hd => by simp [hall d hd]
      simp only [Commit.settings, Contents.settings, hnone, Call.KeepsSettings, hfind]
      exact iff_of_true c.flagged (by simp)
    · have hmem : device ∈ c.devices := by simp [hsplit]
      have hfind : c.devices.find? (·.id = deviceId) = some device := by
        rw [hsplit]
        exact find_split hbefore hdevice
      simp only [Commit.settings, Contents.settings, hsome, Call.KeepsSettings, hfind,
        Option.some.injEq, forall_eq']
      exact (flagged_split hsplit).trans (pairWith_eq_iff hmem facts)

theorem newDevice_eq_ok {id : Text} : newDevice py values id = .ok device ↔
    ∃ address mac port broadcastAddress,
      validateAddress py (getOr values "address".toList .null) = .ok address ∧
      normalizeMac (py.str (getOr values "mac".toList (.str []))) = .ok mac ∧
      validatePort py (getOr values "port".toList .null) true = .ok port ∧
      validateBroadcast py (getOr values "broadcastAddress".toList .null) = .ok broadcastAddress ∧
      strip isSpace (py.str (getOr values "name".toList (.str []))) ≠ [] ∧
      device = {
        id
        name := strip isSpace (py.str (getOr values "name".toList (.str [])))
        address, mac
        macOverridden := .bool (getOr values "macOverridden".toList (.bool false)).truthy
        port, broadcastAddress } := by
  constructor
  · intro h
    obtain ⟨address, haddress, h⟩ := bind_eq_ok h
    obtain ⟨mac, hmac, h⟩ := bind_eq_ok h
    obtain ⟨port, hport, h⟩ := bind_eq_ok h
    obtain ⟨broadcast, hbroadcast, h⟩ := bind_eq_ok h
    split at h
    · cases h
    · rename_i hname
      exact ⟨address, mac, port, broadcast, haddress, hmac, hport, hbroadcast,
        fun hnil => hname (List.isEmpty_iff.mpr hnil), (Except.ok.inj h).symm⟩
  · rintro ⟨address, mac, port, broadcast, haddress, hmac, hport, hbroadcast, hname, rfl⟩
    rw [newDevice, haddress, hmac, hport, hbroadcast]
    exact if_neg fun hnil => hname (List.isEmpty_iff.mp hnil)

theorem newDevice_ok {id : Text} (h : newDevice py values id = .ok device) :
    device.Normal py ∧ device.id = id := by
  obtain ⟨address, mac, port, broadcast, haddress, hmac, hport, hbroadcast, hname, rfl⟩ :=
    newDevice_eq_ok.mp h
  refine ⟨⟨?_, validateAddress_fixed haddress, normalizeMac_fixed hmac,
    validatePort_fixed (validatePort_range hport), validateBroadcast_fixed hbroadcast⟩, rfl⟩
  simp only [storedName, strip_strip]
  exact if_neg fun hnil => hname (List.isEmpty_iff.mp hnil)

theorem forall_putDevice {P : Device → Prop} {devices : List Device} (h : ∀ d ∈ devices, P d)
    (hdevice : P device) (hkeep : ∀ existing, P (device.keepHost existing)) :
    ∀ d ∈ (putDevice devices device).2, P d := by
  intro d hd
  rcases updateFirst_cases (fun d : Device => d.id = device.id) device.keepHost devices with
    ⟨hnone, -⟩ | ⟨before, existing, after, hsplit, -, -, hsome⟩
  · simp only [putDevice, hnone, List.mem_append, List.mem_singleton] at hd
    rcases hd with hd | rfl
    · exact h d hd
    · exact hdevice
  · simp only [putDevice, hsome, List.mem_append, List.mem_cons] at hd
    rcases hd with hd | rfl | hd
    · exact h d (by simp [hsplit, hd])
    · exact hkeep existing
    · exact h d (by simp [hsplit, hd])

theorem putDevice_normal {devices : List Device} (hdevice : Device.Normal py device)
    (h : ∀ d ∈ devices, d.Normal py) : ∀ d ∈ (putDevice devices device).2, d.Normal py := by
  obtain ⟨hname, haddress, hmac, hport, hbroadcast⟩ := hdevice
  exact forall_putDevice h ⟨hname, haddress, hmac, hport, hbroadcast⟩
    fun existing => ⟨hname, haddress, hmac, hport, hbroadcast⟩

theorem putDevice_identified {devices : List Device}
    (hdevice : storedIdentifier (.str device.id) = .ok device.id)
    (h : ∀ d ∈ devices, storedIdentifier (.str d.id) = .ok d.id) :
    ∀ d ∈ (putDevice devices device).2, storedIdentifier (.str d.id) = .ok d.id :=
  forall_putDevice h hdevice fun _ => hdevice

theorem putDevice_iff (c : Contents py) (device : Device) :
    Settings.flagged { devices := (putDevice c.devices device).2 } c.credentials = c.settings ↔
      ∃ existing, c.devices.find? (·.id = device.id) = some existing ∧
        device.keepHost existing = existing := by
  rcases updateFirst_cases (fun d : Device => d.id = device.id) device.keepHost c.devices with
    ⟨hnone, hall⟩ | ⟨before, existing, after, hsplit, hbefore, hid, hsome⟩
  · have hfind : c.devices.find? (·.id = device.id) = none :=
      List.find?_eq_none.mpr fun d hd => by simp [hall d hd]
    simp only [putDevice, hnone, hfind]
    refine iff_of_false ?_ (by simp)
    intro h
    have hlen := congrArg (List.length ∘ Settings.devices) h
    simp [Settings.flagged, Contents.settings] at hlen
  · have hmem : existing ∈ c.devices := by simp [hsplit]
    have hfind : c.devices.find? (·.id = device.id) = some existing := by
      rw [hsplit]
      exact find_split hbefore hid
    have hflag : c.credentials.has device.id = existing.paired := by
      rw [← of_decide_eq_true hid]
      exact congrArg Device.paired (c.flag_eq hmem)
    simp only [putDevice, hsome, hfind, Option.some.injEq, exists_eq_left']
    rw [flagged_split hsplit]
    show { device.keepHost existing with paired := c.credentials.has device.id } = existing ↔ _
    rw [hflag]
    rfl

-- ---------------------------------------------------------------------------
-- Error atomicity
-- ---------------------------------------------------------------------------

/-- If the method raises, the next `snapshot` returns what the store held. -/
def ErrorAtomic (c : Contents py) (method : Action α) (disk : Disk) (fates : List Fate) : Prop :=
  (∃ e, (method disk fates).1 = .raised e) →
    (snapshot py (method disk fates).2.1 []).1 = .ok c.value

def Call.Readable (c : Contents py) : Call → Prop
  | .upsert values deviceId uuid => ∀ device,
    newDevice py values (identifierOr deviceId uuid) = .ok device →
      py.Readable (Settings.publicDict { devices := (putDevice c.devices device).2 })
  | .commit operation =>
    Deck.Readable py (operation.settings c.settings) (operation.credentials c.credentials) ∧
      py.Readable c.credentials.document

theorem errorAtomic_map {c : Contents py} {method : Action α} {f : α → β} {disk : Disk}
    {fates : List Fate} :
    ErrorAtomic c (method >>= fun a => pure (f a)) disk fates ↔
      ErrorAtomic c method disk fates := by
  have hrun : (method >>= fun a => pure (f a) : Action β) disk fates =
      Prog.bind method (fun a => Prog.pure (f a)) disk fates := rfl
  unfold ErrorAtomic
  rw [hrun, Prog.bind]
  rcases method disk fates with ⟨r, disk', rest⟩
  cases r with
  | ok a => simp [Prog.pure]
  | raised e => simp
  | crashed => simp

theorem errorAtomic_congr {c : Contents py} {method method' : Action α}
    (h : method disk fates = method' disk' fates') :
    ErrorAtomic c method disk fates ↔ ErrorAtomic c method' disk' fates' := by
  unfold ErrorAtomic
  rw [h]

theorem errorAtomic_raised {c : Contents py} {method : Action α} {disk : Disk}
    (hd : Settled py disk c) (h : method disk fates = (.raised e, disk, rest)) :
    ErrorAtomic c method disk fates := by
  intro _
  rw [h]
  exact congrArg Prod.fst (snapshot_settled hd [])

section
variable {c : Contents py} {disk : Disk} (hd : Settled py disk c) (k : Nat)
include hd

theorem commit_errorAtomic (operation : Commit) (hj : (Call.commit operation).Readable c) :
    ErrorAtomic c (Store.commit py (operation.settings c.settings)
        (operation.credentials c.credentials) c.settings c.credentials) disk (plan k .raises) ↔
      ∀ step, commitSteps[k]? = some step → (Call.commit operation).Spared c step := by
  obtain ⟨hr, hp⟩ := hj
  rw [Commit.settings_version] at hr ⊢
  by_cases hk : k < 24
  · obtain ⟨step, hstep⟩ : ∃ step, commitSteps[k]? = some step := ⟨_, List.getElem?_eq_getElem hk⟩
    have hleft := interrupted_iff hd (operation.settings_normal c) hr hp step
    unfold ErrorAtomic
    rw [commit_raises hstep]
    simp only [hstep, Option.some.injEq, forall_eq', Result.raised.injEq, exists_eq', true_imp_iff]
    rw [hleft]
    simp only [Commit.credentials_iff, Commit.settings_iff]
    cases step with
    | remove s => rfl
    | write file s => cases file <;> rfl
  · obtain ⟨k, rfl⟩ : ∃ j, k = j + 24 := ⟨k - 24, by omega⟩
    have hnone : commitSteps[k + 24]? = none := List.getElem?_eq_none (Nat.le_add_left 24 k)
    refine iff_of_true ?_ fun step hstep => by simp [hnone] at hstep
    rintro ⟨e, he⟩
    rw [commit_returns] at he
    cases he

theorem save_errorAtomic {devices : List Device} (hn : ∀ device ∈ devices, device.Normal py)
    (hr : py.Readable (Settings.publicDict { devices })) :
    ErrorAtomic c (save py { devices }) disk (plan k .raises) ↔
      ∀ step, (writeSteps .settings)[k]? = some step → ∀ s,
        step = .write .settings s → s.late = true →
        Settings.flagged { devices } c.credentials = c.settings := by
  by_cases hk : k < 7
  · obtain ⟨step, hstep⟩ : ∃ step, (writeSteps .settings)[k]? = some step :=
      ⟨_, List.getElem?_eq_getElem hk⟩
    obtain ⟨s, rfl, hrun⟩ := atomicWrite_raises py hstep (Settings.publicDict { devices }) disk
    unfold ErrorAtomic save
    rw [hrun]
    simp only [hstep, Option.some.injEq, forall_eq', Result.raised.injEq, exists_eq', true_imp_iff,
      FileStep.write.injEq, true_and]
    split
    · rename_i hlate
      simp only [hlate, true_imp_iff]
      rw [snapshot_none (by exact hd.transaction), readFiles_iff]
      exact (and_iff_right hd.read.1).trans (readSettings_iff hn hr)
    · rename_i hearly
      refine iff_of_true ?_ fun hlate => absurd hlate hearly
      rw [snapshot_settled hd]
  · obtain ⟨k, rfl⟩ : ∃ j, k = j + 7 := ⟨k - 7, by omega⟩
    have hnone : (writeSteps .settings)[k + 7]? = none :=
      List.getElem?_eq_none (Nat.le_add_left 7 k)
    refine iff_of_true ?_ fun step hstep => by simp [hnone] at hstep
    rintro ⟨e, he⟩
    cases he

theorem markPaired_settled (h : updateFirst (·.id = deviceId) (Device.pairWith facts) c.devices =
      some (device, devices)) (credential : Bytes) (fates : List Fate) :
    markPaired py deviceId credential facts disk fates =
      (Store.commit py { devices } (c.credentials.set deviceId credential) c.settings
        c.credentials >>= fun _ => pure device : Action Device) disk fates := by
  show Prog.bind (snapshot py) _ disk _ = _
  simp only [Prog.bind, snapshot_settled hd, Contents.value, Contents.settings, h]

theorem upsert_settled (h : newDevice py values (identifierOr deviceId uuid) = .ok device)
    (fates : List Fate) :
    upsert py values deviceId uuid disk fates =
      (save py { devices := (putDevice c.devices device).2 } >>= fun _ =>
        pure (putDevice c.devices device).1 : Action Device) disk fates := by
  show Prog.bind (load py) _ disk _ = _
  simp only [Prog.bind, load_settled hd, h]
  rfl

theorem errorAtomic_idle {call : Call} {method : Action α} (hsteps : call.steps c = [])
    (h : method disk (plan k .raises) = (.raised e, disk, plan k .raises)) :
    ErrorAtomic c method disk (plan k .raises) ↔
      ∀ step, (call.steps c)[k]? = some step → call.Spared c step := by
  refine iff_of_true (errorAtomic_raised hd h) ?_
  intro step hstep
  simp [hsteps] at hstep

theorem upsert_errorAtomic (hj : (Call.upsert values deviceId uuid).Readable c) :
    ErrorAtomic c (upsert py values deviceId uuid) disk (plan k .raises) ↔
      ∀ step, ((Call.upsert values deviceId uuid).steps c)[k]? = some step →
        (Call.upsert values deviceId uuid).Spared c step := by
  cases hnew : newDevice py values (identifierOr deviceId uuid) with
  | error e =>
    have hsteps : (Call.upsert values deviceId uuid).steps c = [] := by
      simp [Call.steps, hnew, Except.toBool]
    have hrun : upsert py values deviceId uuid disk (plan k .raises) =
        (.raised e, disk, plan k .raises) := by
      show Prog.bind (load py) _ disk _ = _
      simp only [Prog.bind, load_settled hd, hnew]
      rfl
    exact errorAtomic_idle hd k hsteps hrun
  | ok device =>
    have hsteps : (Call.upsert values deviceId uuid).steps c = writeSteps .settings := by
      simp [Call.steps, hnew, Except.toBool]
    have hkeeps : (Call.upsert values deviceId uuid).KeepsSettings c ↔
        Settings.flagged { devices := (putDevice c.devices device).2 } c.credentials =
          c.settings := by
      rw [putDevice_iff]
      simp [Call.KeepsSettings, hnew]
    refine (errorAtomic_congr (upsert_settled hd hnew _)).trans (errorAtomic_map.trans ?_)
    rw [save_errorAtomic hd k (putDevice_normal (newDevice_ok hnew).1 c.normal)
      (hj device hnew), hsteps]
    refine forall_congr' fun step => imp_congr_right fun hstep => ?_
    obtain ⟨s, rfl, -⟩ := atomicWrite_raises py hstep .null disk
    simp only [FileStep.write.injEq, true_and, forall_eq', Call.Spared, hkeeps]

theorem markPaired_errorAtomic
    (hj : (Call.commit (.markPaired deviceId credential facts)).Readable c) :
    ErrorAtomic c (markPaired py deviceId credential facts) disk (plan k .raises) ↔
      ∀ step, ((Call.commit (.markPaired deviceId credential facts)).steps c)[k]? = some step →
        (Call.commit (.markPaired deviceId credential facts)).Spared c step := by
  rcases updateFirst_cases (fun device : Device => device.id = deviceId) (Device.pairWith facts)
    c.devices with ⟨hnone, hall⟩ | ⟨before, device, after, hsplit, -, hdevice, hsome⟩
  · have hsteps : (Call.commit (.markPaired deviceId credential facts)).steps c = [] := by
      have hany : c.devices.any (·.id = deviceId) = false := List.any_eq_false.mpr fun d hd => by
        simp [hall d hd]
      simp [Call.steps, hany]
    have hrun : markPaired py deviceId credential facts disk (plan k .raises) =
        (.raised .stopIteration, disk, plan k .raises) := by
      show Prog.bind (snapshot py) _ disk _ = _
      simp only [Prog.bind, snapshot_settled hd, Contents.value, Contents.settings, hnone]
      rfl
    exact errorAtomic_idle hd k hsteps hrun
  · have hsteps : (Call.commit (.markPaired deviceId credential facts)).steps c = commitSteps := by
      have hany : c.devices.any (·.id = deviceId) = true :=
        List.any_eq_true.mpr ⟨device, by simp [hsplit], hdevice⟩
      simp [Call.steps, hany]
    have hsettings : (Commit.markPaired deviceId credential facts).settings c.settings =
        { devices := before ++ device.pairWith facts :: after } := by
      simp only [Commit.settings, Contents.settings, hsome]
    have hcommit := commit_errorAtomic hd k (.markPaired deviceId credential facts) hj
    rw [hsettings] at hcommit
    rw [hsteps, ← hcommit]
    exact (errorAtomic_congr (markPaired_settled hd hsome credential _)).trans errorAtomic_map

theorem settled_errorAtomic (call : Call) (hj : call.Readable c) :
    ErrorAtomic c (call.run py) disk (plan k .raises) ↔
      ∀ step, (call.steps c)[k]? = some step → call.Spared c step := by
  cases call with
  | upsert values deviceId uuid => exact errorAtomic_map.trans (upsert_errorAtomic hd k hj)
  | commit operation =>
    cases operation with
    | delete deviceId =>
      refine (errorAtomic_congr ?_).trans (commit_errorAtomic hd k (.delete deviceId) hj)
      show Prog.bind (snapshot py) _ disk _ = _
      simp only [Prog.bind, snapshot_settled hd]
      rfl
    | markPaired deviceId credential facts =>
      exact errorAtomic_map.trans (markPaired_errorAtomic hd k hj)

end

section
variable {settings credentials : Json} {c : Contents py} {disk : Disk}

/-- Recovery of a transaction takes seventeen steps. -/
theorem recover_raises (h : Carries py disk settings credentials c) (hk : k < 17) :
    ∃ disk', recoverTransaction py disk (plan k .raises) =
      (.raised (.store recoveryMessage), disk', []) := by
  obtain ⟨text, htext, hread⟩ := h.transaction
  rw [recover_some htext, hread]
  obtain ⟨s, d, t⟩ := disk
  cases htext
  interval_cases k <;> exact ⟨_, rfl⟩

theorem recover_past (h : Carries py disk settings credentials c) (k : Nat) :
    ∃ disk', recoverTransaction py disk (plan (k + 17) .raises) = (.ok (), disk', plan k .raises) ∧
      Settled py disk' c := by
  have hrun : ∃ disk', recoverTransaction py disk (plan (k + 17) .raises) =
      (.ok (), disk', plan k .raises) := by
    obtain ⟨text, htext, hread⟩ := h.transaction
    rw [recover_some htext, hread]
    obtain ⟨s, d, t⟩ := disk
    cases htext
    exact ⟨_, rfl⟩
  obtain ⟨disk', hrun⟩ := hrun
  have ht := recover_triple (A := fun _ => True) c disk (plan (k + 17) .raises) h.holds
    fun _ _ => trivial
  rw [hrun] at ht
  exact ⟨disk', hrun, ht.1⟩

end

def RecoversFirst (py : Python) (method : Action α) : Prop :=
  ∃ rest : Unit → Action α, method = Prog.bind (recoverTransaction py) rest

theorem RecoversFirst.bind {method : Action α} (h : RecoversFirst py method)
    (f : α → Action β) : RecoversFirst py (method >>= f) := by
  obtain ⟨rest, rfl⟩ := h
  exact ⟨fun u => Prog.bind (rest u) f, Prog.bind_assoc ..⟩

theorem Call.run_recoversFirst (py : Python) (call : Call) : RecoversFirst py (call.run py) := by
  have hsnapshot : RecoversFirst py (snapshot py) := ⟨_, rfl⟩
  have hload : RecoversFirst py (load py) := ⟨_, rfl⟩
  cases call with
  | upsert values deviceId uuid => exact (hload.bind _).bind _
  | commit operation =>
    cases operation with
    | delete deviceId => exact hsnapshot.bind _
    | markPaired deviceId credential facts => exact (hsnapshot.bind _).bind _

theorem onePc_documents : (Call.commit pairPc).Readable onePcContents :=
  ⟨pairPc_readable, onePc_reads (.tail _ (.head _))⟩

/-- One step of a call raises. If the call raises, the next `snapshot` returns
what the store held before it: just when the step was one of recovery, or does
no harm. -/
theorem error_atomicity {c : Contents py} {disk : Disk} (hd : Holds py disk c) (call : Call)
    (hjson : call.Readable c) (k : Nat) :
    ErrorAtomic c (call.run py) disk (plan k .raises) ↔
      ∀ step, disk.recoverySteps.length ≤ k →
        (call.steps c)[k - disk.recoverySteps.length]? = some step → call.Spared c step := by
  rcases hd with hd | ⟨settings, credentials, hd⟩
  · have hlength : disk.recoverySteps.length = 0 := by simp [Disk.recoverySteps, hd.transaction]
    rw [hlength, settled_errorAtomic hd k call hjson]
    simp
  · have hlength : disk.recoverySteps.length = 17 := by
      obtain ⟨text, htext, -⟩ := hd.transaction
      simp [Disk.recoverySteps, htext]
      rfl
    rw [hlength]
    obtain ⟨rest, hrest⟩ := call.run_recoversFirst py
    by_cases hk : k < 17
    · obtain ⟨disk', hrun⟩ := recover_raises hd hk
      refine iff_of_true ?_ fun _ hle => absurd hle (Nat.not_le.mpr hk)
      intro _
      have hfailed : call.run py disk (plan k .raises) =
          (.raised (.store recoveryMessage), disk', []) := by
        rw [hrest, Prog.bind, hrun]
      rw [hfailed]
      have hholds := construct_holds hd.holds (plan k .raises)
      rw [construct, hrun] at hholds
      exact snapshot_holds hholds
    · obtain ⟨k, rfl⟩ : ∃ j, k = j + 17 := ⟨k - 17, by omega⟩
      obtain ⟨disk', hrun, hsettled⟩ := recover_past hd k
      have hrecovered : call.run py disk (plan (k + 17) .raises) =
          call.run py disk' (plan k .raises) := by
        rw [hrest, Prog.bind, Prog.bind, hrun, recover_none hsettled.transaction]
      rw [errorAtomic_congr hrecovered, settled_errorAtomic hsettled k call hjson]
      simp

/-- A failure to create the temporary file of the credentials does no harm. -/
theorem onePc_keeps_contents :
    ErrorAtomic onePcContents ((Call.commit pairPc).run onePcPython) onePcDisk
      (plan 7 .raises) := by
  refine (error_atomicity (.inl onePc_settled) (.commit pairPc) onePc_documents 7).mpr ?_
  have hsteps : (Call.commit pairPc).steps onePcContents = commitSteps := rfl
  intro step _ hstep
  rw [hsteps] at hstep
  cases hstep
  intro hlate
  cases hlate

/-- The directory cannot be opened after the credentials have been replaced:
`mark_paired` raises, and what it was to store is there afterwards. -/
theorem onePc_keeps_credential_of_failed_pairing :
    (∃ e, ((Call.commit pairPc).run onePcPython onePcDisk (plan 12 .raises)).1 = .raised e) ∧
      (snapshot onePcPython ((Call.commit pairPc).run onePcPython onePcDisk (plan 12 .raises)).2.1
        []).1 ≠ .ok (onePc, []) := by
  have hsteps : ((Call.commit pairPc).steps onePcContents)[12]? =
      some (.write .credentials .openDirectory) := rfl
  have hnot : ¬ ErrorAtomic onePcContents ((Call.commit pairPc).run onePcPython) onePcDisk
      (plan 12 .raises) := by
    intro h
    have hspared :=
      (settled_errorAtomic onePc_settled 12 (.commit pairPc) onePc_documents).mp h _ hsteps
    cases hspared rfl
  exact Classical.not_imp.mp hnot

end DeckyMyRig.Deck
