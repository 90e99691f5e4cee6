import DeckyMyRig.Deck.SelfReadable

/-!
# Settings written and read back

Every load checks again what an earlier save has normalised. The checks are
fixed on their own outputs, so settings that were decoded read back as they are,
and so do those that `upsert` saves, up to one flag: a device that is new under
an identifier with a credential is saved as unpaired and read back as paired.
-/

namespace DeckyMyRig.Deck

open Octets Texts Faults Checked Store

variable {py : Python} {credentials : Credentials} {settings : Settings}

theorem decodeSettings_normal {devices : List Device} (hn : ∀ device ∈ devices, device.Normal py)
    (hid : ∀ device ∈ devices, storedIdentifier (.str device.id) = .ok device.id)
    (credentials : Credentials) :
    decodeSettings py (Settings.publicDict { devices }) credentials =
      .ok (Settings.flagged { devices } credentials) := by
  rw [decodeSettings_publicDict, decodeDevices_publicDict hn hid]
  exact congrArg Except.ok (Settings.flagged_unpaired devices credentials)

theorem Device.Normal.flag (h : Device.Normal py device) (paired : Bool) :
    Device.Normal py { device with paired } := by
  obtain ⟨hname, haddress, hmac, hport, hbroadcast⟩ := h
  exact ⟨hname, haddress, hmac, hport, hbroadcast⟩

structure Settings.Loaded (py : Python) (credentials : Credentials) (settings : Settings) :
    Prop where
  version : settings = { devices := settings.devices }
  flags : settings.flagged credentials = settings
  normal : ∀ device ∈ settings.devices, device.Normal py
  identified : ∀ device ∈ settings.devices, storedIdentifier (.str device.id) = .ok device.id

theorem Settings.Loaded.of_decoded (h : decodeSettings py raw credentials = .ok settings) :
    settings.Loaded py credentials := by
  obtain ⟨devices, rfl, hn, hid⟩ := decodeSettings_ok h
  refine ⟨rfl, Settings.flagged_flagged .., ?_, ?_⟩
  · intro device hd
    obtain ⟨device', hd', rfl⟩ := List.mem_map.mp hd
    exact (hn device' hd').flag _
  · intro device hd
    obtain ⟨device', hd', rfl⟩ := List.mem_map.mp hd
    exact hid device' hd'

theorem Settings.Loaded.of_read {text : Option Text}
    (h : readSettings py text credentials = .ok settings) :
    settings.Loaded py credentials := by
  cases text with
  | none =>
    cases h
    exact ⟨rfl, rfl, by simp, by simp⟩
  | some text =>
    simp only [readSettings, loadSettings] at h
    split at h
    · exact .of_decoded h
    · cases h

theorem Settings.Loaded.decode (h : settings.Loaded py credentials) :
    decodeSettings py settings.publicDict credentials = .ok settings := by
  rw [h.version, decodeSettings_normal h.normal h.identified, ← h.version, h.flags]

-- ---------------------------------------------------------------------------
-- `upsert`
-- ---------------------------------------------------------------------------

theorem recoverTransaction_ok {disk : Disk}
    (h : recoverTransaction py disk fates = (.ok (), d, rest)) :
    d.transaction = none := by
  cases ht : disk.transaction with
  | none =>
    rw [recover_none ht] at h
    cases h
    exact ht
  | some text =>
    rw [recover_some ht] at h
    have h := Prog.catching_ok (by rintro e d1 f1 ⟨⟩) h
    obtain ⟨_, d1, f1, -, h⟩ := Prog.bind_ok h
    obtain ⟨_, d2, f2, -, h⟩ := Prog.bind_ok h
    obtain ⟨_, d3, f3, -, h⟩ := Prog.bind_ok h
    rw [removeTransaction_ok h]
    rfl

theorem load_ok {disk : Disk} (h : load py disk fates = (.ok settings, d, rest)) :
    d.transaction = none ∧ ∀ credentials, readCredentials py d.credentials = .ok credentials →
      settings.Loaded py credentials := by
  obtain ⟨_, d1, f1, hrecover, h⟩ := Prog.bind_ok h
  have hnone := recoverTransaction_ok hrecover
  obtain ⟨stored, credentials1, transaction1⟩ := d1
  cases stored with
  | none =>
    cases h
    exact ⟨hnone, fun credentials _ => ⟨rfl, rfl, by simp, by simp⟩⟩
  | some text =>
    have h : Prog.bind (Store.credentials py) _ _ f1 = _ := h
    obtain ⟨values, d2, f2, hcredentials, h⟩ := Prog.bind_ok h
    rw [credentials_none hnone] at hcredentials
    cases hread : readCredentials py credentials1 with
    | error e =>
      rw [hread] at hcredentials
      cases hcredentials
    | ok values' =>
      rw [hread] at hcredentials
      cases hcredentials
      cases hload : loadSettings py text values with
      | error e =>
        rw [hload] at h
        cases h
      | ok loaded =>
        rw [hload] at h
        cases h
        refine ⟨hnone, fun credentials hc => ?_⟩
        rw [hread] at hc
        cases hc
        have hsettings : readSettings py (some text) values = .ok settings := hload
        exact .of_read hsettings

/-- Of the flags after an `upsert`, only that of a new device can be wrong. -/
theorem putDevice_flags (hflags : settings.flagged credentials = settings)
    (hdevice : device.paired = false) :
    Settings.flagged { devices := (putDevice settings.devices device).2 } credentials =
        { devices := (putDevice settings.devices device).2 } ↔
      (credentials.has device.id = true → device.id ∈ settings.devices.map (·.id)) := by
  rw [Settings.flagged_iff] at hflags ⊢
  rcases updateFirst_cases (fun d : Device => d.id = device.id) device.keepHost
    settings.devices with
    ⟨hnone, hall⟩ | ⟨before, existing, after, hsplit, -, hid, hsome⟩
  · have hnew : device.id ∉ settings.devices.map (·.id) := by
      intro hmem
      obtain ⟨d, hd, hid⟩ := List.mem_map.mp hmem
      simpa [hid] using hall d hd
    have hflag : { device with paired := credentials.has device.id } = device ↔
      credentials.has device.id = false := by
      rw [← hdevice]
      exact ⟨congrArg Device.paired, fun h => by rw [h]⟩
    simp only [putDevice, hnone, List.forall_mem_append, List.forall_mem_singleton, hflag,
      hnew, imp_false, Bool.not_eq_true, and_iff_right_iff_imp]
    exact fun _ => hflags
  · have hmem : existing ∈ settings.devices := by simp [hsplit]
    have hid : existing.id = device.id := of_decide_eq_true hid
    refine iff_of_true ?_ fun _ => List.mem_map.mpr ⟨existing, hmem, hid⟩
    simp only [putDevice, hsome, List.forall_mem_append, List.forall_mem_cons]
    rw [hsplit, List.forall_mem_append, List.forall_mem_cons] at hflags
    refine ⟨hflags.1, ?_, hflags.2.2⟩
    have hpaired : credentials.has existing.id = existing.paired :=
      congrArg Device.paired hflags.2.1
    show { device.keepHost existing with paired := credentials.has device.id } =
      device.keepHost existing
    rw [← hid, hpaired]
    rfl

theorem putDevice_flags_others
    (hflags : settings.flagged credentials = settings) (device : Device) :
    (∀ other ∈ (putDevice settings.devices device).2, other.id ≠ device.id →
      other.paired = credentials.has other.id) ∧
    (device.id ∉ settings.devices.map (·.id) →
      putDevice settings.devices device = (device, settings.devices ++ [device])) := by
  rw [Settings.flagged_iff] at hflags
  have hflag {other : Device} (hmem : other ∈ settings.devices) : other.paired =
      credentials.has other.id :=
    (congrArg Device.paired (hflags other hmem)).symm
  rcases updateFirst_cases (fun d : Device => d.id = device.id) device.keepHost
    settings.devices with
    ⟨hnone, -⟩ | ⟨before, existing, after, hsplit, -, hid, hsome⟩
  · simp only [putDevice, hnone, List.mem_append, List.mem_singleton]
    refine ⟨?_, fun _ => trivial⟩
    rintro other (hmem | rfl) hne
    · exact hflag hmem
    · exact absurd rfl hne
  · simp only [putDevice, hsome, List.mem_append, List.mem_cons]
    refine ⟨?_, fun hnew => absurd ?_ hnew⟩
    · rintro other (hmem | rfl | hmem) hne
      · exact hflag (by simp [hsplit, hmem])
      · exact absurd rfl hne
      · exact hflag (by simp [hsplit, hmem])
    · exact List.mem_map.mpr ⟨existing, by simp [hsplit], of_decide_eq_true hid⟩

theorem newDevice_unpaired {id : Text} (h : newDevice py values id = .ok device) :
    device.paired = false := by
  obtain ⟨_, _, _, _, -, -, -, -, -, rfl⟩ := newDevice_eq_ok.mp h
  rfl

theorem upsert_ok {disk : Disk}
    (h : upsert py values deviceId uuid disk fates = (.ok device, disk', rest)) :
    ∃ loaded d f device', load py disk fates = (.ok loaded, d, f) ∧
      newDevice py values (identifierOr deviceId uuid) = .ok device' ∧
      device = (putDevice loaded.devices device').1 ∧
      disk' = d.replace (py.dumps (Settings.publicDict
        { loaded with devices := (putDevice loaded.devices device').2 })) .settings := by
  obtain ⟨loaded, d, f, hload, h⟩ := Prog.bind_ok h
  obtain ⟨device', d1, f1, hnew, h⟩ := Prog.bind_ok h
  cases hdevice : newDevice py values (identifierOr deviceId uuid) with
  | error e =>
    rw [hdevice] at hnew
    cases hnew
  | ok device'' =>
    rw [hdevice] at hnew
    cases hnew
    obtain ⟨_, d2, f2, hsave, h⟩ := Prog.bind_ok h
    cases h
    exact ⟨loaded, d, f, device', hload, rfl, rfl, atomicWrite_ok py hsave⟩

theorem Settings.Loaded.decode_put (h : settings.Loaded py credentials)
    (hnormal : Device.Normal py device) (hid : storedIdentifier (.str device.id) = .ok device.id) :
    decodeSettings py (Settings.publicDict
      { settings with devices := (putDevice settings.devices device).2 })
        credentials =
      .ok (Settings.flagged { settings with devices := (putDevice settings.devices device).2 }
        credentials) := by
  rw [h.version]
  exact decodeSettings_normal (putDevice_normal hnormal h.normal)
    (putDevice_identified hid h.identified) credentials

-- ---------------------------------------------------------------------------
-- Round trip
-- ---------------------------------------------------------------------------

def ReadsBackAs (py : Python) (settings : Settings) (credentials : Credentials)
    (settings' : Settings) : Prop :=
  py.Readable settings.publicDict →
    loadSettings py (py.dumps settings.publicDict) credentials = .ok settings'

theorem readsBackAs_of_decode
    (h : decodeSettings py settings.publicDict credentials = .ok settings') :
    ReadsBackAs py settings credentials settings' := by
  intro hr
  rw [← h]
  exact readSettings_dumps hr credentials

theorem upsert_addPcValues {c : Contents py} {disk : Disk} (hd : Settled py disk c)
    (hc : c.devices = [])
    (deviceId : Option Text) (uuid : Text) (hid : identifierOr deviceId uuid = "pc".toList) :
    ∃ device, onePc.devices = [device] ∧ upsert py addPcValues deviceId uuid disk [] =
      (.ok device, disk.replace (py.dumps onePc.publicDict) .settings, []) := by
  have hupsert := upsert_settled hd (newDevice_addPcValues py (identifierOr deviceId uuid)) []
  rw [hc, hid] at hupsert
  exact ⟨_, rfl, hupsert⟩

/-- Decoded settings read back as they are. What `upsert` saves under an
identifier that is not blank reads back as it is, unless the device is new and
its identifier has a credential: then this device is saved as unpaired and reads
back as paired, and all others read back as they are. The checks are fixed on what
they return. -/
theorem settings_round_trip (py : Python) :
    (∀ raw credentials settings, decodeSettings py raw credentials = .ok settings →
      ReadsBackAs py settings credentials settings) ∧
    (∀ values deviceId uuid disk fates device disk' rest,
      strip isSpace (identifierOr deviceId uuid) ≠ [] →
      upsert py values deviceId uuid disk fates = (.ok device, disk', rest) →
      ∃ loaded saved, (load py disk fates).1 = .ok loaded ∧ device ∈ saved.devices ∧
        disk'.settings = some (py.dumps saved.publicDict) ∧
        ∀ credentials, readCredentials py disk'.credentials = .ok credentials →
          ReadsBackAs py saved credentials (saved.flagged credentials) ∧
            (saved.flagged credentials = saved ↔
              (credentials.has (identifierOr deviceId uuid) = true →
              identifierOr deviceId uuid ∈ loaded.devices.map (·.id))) ∧
            (∀ other ∈ saved.devices, other.id ≠ identifierOr deviceId uuid →
              other.paired = credentials.has other.id) ∧
            (identifierOr deviceId uuid ∉ loaded.devices.map (·.id) →
              saved = { loaded with devices := loaded.devices ++ [device] } ∧
                device.id = identifierOr deviceId uuid ∧ device.paired = false)) ∧
    (∀ value mac, normalizeMac value = .ok mac → normalizeMac mac = .ok mac) ∧
    (∀ value address, validateAddress py value = .ok address →
      validateAddress py (.str address) = .ok address) ∧
    (∀ value default port, validatePort py value default = .ok port →
      ∀ default', validatePort py (.int port) default' = .ok port) ∧
    (∀ value address, validateBroadcast py value = .ok address →
      validateBroadcast py (broadcastJson address) = .ok address) ∧
    ∀ name, strip isSpace (strip isSpace name) = strip isSpace name := by
  refine ⟨?_, ?_, fun _ _ => normalizeMac_fixed, fun _ _ => validateAddress_fixed,
    fun _ _ _ h _ => validatePort_fixed (validatePort_range h), fun _ _ => validateBroadcast_fixed,
    strip_strip isSpace⟩
  · intro raw credentials settings h
    exact readsBackAs_of_decode (Settings.Loaded.of_decoded h).decode
  · intro values deviceId uuid disk fates device disk' rest hblank h
    obtain ⟨loaded, d, f, device', hload, hnew', rfl, rfl⟩ := upsert_ok h
    obtain ⟨hnormal, hid⟩ := newDevice_ok hnew'
    have hidentified : storedIdentifier (.str device'.id) = .ok device'.id := by
      rw [hid]
      exact if_neg fun hempty => hblank (List.isEmpty_iff.mp hempty)
    refine ⟨loaded, { loaded with devices := (putDevice loaded.devices device').2 },
      by rw [hload], ?_, rfl, ?_⟩
    · exact (mem_putDevice loaded.devices device').1
    · intro credentials hcredentials
      have hloaded := (load_ok hload).2 credentials hcredentials
      have hflags := putDevice_flags hloaded.flags (newDevice_unpaired hnew')
      obtain ⟨hothers, hadded⟩ := putDevice_flags_others hloaded.flags device'
      refine ⟨readsBackAs_of_decode (hloaded.decode_put hnormal hidentified), ?_, ?_, ?_⟩
      · rw [← hid, ← hflags, hloaded.version]
      · rw [← hid]
        exact hothers
      · rw [← hid]
        intro hnew
        rw [hadded hnew]
        exact ⟨rfl, rfl, newDevice_unpaired hnew'⟩

/-- A PC is added to an empty directory, and its settings read back as they are. -/
theorem addPc_reads_back :
    ∃ device disk', upsert onePcPython addPcValues none "pc".toList {} [] =
      (.ok device, disk', []) ∧ onePc.devices = [device] ∧ device.paired = false ∧
      disk'.settings = some (onePcPython.dumps onePc.publicDict) ∧
      loadSettings onePcPython (onePcPython.dumps onePc.publicDict) [] = .ok onePc := by
  have hempty : Settled onePcPython {} noContents := ⟨rfl, rfl⟩
  obtain ⟨device, hdevice, hupsert⟩ := upsert_addPcValues hempty rfl none "pc".toList rfl
  obtain ⟨loaded, saved, hload, -, hdisk, hsaved⟩ :=
    (settings_round_trip onePcPython).2.1 addPcValues none "pc".toList {}
      [] _ _ _ pc_not_blank hupsert
  obtain rfl : loaded = {} :=
    Result.ok.inj (hload.symm.trans (congrArg Prod.fst (load_none rfl rfl [])))
  obtain ⟨hreads, hflagged, -, hnew⟩ := hsaved [] rfl
  obtain ⟨hadded, -, hpaired⟩ := hnew List.not_mem_nil
  have hone : saved = onePc := by
    rw [hadded, List.nil_append, ← hdevice]
    rfl
  rw [hflagged.mpr (fun h => nomatch h), hone] at hreads
  rw [hone] at hdisk
  exact ⟨device, _, hupsert, hdevice, hpaired, hdisk, hreads (onePc_reads List.mem_cons_self)⟩

def leftoverCredentials : Credentials := [("pc".toList, List.replicate 32 7)]

def leftoverDocuments : List Json := [onePc.publicDict, leftoverCredentials.document]

def leftoverPython : Python := .reading leftoverDocuments

theorem leftover_reads (h : document ∈ leftoverDocuments) : leftoverPython.Readable document :=
  Python.readable_reading (by decide +kernel) h

/-- Credentials of a device that is not stored. -/
def leftoverDisk : Disk := { credentials := some leftoverCredentials.document.text }

def leftover : Contents leftoverPython :=
  .of [] leftoverCredentials normal_nil identified_nil (by
    intro e he
    cases List.mem_singleton.mp he
    exact ⟨List.cons_ne_nil _ _, rfl⟩)

theorem leftoverDisk_settled : Settled leftoverPython leftoverDisk leftover :=
  ⟨rfl, readFiles_iff.mpr ⟨readCredentials_dumps (leftover_reads (.tail _ (.head _)))
    (decodeCredentials_document leftover.keyed), rfl⟩⟩

/-- A PC is saved under an identifier whose credential was left behind. -/
theorem leftover_credential_differs :
    ∃ device disk', upsert leftoverPython addPcValues (some "pc".toList) "new".toList leftoverDisk
      [] =
        (.ok device, disk', []) ∧
      disk'.settings = some (leftoverPython.dumps onePc.publicDict) ∧
      ∃ credentials, readCredentials leftoverPython disk'.credentials = .ok credentials ∧
        loadSettings leftoverPython (leftoverPython.dumps onePc.publicDict) credentials ≠
          .ok onePc := by
  obtain ⟨device, -, hupsert⟩ :=
    upsert_addPcValues leftoverDisk_settled rfl (some "pc".toList) "new".toList rfl
  refine ⟨device, _, hupsert, rfl, leftover.credentials, leftoverDisk_settled.read.1, ?_⟩
  have hload : loadSettings leftoverPython (leftoverPython.dumps onePc.publicDict)
      leftover.credentials =
        .ok (onePc.flagged leftover.credentials) :=
    readsBackAs_of_decode (decodeSettings_normal (onePc_normal _) onePc_identified _)
      (leftover_reads List.mem_cons_self)
  rw [hload]
  intro h
  have hpaired := congrArg (fun settings => settings.devices.map (·.paired)) (Except.ok.inj h)
  cases hpaired

end DeckyMyRig.Deck
