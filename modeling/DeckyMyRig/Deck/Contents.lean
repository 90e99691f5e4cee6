import DeckyMyRig.Deck.ValidationLaws
import DeckyMyRig.Lib.Checked

/-!
# Contents of the store

What a store holds, as a value that cannot be ill formed: devices that the
validators leave as they are, with the flag that the credentials give them, and
credentials that the decoder accepts. The decoders return nothing else
(`Contents.of_decoded`), and the documents written from contents read back as
them (`Contents.decode_settings`, `Contents.decode_credentials`).
-/

namespace DeckyMyRig.Deck

open Octets Texts Checked

-- ---------------------------------------------------------------------------
-- Devices
-- ---------------------------------------------------------------------------

/-- The checks of a stored device leave everything but its identifier as it is. -/
structure Device.Normal (py : Python) (device : Device) : Prop where
  name : storedName (.str device.name) = .ok device.name
  address : validateAddress py (.str device.address) = .ok device.address
  mac : normalizeMac device.mac = .ok device.mac
  port : validatePort py (.int device.port) false = .ok device.port
  broadcast : validateBroadcast py (broadcastJson device.broadcastAddress) =
    .ok device.broadcastAddress

theorem storedName_fixed (h : storedName raw = .ok name) : storedName (.str name) = .ok name := by
  cases raw with
  | str text =>
    simp only [storedName] at h
    split at h
    · cases h
    · rename_i hne
      cases h
      simp only [storedName, strip_strip]
      exact if_neg hne
  | _ => cases h

theorem storedIdentifier_eq_ok {id : Text} (h : storedIdentifier raw = .ok id) : raw = .str id := by
  cases raw with
  | str text =>
    simp only [storedIdentifier] at h
    split at h
    · cases h
    · cases h
      rfl
  | _ => cases h

theorem storedMac_fixed (h : storedMac raw = .ok mac) : normalizeMac mac = .ok mac := by
  cases raw with
  | str text => exact normalizeMac_fixed h
  | _ => cases h

theorem validatedDevice_ok (h : validatedDevice py raw = .ok device) :
    device.Normal py ∧ storedIdentifier (.str device.id) = .ok device.id ∧
    device.paired = false := by
  unfold validatedDevice at h
  obtain ⟨keywords, -, h⟩ := bind_eq_ok h
  obtain ⟨fields, -, h⟩ := bind_eq_ok h
  obtain ⟨id, hid, h⟩ := bind_eq_ok h
  obtain ⟨name, hname, h⟩ := bind_eq_ok h
  obtain ⟨address, haddress, h⟩ := bind_eq_ok h
  obtain ⟨mac, hmac, h⟩ := bind_eq_ok h
  obtain ⟨port, hport, h⟩ := bind_eq_ok h
  obtain ⟨broadcast, hbroadcast, h⟩ := bind_eq_ok h
  cases h
  refine ⟨⟨storedName_fixed hname, validateAddress_fixed haddress, storedMac_fixed hmac,
    validatePort_fixed (validatePort_range hport), validateBroadcast_fixed hbroadcast⟩, ?_, rfl⟩
  rw [← storedIdentifier_eq_ok hid]
  exact hid

def Device.values (device : Device) : List Json :=
  [.str device.id, .str device.name, .str device.address, .str device.mac, device.macOverridden,
    .int device.port, broadcastJson device.broadcastAddress, device.hostId, device.hostVersion,
    device.protocolVersion, .bool device.paired]

theorem asdict_eq_zip (device : Device) : device.asdict = deviceFields.zip device.values := rfl

theorem deviceFields_nodup : deviceFields.Nodup := by decide +kernel

theorem get?_asdict {device : Device} {i : Nat} (hk : deviceFields[i]? = some key)
    (hv : device.values[i]? = some value) :
    Dict.get? device.asdict key = some value :=
  Dict.get?_zip deviceFields_nodup hk hv

theorem snake_asdict (device : Device) : snake device.asdict = device.asdict := by
  have hcamel : ∀ name ∈ snakeNames, Dict.get? device.asdict name.1 = none := by
    have hfields : ∀ name ∈ snakeNames, name.1 ∉ deviceFields := by decide +kernel
    intro name h
    rw [asdict_eq_zip]
    exact Dict.get?_zip_none (hfields name h)
  simp only [snakeNames, List.forall_mem_cons] at hcamel
  obtain ⟨h1, h2, h3, h4, h5, -⟩ := hcamel
  simp only [snake, snakeNames, List.foldl, h1, h2, h3, h4, h5]

theorem rawDevice_asdict (device : Device) :
    RawDevice.new device.asdict = .ok {
      id := .str device.id
      name := .str device.name
      address := .str device.address
      mac := .str device.mac
      macOverridden := device.macOverridden
      port := .int device.port
      broadcastAddress := broadcastJson device.broadcastAddress
      hostId := device.hostId
      hostVersion := device.hostVersion
      protocolVersion := device.protocolVersion
      paired := .bool device.paired } := by
  have hkeys : ¬ (device.asdict.any fun e => e.1 ∉ deviceFields) = true := by
    simp only [List.any_eq_true, decide_eq_true_eq, not_exists, not_and, not_not]
    intro e he
    exact (List.of_mem_zip (asdict_eq_zip device ▸ he)).1
  rw [RawDevice.new, if_neg hkeys]
  simp only [required, get?_asdict (i := 0) rfl rfl, get?_asdict (i := 1) rfl rfl,
    get?_asdict (i := 2) rfl rfl, get?_asdict (i := 3) rfl rfl, get?_asdict (i := 4) rfl rfl,
    get?_asdict (i := 5) rfl rfl, get?_asdict (i := 6) rfl rfl, get?_asdict (i := 7) rfl rfl,
    get?_asdict (i := 8) rfl rfl, get?_asdict (i := 9) rfl rfl, get?_asdict (i := 10) rfl rfl,
    ok_bind, Option.getD_some]

theorem validatedDevice_publicDict (h : Device.Normal py device) :
    validatedDevice py device.publicDict =
      (storedIdentifier (.str device.id)).map fun _ => { device with paired := false } := by
  have hdict : device.publicDict.toDict = .ok device.asdict := rfl
  cases hid : storedIdentifier (.str device.id) with
  | error e =>
    simp only [validatedDevice, hdict, snake_asdict, rawDevice_asdict, ok_bind, hid]
    rfl
  | ok id =>
    cases storedIdentifier_eq_ok hid
    simp only [validatedDevice, hdict, snake_asdict, rawDevice_asdict, ok_bind, hid, h.name,
      h.address, storedMac, h.mac, h.port, h.broadcast]
    rfl

theorem decodeDevices_publicDict {devices : List Device} (hn : ∀ device ∈ devices, device.Normal py)
    (hid : ∀ device ∈ devices, storedIdentifier (.str device.id) = .ok device.id) :
    decodeDevices py (.list (devices.map Device.publicDict)) =
      .ok (devices.map fun device => { device with paired := false }) := by
  refine mapM_map fun device hd => ?_
  rw [validatedDevice_publicDict (hn device hd), hid device hd]
  rfl

theorem identified_of_decoded {devices decoded : List Device}
    (hn : ∀ device ∈ devices, device.Normal py)
    (h : decodeDevices py (.list (devices.map Device.publicDict)) = .ok decoded) :
    ∀ device ∈ devices, storedIdentifier (.str device.id) = .ok device.id := by
  intro device hd
  obtain ⟨device', hdevice⟩ := of_mapM_map h hd
  rw [validatedDevice_publicDict (hn device hd)] at hdevice
  cases hid : storedIdentifier (.str device.id) with
  | error e =>
    rw [hid] at hdevice
    cases hdevice
  | ok id =>
    cases storedIdentifier_eq_ok hid
    rfl

-- ---------------------------------------------------------------------------
-- Settings and credentials
-- ---------------------------------------------------------------------------

theorem Settings.flagged_unpaired (devices : List Device) (credentials : Credentials) :
    Settings.flagged { devices := devices.map fun device => { device with paired := false } }
      credentials = Settings.flagged { devices } credentials := by
  simp [Settings.flagged]

theorem Settings.flagged_iff {settings : Settings} {credentials : Credentials} :
    settings.flagged credentials = settings ↔
      ∀ device ∈ settings.devices,
        { device with paired := credentials.has device.id } = device := by
  have hmap := List.map_inj_left (l := settings.devices)
    (f := fun device => { device with paired := credentials.has device.id }) (g := id)
  rw [List.map_id] at hmap
  refine Iff.trans ⟨congrArg Settings.devices, fun h => ?_⟩ hmap
  exact congrArg (fun devices => { settings with devices }) h

theorem decodeSettings_publicDict (py : Python) (devices : List Device)
    (credentials : Credentials) :
    decodeSettings py (Settings.publicDict { devices }) credentials =
      match decodeDevices py (.list (devices.map Device.publicDict)) with
      | .ok devices => .ok (Settings.flagged { devices } credentials)
      | .error _ => .error (.store invalidMessage) := by
  have hversion : Dict.get? [("schemaVersion".toList, Json.int (schemaVersion : Nat)),
      ("devices".toList, .list (devices.map Device.publicDict))] "schemaVersion".toList =
        some (.int (schemaVersion : Nat)) :=
    Dict.get?_cons_self ..
  have hdevices : Dict.get? [("schemaVersion".toList, Json.int (schemaVersion : Nat)),
      ("devices".toList, .list (devices.map Device.publicDict))] "devices".toList =
        some (.list (devices.map Device.publicDict)) :=
    (Dict.get?_cons_ne (by decide +kernel) ..).trans (Dict.get?_cons_self ..)
  have hcurrent : isSchemaVersion (some (.int (schemaVersion : Nat))) = true := rfl
  simp only [Settings.publicDict, decodeSettings]
  rw [hversion, if_pos hcurrent, hdevices]
  rfl

theorem hex_not_blank {c : Char} (h : hexValue c = some n) :
    ¬ (c.toNat = 32 ∨ 9 ≤ c.toNat ∧ c.toNat ≤ 13) := by
  have hall : (hexChars.all fun c => ¬ (c.toNat = 32 ∨ 9 ≤ c.toNat ∧ c.toNat ≤ 13)) = true := by
    decide +kernel
  exact of_decide_eq_true (List.all_eq_true.mp hall c (mem_hexChars (by rw [isHex, h]; rfl)))

theorem fromHex_of_hexDecode (h : hexDecode text = some b) : fromHex text = some b := by
  induction text using hexDecode.induct generalizing b with
  | case1 => exact h
  | case2 => cases h
  | case3 hi lo rest ih =>
    simp only [hexDecode, Option.bind_eq_bind, Option.bind_eq_some_iff] at h
    obtain ⟨n, hn, m, hm, tail, htail, h⟩ := h
    simp only [fromHex, if_neg (hex_not_blank hn), hn, hm, ih htail, Option.bind_eq_bind,
      Option.bind_some]
    exact h

theorem decodeCredentials_document_eq (values : Credentials) : decodeCredentials values.document =
    if values.any fun e => e.1.isEmpty ∨ e.2.length ≠ 32 then .error .value else .ok values := by
  have hmap : (values.map fun e => (e.1, Json.str (hexEncode e.2))).mapM decodeCredential =
      .ok (values.map id) := by
    refine mapM_map fun e _ => ?_
    simp only [decodeCredential, fromHex_of_hexDecode (hexDecode_hexEncode e.2)]
    rfl
  simp only [Credentials.document, decodeCredentials, hmap, List.map_id, ok_bind]

theorem decodeCredentials_document {values : Credentials}
    (h : ∀ e ∈ values, e.1 ≠ [] ∧ e.2.length = 32) :
    decodeCredentials values.document = .ok values := by
  rw [decodeCredentials_document_eq]
  refine if_neg ?_
  simp only [List.any_eq_true, decide_eq_true_eq, not_exists, not_and, not_or]
  intro e he
  exact ⟨by simpa using (h e he).1, by simpa using (h e he).2⟩

theorem eq_of_decodeCredentials {values values' : Credentials}
    (h : decodeCredentials values.document = .ok values') : values' = values := by
  rw [decodeCredentials_document_eq] at h
  split at h
  · cases h
  · exact (Except.ok.inj h).symm

theorem decodeCredentials_ok (h : decodeCredentials document = .ok values) :
    ∀ e ∈ values, e.1 ≠ [] ∧ e.2.length = 32 := by
  cases document with
  | dict items =>
    obtain ⟨values', -, h⟩ := bind_eq_ok h
    split at h
    · cases h
    · rename_i hany
      cases h
      simp only [List.any_eq_true, decide_eq_true_eq, not_exists, not_and, not_or] at hany
      intro e he
      have hone := hany e he
      exact ⟨by simpa using hone.1, by simpa using hone.2⟩
  | _ => cases h

-- ---------------------------------------------------------------------------
-- Contents
-- ---------------------------------------------------------------------------

structure Contents (py : Python) where
  devices : List Device
  credentials : Credentials
  normal : ∀ device ∈ devices, device.Normal py
  identified : ∀ device ∈ devices, storedIdentifier (.str device.id) = .ok device.id
  keyed : ∀ e ∈ credentials, e.1 ≠ [] ∧ e.2.length = 32
  flagged : Settings.flagged { devices } credentials = { devices }

theorem normal_nil : ∀ device ∈ ([] : List Device), device.Normal py := by simp

theorem identified_nil :
    ∀ device ∈ ([] : List Device), storedIdentifier (.str device.id) = .ok device.id := by
  simp

theorem keyed_nil : ∀ e ∈ ([] : Credentials), e.1 ≠ [] ∧ e.2.length = 32 := by simp

namespace Contents

def settings (c : Contents py) : Settings := { devices := c.devices }

/-- What `snapshot` returns. -/
def value (c : Contents py) : Settings × Credentials := (c.settings, c.credentials)

theorem flag_eq (c : Contents py) (h : device ∈ c.devices) :
    { device with paired := c.credentials.has device.id } = device :=
  Settings.flagged_iff.mp c.flagged device h

/-- Contents with devices as given, but for their flags. -/
def of (devices : List Device) (credentials : Credentials)
    (hn : ∀ device ∈ devices, device.Normal py)
    (hid : ∀ device ∈ devices, storedIdentifier (.str device.id) = .ok device.id)
    (hk : ∀ e ∈ credentials, e.1 ≠ [] ∧ e.2.length = 32) : Contents py where
  devices := (Settings.flagged { devices } credentials).devices
  credentials := credentials
  normal := by
    intro device hd
    obtain ⟨device', hd', rfl⟩ := List.mem_map.mp hd
    obtain ⟨hname, haddress, hmac, hport, hbroadcast⟩ := hn device' hd'
    exact ⟨hname, haddress, hmac, hport, hbroadcast⟩
  identified := by
    intro device hd
    obtain ⟨device', hd', rfl⟩ := List.mem_map.mp hd
    exact hid device' hd'
  keyed := hk
  flagged := by simp [Settings.flagged]

end Contents

theorem decodeSettings_of {devices : List Device} {credentials : Credentials}
    (hn : ∀ device ∈ devices, device.Normal py) (hid) (hk) :
    decodeSettings py (Settings.publicDict { devices }) credentials =
      .ok (Contents.of devices credentials hn hid hk).settings := by
  rw [decodeSettings_publicDict, decodeDevices_publicDict hn hid]
  exact congrArg Except.ok (Settings.flagged_unpaired devices credentials)

/-- The settings decoder returns devices that pass the checks, with the flags that
the credentials give them. -/
theorem decodeSettings_ok {credentials : Credentials} {settings : Settings}
    (h : decodeSettings py raw credentials = .ok settings) :
    ∃ devices, settings = Settings.flagged { devices } credentials ∧
      (∀ device ∈ devices, device.Normal py) ∧
      ∀ device ∈ devices, storedIdentifier (.str device.id) = .ok device.id := by
  cases raw with
  | dict items =>
    simp only [decodeSettings] at h
    split at h
    · split at h
      · rename_i devices hdevices
        cases h
        obtain ⟨raws, -, hmap⟩ := bind_eq_ok hdevices
        have hall : ∀ device ∈ devices, device.Normal py ∧
            storedIdentifier (.str device.id) = .ok device.id := by
          intro device hd
          obtain ⟨raw, -, hraw⟩ := mem_mapM hmap hd
          exact ⟨(validatedDevice_ok hraw).1, (validatedDevice_ok hraw).2.1⟩
        exact ⟨devices, rfl, fun d hd => (hall d hd).1, fun d hd => (hall d hd).2⟩
      · cases h
    · cases h
  | _ => cases h

theorem Contents.of_decoded {credentials : Credentials} {settings : Settings}
    (hk : ∀ e ∈ credentials, e.1 ≠ [] ∧ e.2.length = 32)
    (hs : decodeSettings py raw credentials = .ok settings) :
    ∃ c : Contents py, c.value = (settings, credentials) := by
  obtain ⟨devices, rfl, hn, hid⟩ := decodeSettings_ok hs
  exact ⟨.of devices credentials hn hid hk, rfl⟩

end DeckyMyRig.Deck
