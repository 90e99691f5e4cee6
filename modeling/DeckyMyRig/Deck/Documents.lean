import DeckyMyRig.Deck.Validation

/-!
# Documents of the store

`decky/py_modules/decky_my_rig/models.py`, and the decoders of `store.py`. A
device's host fields and its MAC override flag are stored as they come and are
never checked, so they are any value.
-/

namespace DeckyMyRig.Deck

open Octets Texts

def schemaVersion : Nat := 2

structure Device where
  id : Text
  name : Text
  address : Text
  mac : Text
  macOverridden : Json := .bool false
  port : Nat := defaultPort
  broadcastAddress : Option Text := none
  hostId : Json := .null
  hostVersion : Json := .null
  protocolVersion : Json := .null
  paired : Bool := false

structure Settings where
  schemaVersion : Nat := Deck.schemaVersion
  devices : List Device := []

abbrev Credentials := Dict Text Bytes

def broadcastJson : Option Text → Json
  | none => .null
  | some text => .str text

def Device.asdict (device : Device) : Dict Text Json :=
  [("id".toList, .str device.id), ("name".toList, .str device.name),
    ("address".toList, .str device.address), ("mac".toList, .str device.mac),
    ("mac_overridden".toList, device.macOverridden), ("port".toList, .int device.port),
    ("broadcast_address".toList, broadcastJson device.broadcastAddress),
    ("host_id".toList, device.hostId), ("host_version".toList, device.hostVersion),
    ("protocol_version".toList, device.protocolVersion), ("paired".toList, .bool device.paired)]

def Device.publicDict (device : Device) : Json := .dict device.asdict

def Settings.publicDict (settings : Settings) : Json :=
  .dict [("schemaVersion".toList, .int settings.schemaVersion),
    ("devices".toList, .list (settings.devices.map Device.publicDict))]

def Credentials.document (values : Credentials) : Json :=
  .dict (values.map fun e => (e.1, .str (hexEncode e.2)))

-- ---------------------------------------------------------------------------
-- Devices
-- ---------------------------------------------------------------------------

/-- A `Device` as its constructor leaves it: no field is checked. -/
structure RawDevice where
  id : Json
  name : Json
  address : Json
  mac : Json
  macOverridden : Json
  port : Json
  broadcastAddress : Json
  hostId : Json
  hostVersion : Json
  protocolVersion : Json
  paired : Json

def deviceFields : List Text :=
  ["id".toList, "name".toList, "address".toList, "mac".toList, "mac_overridden".toList,
    "port".toList, "broadcast_address".toList, "host_id".toList, "host_version".toList,
    "protocol_version".toList, "paired".toList]

def required (keywords : Dict Text Json) (key : Text) : Except PyError Json :=
  match keywords.get? key with
  | some value => .ok value
  | none => .error .type

def RawDevice.new (keywords : Dict Text Json) : Except PyError RawDevice := do
  if keywords.any fun e => e.1 ∉ deviceFields then .error .type
  else
    let id ← required keywords "id".toList
    let name ← required keywords "name".toList
    let address ← required keywords "address".toList
    let mac ← required keywords "mac".toList
    .ok {
      id, name, address, mac
      macOverridden := (keywords.get? "mac_overridden".toList).getD (.bool false)
      port := (keywords.get? "port".toList).getD (.int defaultPort)
      broadcastAddress := (keywords.get? "broadcast_address".toList).getD .null
      hostId := (keywords.get? "host_id".toList).getD .null
      hostVersion := (keywords.get? "host_version".toList).getD .null
      protocolVersion := (keywords.get? "protocol_version".toList).getD .null
      paired := (keywords.get? "paired".toList).getD (.bool false)
    }

def snakeNames : List (Text × Text) :=
  [("macOverridden".toList, "mac_overridden".toList),
    ("broadcastAddress".toList, "broadcast_address".toList), ("hostId".toList, "host_id".toList),
    ("hostVersion".toList, "host_version".toList),
    ("protocolVersion".toList, "protocol_version".toList)]

def snake (device : Dict Text Json) : Dict Text Json :=
  snakeNames.foldl (fun result (camel, name) =>
    match result.get? camel with
    | some value => (result.remove camel).set name value
    | none => result) device

def storedIdentifier : Json → Except PyError Text
  | .str id =>
    if (strip isSpace id).isEmpty then .error (.store "Stored PC identifier is invalid.".toList)
    else .ok id
  | _ => .error (.store "Stored PC identifier is invalid.".toList)

def storedName : Json → Except PyError Text
  | .str name =>
    if (strip isSpace name).isEmpty then .error (.store "Stored PC name is empty.".toList)
    else .ok (strip isSpace name)
  | _ => .error (.store "Stored PC name is invalid.".toList)

/-- `normalize_mac` of a stored value: of anything but text, `re` raises. -/
def storedMac : Json → Except PyError Text
  | .str mac => normalizeMac mac
  | _ => .error .type

/-- The flag `paired` is set from the credentials by the caller. -/
def validatedDevice (py : Python) (raw : Json) : Except PyError Device := do
  let device ← RawDevice.new (snake (← raw.toDict))
  let id ← storedIdentifier device.id
  let name ← storedName device.name
  let address ← validateAddress py device.address
  let mac ← storedMac device.mac
  let port ← validatePort py device.port false
  let broadcastAddress ← validateBroadcast py device.broadcastAddress
  .ok {
    id, name, address, mac, port, broadcastAddress
    macOverridden := device.macOverridden
    hostId := device.hostId
    hostVersion := device.hostVersion
    protocolVersion := device.protocolVersion
  }

-- ---------------------------------------------------------------------------
-- Settings and credentials
-- ---------------------------------------------------------------------------

def invalidMessage : Text := "Stored device configuration is invalid.".toList

def isSchemaVersion : Option Json → Bool
  | some (.int version) => version = schemaVersion
  | some (.float repr) => repr = "2.0".toList
  | _ => false

def Settings.flagged (settings : Settings) (credentials : Credentials) : Settings :=
  { settings with
    devices :=
      settings.devices.map fun device => { device with paired := credentials.has device.id } }

def decodeDevices (py : Python) (raw : Json) : Except PyError (List Device) := do
  let items ← raw.iter
  items.mapM (validatedDevice py)

def decodeSettings (py : Python) (raw : Json) (credentials : Credentials) :
    Except PyError Settings :=
  match raw with
  | .dict raw =>
    let version := Dict.get? raw "schemaVersion".toList
    if isSchemaVersion version then
      -- `except (TypeError, ValueError)`: nothing else is raised below
      match decodeDevices py ((Dict.get? raw "devices".toList).getD (.list [])) with
      | .ok devices => .ok (Settings.flagged { devices } credentials)
      | .error _ => .error (.store invalidMessage)
    else
      .error (.store ("Unsupported settings schema version: ".toList ++
        py.repr (version.getD .null) ++ ".".toList))
  | _ => .error (.store invalidMessage)

def decodeCredential : Text × Json → Except PyError (Text × Bytes)
  | (key, .str value) =>
    match fromHex value with
    | some credential => .ok (key, credential)
    | none => .error .value
  | _ => .error .type

def decodeCredentials : Json → Except PyError Credentials
  | .dict document => do
    let values ← document.mapM decodeCredential
    if values.any fun e => e.1.isEmpty ∨ e.2.length ≠ 32 then .error .value else .ok values
  | _ => .error .value

end DeckyMyRig.Deck
