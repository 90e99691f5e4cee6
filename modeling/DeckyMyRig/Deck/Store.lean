import DeckyMyRig.Deck.Documents
import DeckyMyRig.Lib.Faults

/-!
# The store

`Store` of `decky/py_modules/decky_my_rig/store.py`, as programs on the three
documents of its directory whose file-system calls can raise, or can be the
last thing that happens. Reading is not such a call. A temporary file is never
read, so only its `os.replace` shows. The directory's lock is held throughout
each method.
-/

namespace DeckyMyRig.Deck

open Octets Texts Faults

structure Disk where
  settings : Option Text := none
  credentials : Option Text := none
  transaction : Option Text := none
  deriving DecidableEq

abbrev Action (α : Type) := Prog Disk PyError α

def Disk.replace (disk : Disk) (text : Text) : File → Disk
  | .settings => { disk with settings := some text }
  | .credentials => { disk with credentials := some text }
  | .transaction => { disk with transaction := some text }

def Disk.unlink (disk : Disk) : Disk := { disk with transaction := none }

-- ---------------------------------------------------------------------------
-- Files
-- ---------------------------------------------------------------------------

def call (step : FileStep) (effect : Disk → Disk) : PyError × (Disk → Disk) := (.os step, effect)

def writeCalls (file : File) (text : Text) : List (PyError × (Disk → Disk)) :=
  [call (.write file .create) id, call (.write file .write) id, call (.write file .sync) id,
    call (.write file .chmod) id, call (.write file .replace) (·.replace text file),
    call (.write file .openDirectory) id, call (.write file .syncDirectory) id]

def Store.atomicWrite (py : Python) (file : File) (value : Json) : Action Unit :=
  Prog.steps (writeCalls file (py.dumps value))

def removeCalls : List (PyError × (Disk → Disk)) :=
  [call (.remove .unlink) Disk.unlink, call (.remove .openDirectory) id,
    call (.remove .syncDirectory) id]

def Store.removeTransaction : Action Unit := do
  let disk ← Prog.read
  match disk.transaction with
  | none => pure ()
  | some _ => Prog.steps removeCalls

-- ---------------------------------------------------------------------------
-- Reading
-- ---------------------------------------------------------------------------

def Python.json (py : Python) (text : Text) : Except PyError Json :=
  match py.loads text with
  | some document => .ok document
  | none => .error .jsonDecode

def subscript (document : Dict Text Json) (key : Text) : Except PyError Json :=
  match document.get? key with
  | some value => .ok value
  | none => .error .key

def isinstanceDict : Json → Bool
  | .dict _ => true
  | _ => false

def readTransaction (py : Python) (text : Text) : Except PyError (Json × Json) := do
  match ← py.json text with
  | .dict transaction =>
    let settings ← subscript transaction "settings".toList
    let credentials ← subscript transaction "credentials".toList
    if !isinstanceDict settings || !isinstanceDict credentials then .error .type
    else
      let decodedCredentials ← decodeCredentials credentials
      let _ ← decodeSettings py settings decodedCredentials
      .ok (settings, credentials)
  | _ => .error .type

def recoveryMessage : Text := "An interrupted settings transaction could not be recovered.".toList

def Store.recoverTransaction (py : Python) : Action Unit := do
  let disk ← Prog.read
  match disk.transaction with
  | none => pure ()
  | some text =>
    Prog.catching (do
      let (settings, credentials) ← Prog.lift (readTransaction py text)
      atomicWrite py .credentials credentials
      atomicWrite py .settings settings
      removeTransaction)
      -- every exception of the body is in the `except` clause
      fun _ => Prog.throw (.store recoveryMessage)

def Store.construct (py : Python) : Action Unit := recoverTransaction py

def readCredentials (py : Python) : Option Text → Except PyError Credentials
  | none => .ok []
  | some text =>
    match py.json text >>= decodeCredentials with
    | .ok values => .ok values
    | .error _ => .error (.store "Stored pairing credentials are corrupted.".toList)

def loadSettings (py : Python) (text : Text) (credentials : Credentials) :
    Except PyError Settings :=
  match py.json text with
  | .ok raw => decodeSettings py raw credentials
  | .error _ => .error (.store "Stored device configuration is corrupted.".toList)

def Store.credentials (py : Python) : Action Credentials := do
  recoverTransaction py
  let disk ← Prog.read
  Prog.lift (readCredentials py disk.credentials)

def Store.load (py : Python) : Action Settings := do
  recoverTransaction py
  let disk ← Prog.read
  match disk.settings with
  | none => pure {}
  | some text =>
    let credentials ← credentials py
    Prog.lift (loadSettings py text credentials)

def readSettings (py : Python) (text : Option Text) (credentials : Credentials) :
    Except PyError Settings :=
  match text with
  | none => .ok {}
  | some text => loadSettings py text credentials

def Store.snapshot (py : Python) : Action (Settings × Credentials) := do
  recoverTransaction py
  let credentials ← credentials py
  let disk ← Prog.read
  let settings ← Prog.lift (readSettings py disk.settings credentials)
  pure (settings, credentials)

-- ---------------------------------------------------------------------------
-- Writing
-- ---------------------------------------------------------------------------

def Store.save (py : Python) (settings : Settings) : Action Unit :=
  atomicWrite py .settings settings.publicDict

def transactionDocument (settings : Settings) (credentials : Credentials) : Json :=
  .dict [("settings".toList, settings.publicDict), ("credentials".toList, credentials.document)]

/-- The `except` clause of `_commit`, up to its `raise`. -/
def Store.rollback (py : Python) (credentialsWritten settingsWritten : Bool)
    (previousSettings : Settings) (previousCredentials : Credentials) : Action Unit := do
  let succeeded ← Prog.catching (do
      if credentialsWritten then atomicWrite py .credentials previousCredentials.document
      if settingsWritten then atomicWrite py .settings previousSettings.publicDict
      pure true)
    fun _ => pure false
  if succeeded then removeTransaction

/-- `try: body`, with a handler that raises the exception again. -/
def Store.onError (body : Action Unit) (handler : Action Unit) : Action Unit :=
  Prog.catching body fun error => do
    handler
    Prog.throw error

def Store.commit (py : Python) (settings : Settings) (credentials : Credentials)
    (previousSettings : Settings) (previousCredentials : Credentials) : Action Unit := do
  atomicWrite py .transaction (transactionDocument settings credentials)
  -- one `try` in the source; the flags say how far it came
  onError (atomicWrite py .credentials credentials.document)
    (rollback py false false previousSettings previousCredentials)
  onError (atomicWrite py .settings settings.publicDict)
    (rollback py true false previousSettings previousCredentials)
  removeTransaction

def getOr (values : Dict Text Json) (key : Text) (default : Json) : Json :=
  (values.get? key).getD default

/-- The device of an `upsert`, before it takes over what is stored. -/
def newDevice (py : Python) (values : Dict Text Json) (id : Text) : Except PyError Device := do
  let name := strip isSpace (py.str (getOr values "name".toList (.str [])))
  let address ← validateAddress py (getOr values "address".toList .null)
  let mac ← normalizeMac (py.str (getOr values "mac".toList (.str [])))
  let macOverridden := Json.bool (getOr values "macOverridden".toList (.bool false)).truthy
  let port ← validatePort py (getOr values "port".toList .null) true
  let broadcastAddress ← validateBroadcast py (getOr values "broadcastAddress".toList .null)
  if name.isEmpty then .error (.store "Name is required.".toList)
  else .ok { id, name, address, mac, macOverridden, port, broadcastAddress }

def Device.keepHost (device existing : Device) : Device :=
  { device with
    hostId := existing.hostId
    hostVersion := existing.hostVersion
    protocolVersion := existing.protocolVersion
    paired := existing.paired }

def identifierOr (deviceId : Option Text) (uuid : Text) : Text :=
  match deviceId with
  | none | some [] => uuid
  | some id => id

def putDevice (devices : List Device) (device : Device) : Device × List Device :=
  match updateFirst (·.id = device.id) device.keepHost devices with
  | some updated => updated
  | none => (device, devices ++ [device])

def Store.upsert (py : Python) (values : Dict Text Json) (deviceId : Option Text) (uuid : Text) :
    Action Device := do
  let settings ← load py
  let device ← Prog.lift (newDevice py values (identifierOr deviceId uuid))
  let (device, devices) := putDevice settings.devices device
  save py { settings with devices }
  pure device

def Store.delete (py : Python) (deviceId : Text) : Action Unit := do
  let (previousSettings, previousCredentials) ← snapshot py
  let settings : Settings :=
    { previousSettings with devices := previousSettings.devices.filter (·.id ≠ deviceId) }
  commit py settings (previousCredentials.remove deviceId) previousSettings previousCredentials

def Store.find (py : Python) (deviceId : Text) : Action Device := do
  let settings ← load py
  match settings.devices.find? (·.id = deviceId) with
  | some device => pure device
  | none => Prog.throw (.store "PC was not found.".toList)

/-- What pairing with a host stores about it; its name is not stored. -/
structure HostFacts where
  hostId : Text
  hostVersion : Text
  protocolVersion : Int
  deriving DecidableEq

def Device.pairWith (facts : HostFacts) (device : Device) : Device :=
  { device with
    hostId := .str facts.hostId
    hostVersion := .str facts.hostVersion
    protocolVersion := .int facts.protocolVersion
    paired := true }

def Store.markPaired (py : Python) (deviceId : Text) (credential : Bytes) (facts : HostFacts) :
    Action Device := do
  let (previousSettings, previousCredentials) ← snapshot py
  match updateFirst (·.id = deviceId) (Device.pairWith facts) previousSettings.devices with
  | some (device, devices) =>
    commit py { previousSettings with devices } (previousCredentials.set deviceId credential)
      previousSettings previousCredentials
    pure device
  | none => Prog.throw .stopIteration

end DeckyMyRig.Deck
