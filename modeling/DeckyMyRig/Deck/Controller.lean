import DeckyMyRig.Deck.Client
import DeckyMyRig.Deck.Versioning

/-!
# The controller

`_status`, `start`, `stop` and `_result` of
`decky/py_modules/decky_my_rig/controller.py`. What the controller reads of the
store is an argument: the device and its credential. Times are readings of
`time.monotonic`.
-/

namespace DeckyMyRig.Deck

open Octets

def onlineMessage (L : Libraries) (host : Text) (relation : VersionRelation) : Text :=
  let plugin := Protobuf.pluginVersion
  match relation with
  | .updateHost =>
    "Update DeckyMyRigHost (host ".toList ++ host ++ ", plugin ".toList ++ plugin ++ ").".toList
  | .updatePlugin =>
    "Update the Decky plugin (plugin ".toList ++ plugin ++ ", host ".toList ++ host ++ ").".toList
  | .incompatible =>
    "Host and plugin major versions are incompatible (".toList ++ host ++ " vs ".toList ++
      plugin ++ ").".toList
  | .unknown =>
    "Version compatibility is unknown (host reported ".toList ++ L.repr host ++ ").".toList
  | .compatible => "Online".toList

-- ---------------------------------------------------------------------------
-- `Controller`
-- ---------------------------------------------------------------------------

inductive DeviceState
  | offline
  | starting
  | online
  | stopping
  | unknown
  deriving DecidableEq

inductive PairingState
  | unpaired
  | pairing
  | paired
  | pairingFailed
  | pairingExpired
  deriving DecidableEq

structure Controller where
  states : Dict Text DeviceState
  deadlines : Dict Text Nat
  transitionTimeout : Nat

structure StatusResult where
  state : DeviceState
  pairing : PairingState
  message : Text
  deriving DecidableEq

namespace Controller

def result (c : Controller) (deviceId : Text) (state : DeviceState) (pairingState : PairingState)
    (message : Text) : Controller × Except Raised StatusResult :=
  ({ c with states := c.states.set deviceId state }, .ok ⟨state, pairingState, message⟩)

def transition (c : Controller) (deviceId : Text) (now : Nat) : Option DeviceState :=
  (c.states.get? deviceId).filter fun _ => now < (c.deadlines.get? deviceId).getD 0

/-- `_status` without a credential. -/
def probed (c : Controller) (device : Device) (now : Nat) :
    Except Raised Unit → Controller × Except Raised StatusResult
  | .ok () => c.result device.id .online .unpaired
      "DeckyMyRigHost was found. Pair this PC in Settings.".toList
  | .error (.host kind message _) =>
    if kind = .protocol then c.result device.id .unknown .unpaired message
    else if c.transition device.id now = some .starting then
      c.result device.id .starting .unpaired message
    else c.result device.id .offline .unpaired message
  | .error e => (c, .error e)

/-- `_status` with a credential. -/
def checked (L : Libraries) (c : Controller) (device : Device) (now : Nat) :
    Except Raised Protobuf.StatusResponse → Controller × Except Raised StatusResult
  | .ok response =>
    match compareVersions L Protobuf.pluginVersion response.hostVersion with
    | .ok relation =>
      c.result device.id .online .paired (onlineMessage L response.hostVersion relation)
    | .error e => (c, .error e)
  | .error (.host kind message _) =>
    match kind with
    | .authentication =>
      c.result device.id .online .pairingFailed "Pairing with this PC is no longer valid.".toList
    | .integrity | .protocol => c.result device.id .unknown .paired message
    | .identity => c.result device.id .unknown .pairingFailed message
    | _ =>
      match c.transition device.id now with
      | some .starting => c.result device.id .starting .paired message
      | some .stopping => c.result device.id .stopping .paired message
      | _ => c.result device.id .offline .paired message
  | .error e => (c, .error e)

theorem checked_response {c : Controller} {found : StatusResult}
    (h : (c.checked L device now (.ok response)).2 = .ok found) : found.state = .online := by
  simp only [checked] at h
  split at h
  · cases h
    rfl
  · cases h

def status (L : Libraries) (U : Urllib) (c : Controller) (device : Device) (secret : Option Bytes)
    (timestamp : Int) (nonce : Bytes) (answers : List Answer) (now : Nat) :
    Controller × Except Raised StatusResult :=
  match secret with
  | none => c.probed device now (HostClient.probe L U device answers)
  | some secret =>
    c.checked L device now (HostClient.status L U device secret timestamp nonce answers)

/-- What `start` and `stop` record once their request is out. -/
def enter (c : Controller) (deviceId : Text) (state : DeviceState) (now : Nat) : Controller :=
  { c with
    states := c.states.set deviceId state
    deadlines := c.deadlines.set deviceId (now + c.transitionTimeout) }

/-- `start`, for a device of the store. `sent` is the end of
`send_magic_packet`; `paired` is whether the store has a credential, which is
looked up last. -/
def start (c : Controller) (device : Device) (sent : Except Raised Unit)
    (paired : Except Raised Bool) (now : Nat) : Controller × Except Raised StatusResult :=
  match sent with
  | .error e => (c, .error e)
  | .ok () =>
    let c := c.enter device.id .starting now
    match paired with
    | .error e => (c, .error e)
    | .ok paired =>
      c.result device.id .starting (if paired then .paired else .unpaired)
        "Wake-on-LAN packet sent.".toList

/-- `stop` from the end of `client.shutdown` on, which is not called without a
credential. -/
def stopped (c : Controller) (device : Device) (now : Nat) :
    Option (Except Raised Unit) → Controller × Except Raised StatusResult
  | none => (c, .error (.value "Pair this PC before shutting it down.".toList))
  | some (.error e) => (c, .error e)
  | some (.ok ()) =>
    (c.enter device.id .stopping now).result device.id .stopping .paired "Shutdown accepted.".toList

def stop (L : Libraries) (U : Urllib) (c : Controller) (device : Device) (secret : Bytes)
    (timestamp : Int) (nonce : Bytes) (answers : List Answer) (now : Nat) :
    Controller × Except Raised StatusResult :=
  c.stopped device now (some (HostClient.shutdown L U device secret timestamp nonce answers))

end Controller

end DeckyMyRig.Deck
