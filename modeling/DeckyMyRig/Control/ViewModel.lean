import DeckyMyRig.Lib.Runs

/-!
# The view model of the control window

`host/control/DeckyMyRigHostControl.Core/HostControlViewModel.cs`. Strings are
their UTF-16 code units. A call of `RefreshAsync` or `GenerateCodeAsync` touches
the view model when it begins and when it completes, so a window is a machine
whose inputs are these and the ticks of its timer (`windowStep`), in any order.
Instants are ticks of 100 ns; the readings of the clock are arguments.
-/

namespace DeckyMyRig.Control

abbrev Str := List UInt16

/-- A literal. None of them leaves the first plane. -/
def str (s : String) : Str := s.toList.map fun c => UInt16.ofNat c.toNat

def dash : Str := str "—"

def maxTicks : Nat := 3155378975999999999

def ticksPerSecond : Nat := 10000000

/-- `AddSeconds` of a whole number; `none` is `ArgumentOutOfRangeException`. -/
def addSeconds (instant : Nat) (seconds : UInt64) : Option Nat :=
  let sum := instant + seconds.toNat * ticksPerSecond
  if sum ≤ maxTicks then some sum else none

structure Runtime where
  /-- `(int)remaining.TotalMinutes`, the cast of a `double`. -/
  totalMinutes : (ticks : Nat) → Int

def twoDigits (n : Int) : Str :=
  str ((if n < 0 then "-" else "") ++ (if n.natAbs < 10 then "0" else "") ++ toString n.natAbs)

structure ManagementState where
  ok : Bool
  error : Option Str
  serviceRunning : Bool
  port : Int
  paired : Bool
  pairingCode : Option Str
  expiresInSeconds : UInt64
  hostVersion : Option Str := none
  pluginVersion : Option Str := none
  versionStatus : Option Str := none

structure HostControlViewModel where
  expiresAt : Option Nat := none
  serviceStatus : Str := str "Checking…"
  port : Int := 0
  pairingCode : Str := dash
  expiration : Str := dash
  pairingStatus : Str := str "Not paired"
  errorMessage : Option Str := none
  isBusy : Bool := false
  hostVersion : Str := dash
  updateStatus : Str := str "Plugin version not detected yet"

def formatCode : Option Str → Str
  | some code => if code.length = 6 then code.take 3 ++ str " " ++ code.drop 3 else dash
  | none => dash

def updateStatus (state : ManagementState) : Str :=
  let host := state.hostVersion.getD []
  let plugin := state.pluginVersion.getD []
  if state.versionStatus = some (str "compatible") then
    str "Host " ++ host ++ str " • Plugin " ++ plugin ++ str " • Compatible"
  else if state.versionStatus = some (str "update_host") then
    str "Update this host to match plugin " ++ plugin ++ str "."
  else if state.versionStatus = some (str "update_plugin") then
    str "Update the Decky plugin to match host " ++ host ++ str "."
  else if state.versionStatus = some (str "incompatible") then
    str "Host and plugin major versions are incompatible. Update the older component."
  else str "Plugin version not detected yet. Open the plugin while this PC is online."

def countdown (R : Runtime) (expiresAt : Option Nat) (now : Nat) : Str :=
  match expiresAt with
  | none => dash
  | some instant =>
    if instant ≤ now then str "Expired"
    else
      let remaining := instant - now
      twoDigits (R.totalMinutes remaining) ++ str ":" ++
        twoDigits ((remaining / ticksPerSecond % 60 : Nat))

namespace HostControlViewModel

def tick (R : Runtime) (vm : HostControlViewModel) (now : Nat) : HostControlViewModel :=
  { vm with expiration := countdown R vm.expiresAt now }

/-- What `Apply` takes from every answer. -/
def described (vm : HostControlViewModel) (state : ManagementState) : HostControlViewModel :=
  { vm with
    serviceStatus := if state.serviceRunning then str "Running" else str "Stopped"
    port := state.port
    hostVersion := state.hostVersion.getD (str "Unknown")
    updateStatus := Control.updateStatus state }

def refused (vm : HostControlViewModel) (error : Option Str) : HostControlViewModel :=
  { vm with errorMessage := some (error.getD (str "DeckyMyRigHost returned an error.")) }

def coded (vm : HostControlViewModel) (state : ManagementState) : HostControlViewModel :=
  { vm with
    pairingStatus := if state.paired then str "Paired" else str "Not paired"
    pairingCode := formatCode state.pairingCode }

/-- `Apply`. The clock is read for the expiry, and again by `Tick`. -/
def apply (R : Runtime) (vm : HostControlViewModel) (state : ManagementState) (now now' : Nat) :
    HostControlViewModel :=
  let vm := vm.described state
  if !state.ok then vm.refused state.error
  else
    let vm := vm.coded state
    match state.pairingCode with
    | none => { vm with expiresAt := none }.tick R now'
    | some _ =>
      match addSeconds now state.expiresInSeconds with
      | some instant => { vm with expiresAt := some instant }.tick R now'
      -- the exception is not one that `ExecuteAsync` catches
      | none => vm

/-- The handler of `ExecuteAsync`. -/
def unavailable (vm : HostControlViewModel) : HostControlViewModel :=
  { vm with
    serviceStatus := str "Unavailable"
    pairingCode := dash
    expiration := dash
    errorMessage := some <|
      str "DeckyMyRigHost could not be contacted. Verify that the Windows service is running." }

end HostControlViewModel

inductive Completion
  | answered (state : ManagementState) (now now' : Nat)
  /-- An exception that `ExecuteAsync` catches. -/
  | failed
  /-- Another exception. -/
  | escaped

inductive WindowInput
  /-- `RefreshAsync` or `GenerateCodeAsync` is called. -/
  | begin
  | complete (completion : Completion)
  | tick (now : Nat)

/-- `ExecuteAsync`, from the end of its `await` on. -/
def HostControlViewModel.completed (R : Runtime) (vm : HostControlViewModel)
    (completion : Completion) :
    HostControlViewModel :=
  let vm :=
    match completion with
    | .answered state now now' => vm.apply R state now now'
    | .failed => vm.unavailable
    | .escaped => vm
  { vm with isBusy := false }

def WindowInput.apply (R : Runtime) (vm : HostControlViewModel) : WindowInput → HostControlViewModel
  | .begin => { vm with isBusy := true, errorMessage := none }
  | .complete completion => vm.completed R completion
  | .tick now => vm.tick R now

def windowStep (R : Runtime) (vm : HostControlViewModel) (i : WindowInput) :
    Option (HostControlViewModel × List Unit) :=
  some (i.apply R vm, [])

end DeckyMyRig.Control
