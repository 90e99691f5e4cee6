import DeckyMyRig.Control.ViewModel
import DeckyMyRig.Host.ManagementIpc

/-!
# The control window and its service

A window (`DeckyMyRigHostControl`) and the service it talks to through the
management pipe. Every call of `RefreshAsync` or `GenerateCodeAsync` has a
connection of its own, which the service accepts when it gets to it; the reply
is applied when it arrives. Calls overlap: the window starts a refresh whenever
it is activated. Steps of the host for other clients come in between.
-/

namespace DeckyMyRig.System

open Octets Machine Host Control

def utf16 (s : Text) : Str :=
  s.flatMap fun c =>
    if c.toNat < 0x10000 then [UInt16.ofNat c.toNat]
    else
      let rest := c.toNat - 0x10000
      [UInt16.ofNat (0xD800 + rest / 0x400), UInt16.ofNat (0xDC00 + rest % 0x400)]

/-- A response of the service as `SendAsync` returns it. -/
def received (response : ManagementResponse) : ManagementState where
  ok := response.ok
  error := response.error.map utf16
  serviceRunning := response.serviceRunning
  port := response.port.toNat
  paired := response.paired
  pairingCode := response.pairingCode.map utf16
  expiresInSeconds := response.expiresInSeconds
  hostVersion := some (utf16 response.hostVersion)
  pluginVersion := response.pluginVersion.map utf16
  versionStatus := some (utf16 response.versionStatus)

structure Panel where
  service : Service
  window : HostControlViewModel
  /-- What the calls of the window ask for, in the order they were made. -/
  calls : List Operation
  /-- The calls that have not completed. -/
  awaited : List Nat

inductive PanelInput
  | refreshAsync
  | generateCodeAsync
  | service (i : ServiceInput)
  /-- The reply of a call arrives; `Apply` reads the clock twice. -/
  | applied (k : Nat) (now now' : Nat)
  /-- A call ends with an exception that `ExecuteAsync` catches. -/
  | failed (k : Nat)
  /-- A call ends with another exception. -/
  | escaped (k : Nat)
  | tick (now : Nat)

namespace Panel

def start (host : AppState) : Panel := ⟨.start host, {}, [], []⟩

/-- `ExecuteAsync`, up to its `await`. -/
def begin (R : Runtime) (s : Panel) (operation : Operation) : Panel :=
  { s with
    window := WindowInput.begin.apply R s.window
    calls := s.calls ++ [operation]
    awaited := s.calls.length :: s.awaited }

def complete (R : Runtime) (s : Panel) (k : Nat) (completion : Completion) : Panel :=
  { s with
    window := s.window.completed R completion
    awaited := s.awaited.erase k }

def sent (s : Panel) : ServiceInput → Bool
  | .accept k operation => s.calls[k]? = some operation
  | _ => true

end Panel

def panelStep (C : Crates) (R : Runtime) (port : UInt16) (s : Panel) :
    PanelInput → Option (Panel × List Output)
  | .refreshAsync => some (s.begin R .getServiceInfo, [])
  | .generateCodeAsync => some (s.begin R .generatePairingCode, [])
  | .service i =>
    if s.sent i then (serviceStep C port s.service i).map fun r =>
      ({ s with service := r.1 }, r.2) else none
  | .applied k now now' =>
    match s.service.connections k with
    | some (.responded response) =>
      if k ∈ s.awaited then some (s.complete R k (.answered (received response) now now'), [])
        else none
    | _ => none
  | .failed k => if k ∈ s.awaited then some (s.complete R k .failed, []) else none
  | .escaped k => if k ∈ s.awaited then some (s.complete R k .escaped, []) else none
  | .tick now => some ({ s with window := s.window.tick R now }, [])

/-- `CanGenerate`: the button is enabled while no call has set `IsBusy`. -/
def offered (s : Panel) : PanelInput → Bool
  | .generateCodeAsync => !s.window.isBusy
  | _ => true

def follow (g : Generations) (s : Panel) (out : List Output) : PanelInput → Generations
  | .service (.host i _) => g.track s.service.host out i
  | _ => g

abbrev Numbered := Panel × Generations

def numberedStep (C : Crates) (R : Runtime) (port : UInt16) (s : Numbered) (i : PanelInput) :
    Option (Numbered × List Output) :=
  (panelStep C R port s.1 i).map fun r => ((r.1, follow s.2 s.1 r.2 i), r.2)

inductive PanelStep (C : Crates) (R : Runtime) (port : UInt16) (s : Panel) :
    PanelInput → Panel → List Output → Prop
  | refreshed : PanelStep C R port s .refreshAsync (s.begin R .getServiceInfo) []
  | generated : PanelStep C R port s .generateCodeAsync (s.begin R .generatePairingCode) []
  | served : s.sent i = true → serviceStep C port s.service i = some (service, out) →
      PanelStep C R port s (.service i) { s with service } out
  | applied {k : Nat} : s.service.connections k = some (.responded response) → k ∈ s.awaited →
      PanelStep C R port s (.applied k now now')
        (s.complete R k (.answered (received response) now now')) []
  | failed {k : Nat} : k ∈ s.awaited → PanelStep C R port s (.failed k) (s.complete R k .failed) []
  | escaped {k : Nat} : k ∈ s.awaited →
      PanelStep C R port s (.escaped k) (s.complete R k .escaped) []
  | ticked {now : Nat} :
      PanelStep C R port s (.tick now) { s with window := s.window.tick R now } []

theorem panelStep_cases (h : panelStep C R port s i = some (s', out)) :
    PanelStep C R port s i s' out := by
  cases i with
  | refreshAsync =>
    cases h
    exact .refreshed
  | generateCodeAsync =>
    cases h
    exact .generated
  | service i =>
    obtain ⟨hsent, h⟩ := Option.ite_none_right_eq_some.mp h
    obtain ⟨⟨service, out'⟩, hservice, heq⟩ := Option.map_eq_some_iff.mp h
    cases heq
    exact .served hsent hservice
  | applied k now now' =>
    simp only [panelStep] at h
    split at h
    · rename_i hresponded
      obtain ⟨hawaited, h⟩ := Option.ite_none_right_eq_some.mp h
      cases h
      exact .applied hresponded hawaited
    · cases h
  | failed k =>
    obtain ⟨hawaited, h⟩ := Option.ite_none_right_eq_some.mp h
    cases h
    exact .failed hawaited
  | escaped k =>
    obtain ⟨hawaited, h⟩ := Option.ite_none_right_eq_some.mp h
    cases h
    exact .escaped hawaited
  | tick now =>
    cases h
    exact .ticked

theorem numberedStep_cases {s s' : Numbered} (h : numberedStep C R port s i = some (s', out)) :
    PanelStep C R port s.1 i s'.1 out ∧ s'.2 = follow s.2 s.1 out i := by
  obtain ⟨⟨p, out'⟩, hs, heq⟩ := Option.map_eq_some_iff.mp h
  obtain ⟨rfl, rfl⟩ := Prod.mk.inj heq
  exact ⟨panelStep_cases hs, rfl⟩

end DeckyMyRig.System
