import DeckyMyRig.Host.ManagementCodec
import DeckyMyRig.Lib.Packing
import DeckyMyRig.System.ControlPanel

/-!
# The management pipe from end to end

`SendAsync` of `host/control/DeckyMyRigHostControl.Core/ManagementClient.cs`, as
it writes a request and reads a response, against `handle` of the service. What
`System.Text.Json` and `serde_json` make of a document is a parameter: they agree
on requests and responses.
-/

namespace DeckyMyRig.System

open Octets Machine Host Control

/-- `System.Text.Json`: a request, and `Deserialize<ManagementState>`, which reads
the document `null` as a null reference. -/
structure WindowJson where
  serialize : Operation → Bytes
  deserialize : Bytes → Option (Option ManagementState)

def responseLimit : Nat := 65536

def WindowJson.sentRequest (W : WindowJson) (operation : Operation) : Bytes :=
  Frames.frame (W.serialize operation)

inductive SendError
  /-- `EndOfStreamException`, or `IOException` for the length. -/
  | stream (fault : Frames.Fault)
  | json
  | empty
  deriving DecidableEq

/-- What `SendAsync` makes of the bytes that come back. -/
def readResponse (W : WindowJson) (stream : Bytes) : Except SendError ManagementState :=
  match Frames.read responseLimit stream with
  | .error fault => .error (.stream fault)
  | .ok (message, _) =>
    match W.deserialize message with
    | some (some state) => .ok state
    | some none => .error .empty
    | none => .error .json

/-- Both sides mean the same by a document. JSON has at most six bytes for a
character, so that short texts make a short document. -/
structure Compatible (J : PipeJson) (W : WindowJson) : Prop where
  request : ∀ operation, J.fromSlice (W.serialize operation) = some operation
  response : ∀ r, W.deserialize (J.toVec r) = some (some (received r))
  requestLength : ∀ operation,
    W.serialize operation ≠ [] ∧ (W.serialize operation).length ≤ requestLimit
  responseLength : ∀ r, r.Short → J.toVec r ≠ [] ∧ (J.toVec r).length ≤ responseLimit

-- ---------------------------------------------------------------------------
-- Messages are read as they were meant
-- ---------------------------------------------------------------------------

section
variable {J : PipeJson} {W : WindowJson} (hJ : Compatible J W)
include hJ

theorem readRequest_sent (operation : Operation) :
    readRequest J (W.sentRequest operation) = .ok operation := by
  obtain ⟨hne, hle⟩ := hJ.requestLength operation
  have hread := Frames.read_frame hne hle (by decide) []
  rw [List.append_nil] at hread
  simp only [readRequest, WindowJson.sentRequest, hread, hJ.request]

theorem readRequest_cut (h : W.sentRequest operation = stream ++ more) (hmore : more ≠ []) :
    readRequest J stream = .error (.stream .ended) := by
  obtain ⟨hne, hle⟩ := hJ.requestLength operation
  rw [readRequest, Frames.read_cut hne hle (by decide) h hmore]

theorem readResponse_written (hshort : response.Short) :
    readResponse W (J.written response) = .ok (received response) := by
  obtain ⟨hne, hle⟩ := hJ.responseLength response hshort
  have hread := Frames.read_frame hne hle (by decide) []
  rw [List.append_nil] at hread
  simp only [readResponse, PipeJson.written, hread, hJ.response]

theorem readResponse_cut (hshort : response.Short) (h : J.written response = stream ++ more)
    (hmore : more ≠ []) : readResponse W stream = .error (.stream .ended) := by
  obtain ⟨hne, hle⟩ := hJ.responseLength response hshort
  rw [readResponse, Frames.read_cut hne hle (by decide) h hmore]

end

/-- Every request reaches the service, and every response of a service reaches
the window; a pipe that breaks off inside one of them brings an error. -/
theorem pipe_carries_messages {J : PipeJson} {W : WindowJson} {port : UInt16} (hJ : Compatible J W)
    (hboot : AppState.boot hostname stored nextTask wall env = some start)
    (hstored : ∀ v ∈ stored.lastClientVersion, v.length ≤ 500)
    (h : Run (serviceStep C port) (fun _ i => i.Terse) (.start start) tr s)
    (hk : s.connections k = some (.responded response)) (operation : Operation) :
    readRequest J (W.sentRequest operation) = .ok operation ∧
      (∀ stream more, W.sentRequest operation = stream ++ more → more ≠ [] →
        readRequest J stream = .error (.stream .ended)) ∧
      readResponse W (J.written response) = .ok (received response) ∧
      ∀ stream more, J.written response = stream ++ more → more ≠ [] →
        readResponse W stream = .error (.stream .ended) := by
  have hshort : response.Short := (concise_run hboot hstored h).connections k _ hk
  exact ⟨readRequest_sent hJ operation, fun _ _ => readRequest_cut hJ,
    readResponse_written hJ hshort, fun _ _ => readResponse_cut hJ hshort⟩

section
open Packing

def operationTag : Operation → Bytes
  | .getServiceInfo => [0]
  | .getPairingState => [1]
  | .generatePairingCode => [2]

def packedResponse (r : ManagementResponse) : List Bytes :=
  [number r.ok.toNat, option utf8 r.error, number r.serviceRunning.toNat, number r.port.toNat,
    number r.paired.toNat, option utf8 r.pairingCode, number r.expiresInSeconds.toNat,
    utf8 r.hostVersion, option utf8 r.pluginVersion, utf8 r.versionStatus]

def unpackedState : List Bytes → Option ManagementState
  | [ok, error, serviceRunning, port, paired, pairingCode, expiresInSeconds, hostVersion,
      pluginVersion, versionStatus] => do
    let ok ← readNumber ok
    let error ← readOption utf8Decode error
    let serviceRunning ← readNumber serviceRunning
    let port ← readNumber port
    let paired ← readNumber paired
    let pairingCode ← readOption utf8Decode pairingCode
    let expiresInSeconds ← readNumber expiresInSeconds
    let hostVersion ← utf8Decode hostVersion
    let pluginVersion ← readOption utf8Decode pluginVersion
    let versionStatus ← utf8Decode versionStatus
    some ⟨ok = 1, error.map utf16, serviceRunning = 1, port, paired = 1, pairingCode.map utf16,
      .ofNat expiresInSeconds, some (utf16 hostVersion), pluginVersion.map utf16,
      some (utf16 versionStatus)⟩
  | _ => none

/-- Another format that both sides agree on, for runs on fixed inputs. -/
def packedPipe : PipeJson where
  fromSlice document :=
    [Operation.getServiceInfo, .getPairingState, .generatePairingCode].find? fun operation =>
      operationTag operation = document
  toVec r := write (packedResponse r)

def packedWindow : WindowJson where
  serialize := operationTag
  deserialize document := (read document).map unpackedState

theorem unpackedState_packedResponse (r : ManagementResponse) :
    unpackedState (packedResponse r) = some (received r) := by
  have hflag (b : Bool) : decide (b.toNat = 1) = b := by cases b <;> rfl
  simp only [packedResponse, unpackedState, readNumber_number, readOption_option utf8Decode_utf8,
    utf8Decode_utf8, Option.bind_eq_bind, Option.bind_some, hflag, UInt64.ofNat_toNat]
  rfl

theorem length_packedResponse {r : ManagementResponse} (h : r.Short) :
    (write (packedResponse r)).length ≤ responseLimit := by
  have htext {t : Text} (ht : t.length ≤ 500) : (utf8 t).length ≤ 2000 :=
    (length_utf8_le t).trans (by omega)
  have hoption {o : Option Text} (ho : ∀ t ∈ o, t.length ≤ 500) : (option utf8 o).length ≤ 2001 :=
    length_option_le fun t ht => htext (ho t ht)
  have hnumber {n : Nat} (hn : n < 2 ^ 64) : (number n).length ≤ 80 :=
    (length_utf8_le _).trans (Nat.mul_le_mul_left 4
      ((Nat.length_toDigits_le_iff (by decide) (by decide)).mpr
        (hn.trans (by decide : 2 ^ 64 < 10 ^ 20))))
  have hflag (b : Bool) : b.toNat < 2 ^ 64 := b.toNat_lt.trans (by decide)
  have hok := hnumber (hflag r.ok)
  have herror := hoption h.error
  have hrunning := hnumber (hflag r.serviceRunning)
  have hport := hnumber (r.port.toNat_lt.trans (by decide : 2 ^ 16 < 2 ^ 64))
  have hpaired := hnumber (hflag r.paired)
  have hcode := hoption h.pairingCode
  have hexpires := hnumber r.expiresInSeconds.toNat_lt
  have hhost := htext h.hostVersion
  have hplugin := hoption h.pluginVersion
  have hstatus := htext h.versionStatus
  rw [length_write, responseLimit]
  simp only [packedResponse, List.map_cons, List.map_nil, List.sum_cons, List.sum_nil]
  omega

theorem packed_compatible : Compatible packedPipe packedWindow where
  request operation := by cases operation <;> rfl
  response r := by
    rw [packedWindow, packedPipe]
    simp only [read_write, Option.map_some, unpackedState_packedResponse]
  requestLength operation := by cases operation <;> exact ⟨List.cons_ne_nil _ _, by decide⟩
  responseLength r h := by
    refine ⟨fun hnil => ?_, length_packedResponse h⟩
    have hlength := length_write (packedResponse r)
    rw [show write (packedResponse r) = [] from hnil] at hlength
    cases hlength

end

def reportsPaired (k : Nat) (s : Service) : Bool :=
  match s.connections k with
  | some (.responded response) => response.paired
  | _ => false

theorem reportsPaired_eq_true {k : Nat} (h : reportsPaired k s = true) :
    ∃ response, s.connections k = some (.responded response) ∧ response.paired = true := by
  unfold reportsPaired at h
  split at h
  · exact ⟨_, ‹_›, h⟩
  · cases h

/-- A window asks a paired host for its state. -/
theorem paired_state_reaches_window :
    ∃ tr s response, Run (serviceStep shutdownCrates 47991) (fun _ i => i.Terse)
      (.start pairedStart) tr s ∧
      s.connections 0 = some (.responded response) ∧ response.paired = true ∧
      readRequest packedPipe (packedWindow.sentRequest .getPairingState) = .ok .getPairingState ∧
      readResponse packedWindow (packedPipe.written response) = .ok (received response) := by
  obtain ⟨tr, s, hrun, hp⟩ :=
    Run.exists_of_exec (serviceStep shutdownCrates 47991) (fun _ i => i.Terse)
    (.start pairedStart) [.accept 0 .getPairingState, .lockPairing 0, .lockIdentity 0 0, .respond 0]
    (fun s _ => reportsPaired 0 s) (by decide +kernel)
  obtain ⟨response, hresponse, hpaired⟩ := reportsPaired_eq_true hp
  have hboot : AppState.boot [] pairedHost 0 0 (.sample []) = some pairedStart := rfl
  have hversion : ∀ v ∈ pairedHost.lastClientVersion, v.length ≤ 500 := by
    rintro v ⟨⟩
    decide
  obtain ⟨hrequest, -, hresponded, -⟩ :=
    pipe_carries_messages packed_compatible hboot hversion hrun hresponse .getPairingState
  exact ⟨tr, s, response, hrun, hresponse, hpaired, hrequest, hresponded⟩

end DeckyMyRig.System
