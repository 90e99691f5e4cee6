import DeckyMyRig.Host.ManagementIpc
import DeckyMyRig.Host.VersionSurvival
import DeckyMyRig.Host.VersioningLaws
import DeckyMyRig.Lib.Frames

/-!
# The bytes of the management pipe

`handle` of `host/src/management_ipc.rs`: the request it reads and the response
it writes, with `serde_json` as a parameter. Plugin versions come from requests
that were compared with the host's own version, so they are short, and so is
every response.
-/

namespace DeckyMyRig.Host

open Octets Machine

/-- `serde_json::from_slice` to a `ManagementRequest`, and `serde_json::to_vec` of a
`ManagementResponse`. -/
structure PipeJson where
  fromSlice : Bytes → Option Operation
  toVec : ManagementResponse → Bytes

def requestLimit : Nat := 4096

inductive PipeError
  | stream (fault : Frames.Fault)
  | document
  deriving DecidableEq

/-- What `handle` reads, up to the operation it carries out. -/
def readRequest (J : PipeJson) (stream : Bytes) : Except PipeError Operation :=
  match Frames.read requestLimit stream with
  | .error fault => .error (.stream fault)
  | .ok (message, _) =>
    match J.fromSlice message with
    | some operation => .ok operation
    | none => .error .document

def PipeJson.written (J : PipeJson) (response : ManagementResponse) : Bytes :=
  Frames.frame (J.toVec response)

structure ManagementResponse.Short (r : ManagementResponse) : Prop where
  error : ∀ t ∈ r.error, t.length ≤ 500
  pairingCode : ∀ t ∈ r.pairingCode, t.length ≤ 500
  hostVersion : r.hostVersion.length ≤ 500
  pluginVersion : ∀ t ∈ r.pluginVersion, t.length ≤ 500
  versionStatus : r.versionStatus.length ≤ 500

-- ---------------------------------------------------------------------------
-- Plugin versions
-- ---------------------------------------------------------------------------

theorem length_of_compared (h : compareVersions version hostVersion ≠ .unknown) :
    version.length ≤ 500 := by
  cases hparse : parseVersion version with
  | none => exact absurd (by rw [compareVersions, hparse]) h
  | some v =>
    have hpart (n : UInt64) : (u64Text n).length ≤ 20 := by
      have htext : u64Text n = Nat.toDigits 10 n.toNat := Decimals.toString_toList n.toNat
      rw [htext]
      exact (Nat.length_toDigits_le_iff (by decide) (by decide)).mpr (n.toNat_lt.trans (by decide))
    rw [← parseVersion_eq_some.mp hparse]
    have hmajor := hpart v.major
    have hminor := hpart v.minor
    have hpatch := hpart v.patch
    simp only [Version.text, List.length_append, List.length_cons]
    omega

namespace AppState

theorem finish_task (s : AppState) (id : Nat) : (s.finish id).tasks id = none := by
  simp [finish]

theorem authenticated_compared {s : AppState} {id : Nat}
    (h : (s.authenticated C env id caller).1.tasks id = some (.latestVersion caller' version)) :
    compareVersions version hostVersion ≠ .unknown := by
  unfold authenticated at h
  simp only at h
  split at h
  · simp [answer, finish] at h
  · split at h
    · simp [answer, finish] at h
    · split at h
      · simp [answer, finish] at h
      · split at h
        · unfold served at h
          split at h <;> simp [goto, finish] at h
        · rename_i hcompared
          obtain ⟨-, rfl⟩ := Task.latestVersion.inj (goto_task h)
          exact hcompared

theorem run_compared {s : AppState} {id : Nat}
    (h : (s.run C env id t).1.tasks id = some (.latestVersion caller version)) :
    compareVersions version hostVersion ≠ .unknown := by
  have ha := run_advance C s env id t
  cases t with
  | verify path http auth credential now =>
    simp only [run, verify] at h
    split at h
    · simp [answer, finish] at h
    · split at h
      · simp [answer, finish] at h
      · split at h
        · cases goto_task h
        · exact authenticated_compared h
  | persistNonce caller =>
    simp only [run, persistNonce] at h
    split at h
    · simp [answer, finish] at h
    · split at h
      · exact authenticated_compared h
      · simp [answer, finish] at h
  | latestVersion caller version =>
    simp only [run, served] at h
    repeat' split at h
    all_goals simp [goto, finish] at h
  | setLatest caller version =>
    simp only [run, served] at h
    split at h <;> simp [goto, finish] at h
  | pairFinish request hostId =>
    simp only [run, pairFinish] at h
    split at h
    · simp [answer, finish] at h
    · have htask := goto_task h
      split at htask <;> cases htask
  | _ =>
    generalize s.run C env id _ = r at ha h
    obtain ⟨s', out⟩ := r
    cases ha <;> first | cases goto_task h | cases (finish_task _ id).symm.trans h

end AppState

structure Versioned (P : Text → Prop) (s : AppState) : Prop where
  latest : ∀ v ∈ s.latestClientVersion, P v
  identity : ∀ v ∈ s.identity.lastClientVersion, P v
  stored : ∀ v ∈ s.stored.lastClientVersion, P v
  tasks : ∀ {id : Nat} {t v}, s.tasks id = some t → t.recordedVersion = some v → P v

section
variable {P : Text → Prop} {s s' : AppState} {id : Nat}

theorem AppState.Advance.versioned (h : AppState.Advance C s env id t s' out) (hv : Versioned P s)
    (ht : s.tasks id = some t) (hg : InstallsStored s) :
    (∀ v ∈ s'.latestClientVersion, P v) ∧ (∀ v ∈ s'.identity.lastClientVersion, P v) ∧
      ∀ v ∈ s'.stored.lastClientVersion, P v := by
  have hrecorded {v} (hr : t.recordedVersion = some v) : ∀ w ∈ some v, P w := by
    rintro w ⟨⟩
    exact hv.tasks ht hr
  cases h with
  | statusVerified _ h | versionKnown h =>
    obtain ⟨tasks, rfl⟩ := h.frame
    exact ⟨hv.latest, hv.identity, hv.stored⟩
  | versionSet h =>
    obtain ⟨tasks, rfl⟩ := h.frame
    exact ⟨hrecorded rfl, hv.identity, hv.stored⟩
  | nonceSaved _ hu h =>
    obtain ⟨tasks, rfl⟩ := h.frame
    subst hu
    exact ⟨hv.latest, hv.identity, hv.identity⟩
  | versionSaved hu =>
    subst hu
    exact ⟨hv.latest, hrecorded rfl, hrecorded rfl⟩
  | pairSaved hu =>
    subst hu
    exact ⟨hv.latest, hv.identity, hv.identity⟩
  | genSaved _ hu =>
    subst hu
    exact ⟨hv.latest, hv.identity, hv.identity⟩
  | genInstalled => exact ⟨hv.latest, (hg ht).stored ▸ hv.stored, hv.stored⟩
  | _ => exact ⟨hv.latest, hv.identity, hv.stored⟩

theorem Versioned.entered (hv : Versioned P s)
    (hP : ∀ v, compareVersions v hostVersion ≠ .unknown → P v)
    (ht : s.tasks id = some t) (hrun : s.run C env id t = (s', out)) (hu : s'.tasks id = some u)
    (hr : u.recordedVersion = some v) : P v := by
  have ha := AppState.run_advance C s env id t
  rw [hrun] at ha
  cases ha.enters hu with
  | serving hserving =>
    cases u with
    | latestVersion caller version =>
      cases hr
      have hentered : (s.run C env id t).1.tasks id = some (.latestVersion caller v) := by
        rw [hrun]
        exact hu
      exact hP _ (AppState.run_compared hentered)
    | identityVersion | setLatest => cases hserving
    | _ => cases hr
  | identityVersion => exact hv.tasks ht hr
  | setLatest => exact hv.tasks ht hr
  | _ => cases hr

theorem Versioned.next (hv : Versioned P s) (hl : Locks s) (hg : InstallsStored s)
    (hP : ∀ v, compareVersions v hostVersion ≠ .unknown → P v)
    (h : hostStep C s i = some (s', out)) :
    Versioned P s' := by
  have hstep := hostStep_iff_cases h
  have htasks : ∀ {id : Nat} {t v}, s'.tasks id = some t → t.recordedVersion = some v → P v := by
    intro j u v hu hr
    rcases hstep.task_cases hl hu with ⟨hj, -⟩ | hinit | ⟨env, t, rfl, ht, -⟩
    · exact hv.tasks hj hr
    · cases u with
      | latestVersion | identityVersion | setLatest => cases hinit
      | _ => cases hr
    · exact Versioned.entered (s := s.tick env) ⟨hv.latest, hv.identity, hv.stored, hv.tasks⟩ hP ht
        (hostStep_run h ht) hu hr
  cases hstep with
  | answered | spawned | cancelled => exact ⟨hv.latest, hv.identity, hv.stored, htasks⟩
  | @advanced id t env _ _ ht _ _ _ ha =>
    obtain ⟨hlatest, hidentity, hstored⟩ :=
      ha.versioned (s := s.tick env) ⟨hv.latest, hv.identity, hv.stored, hv.tasks⟩ ht
        (fun hj => hg hj)
    exact ⟨hlatest, hidentity, hstored, htasks⟩
  | restarted hb =>
    obtain ⟨p, -, rfl⟩ := boot_eq_some hb
    exact ⟨hv.stored, hv.stored, hv.stored, htasks⟩

end

-- ---------------------------------------------------------------------------
-- Responses are short
-- ---------------------------------------------------------------------------

def Connection.Terse : Connection → Prop
  | .responding pairing => ∀ t ∈ pairing.code, t.length ≤ 500
  | .responded response => response.Short
  | _ => True

def ServiceInput.Terse : ServiceInput → Prop
  | .host _ error => error.length ≤ 500
  | _ => True

instance decidableTerse : (i : ServiceInput) → Decidable i.Terse
  | .host _ error => Nat.decLe error.length 500
  | .accept .. | .lockPairing _ | .lockIdentity .. | .respond _ => isTrue trivial

theorem displayed_short {s : AppState} : ∀ t ∈ s.displayed, t.length ≤ 500 := by
  intro t ht
  obtain ⟨-, -, rfl⟩ := Option.map_eq_some_iff.mp ht
  have hvalid := s.pairing.code.2
  have hlength := length_le_utf8 s.pairing.code.val
  simp only [validCode, Bool.and_eq_true, decide_eq_true_eq] at hvalid
  omega

theorem versionStatus_short (version : Option Text) : (versionStatus version).length ≤ 500 := by
  unfold versionStatus
  repeat' split
  all_goals decide

theorem hostVersion_short : hostVersion.length ≤ 500 := by decide

theorem ManagementResponse.short_answer (port : UInt16) (hcode : ∀ t ∈ pairing.code, t.length ≤ 500)
    (hplugin : ∀ t ∈ plugin, t.length ≤ 500) : (answer port pairing plugin).Short :=
  ⟨nofun, hcode, hostVersion_short, hplugin, versionStatus_short plugin⟩

theorem ManagementResponse.short_failure (port : UInt16) {error : Text}
    (herror : error.length ≤ 500) :
    (failure port error).Short := by
  refine ⟨?_, nofun, hostVersion_short, nofun, show "unknown".toList.length ≤ 500 by decide⟩
  rintro t ⟨⟩
  exact herror

theorem Connection.Terse.returned {connection : Connection} (ht : connection.Terse)
    (hg : Grounded C host name s)
    (h : hostStep C s i = some (s', out)) (port : UInt16) {error : Text}
    (herror : error.length ≤ 500) :
    (connection.returned port error out).Terse := by
  cases connection with
  | generating task =>
    simp only [Connection.returned]
    split
    · rename_i pairing hfound
      obtain ⟨o, ho, houtcome⟩ := List.exists_of_findSome?_eq_some hfound
      rw [Output.outcome_eq_some houtcome] at ho
      show ∀ t ∈ pairing.code, t.length ≤ 500
      rw [hostStep_generated hg h ho]
      exact displayed_short
    · exact ManagementResponse.short_failure port herror
    · trivial
  | _ => exact ht

structure Concise (C : Crates) (host : Uuid) (name : Text) (s : Service) : Prop where
  grounded : Grounded C host name s.host
  versioned : Versioned (fun v => v.length ≤ 500) s.host
  connections : ∀ k connection, s.connections k = some connection → connection.Terse

theorem Concise.set (hs : Concise C host name s) (ht : connection.Terse) (k : Nat) :
    Concise C host name (s.set k connection) := by
  refine ⟨hs.grounded, hs.versioned, fun j c hj => ?_⟩
  simp only [Service.set] at hj
  split at hj
  · exact Option.some.inj hj ▸ ht
  · exact hs.connections j c hj

theorem Concise.hostStep (hs : Concise C host name s) (h : hostStep C s.host i = some (s', out)) :
    Grounded C host name s' ∧ Versioned (fun v => v.length ≤ 500) s' :=
  ⟨hs.grounded.next (hostStep_iff_cases h),
    hs.versioned.next hs.grounded.locks hs.grounded.installs (fun _ => length_of_compared) h⟩

theorem Concise.next (hs : Concise C host name s) (hi : i.Terse)
    (h : serviceStep C port s i = some (s', out)) :
    Concise C host name s' := by
  cases i with
  | accept k operation =>
    obtain ⟨-, h⟩ := Option.ite_none_right_eq_some.mp h
    cases operation with
    | getServiceInfo | getPairingState =>
      cases h
      refine hs.set ?_ k
      trivial
    | generatePairingCode =>
      have hgenerate := hs.hostStep (i := .request .generate) rfl
      cases h
      refine Concise.set ?_ ?_ k
      · exact ⟨hgenerate.1, hgenerate.2, hs.connections⟩
      · trivial
  | lockPairing k =>
    simp only [serviceStep] at h
    split at h
    · obtain ⟨-, h⟩ := Option.ite_none_right_eq_some.mp h
      cases h
      refine Concise.set ?_ ?_ k
      · exact ⟨hs.grounded, hs.versioned, hs.connections⟩
      · trivial
    · cases h
  | lockIdentity k now =>
    simp only [serviceStep] at h
    split at h
    · obtain ⟨-, h⟩ := Option.ite_none_right_eq_some.mp h
      cases h
      have hv := hs.versioned
      refine Concise.set ?_ ?_ k
      · exact ⟨hs.grounded.clock now, ⟨hv.latest, hv.identity, hv.stored, hv.tasks⟩, hs.connections⟩
      · exact displayed_short (s := { s.host with clock := now })
    · cases h
  | respond k =>
    simp only [serviceStep] at h
    split at h
    · rename_i pairing hk
      cases h
      refine hs.set ?_ k
      exact ManagementResponse.short_answer port (hs.connections k _ hk) hs.versioned.latest
    · cases h
  | host i error =>
    obtain ⟨-, h⟩ := Option.ite_none_right_eq_some.mp h
    obtain ⟨⟨host', out'⟩, hhost, heq⟩ := Option.map_eq_some_iff.mp h
    obtain ⟨rfl, rfl⟩ := Prod.mk.inj heq
    obtain ⟨hgrounded, hversioned⟩ := hs.hostStep hhost
    have hreturned : ∀ k connection, (s.connections k).map
        (·.returned port error out') = some connection →
          connection.Terse := by
      intro k connection hk
      obtain ⟨c, hc, rfl⟩ := Option.map_eq_some_iff.mp hk
      exact (hs.connections k c hc).returned hs.grounded hhost port hi
    have hkilled : ∀ k connection, (s.connections k).map (·.killed) = some connection →
        connection.Terse := by
      intro k connection hk
      obtain ⟨c, hc, rfl⟩ := Option.map_eq_some_iff.mp hk
      cases c with
      | responded => exact hs.connections k _ hc
      | _ => trivial
    cases i with
    | restart => exact ⟨hgrounded, hversioned, hkilled⟩
    | _ => exact ⟨hgrounded, hversioned, hreturned⟩

theorem concise_run (hboot : AppState.boot hostname stored nextTask wall env = some start)
    (hstored : ∀ v ∈ stored.lastClientVersion, v.length ≤ 500)
    (h : Run (serviceStep C port) (fun _ i => i.Terse) (.start start) tr s) :
    Concise C stored.hostId hostname s := by
  refine h.invariant (I := fun _ s => Concise C stored.hostId hostname s) ⟨.boot hboot, ?_, nofun⟩
    fun hs hi hstep => hs.next hi hstep
  obtain ⟨p, -, rfl⟩ := boot_eq_some hboot
  exact ⟨hstored, hstored, hstored, nofun⟩

end DeckyMyRig.Host
