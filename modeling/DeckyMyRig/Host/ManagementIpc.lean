import DeckyMyRig.Host.Replacement

/-!
# The management pipe

`host/src/management_ipc.rs` with `pairing_state` of `host/src/management.rs`.
Every connection is served by a task of its own, so connections interleave with
each other and with the tasks of the host, at the locks that they wait for.
`generate_pairing_code` runs as a task of the host; `pairing_state` is followed
here: it keeps the lock of `pairing` while it waits for the one of `identity`.
-/

namespace DeckyMyRig.Host

open Octets

inductive Operation
  | getServiceInfo
  | getPairingState
  | generatePairingCode
  deriving DecidableEq

structure ManagementResponse where
  ok : Bool
  error : Option Text
  serviceRunning : Bool
  port : UInt16
  paired : Bool
  pairingCode : Option Text
  expiresInSeconds : UInt64
  hostVersion : Text
  pluginVersion : Option Text
  versionStatus : Text

/-- `pairing_state`, once it has both locks. -/
def AppState.pairingState (s : AppState) (now : Nat) : PairingState :=
  ⟨s.identity.credential.isSome, s.displayed, s.pairing.expiresIn now⟩

def versionStatus : Option Text → Text
  | some version =>
    match compareVersions version hostVersion with
    | .compatible => "compatible".toList
    | .updateHost => "update_host".toList
    | .updatePlugin => "update_plugin".toList
    | .incompatible => "incompatible".toList
    | .unknown => "unknown".toList
  | none => "unknown".toList

def ManagementResponse.answer (port : UInt16) (pairing : PairingState)
    (pluginVersion : Option Text) :
    ManagementResponse where
  ok := true
  error := none
  serviceRunning := true
  port
  paired := pairing.paired
  pairingCode := pairing.code
  expiresInSeconds := UInt64.ofNat (pairing.expiresIn / seconds 1)
  hostVersion := Host.hostVersion
  pluginVersion
  versionStatus := Host.versionStatus pluginVersion

def ManagementResponse.failure (port : UInt16) (error : Text) : ManagementResponse where
  ok := false
  error := some error
  serviceRunning := true
  port
  paired := false
  pairingCode := none
  expiresInSeconds := 0
  hostVersion := Host.hostVersion
  pluginVersion := none
  versionStatus := "unknown".toList

/-- A connection, by the place where its `handle` waits. -/
inductive Connection
  -- `pairing_state`
  | awaitsPairing
  | awaitsIdentity
  -- `generate_pairing_code`, as a task of the host
  | generating (task : Nat)
  /-- Before the lock of `latest_client_version`. -/
  | responding (pairing : PairingState)
  | responded (response : ManagementResponse)
  /-- The process ended before the response. -/
  | ended

structure Service where
  host : AppState
  /-- The connection whose `pairing_state` has the lock of `pairing`. -/
  reader : Option Nat
  connections : Nat → Option Connection

inductive ServiceInput
  /-- A connection is accepted and its request read. -/
  | accept (k : Nat) (operation : Operation)
  | lockPairing (k : Nat)
  | lockIdentity (k : Nat) (now : Nat)
  | respond (k : Nat)
  /-- A step of the host; `error` is the text of a save that fails in it. -/
  | host (i : Input) (error : Text)

/-- What `generate_pairing_code` returns to its caller; `none` is an error. -/
def Output.outcome (task : Nat) : Output → Option (Option PairingState)
  | .generated id pairing => if id = task then some (some pairing) else none
  | .generateFailed id => if id = task then some none else none
  | _ => none

def Connection.returned (port : UInt16) (error : Text) (out : List Output) : Connection → Connection
  | .generating task =>
    match out.findSome? (·.outcome task) with
    | some (some pairing) => .responding pairing
    | some none => .responded (.failure port error)
    | none => .generating task
  | connection => connection

/-- The process ends. A response that was written stays in the pipe. -/
def Connection.killed : Connection → Connection
  | .responded response => .responded response
  | _ => .ended

namespace Service

def start (host : AppState) : Service := ⟨host, none, fun _ => none⟩

def set (s : Service) (k : Nat) (connection : Connection) : Service :=
  { s with connections := fun j => if j = k then some connection else s.connections j }

/-- No task gets the lock of `pairing` from a reader. -/
def admits (s : Service) : Input → Bool
  | .advance id _ => s.reader.isNone || (s.host.tasks id).all (·.awaits ≠ some .pairing)
  | _ => true

def accept (C : Crates) (s : Service) (k : Nat) : Operation → Service × List Output
  | .getServiceInfo | .getPairingState => (s.set k .awaitsPairing, [])
  | .generatePairingCode =>
    let (host, out) := s.host.receive C .generate
    ({ s with host }.set k (.generating s.host.nextTask), out)

def follow (s : Service) (port : UInt16) (error : Text) (host : AppState) (out : List Output) :
    Input → Service
  | .restart _ => ⟨host, none, fun k => (s.connections k).map (·.killed)⟩
  | _ => { s with host, connections := fun k => (s.connections k).map (·.returned port error out) }

end Service

def serviceStep (C : Crates) (port : UInt16) (s : Service) :
    ServiceInput → Option (Service × List Output)
  | .accept k operation => if (s.connections k).isNone then some (s.accept C k operation) else none
  | .lockPairing k =>
    match s.connections k with
    | some .awaitsPairing =>
      if s.host.pairingLock = none ∧ s.reader = none then
        some ({ s with reader := some k }.set k .awaitsIdentity, [])
      else none
    | _ => none
  | .lockIdentity k now =>
    match s.connections k with
    | some .awaitsIdentity =>
      if s.host.identityLock = none ∧ s.host.clock ≤ now then
        let host := { s.host with clock := now }
        some ({ s with host, reader := none }.set k (.responding (host.pairingState now)), [])
      else none
    | _ => none
  | .respond k =>
    match s.connections k with
    | some (.responding pairing) =>
      some (s.set k (.responded (.answer port pairing s.host.latestClientVersion)), [])
    | _ => none
  | .host i error =>
    if s.admits i then
      (hostStep C s.host i).map fun r => (s.follow port error r.1 r.2 i, r.2)
    else none

-- ---------------------------------------------------------------------------
-- What a step does to a connection
-- ---------------------------------------------------------------------------

def Connection.unanswered : Option Connection → Bool
  | none | some .awaitsPairing | some .awaitsIdentity | some (.generating _) => true
  | _ => false

/-- A connection over one step of the service. `displayed` is the code that the
service has after the step. -/
inductive Connection.Moves (port : UInt16) (displayed : Option Text) :
    Option Connection → Option Connection → Prop
  | same : Moves port displayed h h
  | waits : unanswered h = true → unanswered h' = true → Moves port displayed h h'
  | computed : unanswered h = true → pairing.code = displayed →
      Moves port displayed h (some (.responding pairing))
  | responded : Moves port displayed (some (.responding pairing))
      (some (.responded (.answer port pairing pluginVersion)))
  | failed {error : Text} : unanswered h = true →
      Moves port displayed h (some (.responded (.failure port error)))
  | ended : (∀ response, h ≠ some (.responded response)) → Moves port displayed h (some .ended)

theorem AppState.Advance.generated {id : Nat} (h : AppState.Advance C s env id t s' out)
    (ho : .generated j state ∈ out) :
    j = id ∧ ∃ generated updated, t = .genInstall generated updated := by
  have hno {c} {u u' : AppState} {out}
      (h : u.Continues id c u' out) : .generated j state ∉ out := by
    cases h <;> simp
  cases h with
  | statusVerified _ h | versionKnown h | versionSet h => exact absurd ho (hno h)
  | nonceSaved _ _ h => exact absurd (by simpa using ho) (hno h)
  | genInstalled =>
    obtain ⟨rfl, -⟩ := by simpa using ho
    exact ⟨rfl, _, _, rfl⟩
  | _ => simp at ho

theorem hostStep_generated {task : Nat} (hg : Grounded C host name s)
    (h : hostStep C s i = some (s', out))
    (ho : .generated task pairing ∈ out) : pairing.code = s'.displayed := by
  cases hostStep_iff_cases h with
  | @advanced id t env _ _ ht _ _ _ ha =>
    obtain ⟨rfl, generated, updated, rfl⟩ := ha.generated ho
    have hrun : (s.tick env).genInstall env task generated updated = (s', out) := hostStep_run h ht
    obtain ⟨rfl, rfl⟩ := Prod.mk.inj hrun
    rw [(Output.generated.inj (List.mem_singleton.mp ho)).2]
    simp [AppState.displayed, AppState.finish, (hg.installs ht).code]
  | _ => simp at ho

theorem Output.outcome_eq_some {o : Output} (h : o.outcome task = some (some pairing)) :
    o = .generated task pairing := by
  cases o with
  | generated id state =>
    obtain ⟨rfl, heq⟩ := Option.ite_none_right_eq_some.mp h
    rw [Option.some.inj (Option.some.inj heq)]
  | generateFailed id =>
    obtain ⟨-, heq⟩ := Option.ite_none_right_eq_some.mp h
    cases heq
  | _ => cases h

theorem Connection.returned_moves (hg : Grounded C host name s)
    (h : hostStep C s i = some (s', out)) (port : UInt16) (error : Text) (connection : Connection) :
    Moves port s'.displayed (some connection) (some (connection.returned port error out)) := by
  cases connection with
  | generating task =>
    simp only [Connection.returned]
    split
    · rename_i pairing hfound
      obtain ⟨o, ho, houtcome⟩ := List.exists_of_findSome?_eq_some hfound
      rw [Output.outcome_eq_some houtcome] at ho
      exact .computed rfl (hostStep_generated hg h ho)
    · exact .failed rfl
    · exact .same
  | _ => exact .same

theorem Connection.killed_moves (port : UInt16) (displayed : Option Text)
    (connection : Connection) :
    Moves port displayed (some connection) (some connection.killed) := by
  cases connection with
  | responded => exact .same
  | _ => exact .ended (by simp)

theorem Connection.Moves.at {connections : Nat → Option Connection} {k : Nat}
    (h : Moves port displayed (connections k) (some connection)) (j : Nat) :
    Moves port displayed (connections j) (if j = k then some connection else connections j) := by
  split
  · rename_i heq
    exact heq ▸ h
  · exact .same

theorem serviceStep_moves {s s' : Service} (hg : Grounded C host name s.host)
    (h : serviceStep C port s i = some (s', out)) (k : Nat) :
    Connection.Moves port s'.host.displayed (s.connections k) (s'.connections k) := by
  cases i with
  | accept j operation =>
    obtain ⟨hnone, h⟩ := Option.ite_none_right_eq_some.mp h
    have hfree : Connection.unanswered (s.connections j) = true := by
      rw [Option.isNone_iff_eq_none.mp hnone]
      rfl
    cases operation <;> cases h <;> exact .at (.waits hfree rfl) k
  | lockPairing j =>
    simp only [serviceStep] at h
    split at h
    · rename_i hj
      obtain ⟨-, h⟩ := Option.ite_none_right_eq_some.mp h
      cases h
      have hwaits : Connection.unanswered (s.connections j) = true := by rw [hj]; rfl
      exact .at (.waits hwaits rfl) k
    · cases h
  | lockIdentity j now =>
    simp only [serviceStep] at h
    split at h
    · rename_i hj
      obtain ⟨-, h⟩ := Option.ite_none_right_eq_some.mp h
      cases h
      have hwaits : Connection.unanswered (s.connections j) = true := by rw [hj]; rfl
      refine .at (.computed hwaits ?_) k
      rfl
    · cases h
  | respond j =>
    simp only [serviceStep] at h
    split at h
    · rename_i pairing hj
      cases h
      exact .at (by rw [hj]; exact .responded) k
    · cases h
  | host i error =>
    obtain ⟨-, h⟩ := Option.ite_none_right_eq_some.mp h
    obtain ⟨⟨host', out'⟩, hhost, heq⟩ := Option.map_eq_some_iff.mp h
    obtain ⟨rfl, rfl⟩ := Prod.mk.inj heq
    cases hk : s.connections k with
    | none => cases i <;> (simp only [Service.follow, hk]; exact .same)
    | some connection =>
      cases i with
      | restart env =>
        simp only [Service.follow, hk]
        exact Connection.killed_moves port _ connection
      | _ =>
        simp only [Service.follow, hk]
        exact Connection.returned_moves hg hhost port error connection

def Connection.isResponded : Option Connection → Bool
  | some (.responded _) => true
  | _ => false

def Connection.successful : Option Connection → Bool
  | some (.responding _) => true
  | some (.responded response) => response.ok
  | _ => false

theorem Connection.Moves.successful (hm : Moves port displayed h h')
    (hs : Connection.successful h' = true) :
    Connection.successful h = true ∨ unanswered h = true ∧
      ∃ pairing, h' = some (.responding pairing) := by
  cases hm with
  | same => exact .inl hs
  | waits _ hwaits =>
    cases h' with
    | none => cases hs
    | some connection =>
      cases connection with
      | responding | responded | ended => cases hwaits
      | _ => cases hs
  | computed hwaits => exact .inr ⟨hwaits, _, rfl⟩
  | responded => exact .inl rfl
  | failed | ended => cases hs

theorem Connection.Moves.code (hm : Moves port displayed h (some (.responding pairing)))
    (hwaits : unanswered h = true) : pairing.code = displayed := by
  cases hm with
  | same => cases hwaits
  | waits _ hwaits => cases hwaits
  | computed _ hcode => exact hcode

theorem Connection.Moves.responded_eq (hm : Moves port displayed (some (.responded response)) h) :
    h = some (.responded response) := by
  cases hm with
  | same => rfl
  | ended h => exact absurd rfl (h _)
  | waits h | computed h | failed h => cases h

def Connection.Knows (port : UInt16) (pairing : PairingState) (h : Option Connection) : Prop :=
  h = some (.responding pairing) ∨
    (∃ pluginVersion, h = some (.responded (.answer port pairing pluginVersion))) ∨ h = some .ended

theorem Connection.Knows.next (hk : Knows port pairing h) (hm : Moves port displayed h h') :
    Knows port pairing h' := by
  rcases hk with rfl | ⟨pluginVersion, rfl⟩ | rfl
  · cases hm with
    | same => exact .inl rfl
    | responded => exact .inr (.inl ⟨_, rfl⟩)
    | ended => exact .inr (.inr rfl)
    | waits h | computed h | failed h => cases h
  · cases hm with
    | same => exact .inr (.inl ⟨pluginVersion, rfl⟩)
    | ended h => exact absurd rfl (h _)
    | waits h | computed h | failed h => cases h
  · cases hm with
    | same | ended => exact .inr (.inr rfl)
    | waits h | computed h | failed h => cases h

theorem serviceStep_host {s s' : Service} (h : serviceStep C port s i = some (s', out)) :
    (∃ j error, i = .host j error ∧ hostStep C s.host j = some (s'.host, out)) ∨
      (∀ j error, i ≠ .host j error) ∧
      (hostStep C s.host (.request .generate) = some (s'.host, out) ∨
        ∃ now, s'.host = { s.host with clock := now }) := by
  cases i with
  | accept k operation =>
    obtain ⟨-, h⟩ := Option.ite_none_right_eq_some.mp h
    refine .inr ⟨by simp, ?_⟩
    cases operation <;> cases h
    · exact .inr ⟨_, rfl⟩
    · exact .inr ⟨_, rfl⟩
    · exact .inl rfl
  | lockPairing k | lockIdentity k =>
    simp only [serviceStep] at h
    split at h
    · obtain ⟨-, h⟩ := Option.ite_none_right_eq_some.mp h
      cases h
      exact .inr ⟨by simp, .inr ⟨_, rfl⟩⟩
    · cases h
  | respond k =>
    simp only [serviceStep] at h
    split at h
    · cases h
      exact .inr ⟨by simp, .inr ⟨_, rfl⟩⟩
    · cases h
  | host i error =>
    obtain ⟨-, h⟩ := Option.ite_none_right_eq_some.mp h
    obtain ⟨⟨host', out'⟩, hhost, heq⟩ := Option.map_eq_some_iff.mp h
    obtain ⟨rfl, rfl⟩ := Prod.mk.inj heq
    refine .inl ⟨i, error, rfl, ?_⟩
    cases i <;> exact hhost

end DeckyMyRig.Host
