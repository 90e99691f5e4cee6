import DeckyMyRig.Host.Http
import DeckyMyRig.Host.Startup

/-!
# The running host

`host/src/server.rs` and `generate_pairing_code` of `host/src/management.rs`
as a machine. Handlers interleave at lock acquisitions: a task is a handler
that waits for a lock, and one step acquires the lock and runs up to the next
acquisition. Two steps are split once more, between a save and what follows it
under the same locks, so that a crash can fall in between. The locks of the
authenticator and of `latest_client_version` are never kept across a step.
-/

namespace DeckyMyRig.Host

open Octets

inductive Path
  | status
  | shutdown
  deriving DecidableEq

def Path.text : Path → Text
  | .status => "/v1/status".toList
  | .shutdown => "/v1/shutdown".toList

/-- A request that passed `verify`: what its handler has in scope. -/
structure Caller where
  path : Path
  http : HttpRequest
  auth : AuthHeaders
  context : AuthenticationContext

structure PairingState where
  paired : Bool
  code : Option Text
  expiresIn : Nat
  deriving DecidableEq

/-- Handlers, by the place where they wait. -/
inductive Task
  -- `authenticate`
  | credential (path : Path) (http : HttpRequest) (auth : AuthHeaders)
  | verify (path : Path) (http : HttpRequest) (auth : AuthHeaders)
      (credential : Credential) (now : Nat)
  | persistNonce (caller : Caller)
  -- `record_client_version`
  | latestVersion (caller : Caller) (version : Text)
  | identityVersion (caller : Caller) (version : Text)
  | setLatest (caller : Caller) (version : Text)
  -- `status`
  | statusReply (caller : Caller)
  -- `pair`, without and with a session id
  | pairCheck (clientMessage : Bytes) (source : Option IpAddr)
  | pairStart (clientMessage : Bytes) (source : Option IpAddr)
  | pairReply (started : PairingStart)
  | pairHostId (request : PairRequest)
  | pairFinish (request : PairRequest) (hostId : Text)
  | pairRepeat (request : PairRequest) (result : PairingResult)
  | pairSave (request : PairRequest) (result : PairingResult)
  | pairCommit (request : PairRequest) (result : PairingResult)
  -- `generate_pairing_code`
  | genPairing
  | genIdentity
  | genInstall (generated : PairingCode) (updated : HostIdentity)

inductive Lock
  | identity
  | pairing
  deriving DecidableEq

def Task.awaits : Task → Option Lock
  | .credential .. | .persistNonce _ | .identityVersion .. | .statusReply _ | .pairCheck ..
  | .pairReply _
  | .pairHostId _ | .pairRepeat .. | .pairSave .. | .genIdentity => some .identity
  | .pairStart .. | .pairFinish .. | .genPairing => some .pairing
  | .verify .. | .latestVersion .. | .setLatest .. | .pairCommit .. | .genInstall .. => none

/-- The state of the process, with the store's record in `stored`. -/
structure AppState where
  hostname : Text
  identity : HostIdentity
  stored : HostIdentity
  pairing : PairingCode
  authenticator : Authenticator
  latestClientVersion : Option Text
  identityLock : Option Nat
  pairingLock : Option Nat
  tasks : Nat → Option Task
  nextTask : Nat
  /-- The last reading of the monotonic clock. -/
  clock : Nat
  /-- The last reading of `now_unix`. -/
  wall : Nat

/-- What a step takes from outside: clock readings, random values, and whether
the store and the power controller succeed. -/
structure Env where
  wall : List Nat
  r : Readings
  saves : Bool
  powers : Bool
  entropy : Bytes
  sessionId : SessionId
  credential : Credential
  nonce : Block 12
  value : Fin 1000000

/-- Everything succeeds, at one instant, with the unix readings given; for runs
on fixed inputs. -/
def Env.sample (wall : List Nat) : Env where
  wall
  r := .at 0
  saves := true
  powers := true
  entropy := []
  sessionId := repeated 16 1
  credential := repeated 32 2
  nonce := repeated 12 3
  value := 0

inductive Output
  | answered (id : Nat) (response : Response)
  | saved (identity : HostIdentity)
  /-- The persisted log took the request's nonce. -/
  | accepted (id : Nat) (caller : Caller)
  /-- `power.shutdown()` is called. -/
  | powerShutdown (id : Nat) (caller : Caller)
  /-- `start_for_source` succeeded. -/
  | started (id : Nat) (start : PairingStart)
  /-- The credential of a session was saved. -/
  | paired (id : Nat) (request : PairRequest) (result : PairingResult)
  /-- A completion was answered with 200. -/
  | completed (id : Nat) (request : PairRequest) (result : PairingResult) (response : Response)
  /-- The `expect` on `commit` fires. -/
  | expectFailed (id : Nat)
  /-- `commit` itself panics. -/
  | panicked (id : Nat)
  | generated (id : Nat) (state : PairingState)
  | generateFailed (id : Nat)
  | restarted

namespace AppState

def goto (s : AppState) (id : Nat) (task : Task) : AppState :=
  { s with tasks := fun i => if i = id then some task else s.tasks i }

def finish (s : AppState) (id : Nat) : AppState :=
  { s with tasks := fun i => if i = id then none else s.tasks i }

def answer (s : AppState) (id : Nat) (response : Response) : AppState × List Output :=
  (s.finish id, [.answered id response])

def free (s : AppState) : Option Lock → Prop
  | none => True
  | some .identity => s.identityLock = none
  | some .pairing => s.pairingLock = none

instance : Decidable (free s lock) := by
  unfold free
  split <;> infer_instance

-- ---------------------------------------------------------------------------
-- `/v1/status` and `/v1/shutdown`
-- ---------------------------------------------------------------------------

def served (C : Crates) (s : AppState) (env : Env) (id : Nat) (caller : Caller) :
    AppState × List Output :=
  match caller.path with
  | .status => (s.goto id (.statusReply caller), [])
  | .shutdown =>
    let response :=
      if env.powers then
        authenticatedProtobuf C 202 (C.encodeShutdownResponse ⟨true⟩) caller.context
          caller.path.text
      else
        authenticatedError C 500 .shutdownFailed "Windows rejected the shutdown request."
          caller.context caller.path.text
    (s.finish id, [.powerShutdown id caller, .answered id response])

def requestVersions (C : Crates) : Path → Bytes → Option (UInt32 × Text)
  | .status, body => (C.decodeStatusRequest body).map fun r => (r.protocolVersion, r.clientVersion)
  | .shutdown, body => (C.decodeShutdownRequest body).map fun r =>
    (r.protocolVersion, r.clientVersion)

/-- What follows `authenticate`, up to the first lock of
`record_client_version`. -/
def authenticated (C : Crates) (s : AppState) (env : Env) (id : Nat) (caller : Caller) :
    AppState × List Output :=
  let path := caller.path.text
  if !isProtobuf caller.http.headers then
    s.answer id (authenticatedError C 415 .malformedRequest
      "Content-Type must be application/x-protobuf." caller.context path)
  else
    match requestVersions C caller.path caller.http.body with
    | none =>
      s.answer id (authenticatedError C 400 .malformedRequest "Malformed Protobuf request."
        caller.context path)
    | some (version, clientVersion) =>
      if version ≠ protocolVersion then
        s.answer id (authenticatedProtocolMismatch C caller.context path)
      else if compareVersions clientVersion hostVersion = .unknown then s.served C env id caller
      else (s.goto id (.latestVersion caller clientVersion), [])

def verify (C : Crates) (s : AppState) (env : Env) (id : Nat) (path : Path) (http : HttpRequest)
    (auth : AuthHeaders) (credential : Credential) (now : Nat) : AppState × List Output :=
  let request : AuthenticatedRequest :=
    ⟨auth.timestamp, auth.nonce, auth.signature, "POST".toList, path.text, http.body⟩
  let (authenticator, verdict) := s.authenticator.verify C credential.val request now
  let s := { s with authenticator }
  match verdict with
  | .error reason => s.answer id (unauthorized C reason)
  | .ok () =>
    match Block.ofBytes 16 auth.nonce with
    | none => s.answer id (unauthorized C .malformed)
    | some nonce =>
      let caller : Caller := ⟨path, http, auth, ⟨credential, nonce⟩⟩
      match path with
      | .shutdown => (s.goto id (.persistNonce caller), [])
      | .status => s.authenticated C env id caller

/-- `retain` on the persisted log, with one reading for each entry. -/
def retainNonces (nonces : List AcceptedShutdownNonce) (wall : List Nat) :
    List AcceptedShutdownNonce :=
  ((nonces.zip wall).filter fun e => e.2 - e.1.timestamp.toNat ≤ clockWindow).map Prod.fst

def persistNonce (C : Crates) (s : AppState) (env : Env) (id : Nat) (caller : Caller) :
    AppState × List Output :=
  let nonces := retainNonces s.identity.acceptedShutdownNonces env.wall
  if nonces.any fun seen => seen.nonce = caller.context.nonce then
    { s with identity := { s.identity with acceptedShutdownNonces := nonces } }.answer id
      (unauthorized C .replay)
  else
    let updated := { s.identity with
      acceptedShutdownNonces := nonces ++ [⟨caller.auth.timestamp, caller.context.nonce⟩] }
    if env.saves then
      let (s, out) :=
        { s with identity := updated, stored := updated }.authenticated C env id caller
      (s, .saved updated :: .accepted id caller :: out)
    else
      { s with identity := { s.identity with acceptedShutdownNonces := nonces } }.answer id
        (unauthorized C .persistence)

def identityVersion (s : AppState) (env : Env) (id : Nat) (caller : Caller) (version : Text) :
    AppState × List Output :=
  let held := { s with identityLock := some id }.goto id (.setLatest caller version)
  if s.identity.lastClientVersion ≠ some version ∧ env.saves then
    let updated := { s.identity with lastClientVersion := some version }
    ({ held with identity := updated, stored := updated }, [.saved updated])
  else (held, [])

def statusReply (C : Crates) (s : AppState) (id : Nat) (caller : Caller) : AppState × List Output :=
  s.answer id (authenticatedProtobuf C 200 (C.encodeStatusResponse
    { hostname := s.hostname, hostVersion, protocolVersion, paired := s.identity.credential.isSome,
      hostId := s.identity.hostId.toText }) caller.context caller.path.text)

-- ---------------------------------------------------------------------------
-- `/v1/pair`
-- ---------------------------------------------------------------------------

def pairCheck (C : Crates) (s : AppState) (id : Nat) (clientMessage : Bytes)
    (source : Option IpAddr) :
    AppState × List Output :=
  if s.identity.credential.isSome ∧ s.identity.pairingCode.isNone then
    s.answer id (error C 409 .alreadyPaired "This host is already paired.")
  else (s.goto id (.pairStart clientMessage source), [])

def pairStart (C : Crates) (s : AppState) (env : Env) (id : Nat) (clientMessage : Bytes)
    (source : Option IpAddr) : AppState × List Output :=
  let (pairing, result) := s.pairing.startForSource C clientMessage source env.r env.entropy
    env.sessionId
  let s := { s with pairing }
  match result with
  | .error e => s.answer id (pairingFailed C e)
  | .ok started => (s.goto id (.pairReply started), [.started id started])

def pairReply (C : Crates) (s : AppState) (id : Nat) (started : PairingStart) :
    AppState × List Output :=
  s.answer id (protobuf 200 (C.encodePairResponse {
    hostSpake2Message := started.hostMessage, encryptionNonce := [], encryptedCredential := []
    hostname := s.hostname, hostVersion, protocolVersion, hostId := s.identity.hostId.toText
    sessionId := started.sessionId.val }))

def credentialContext (s : AppState) (hostId : Text) : CredentialContext :=
  ⟨s.hostname, hostVersion, protocolVersion, hostId⟩

def pairFinish (C : Crates) (s : AppState) (env : Env) (id : Nat) (request : PairRequest)
    (hostId : Text) : AppState × List Output :=
  let wasCompleted := s.pairing.isCompleted request.sessionId
  let (pairing, result) := s.pairing.finish C request.sessionId request.clientConfirmation
    (s.credentialContext hostId) env.r env.credential env.nonce
  let s := { s with pairing }
  match result with
  | .error e => s.answer id (pairingFailed C e)
  | .ok result =>
    ({ s with pairingLock := some id }.goto id
      (if wasCompleted then .pairRepeat request result else .pairSave request result), [])

def pairingResponse (C : Crates) (s : AppState) (sessionId : Bytes) (result : PairingResult) :
    Response :=
  protobuf 200 (C.encodePairResponse {
    hostSpake2Message := result.hostMessage, encryptionNonce := result.nonce.val
    encryptedCredential := result.encryptedCredential, hostname := s.hostname, hostVersion
    protocolVersion, hostId := s.identity.hostId.toText, sessionId })

def pairRepeat (C : Crates) (s : AppState) (id : Nat) (request : PairRequest)
    (result : PairingResult) : AppState × List Output :=
  ({ s with pairingLock := none }.finish id,
    [.completed id request result (s.pairingResponse C request.sessionId result)])

def pairedIdentity (identity : HostIdentity) (credential : Credential) : HostIdentity :=
  { identity with
    credential := some credential
    pairingCode := none
    pairingCreatedAt := 0
    acceptedShutdownNonces := [] }

def pairSave (C : Crates) (s : AppState) (env : Env) (id : Nat) (request : PairRequest)
    (result : PairingResult) : AppState × List Output :=
  let updated := pairedIdentity s.identity result.credential
  if env.saves then
    ({ s with identity := updated, stored := updated, identityLock := some id }.goto id
        (.pairCommit request result),
      [.saved updated, .paired id request result])
  else
    { s with pairingLock := none }.answer id
      (error C 500 .unspecified "Could not save pairing state.")

def pairCommit (C : Crates) (s : AppState) (env : Env) (id : Nat) (request : PairRequest)
    (result : PairingResult) : AppState × List Output :=
  let (pairing, committed) :=
    s.pairing.commit request.sessionId request.clientConfirmation result env.r
  let s := { s with pairing, identityLock := none, pairingLock := none }.finish id
  match committed with
  | .ok () => (s, [.completed id request result (s.pairingResponse C request.sessionId result)])
  | .error _ => (s, [.expectFailed id])
  | .panic => (s, [.panicked id])

-- ---------------------------------------------------------------------------
-- `generate_pairing_code`
-- ---------------------------------------------------------------------------

def genIdentity (s : AppState) (env : Env) (id : Nat) : AppState × List Output :=
  let generated := PairingCode.generate env.value env.r.first
  let updated := { s.identity with
    pairingCode := some generated.code.val
    pairingCreatedAt := env.wall.headD 0 }
  if env.saves then
    ({ s with stored := updated, identityLock := some id }.goto id (.genInstall generated updated),
      [.saved updated])
  else ({ s with pairingLock := none }.finish id, [.generateFailed id])

def genInstall (s : AppState) (env : Env) (id : Nat) (generated : PairingCode)
    (updated : HostIdentity) : AppState × List Output :=
  ({ s with
    identity := updated
    pairing := generated
    identityLock := none
    pairingLock := none }.finish id,
    [.generated id ⟨updated.credential.isSome, updated.pairingCode,
      generated.expiresIn env.r.first⟩])

-- ---------------------------------------------------------------------------
-- Steps
-- ---------------------------------------------------------------------------

/-- How often a task reads `now_unix` in its step. -/
def wallReadings (s : AppState) : Task → Nat
  | .credential .. => if s.identity.credential.isSome then 1 else 0
  | .persistNonce _ => s.identity.acceptedShutdownNonces.length
  | .genIdentity => 1
  | _ => 0

def run (C : Crates) (s : AppState) (env : Env) (id : Nat) : Task → AppState × List Output
  | .credential path http auth =>
    match s.identity.credential with
    | none => s.answer id (unauthorized C .invalid)
    | some credential => (s.goto id (.verify path http auth credential (env.wall.headD 0)), [])
  | .verify path http auth credential now => s.verify C env id path http auth credential now
  | .persistNonce caller => s.persistNonce C env id caller
  | .latestVersion caller version =>
    if s.latestClientVersion = some version then s.served C env id caller
    else (s.goto id (.identityVersion caller version), [])
  | .identityVersion caller version => s.identityVersion env id caller version
  | .setLatest caller version =>
    { s with latestClientVersion := some version, identityLock := none }.served C env id caller
  | .statusReply caller => s.statusReply C id caller
  | .pairCheck clientMessage source => s.pairCheck C id clientMessage source
  | .pairStart clientMessage source => s.pairStart C env id clientMessage source
  | .pairReply started => s.pairReply C id started
  | .pairHostId request => (s.goto id (.pairFinish request s.identity.hostId.toText), [])
  | .pairFinish request hostId => s.pairFinish C env id request hostId
  | .pairRepeat request result => s.pairRepeat C id request result
  | .pairSave request result => s.pairSave C env id request result
  | .pairCommit request result => s.pairCommit C env id request result
  | .genPairing => ({ s with pairingLock := some id }.goto id .genIdentity, [])
  | .genIdentity => s.genIdentity env id
  | .genInstall generated updated => s.genInstall env id generated updated

def tick (s : AppState) (env : Env) : AppState :=
  { s with clock := env.r.last, wall := (env.wall.getLast?).getD s.wall }

def advance (C : Crates) (s : AppState) (id : Nat) (env : Env) : Option (AppState × List Output) :=
  match s.tasks id with
  | none => none
  | some task =>
    if s.free task.awaits ∧ env.wall.length = s.wallReadings task ∧ s.clock ≤ env.r.first then
      some ((s.tick env).run C env id task)
    else none

end AppState

inductive Request
  | authenticated (path : Path) (http : HttpRequest)
  | pair (source : Option IpAddr) (http : HttpRequest)
  | generate

namespace AppState

def route (C : Crates) : Request → Response ⊕ Task
  | .authenticated path http =>
    match authHeaders http.headers with
    | none => .inl (unauthorized C .malformed)
    | some auth => .inr (.credential path http auth)
  | .pair source http =>
    if !isProtobuf http.headers then
      .inl (error C 415 .malformedRequest "Content-Type must be application/x-protobuf.")
    else
      match C.decodePairRequest http.body with
      | none => .inl (error C 400 .malformedRequest "Malformed Protobuf request.")
      | some request =>
        if request.protocolVersion ≠ protocolVersion then .inl (protocolMismatch C)
        else if request.sessionId.isEmpty then .inr (.pairCheck request.clientSpake2Message source)
        else .inr (.pairHostId request)
  | .generate => .inr .genPairing

def receive (C : Crates) (s : AppState) (request : Request) : AppState × List Output :=
  let id := s.nextTask
  let s := { s with nextTask := id + 1 }
  match route C request with
  | .inl response => (s, [.answered id response])
  | .inr task => (s.goto id task, [])

/-- The task is dropped at the lock it waits for, with the locks it holds. -/
def cancel (s : AppState) (id : Nat) : Option AppState :=
  match s.tasks id with
  | none | some (.pairCommit ..) | some (.genInstall ..) => none
  | some _ => some { s.finish id with
      identityLock := if s.identityLock = some id then none else s.identityLock
      pairingLock := if s.pairingLock = some id then none else s.pairingLock }

/-- `run_service`: the process starts from the stored identity. Task numbers go
on, so that no two handlers of a run share one. -/
def boot (hostname : Text) (stored : HostIdentity) (nextTask wall : Nat) (env : Env) :
    Option AppState :=
  if env.wall.length = if stored.pairingCode.isSome then 1 else 0 then
    match stored.startPairing (env.wall.headD 0) env.r.first env.value with
    | .ok pairing => some {
        hostname
        identity := stored
        stored
        pairing
        authenticator := .new
        latestClientVersion := stored.lastClientVersion
        identityLock := none
        pairingLock := none
        tasks := fun _ => none
        nextTask
        clock := env.r.last
        wall := (env.wall.getLast?).getD wall }
    | _ => none
  else none

end AppState

inductive Input
  | request (request : Request)
  | advance (id : Nat) (env : Env)
  /-- The client goes away and the handler is dropped. -/
  | cancel (id : Nat)
  /-- The process ends, at any point, and starts again. -/
  | restart (env : Env)

def hostStep (C : Crates) (s : AppState) : Input → Option (AppState × List Output)
  | .request request => some (s.receive C request)
  | .advance id env => s.advance C id env
  | .cancel id => (s.cancel id).map fun s => (s, [])
  | .restart env =>
    (AppState.boot s.hostname s.stored s.nextTask s.wall env).map fun s => (s, [.restarted])

end DeckyMyRig.Host
