import DeckyMyRig.Host.Crates
import DeckyMyRig.Lib.Tables

/-!
# Pairing codes

`host/src/pairing.rs`: the `PairingCode` with its pending and completed
sessions. Each method takes the readings of the monotonic clock and the random
values it draws. A method that reads the clock several times gets a reading
for each: `Readings` holds the first and the last one and, for the sessions
`prune_sessions` looks at in no particular order, one in between each.
-/

namespace DeckyMyRig.Host

open Octets

/-- Durations are in nanoseconds, and an `Instant` is the duration since the
platform's epoch. -/
def seconds (n : Nat) : Nat := n * 1000000000

/-- `Instant - Duration`, which panics below the epoch. -/
def subDuration (i : Nat) (d : Nat) : Option Nat :=
  if d ≤ i then some (i - d) else none

/-- `Instant::elapsed`, zero for an instant that is ahead. -/
def elapsed (since now : Nat) : Nat := now - since

def pairingLifetime : Nat := seconds 300
def maxConfirmationFailures : Nat := 5
def maxPendingSessions : Nat := 128
def maxPendingSessionsPerSource : Nat := 8
def maxFailureSources : Nat := 256

def clientId : Bytes := utf8 "decky-client".toList
def hostIdentityName : Bytes := utf8 "decky-host".toList
def credentialInfo : Bytes := utf8 "deckymyrig-pairing-credential-v1".toList
def confirmationDomain : Bytes := utf8 "deckymyrig-pairing-confirm-v1\x00".toList
def credentialAadDomain : Bytes := utf8 "deckymyrig-pairing-credential-aad-v1\x00".toList

inductive PairingError
  | expired
  | rateLimited
  | invalid
  | encryption
  deriving DecidableEq

/-- The end of a call that can also panic. -/
inductive Outcome (ε α : Type)
  | ok (value : α)
  | error (e : ε)
  | panic
  deriving DecidableEq

inductive IpAddr
  | v4 (address : UInt32)
  | v6 (high low : UInt64)
  deriving DecidableEq

abbrev SessionId := Block 16
abbrev Credential := Block 32

-- ---------------------------------------------------------------------------
-- Codes
-- ---------------------------------------------------------------------------

def validCode (code : Text) : Bool :=
  (utf8 code).length = 6 && (utf8 code).all fun value => 48 ≤ value && value ≤ 57

abbrev Code := { code : Text // validCode code = true }

def Code.sample : Code := ⟨"123456".toList, by decide⟩

def digit (n : Nat) : Char := Char.ofNat (48 + n % 10)

theorem utf8_digit (n : Nat) : String.utf8EncodeChar (digit n) = [UInt8.ofNat (48 + n % 10)] := by
  have h : n % 10 < 10 := Nat.mod_lt _ (by decide)
  unfold digit
  generalize n % 10 = d at h
  interval_cases d <;> decide

instance neZero_codes : NeZero 1000000 := ⟨by decide⟩

def formatCode (value : Fin 1000000) : Text :=
  [digit (value / 100000), digit (value / 10000), digit (value / 1000), digit (value / 100),
    digit (value / 10), digit value]

theorem validCode_formatCode (value : Fin 1000000) : validCode (formatCode value) = true := by
  have hd (n : Nat) : (48 ≤ UInt8.ofNat (48 + n % 10) && UInt8.ofNat (48 + n % 10) ≤ 57) =
      true := by
    have h : n % 10 < 10 := Nat.mod_lt _ (by decide)
    generalize n % 10 = d at h
    interval_cases d <;> decide
  simp only [validCode, formatCode, utf8, List.flatMap_cons, List.flatMap_nil, utf8_digit]
  simp only [List.append_nil, List.cons_append, List.nil_append, List.length_cons, List.length_nil,
    List.all_cons, List.all_nil, hd]
  rfl

-- ---------------------------------------------------------------------------
-- The pairing state
-- ---------------------------------------------------------------------------

structure PendingPairing where
  sessionId : SessionId
  shared : Bytes
  clientMessage : Bytes
  hostMessage : Bytes
  created : Nat
  source : Option IpAddr
  deriving DecidableEq

structure PairingStart where
  hostMessage : Bytes
  sessionId : SessionId
  deriving DecidableEq

structure PairingResult where
  hostMessage : Bytes
  nonce : Block 12
  encryptedCredential : Bytes
  credential : Credential
  deriving DecidableEq

structure CompletedPairing where
  confirmation : Bytes
  result : PairingResult
  created : Nat
  deriving DecidableEq

structure PairingCode where
  code : Code
  created : Nat
  confirmationFailures : AList fun _ : Option IpAddr => Nat
  pending : AList fun _ : SessionId => PendingPairing
  completed : AList fun _ : SessionId => CompletedPairing

structure CredentialContext where
  hostname : Text
  hostVersion : Text
  protocolVersion : UInt32
  hostId : Text

/-- The monotonic clock as one call reads it. -/
structure Readings where
  first : Nat
  pendingAt : SessionId → Nat
  completedAt : SessionId → Nat
  last : Nat
  first_le : ∀ s, first ≤ pendingAt s ∧ first ≤ completedAt s
  le_last : ∀ s, pendingAt s ≤ last ∧ completedAt s ≤ last

def Readings.at (t : Nat) : Readings :=
  ⟨t, fun _ => t, fun _ => t, t, fun _ => ⟨Nat.le_refl _, Nat.le_refl _⟩,
    fun _ => ⟨Nat.le_refl _, Nat.le_refl _⟩⟩

theorem Readings.first_le_last (r : Readings) : r.first ≤ r.last :=
  let s : SessionId := ⟨List.replicate 16 0, rfl⟩
  (r.first_le s).1.trans (r.le_last s).1

def credentialAad (hostMessage sessionId : Bytes) (context : CredentialContext) :
    Except PairingError Bytes := do
  let aad ← [hostMessage, sessionId, utf8 context.hostname, utf8 context.hostVersion,
    utf8 context.hostId].foldlM (fun aad field =>
      if field.length < 65536 then .ok (aad ++ prefixed field) else .error .invalid)
    credentialAadDomain
  pure (aad ++ beBytes 4 context.protocolVersion.toNat)

namespace PairingCode

def fresh (code : Code) (created : Nat) : PairingCode := ⟨code, created, ∅, ∅, ∅⟩

def generate (value : Fin 1000000) (now : Nat) : PairingCode :=
  fresh ⟨formatCode value, validCode_formatCode value⟩ now

def fromCodeWithAge (code : Text) (age : Nat) (now : Nat) :
    Outcome PairingError PairingCode :=
  if h : validCode code = true then
    match subDuration now (min age (pairingLifetime + seconds 1)) with
    | some created => .ok (fresh ⟨code, h⟩ created)
    | none => .panic
  else .error .invalid

def expiresIn (p : PairingCode) (now : Nat) : Nat := pairingLifetime - elapsed p.created now

/-- Draws codes until one differs; `none` while every draw was the old code. -/
def regenerate (p : PairingCode) : List (Fin 1000000 × Nat) → Option PairingCode
  | [] => none
  | (value, now) :: draws =>
    let next := generate value now
    if next.code ≠ p.code then some next else p.regenerate draws

def pruneSessions (p : PairingCode) (r : Readings) : PairingCode :=
  { p with
    pending := p.pending.retain fun s e => elapsed e.created (r.pendingAt s) ≤ pairingLifetime
    completed :=
      p.completed.retain fun s e => elapsed e.created (r.completedAt s) ≤ pairingLifetime }

def failuresOf (p : PairingCode) (source : Option IpAddr) : Nat :=
  (p.confirmationFailures.lookup source).getD 0

def limited (p : PairingCode) (source : Option IpAddr) : Bool :=
  p.failuresOf source ≥ maxConfirmationFailures
    || (p.confirmationFailures.lookup source).isNone &&
      p.confirmationFailures.len ≥ maxFailureSources
    || p.pending.len ≥ maxPendingSessions
    || source.isSome
      && (p.pending.values.filter (·.source = source)).length ≥ maxPendingSessionsPerSource

def startForSource (C : Crates) (p : PairingCode) (clientMessage : Bytes) (source : Option IpAddr)
    (r : Readings) (entropy : Bytes) (sessionId : SessionId) :
    PairingCode × Except PairingError PairingStart :=
  if elapsed p.created r.first > pairingLifetime then (p, .error .expired)
  else
    let p := p.pruneSessions r
    if p.limited source then (p, .error .rateLimited)
    else
      let password := utf8 p.code
      let hostMessage := C.startB password clientId hostIdentityName entropy
      match C.finishB password clientId hostIdentityName entropy clientMessage with
      | none => (p, .error .invalid)
      | some shared =>
        let session := { sessionId, shared, clientMessage, hostMessage, created := r.last, source }
        ({ p with pending := p.pending.insert sessionId session }, .ok ⟨hostMessage, sessionId⟩)

end PairingCode

def confirmationTag (C : Crates) (pending : PendingPairing) : Bytes :=
  C.hmac pending.shared (confirmationDomain ++ pending.clientMessage ++ pending.hostMessage ++
    pending.sessionId.val)

def issue (C : Crates) (pending : PendingPairing) (context : CredentialContext)
    (credential : Credential) (nonce : Block 12) : Except PairingError PairingResult := do
  let key := C.hkdf pending.shared credentialInfo
  let aad ← credentialAad pending.hostMessage pending.sessionId.val context
  pure {
    hostMessage := pending.hostMessage
    nonce
    encryptedCredential := C.encrypt key nonce.val credential.val aad
    credential }

namespace PairingCode

def finish (C : Crates) (p : PairingCode) (sessionId confirmation : Bytes)
    (context : CredentialContext) (r : Readings) (credential : Credential) (nonce : Block 12) :
    PairingCode × Except PairingError PairingResult :=
  match Block.ofBytes 16 sessionId with
  | none => (p, .error .invalid)
  | some s =>
    let p := p.pruneSessions r
    match p.completed.lookup s with
    | some completed =>
      if completed.confirmation = confirmation then (p, .ok completed.result)
      else (p, .error .invalid)
    | none =>
      match p.pending.lookup s with
      | none => (p, .error .invalid)
      | some pending =>
        if elapsed pending.created r.last > pairingLifetime then (p, .error .invalid)
        else if confirmation ≠ confirmationTag C pending then
          let failures := min (p.failuresOf pending.source + 1) 255
          ({ p with
              pending := p.pending.erase s
              confirmationFailures := p.confirmationFailures.insert pending.source failures },
            .error (if failures ≥ maxConfirmationFailures then .rateLimited else .invalid))
        else (p, issue C pending context credential nonce)

def isCompleted (p : PairingCode) (sessionId : Bytes) : Bool :=
  match Block.ofBytes 16 sessionId with
  | none => false
  | some s => (p.completed.lookup s).isSome

/-- The state is also what a panic leaves behind. -/
def commit (p : PairingCode) (sessionId confirmation : Bytes) (result : PairingResult)
    (r : Readings) : PairingCode × Outcome PairingError Unit :=
  match Block.ofBytes 16 sessionId with
  | none => (p, .error .invalid)
  | some s =>
    if (p.pending.lookup s).isNone then (p, .error .invalid)
    else
      let p := { p with
        pending := ∅
        completed := (∅ : AList fun _ : SessionId => CompletedPairing).insert s
          ⟨confirmation, result, r.first⟩ }
      match (subDuration r.last pairingLifetime).bind (subDuration · (seconds 1)) with
      | some created => ({ p with created }, .ok ())
      | none => (p, .panic)

end PairingCode

end DeckyMyRig.Host
