import DeckyMyRig.Host.PairingLaws
import DeckyMyRig.Lib.Runs

/-!
# Runs of one pairing code

Any sequence of `start_for_source`, `finish`, `commit` and `regenerate` calls
on one `PairingCode`, with clock readings that never decrease. Each call is an
event that shows the state it was made in, its arguments and its answer.
-/

namespace DeckyMyRig.Host

open Octets Machine

inductive PairingOp
  | start (clientMessage : Bytes) (source : Option IpAddr) (r : Readings) (entropy : Bytes)
      (sessionId : SessionId)
  | finish (sessionId confirmation : Bytes) (context : CredentialContext) (r : Readings)
      (credential : Credential) (nonce : Block 12)
  | commit (sessionId confirmation : Bytes) (result : PairingResult) (r : Readings)
  | regenerate (draws : List (Fin 1000000 × Nat))

inductive PairingAnswer
  | started (answer : Except PairingError PairingStart)
  | finished (answer : Except PairingError PairingResult)
  | committed (answer : Outcome PairingError Unit)
  | regenerated
  deriving DecidableEq

structure PairingCall where
  before : PairingCode
  op : PairingOp
  answer : PairingAnswer

structure CodeState where
  pairing : PairingCode
  clock : Nat
  drawn : List SessionId

def CodeState.new (code : Code) (created clock : Nat) : CodeState :=
  ⟨.fresh code created, clock, []⟩

def PairingOp.readings : PairingOp → List Nat
  | .start _ _ r _ _ | .finish _ _ _ r _ _ | .commit _ _ _ r => [r.first, r.last]
  | .regenerate draws => draws.map Prod.snd

def PairingOp.sessionIds : PairingOp → List SessionId
  | .start _ _ _ _ sessionId => [sessionId]
  | _ => []

def PairingOp.apply (C : Crates) (p : PairingCode) :
    PairingOp → Option (PairingCode × PairingAnswer)
  | .start clientMessage source r entropy sessionId =>
    let (p, answer) := p.startForSource C clientMessage source r entropy sessionId
    some (p, .started answer)
  | .finish sessionId confirmation context r credential nonce =>
    let (p, answer) := p.finish C sessionId confirmation context r credential nonce
    some (p, .finished answer)
  | .commit sessionId confirmation result r =>
    let (p, answer) := p.commit sessionId confirmation result r
    some (p, .committed answer)
  | .regenerate draws => (p.regenerate draws).map fun p => (p, .regenerated)

theorem PairingOp.apply_start
    (h : (PairingOp.start clientMessage source r entropy sessionId).apply C p = some (p', answer)) :
    ∃ a, p.startForSource C clientMessage source r entropy sessionId = (p', a) ∧
      answer = .started a := by
  obtain ⟨rfl, rfl⟩ := Prod.mk.inj (Option.some.inj h)
  exact ⟨_, rfl, rfl⟩

theorem PairingOp.apply_finish
    (h : (PairingOp.finish sessionId confirmation context r credential nonce).apply C p =
      some (p', answer)) :
    ∃ a, p.finish C sessionId confirmation context r credential nonce = (p', a) ∧
      answer = .finished a := by
  obtain ⟨rfl, rfl⟩ := Prod.mk.inj (Option.some.inj h)
  exact ⟨_, rfl, rfl⟩

theorem PairingOp.apply_commit
    (h : (PairingOp.commit sessionId confirmation result r).apply C p = some (p', answer)) :
    ∃ a, p.commit sessionId confirmation result r = (p', a) ∧ answer = .committed a := by
  obtain ⟨rfl, rfl⟩ := Prod.mk.inj (Option.some.inj h)
  exact ⟨_, rfl, rfl⟩

theorem PairingOp.apply_regenerate
    (h : (PairingOp.regenerate draws).apply C p = some (p', answer)) :
    p.regenerate draws = some p' ∧ answer = .regenerated := by
  obtain ⟨q, hq, heq⟩ := Option.map_eq_some_iff.mp h
  obtain ⟨rfl, rfl⟩ := Prod.mk.inj heq
  exact ⟨hq, rfl⟩

def pairingStep (C : Crates) (s : CodeState) (op : PairingOp) :
    Option (CodeState × List PairingCall) :=
  if (s.clock :: op.readings).Pairwise (· ≤ ·) then
    (op.apply C s.pairing).map fun (p, answer) =>
      (⟨p, (op.readings.getLast?).getD s.clock, s.drawn ++ op.sessionIds⟩,
        [⟨s.pairing, op, answer⟩])
  else none

theorem pairingStep_eq_some (h : pairingStep C s op = some (s', es)) :
    (s.clock :: op.readings).Pairwise (· ≤ ·) ∧
      ∃ p answer, op.apply C s.pairing = some (p, answer) ∧
      s' = ⟨p, (op.readings.getLast?).getD s.clock, s.drawn ++ op.sessionIds⟩ ∧
      es = [⟨s.pairing, op, answer⟩] := by
  unfold pairingStep at h
  split at h
  · rename_i hle
    obtain ⟨⟨p, answer⟩, ha, heq⟩ := Option.map_eq_some_iff.mp h
    obtain ⟨rfl, rfl⟩ := Prod.mk.inj heq
    exact ⟨hle, p, answer, ha, rfl, rfl⟩
  · cases h

theorem pairingStep_of_apply {s : CodeState} (hle : (s.clock :: op.readings).Pairwise (· ≤ ·))
    (ha : op.apply C s.pairing = some (p, answer)) :
    pairingStep C s op =
      some (⟨p, (op.readings.getLast?).getD s.clock, s.drawn ++ op.sessionIds⟩,
        [⟨s.pairing, op, answer⟩]) := by
  simp only [pairingStep, if_pos hle, ha, Option.map_some]

-- ---------------------------------------------------------------------------
-- Calls on fixed inputs
-- ---------------------------------------------------------------------------

def sampleCrates : Crates := .fixed [] (List.replicate 32 5)

def openSession (n : UInt8) : PairingOp :=
  .start [] (some (.v4 1)) (.at 0) [] (repeated 16 n)

def closeSession (n : UInt8) (confirmation : Bytes) (hostname : Text) : PairingOp :=
  .finish (List.replicate 16 n) confirmation ⟨hostname, [], 1, []⟩ (.at 0) (repeated 32 0)
    (repeated 12 0)

-- ---------------------------------------------------------------------------
-- Confirmations
-- ---------------------------------------------------------------------------

def PairingOp.exchanges : PairingOp → Bool
  | .start .. | .finish .. => true
  | .commit .. | .regenerate .. => false

def PairingCall.checked (call : PairingCall) : Option (PendingPairing × Bytes) :=
  match call.op with
  | .finish sessionId confirmation _ r _ _ =>
    (call.before.checking sessionId r).map fun e => (e, confirmation)
  | _ => none

theorem PairingCall.checked_some (h : PairingCode.checking p sessionId r = some e) :
    checked ⟨p, .finish sessionId confirmation context r credential nonce, a⟩ =
      some (e, confirmation) := by
  simp [checked, h]

theorem PairingCall.checked_none (h : PairingCode.checking p sessionId r = none) :
    checked ⟨p, .finish sessionId confirmation context r credential nonce, a⟩ = none := by
  simp [checked, h]

def PairingCall.wrongFor (C : Crates) (source : Option IpAddr) (call : PairingCall) : Bool :=
  match call.checked with
  | some (e, confirmation) => e.source = source && confirmation ≠ confirmationTag C e
  | none => false

/-- A `finish` that returns `Ok`, and not for a session of another source. -/
def PairingCall.okFor (source : Option IpAddr) (call : PairingCall) : Bool :=
  match call.answer with
  | .finished (.ok _) =>
    match call.checked with
    | some (e, _) => e.source = source
    | none => true
  | _ => false

theorem PairingCall.wrongFor_none {call : PairingCall} (h : call.checked = none) :
    call.wrongFor C source = false := by
  simp [wrongFor, h]

theorem PairingCall.wrongFor_some {call : PairingCall} (h : call.checked = some (e, confirmation)) :
    call.wrongFor C source = true ↔ e.source = source ∧ confirmation ≠ confirmationTag C e := by
  simp [wrongFor, h]

def wrongs (C : Crates) (source : Option IpAddr) (tr : List PairingCall) : Nat :=
  tr.countP (·.wrongFor C source)

@[simp] theorem wrongs_nil : wrongs C source [] = 0 := rfl

theorem wrongs_append : wrongs C source (tr ++ tr') = wrongs C source tr + wrongs C source tr' :=
  List.countP_append

theorem wrongs_single : wrongs C source [call] = if call.wrongFor C source then 1 else 0 := by
  simp [wrongs, List.countP_cons]

/-- At most five wrong confirmations of a source's sessions, and no credential
for one of them after the fifth. -/
def FailuresLimited (C : Crates) (tr : List PairingCall) (source : Option IpAddr) : Prop :=
  wrongs C source tr ≤ maxConfirmationFailures ∧
    ∀ pre call post, tr = pre ++ call :: post → maxConfirmationFailures ≤ wrongs C source pre →
      call.okFor source = false

end DeckyMyRig.Host
