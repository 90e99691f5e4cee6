import DeckyMyRig.Host.PairingLaws
import DeckyMyRig.Host.Storage

/-!
# Starting the service

`persisted_code_age` of `host/src/management.rs` and the pairing code that
`run_service` builds from the stored identity. Both this and
`PairingCode::commit` subtract up to 301 seconds from an `Instant`, which
counts from the platform's epoch.
-/

namespace DeckyMyRig.Host

open Octets

def persistedCodeAge (createdAt now : Nat) : Nat :=
  if createdAt = 0 ∨ createdAt > now then seconds 301 else seconds (now - createdAt)

/-- The pairing code of `run_service`: the stored one with its age, or a new
one. `now` is the wall clock, `m` the monotonic clock. -/
def HostIdentity.startPairing (identity : HostIdentity) (now m : Nat) (value : Fin 1000000) :
    Outcome PairingError PairingCode :=
  match identity.pairingCode with
  | some code => PairingCode.fromCodeWithAge code (persistedCodeAge identity.pairingCreatedAt now) m
  | none => .ok (PairingCode.generate value m)

def subtractedAge (createdAt now : Nat) : Nat :=
  if createdAt = 0 ∨ now < createdAt then 301 else min (now - createdAt) 301

theorem seconds_add (a b : Nat) : seconds a + seconds b = seconds (a + b) :=
  (Nat.add_mul a b _).symm

theorem min_seconds (a b : Nat) : min (seconds a) (seconds b) = seconds (min a b) :=
  Nat.mul_min_mul_right a b _

theorem min_persistedCodeAge (createdAt now : Nat) :
    min (persistedCodeAge createdAt now) (pairingLifetime + seconds 1) =
      seconds (subtractedAge createdAt now) := by
  unfold persistedCodeAge subtractedAge pairingLifetime
  rw [seconds_add]
  split
  · rw [min_seconds, Nat.min_self]
  · rw [min_seconds]

theorem fromCodeWithAge_eq (h : validCode code = true) (age m : Nat)
    (hage : min age (pairingLifetime + seconds 1) = d) :
    PairingCode.fromCodeWithAge code age m =
      if d ≤ m then .ok (.fresh ⟨code, h⟩ (m - d)) else .panic := by
  unfold PairingCode.fromCodeWithAge
  rw [dif_pos h, hage]
  unfold subDuration
  by_cases hd : d ≤ m
  · rw [if_pos hd, if_pos hd]
  · rw [if_neg hd, if_neg hd]

theorem fromCodeWithAge_valid (h : validCode code = true) :
    PairingCode.fromCodeWithAge code (persistedCodeAge createdAt now) m =
      if seconds (subtractedAge createdAt now) ≤ m then
        .ok (.fresh ⟨code, h⟩ (m - seconds (subtractedAge createdAt now)))
      else .panic :=
  fromCodeWithAge_eq h _ m (min_persistedCodeAge createdAt now)

theorem commit_panics_iff {p : PairingCode} :
    (p.commit sessionId confirmation result r).2 = .panic ↔
      (∃ s : SessionId, sessionId = s.val ∧ p.pending.lookup s ≠ none) ∧ r.last < seconds 301 := by
  generalize hc : p.commit sessionId confirmation result r = out
  obtain ⟨p', answer⟩ := out
  rcases PairingCode.commit_cases hc with ⟨-, rfl⟩ |
    ⟨s, e, rfl, he, -, -, -, ⟨rfl, ht, -⟩ | ⟨rfl, ht, -⟩⟩
  · simp only [reduceCtorEq, false_iff]
    rintro ⟨⟨s, rfl, hs⟩, -⟩
    rw [PairingCode.commit_pending hs] at hc
    split at hc <;> cases hc
  · simp only [reduceCtorEq, false_iff]
    rintro ⟨-, hlt⟩
    omega
  · simp only [true_iff]
    exact ⟨⟨s, rfl, by simp [he]⟩, ht⟩

/-- Neither start-up nor a commit panics exactly when the machine has been up
long enough: for the age of a stored code, up to 301 s, at start-up, and for
301 s when a pending session is committed. -/
theorem no_panic_iff_up_long_enough (identity : HostIdentity) (now m : Nat) (value : Fin 1000000)
    (hcode : ∀ code ∈ identity.pairingCode, validCode code = true) (p : PairingCode)
    (sessionId confirmation : Bytes) (result : PairingResult) (r : Readings) :
    (identity.startPairing now m value ≠ .panic ∧
        (p.commit sessionId confirmation result r).2 ≠ .panic) ↔
      (identity.pairingCode ≠ none →
          seconds (subtractedAge identity.pairingCreatedAt now) ≤ m) ∧
        ((∃ s : SessionId, sessionId = s.val ∧ p.pending.lookup s ≠ none) →
          seconds 301 ≤ r.last) := by
  refine and_congr ?_ ?_
  · unfold HostIdentity.startPairing
    cases hp : identity.pairingCode with
    | none => simp
    | some code =>
      simp only [fromCodeWithAge_valid (hcode code hp), ne_eq, reduceCtorEq, not_false_eq_true,
        forall_const]
      generalize seconds (subtractedAge identity.pairingCreatedAt now) = age
      split <;> simp [*]
  · rw [Ne, commit_panics_iff, not_and, Nat.not_lt]

/-- A stored code whose age is not known: it was written with `created_at` 0. -/
def undatedIdentity : HostIdentity :=
  { HostIdentity.new (repeated 16 0) 123456 0 with pairingCode := some Code.sample.val }

def onePending : PairingCode :=
  let s : SessionId := repeated 16 1
  { PairingCode.fresh .sample 0 with pending := (∅ : AList fun _ => _).insert s ⟨s, [], [],
    [], 0, none⟩ }

def sampleResult : PairingResult := ⟨[], repeated 12 0, [], repeated 32 0⟩

/-- Up for 400 s, both succeed. -/
theorem no_panic_after_400_seconds :
    undatedIdentity.startPairing 1000 (seconds 400) 0 ≠ .panic ∧
      (onePending.commit (List.replicate 16 1) [] sampleResult (.at (seconds 400))).2 ≠ .panic :=
  (no_panic_iff_up_long_enough undatedIdentity 1000 (seconds 400) 0 (by decide) onePending
    (List.replicate 16 1) [] sampleResult (.at (seconds 400))).mpr
      ⟨fun _ => by decide, fun _ => by decide⟩

/-- Up for 100 s, both panic. -/
theorem both_panic_after_100_seconds :
    undatedIdentity.startPairing 1000 (seconds 100) 0 = .panic ∧
      (onePending.commit (List.replicate 16 1) [] sampleResult (.at (seconds 100))).2 = .panic := by
  refine ⟨?_, ?_⟩
  · show PairingCode.fromCodeWithAge Code.sample.val
      (persistedCodeAge 0 1000) (seconds 100) = .panic
    rw [fromCodeWithAge_valid Code.sample.2, if_neg (by decide)]
  · rw [commit_panics_iff]
    exact ⟨⟨⟨List.replicate 16 1, rfl⟩, rfl, by decide⟩, by decide⟩

end DeckyMyRig.Host
