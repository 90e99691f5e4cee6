import DeckyMyRig.Host.Crates
import DeckyMyRig.Lib.Tables
import DeckyMyRig.Lib.Checked

/-!
# Request authentication

`host/src/auth.rs`: the signed byte sequences and the `Authenticator`, which
keeps the nonces it accepted and the times of recent failures. Clock readings
are whole seconds since the Unix epoch; the request's timestamp is the `u64`
of its header.
-/

namespace DeckyMyRig.Host

open Octets Checked

def domain : Bytes := utf8 "deckymyrig-auth-v1\x00".toList
def responseDomain : Bytes := utf8 "deckymyrig-response-v1\x00".toList

def clockWindow : Nat := 60

def nonceLength : Nat := 16

inductive AuthError
  | malformed
  | stale
  | replay
  | invalid
  | rateLimited
  | persistence
  deriving DecidableEq

def isAscii (s : Text) : Bool := s.all fun c => c.toNat < 128

def absDiff (a b : Nat) : Nat := (a - b) + (b - a)

-- ---------------------------------------------------------------------------
-- Signed messages
-- ---------------------------------------------------------------------------

def appendField (output field : Bytes) : Except AuthError Bytes :=
  if field.length < 65536 then .ok (output ++ prefixed field) else .error .malformed

def canonicalMessage (C : Crates) (timestamp : UInt64) (nonce : Bytes) (method path : Text)
    (body : Bytes) : Except AuthError Bytes :=
  if nonce.length ≠ nonceLength ∨ !isAscii method ∨ !isAscii path then .error .malformed
  else do
    let method := method.map Char.toUpper
    let output := domain ++ beBytes 8 timestamp.toNat
    let output ← appendField output nonce
    let output ← appendField output (utf8 method)
    let output ← appendField output (utf8 path)
    pure (output ++ C.sha256 body)

def sign (C : Crates) (secret : Bytes) (timestamp : UInt64) (nonce : Bytes) (method path : Text)
    (body : Bytes) : Except AuthError Bytes := do
  let message ← canonicalMessage C timestamp nonce method path body
  pure (C.hmac secret message)

def responseMessage (C : Crates) (requestNonce : Bytes) (path : Text) (status : UInt16)
    (body : Bytes) : Except AuthError Bytes :=
  if requestNonce.length ≠ nonceLength ∨ !isAscii path then .error .malformed
  else do
    let message ← appendField responseDomain requestNonce
    let message ← appendField message (utf8 path)
    pure (message ++ beBytes 2 status.toNat ++ C.sha256 body)

def signResponse (C : Crates) (secret requestNonce : Bytes) (path : Text) (status : UInt16)
    (body : Bytes) : Except AuthError Bytes := do
  let message ← responseMessage C requestNonce path status body
  pure (C.hmac secret message)

-- ---------------------------------------------------------------------------
-- The authenticator
-- ---------------------------------------------------------------------------

structure Authenticator where
  acceptedNonces : AList fun _ : Bytes => Nat
  failures : List Nat

def Authenticator.new : Authenticator := ⟨∅, []⟩

structure AuthenticatedRequest where
  timestamp : UInt64
  nonce : Bytes
  signature : Bytes
  method : Text
  path : Text
  body : Bytes
  deriving DecidableEq

def Authenticator.failed (a : Authenticator) (now : Nat) (error : AuthError) :
    Authenticator × AuthError :=
  let failures := a.failures.dropWhile fun seen => now - seen > clockWindow
  if failures.length ≥ 20 then ({ a with failures }, .rateLimited)
  else ({ a with failures := failures ++ [now] }, error)

/-- A failed check: the error that `failed` answers with. -/
def Authenticator.reject (a : Authenticator) (now : Nat) (error : AuthError) :
    Authenticator × Except AuthError Unit :=
  let (a, error) := a.failed now error
  (a, .error error)

def Authenticator.verify (C : Crates) (a : Authenticator) (secret : Bytes)
    (request : AuthenticatedRequest) (now : Nat) : Authenticator × Except AuthError Unit :=
  if absDiff now request.timestamp.toNat > clockWindow then a.reject now .stale
  else
    match canonicalMessage C request.timestamp request.nonce request.method request.path
        request.body with
    | .error error => a.reject now error
    | .ok message =>
      -- `verify_slice` accepts the whole tag and nothing else
      if request.signature ≠ C.hmac secret message then a.reject now .invalid
      else
        let nonces := a.acceptedNonces.retain fun _ seen => now - seen ≤ clockWindow
        let a := { a with acceptedNonces := nonces.insert request.nonce now }
        if (nonces.lookup request.nonce).isSome then (a, .error .replay) else (a, .ok ())

-- ---------------------------------------------------------------------------
-- What verification does
-- ---------------------------------------------------------------------------

/-- The signature is the tag of the request's canonical message. -/
def Authentic (C : Crates) (secret : Bytes) (r : AuthenticatedRequest) : Prop :=
  sign C secret r.timestamp r.nonce r.method r.path r.body = .ok r.signature

def InWindow (r : AuthenticatedRequest) (now : Nat) : Prop :=
  now ≤ r.timestamp.toNat + clockWindow ∧ r.timestamp.toNat ≤ now + clockWindow

def Authenticator.live (a : Authenticator) (now : Nat) : AList fun _ : Bytes => Nat :=
  a.acceptedNonces.retain fun _ seen => now - seen ≤ clockWindow

theorem absDiff_le_iff {a b w : Nat} : absDiff a b ≤ w ↔ a ≤ b + w ∧ b ≤ a + w := by
  unfold absDiff
  omega

theorem reject_nonces (a : Authenticator) :
    (a.reject now error).1.acceptedNonces = a.acceptedNonces := by
  simp only [Authenticator.reject, Authenticator.failed]
  split <;> rfl

theorem reject_error (a : Authenticator) : ∃ e, (a.reject now error).2 = .error e :=
  ⟨_, rfl⟩

theorem verify_authentic {a : Authenticator} (ha : Authentic C secret r) (hw : InWindow r now) :
    a.verify C secret r now =
      ({ a with acceptedNonces := (a.live now).insert r.nonce now },
        if ((a.live now).lookup r.nonce).isSome then .error .replay else .ok ()) := by
  have hd : ¬ absDiff now r.timestamp.toNat > clockWindow := by
    rw [Nat.not_lt]
    exact absDiff_le_iff.mpr hw
  simp only [Authentic, sign] at ha
  unfold Authenticator.verify
  cases hm : canonicalMessage C r.timestamp r.nonce r.method r.path r.body with
  | error e => simp [hm, bind, Except.bind] at ha
  | ok m =>
    have hs : r.signature = C.hmac secret m := by
      simpa [hm, bind, Except.bind, pure, Except.pure, eq_comm] using ha
    simp only [hd, hs, ↓reduceIte, ne_eq, not_true_eq_false, Authenticator.live]
    split <;> simp_all

theorem canonicalMessage_error
    (h : canonicalMessage C timestamp nonce method path body = .error e) :
    e = .malformed := by
  have hfield : ∀ {output field e'}, appendField output field = .error e' → e' = .malformed := by
    intro output field e' hf
    unfold appendField at hf
    split at hf <;> cases hf
    rfl
  unfold canonicalMessage at h
  split at h
  · cases h
    rfl
  · rcases bind_eq_error h with h | ⟨_, -, h⟩
    · exact hfield h
    · rcases bind_eq_error h with h | ⟨_, -, h⟩
      · exact hfield h
      · rcases bind_eq_error h with h | ⟨_, -, h⟩
        · exact hfield h
        · cases h

/-- What is not authentic or not inside the window is rejected, as one of three
failures. -/
theorem verify_eq_reject {a : Authenticator} (h : ¬ (Authentic C secret r ∧ InWindow r now)) :
    ∃ error, (error = .stale ∨ error = .malformed ∨ error = .invalid) ∧
      a.verify C secret r now = a.reject now error := by
  unfold Authenticator.verify
  split
  · exact ⟨_, .inl rfl, rfl⟩
  · rename_i hd
    split
    · rename_i hm
      exact ⟨_, .inr (.inl (canonicalMessage_error hm)), rfl⟩
    · rename_i m hm
      split
      · exact ⟨_, .inr (.inr rfl), rfl⟩
      · rename_i hs
        refine absurd ⟨?_, absDiff_le_iff.mp (by simpa using hd)⟩ h
        have hs : r.signature = C.hmac secret m := by simpa using hs
        simp [Authentic, sign, hm, hs, bind, Except.bind, pure, Except.pure]

theorem verify_rejected {a : Authenticator} (h : ¬ (Authentic C secret r ∧ InWindow r now)) :
    (a.verify C secret r now).1.acceptedNonces = a.acceptedNonces ∧
      ∃ e, (a.verify C secret r now).2 = .error e := by
  obtain ⟨error, -, heq⟩ := verify_eq_reject (a := a) h
  rw [heq]
  exact ⟨reject_nonces a, reject_error a⟩

theorem verify_ok_iff {a : Authenticator} :
    (a.verify C secret r now).2 = .ok () ↔
      Authentic C secret r ∧ InWindow r now ∧ (a.live now).lookup r.nonce = none := by
  by_cases h : Authentic C secret r ∧ InWindow r now
  · rw [verify_authentic h.1 h.2]
    cases hl : (a.live now).lookup r.nonce <;> simp [h]
  · obtain ⟨-, e, he⟩ := verify_rejected (a := a) h
    rw [he]
    simp only [reduceCtorEq, false_iff]
    rintro ⟨h1, h2, -⟩
    exact h ⟨h1, h2⟩

end DeckyMyRig.Host
