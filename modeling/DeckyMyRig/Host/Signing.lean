import DeckyMyRig.Host.Auth
import DeckyMyRig.Host.PairingLaws
import DeckyMyRig.Lib.Checked

/-!
# What is signed

The byte sequences that `host/src/auth.rs` signs and the associated data of
`host/src/pairing.rs`, each as one concatenation: a domain, fields with their
lengths, and a tail. Each has one reading, and the two domains that share a key
tell requests from responses.
-/

namespace DeckyMyRig.Host

open Octets Checked

-- ---------------------------------------------------------------------------
-- The messages as concatenations
-- ---------------------------------------------------------------------------

theorem appendField_ok :
    appendField output field = .ok x ↔ field.length < 65536 ∧ output ++ prefixed field = x := by
  unfold appendField
  split <;> simp [*]

def upperCase (method : Text) : Text := method.map Char.toUpper

theorem canonicalMessage_ok : canonicalMessage C timestamp nonce method path body = .ok x ↔
    (nonce.length = nonceLength ∧ isAscii method ∧ isAscii path) ∧
      (∀ field ∈ [nonce, utf8 (upperCase method), utf8 path], field.length < 65536) ∧
      domain ++ (beBytes 8 timestamp.toNat ++
        ([nonce, utf8 (upperCase method), utf8 path].flatMap prefixed ++ C.sha256 body)) = x := by
  unfold canonicalMessage
  split
  · rename_i h
    simp only [reduceCtorEq, false_iff]
    rintro ⟨⟨hn, hm, hp⟩, -⟩
    simp [hn, hm, hp] at h
  · rename_i h
    simp only [not_or, ne_eq, not_not, Bool.not_eq_true, Bool.not_eq_false'] at h
    simp only [bind_ok_iff, appendField_ok, pure_ok_iff, upperCase, h, true_and, and_true,
      List.forall_mem_cons, List.not_mem_nil, false_imp_iff, implies_true]
    constructor
    · rintro ⟨_, ⟨hn, rfl⟩, _, ⟨hm, rfl⟩, _, ⟨hp, rfl⟩, rfl⟩
      exact ⟨⟨hn, hm, hp⟩, by simp⟩
    · rintro ⟨⟨hn, hm, hp⟩, rfl⟩
      exact ⟨_, ⟨hn, rfl⟩, _, ⟨hm, rfl⟩, _, ⟨hp, rfl⟩, by simp⟩

theorem responseMessage_ok : responseMessage C nonce path status body = .ok x ↔
    (nonce.length = nonceLength ∧ isAscii path) ∧
      (∀ field ∈ [nonce, utf8 path], field.length < 65536) ∧
      responseDomain ++ ([nonce, utf8 path].flatMap prefixed ++
        (beBytes 2 status.toNat ++ C.sha256 body)) = x := by
  unfold responseMessage
  split
  · rename_i h
    simp only [reduceCtorEq, false_iff]
    rintro ⟨⟨hn, hp⟩, -⟩
    simp [hn, hp] at h
  · rename_i h
    simp only [not_or, ne_eq, not_not, Bool.not_eq_true, Bool.not_eq_false'] at h
    simp only [bind_ok_iff, appendField_ok, pure_ok_iff, h, true_and, and_true,
      List.forall_mem_cons, List.not_mem_nil, false_imp_iff, implies_true]
    constructor
    · rintro ⟨_, ⟨hn, rfl⟩, _, ⟨hp, rfl⟩, rfl⟩
      exact ⟨⟨hn, hp⟩, by simp⟩
    · rintro ⟨⟨hn, hp⟩, rfl⟩
      exact ⟨_, ⟨hn, rfl⟩, _, ⟨hp, rfl⟩, by simp⟩

-- ---------------------------------------------------------------------------
-- One reading
-- ---------------------------------------------------------------------------

theorem toNat_inj_of_beBytes {a b : UInt64} (h : beBytes 8 a.toNat = beBytes 8 b.toNat) : a = b :=
  UInt64.toNat_inj.mp (beBytes_inj a.toNat_lt b.toNat_lt h)

theorem canonicalMessage_inj (h : canonicalMessage C timestamp nonce method path body = .ok x)
    (h' : canonicalMessage C timestamp' nonce' method' path' body' = .ok x) :
    timestamp = timestamp' ∧ nonce = nonce' ∧ upperCase method = upperCase method' ∧ path = path' ∧
      C.sha256 body = C.sha256 body' := by
  obtain ⟨-, hfits, hx⟩ := canonicalMessage_ok.mp h
  obtain ⟨-, hfits', hx'⟩ := canonicalMessage_ok.mp h'
  have heq := List.append_cancel_left (hx.trans hx'.symm)
  obtain ⟨htime, heq⟩ := List.append_inj heq (by simp)
  obtain ⟨hfields, hbody⟩ := fields_append_inj hfits hfits' heq rfl
  simp only [List.cons.injEq, and_true] at hfields
  obtain ⟨hnonce, hmethod, hpath⟩ := hfields
  exact ⟨toNat_inj_of_beBytes htime, hnonce, utf8_injective hmethod, utf8_injective hpath, hbody⟩

theorem responseMessage_inj (h : responseMessage C nonce path status body = .ok x)
    (h' : responseMessage C nonce' path' status' body' = .ok x) :
    nonce = nonce' ∧ path = path' ∧ status = status' ∧ C.sha256 body = C.sha256 body' := by
  obtain ⟨-, hfits, hx⟩ := responseMessage_ok.mp h
  obtain ⟨-, hfits', hx'⟩ := responseMessage_ok.mp h'
  have heq := List.append_cancel_left (hx.trans hx'.symm)
  obtain ⟨hfields, htail⟩ := fields_append_inj hfits hfits' heq rfl
  obtain ⟨hstatus, hbody⟩ := List.append_inj htail (by simp)
  simp only [List.cons.injEq, and_true] at hfields
  have hstatus := beBytes_inj status.toNat_lt status'.toNat_lt hstatus
  exact ⟨hfields.1, utf8_injective hfields.2, UInt16.toNat_inj.mp hstatus, hbody⟩

theorem credentialAad_ok {context : CredentialContext} :
    credentialAad hostMessage sessionId context = .ok x ↔ AadFits hostMessage sessionId context ∧
      credentialAadDomain ++ ([hostMessage, sessionId, utf8 context.hostname,
        utf8 context.hostVersion,
        utf8 context.hostId].flatMap prefixed ++ beBytes 4 context.protocolVersion.toNat) = x := by
  rw [credentialAad_eq]
  split <;> simp [*]

theorem credentialAad_inj {context context' : CredentialContext}
    (h : credentialAad hostMessage sessionId context = .ok x)
    (h' : credentialAad hostMessage' sessionId' context' = .ok x) :
    hostMessage = hostMessage' ∧ sessionId = sessionId' ∧ context = context' := by
  obtain ⟨hfits, hx⟩ := credentialAad_ok.mp h
  obtain ⟨hfits', hx'⟩ := credentialAad_ok.mp h'
  have heq := List.append_cancel_left (hx.trans hx'.symm)
  obtain ⟨hfields, htail⟩ := fields_append_inj hfits hfits' heq rfl
  simp only [List.cons.injEq, and_true] at hfields
  obtain ⟨hmessage, hsession, hname, hversion, hid⟩ := hfields
  have hprotocol := UInt32.toNat_inj.mp (beBytes_inj (UInt32.toNat_lt _) (UInt32.toNat_lt _) htail)
  refine ⟨hmessage, hsession, ?_⟩
  cases context
  cases context'
  cases utf8_injective hname
  cases utf8_injective hversion
  cases utf8_injective hid
  cases hprotocol
  rfl

/-- The domains differ in their twelfth byte. -/
theorem domains_apart (x y : Bytes) : domain ++ x ≠ responseDomain ++ y := by
  intro h
  have h := congrArg (List.take 12) h
  rw [List.take_append_of_le_length (by decide), List.take_append_of_le_length (by decide)] at h
  revert h
  decide

theorem canonicalMessage_ne_responseMessage
    (h : canonicalMessage C timestamp nonce method path body = .ok x) :
    responseMessage C nonce' path' status body' ≠ .ok x := by
  intro h'
  obtain ⟨-, -, hx⟩ := canonicalMessage_ok.mp h
  obtain ⟨-, -, hx'⟩ := responseMessage_ok.mp h'
  exact domains_apart _ _ (hx.trans hx'.symm)

/-- Equal outputs have equal inputs, of the body its digest, and a request is
never signed as a response is. -/
theorem signing_unambiguous (C : Crates) :
    (∀ timestamp nonce method path body timestamp' nonce' method' path' body' x,
      canonicalMessage C timestamp nonce method path body = .ok x →
      canonicalMessage C timestamp' nonce' method' path' body' = .ok x →
      timestamp = timestamp' ∧ nonce = nonce' ∧ upperCase method =
        upperCase method' ∧ path = path' ∧
        C.sha256 body = C.sha256 body') ∧
    (∀ nonce path status body nonce' path' status' body' x,
      responseMessage C nonce path status body = .ok x →
      responseMessage C nonce' path' status' body' = .ok x →
      nonce = nonce' ∧ path = path' ∧ status = status' ∧ C.sha256 body = C.sha256 body') ∧
    (∀ hostMessage sessionId context hostMessage' sessionId' context' x,
      credentialAad hostMessage sessionId context = .ok x →
      credentialAad hostMessage' sessionId' context' = .ok x →
      hostMessage = hostMessage' ∧ sessionId = sessionId' ∧ context = context') ∧
    ∀ timestamp nonce method path body nonce' path' status body' x,
      canonicalMessage C timestamp nonce method path body = .ok x →
      responseMessage C nonce' path' status body' ≠ .ok x := by
  refine ⟨?_, ?_, ?_, ?_⟩
  · intro timestamp nonce method path body timestamp' nonce' method' path' body' x h h'
    exact canonicalMessage_inj h h'
  · intro nonce path status body nonce' path' status' body' x h h'
    exact responseMessage_inj h h'
  · intro hostMessage sessionId context hostMessage' sessionId' context' x h h'
    exact credentialAad_inj h h'
  · intro timestamp nonce method path body nonce' path' status body' x h
    exact canonicalMessage_ne_responseMessage h

end DeckyMyRig.Host
