import DeckyMyRig.Deck.Grammar
import DeckyMyRig.Host.Proto
import DeckyMyRig.Host.Responses

/-!
# Pairing responses among the host's bodies

What the Deck reads as a pairing response is one of the host: no body of another
message has a session id. A nonce is in the completions only.
-/

namespace DeckyMyRig.System

open Octets Checked
open Deck.Protobuf (PairResponse decodeMessage required Value FieldSpec Message)

theorem required_ok {values : Dict Deck.Protobuf.FieldName Value}
    (h : required values name expected = .ok result) : values.get? name ≠ none := by
  intro hnone
  simp [required, hnone] at h

def byteValue (values : Dict Deck.Protobuf.FieldName Value) (name : Deck.Protobuf.FieldName) :
    Bytes :=
  ((values.get? name).bind Value.bytes?).getD []

theorem pairResponse_decode_ok (h : PairResponse.decode data = .ok response) :
    ∃ values, decodeMessage .pairResponse data = .ok values ∧ values.get? .sessionId ≠ none ∧
      response.nonce = byteValue values .encryptionNonce ∧
      response.ciphertext = byteValue values .encryptedCredential := by
  obtain ⟨values, hvalues, h⟩ := bind_eq_ok h
  obtain ⟨_, -, h⟩ := bind_eq_ok h
  obtain ⟨_, -, h⟩ := bind_eq_ok h
  obtain ⟨_, -, h⟩ := bind_eq_ok h
  obtain ⟨_, -, h⟩ := bind_eq_ok h
  obtain ⟨_, -, h⟩ := bind_eq_ok h
  obtain ⟨_, hsession, h⟩ := bind_eq_ok h
  cases h
  exact ⟨values, hvalues, required_ok hsession, rfl, rfl⟩

section
variable {fs : List Proto3.Field} (hfs : ∀ f ∈ fs, 0 < f.number ∧ f.payload.Sized)
include hfs

theorem session_of_decode (h : PairResponse.decode (Proto3.encode fs) = .ok response) :
    ∃ f ∈ fs, f.number = 8 := by
  obtain ⟨values, hvalues, hsession, -⟩ := pairResponse_decode_ok h
  by_contra hnone
  refine hsession ?_
  have hlast : Proto3.last (Proto3.present fs) 8 = none :=
    Proto3.last_eq_none fun f hf hnumber => hnone ⟨f, List.mem_of_mem_filter hf, hnumber⟩
  rw [Deck.Protobuf.of_decodeMessage_encode hfs hvalues ⟨.sessionId, 8, .bytes⟩
    (by simp [Message.schema]), hlast]
  rfl

theorem byteValue_encode (hdistinct : (fs.map Proto3.Field.number).Nodup)
    (h : decodeMessage .pairResponse (Proto3.encode fs) = .ok values) (number : Nat)
    (hf : ⟨number, .chunk bytes⟩ ∈ fs) (hs : ⟨name, number, .bytes⟩ ∈ Message.pairResponse.schema) :
    byteValue values name = bytes := by
  rw [byteValue, Deck.Protobuf.of_decodeMessage_encode hfs h ⟨name, number, .bytes⟩ hs,
    Proto3.last_present hdistinct hf]
  cases bytes <;> rfl

end

theorem pairResponse_fields (r : Host.PairResponse) :
    (∀ f ∈ r.fields, 0 < f.number ∧ f.payload.Sized) ∧
    (r.fields.map Proto3.Field.number).Nodup := by
  simp [Host.PairResponse.fields, Proto3.Payload.Sized]

theorem decode_pairResponse {C : Host.Crates} (hC : C.ProstEncodes)
    (h : PairResponse.decode (C.encodePairResponse r) = .ok response) :
    response.nonce = r.encryptionNonce ∧ response.ciphertext = r.encryptedCredential := by
  rw [hC.encodePairResponse] at h
  obtain ⟨values, hvalues, -, hnonce, hciphertext⟩ := pairResponse_decode_ok h
  obtain ⟨hfs, hdistinct⟩ := pairResponse_fields r
  rw [hnonce, hciphertext]
  exact ⟨byteValue_encode hfs hdistinct hvalues 2 (by simp [Host.PairResponse.fields])
    (by simp [Message.schema]),
    byteValue_encode hfs hdistinct hvalues 3 (by simp [Host.PairResponse.fields])
      (by simp [Message.schema])⟩

/-- An answer that completes no pairing has no nonce for the Deck. -/
theorem nonce_of_answer {C : Host.Crates} (hC : C.ProstEncodes) (hanswer : Host.Answer C answer)
    (h : PairResponse.decode answer.body = .ok response) : response.nonce = [] := by
  have hmissing {fs : List Proto3.Field} (hbody : answer.body = Proto3.encode fs)
      (hfs : ∀ f ∈ fs, 0 < f.number ∧ f.payload.Sized) (hnone : ∀ f ∈ fs, f.number ≠ 8) :
      response.nonce = [] := by
    rw [hbody] at h
    obtain ⟨f, hf, hnumber⟩ := session_of_decode hfs h
    exact absurd hnumber (hnone f hf)
  cases hanswer with
  | refused hrefusal =>
    obtain ⟨e, hbody⟩ := hrefusal.body
    rw [hC.encodeErrorResponse] at hbody
    exact hmissing hbody (by simp [Host.ErrorResponse.fields, Proto3.Payload.Sized])
      (by simp [Host.ErrorResponse.fields])
  | shutdown r hbody =>
    rw [hC.encodeShutdownResponse] at hbody
    exact hmissing hbody (by simp [Host.ShutdownResponse.fields, Proto3.Payload.Sized])
      (by simp [Host.ShutdownResponse.fields])
  | status r hbody =>
    rw [hC.encodeStatusResponse] at hbody
    exact hmissing hbody (by simp [Host.StatusResponse.fields, Proto3.Payload.Sized])
      (by simp [Host.StatusResponse.fields])
  | started r hbody hnonce =>
    rw [hbody] at h
    rw [(decode_pairResponse hC h).1, hnonce]

end DeckyMyRig.System
