import DeckyMyRig.Deck.Auth
import DeckyMyRig.Lib.Checked

/-!
# What the Deck signs

The byte sequences of `auth.py` as concatenations, and when `verify_response`
accepts.
-/

namespace DeckyMyRig.Deck.Auth

open Octets Checked

theorem toUpper_ascii {c : Char} (h : c.toNat < 128) : c.toUpper.toNat < 128 := by
  have hall : ∀ n < 128, (Char.ofNat n).toUpper.toNat < 128 := by decide
  have h := hall c.toNat h
  rwa [Char.ofNat_toNat] at h

theorem upper_of_ascii (L : Libraries) {s : Text} (h : ∀ c ∈ s, c.toNat < 128) :
    L.upper s = s.map Char.toUpper := by
  unfold Libraries.upper
  induction s with
  | nil => rfl
  | cons c s ih =>
    simp only [List.forall_mem_cons] at h
    rw [List.flatMap_cons, if_pos h.1, ih h.2]
    rfl

theorem ascii_of_all {s : Text} (h : (s.all fun c => c.toNat < 128) = true) :
    ∀ c ∈ s, c.toNat < 128 := by
  simpa using h

theorem encodeAscii_eq {s : Text} (h : ∀ c ∈ s, c.toNat < 128) : encodeAscii s = .ok (utf8 s) := by
  rw [utf8_of_ascii h, encodeAscii, if_pos]
  simpa using h

theorem pack_eq {width n : Nat} (h : n < 256 ^ width) : pack width n = .ok (beBytes width n) := by
  have hint : (0 : Int) ≤ n ∧ (n : Int) < 256 ^ width := ⟨Int.natCast_nonneg n, by exact_mod_cast h⟩
  rw [pack, if_pos hint, Int.toNat_natCast]

theorem mapM_packField {fields : List Bytes} (h : ∀ field ∈ fields, field.length < 65536) :
    fields.mapM packField = .ok (fields.map prefixed) := by
  have hmap := mapM_map (f := packField) (g := id) (k := prefixed) (l := fields) (by
    intro field hf
    rw [id, packField, pack_eq (h field hf)]
    rfl)
  rwa [List.map_id] at hmap

theorem canonicalMessage_eq (L : Libraries) {nonce : Bytes}
    {method path : Text} (timestamp : UInt64)
    (body : Bytes) (hnonce : nonce.length = 16) (hmethod : ∀ c ∈ method, c.toNat < 128)
    (hpath : ∀ c ∈ path, c.toNat < 128)
    (hfits : ∀ field ∈ [nonce, utf8 (method.map Char.toUpper), utf8 path], field.length < 65536) :
    canonicalMessage L timestamp.toNat nonce method path body =
      .ok (domain ++ (beBytes 8 timestamp.toNat ++
        ([nonce, utf8 (method.map Char.toUpper), utf8 path].flatMap prefixed ++
          L.sha256 body))) := by
  have hupper : ∀ c ∈ method.map Char.toUpper, c.toNat < 128 := by
    simp only [List.mem_map, forall_exists_index, and_imp, forall_apply_eq_imp_iff₂]
    exact fun c hc => toUpper_ascii (hmethod c hc)
  have hn : ¬ nonce.length ≠ 16 := not_not.mpr hnonce
  rw [canonicalMessage, if_neg hn, upper_of_ascii L hmethod, encodeAscii_eq hupper,
    encodeAscii_eq hpath,
    ok_bind, ok_bind, pack_eq timestamp.toNat_lt, ok_bind, mapM_packField hfits, ok_bind]
  simp only [pure, Except.pure, List.append_assoc, List.flatMap]

theorem responseMessage_eq (L : Libraries) {nonce : Bytes} {path : Text} {status : Nat}
    (body : Bytes) (hnonce : nonce.length = 16) (hpath : ∀ c ∈ path, c.toNat < 128)
    (hstatus : 100 ≤ status ∧ status ≤ 999)
    (hfits : ∀ field ∈ [nonce, utf8 path], field.length < 65536) :
    responseMessage L nonce path status body =
      .ok (responseDomain ++ ([nonce, utf8 path].flatMap prefixed ++
        (beBytes 2 status ++ L.sha256 body))) := by
  have hcontext : ¬ (nonce.length ≠ 16 ∨ ¬ (100 ≤ status ∧ status ≤ 999)) := by
    simp [hnonce, hstatus]
  have hword : status < 256 ^ 2 := by omega
  rw [responseMessage, if_neg hcontext, encodeAscii_eq hpath, ok_bind, mapM_packField hfits,
    ok_bind, pack_eq hword, ok_bind]
  simp only [pure, Except.pure, List.append_assoc, List.flatMap]

/-- The header, read as nothing where it is absent, is the tag of the response. -/
theorem verifyResponse_eq {L : Libraries} (hm : responseMessage L nonce path status body = .ok m) :
    verifyResponse L secret nonce path status body signature =
      if fromHex (signature.getD []) = some (L.hmac secret m) then .ok ()
      else .error (.value (if (fromHex (signature.getD [])).isSome
        then "host response authentication failed".toList
        else "host response authentication is malformed".toList)) := by
  unfold verifyResponse
  cases fromHex (signature.getD []) with
  | none => rfl
  | some supplied =>
    simp only [responseSignature, hm, ok_bind, pure, Except.pure, Option.some.injEq]
    by_cases h : supplied = L.hmac secret m
    · rw [if_pos h, if_neg (not_not.mpr h.symm)]
    · rw [if_neg h, if_pos (Ne.symm h)]
      rfl

end DeckyMyRig.Deck.Auth
