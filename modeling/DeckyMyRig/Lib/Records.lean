import DeckyMyRig.Lib.Proto3

/-!
# The grammar of the wire format

Which byte sequences are a varint, a field and a sequence of fields. A varint
need not be the shortest one of its value, and `limit` bounds its bytes, so the
grammar is the one of decoders that take more than an encoder writes.
-/

namespace Proto3

open Octets

inductive IsVarint : Bytes → Nat → Prop
  | last {byte : UInt8} (h : byte.toNat < 128) : IsVarint [byte] byte.toNat
  | more {byte : UInt8} (h : 128 ≤ byte.toNat) (rest : IsVarint data value) :
    IsVarint (byte :: data) (byte.toNat - 128 + 128 * value)

inductive IsPayload (limit : Nat) : Bytes → Payload → Prop
  | varint (h : IsVarint data value) (hlen : data.length ≤ limit) : IsPayload limit data
      (.varint value)
  | fixed64 (h : data.length = 8) : IsPayload limit data (.fixed64 data)
  | chunk {data : Bytes} (h : IsVarint length data.length) (hlen : length.length ≤ limit) :
    IsPayload limit (length ++ data) (.chunk data)
  | fixed32 (h : data.length = 4) : IsPayload limit data (.fixed32 data)

inductive IsField (limit : Nat) : Bytes → Field → Prop
  | mk {f : Field} (htag : IsVarint tag (f.number * 8 + f.payload.wire)) (hlen : tag.length ≤ limit)
    (hnumber : 0 < f.number) (hpayload : IsPayload limit data f.payload) :
    IsField limit (tag ++ data) f

inductive IsFields (limit : Nat) : Bytes → List Field → Prop
  | nil : IsFields limit [] []
  | cons (h : IsField limit data f) (hs : IsFields limit rest fs) : IsFields limit
      (data ++ rest) (f :: fs)

theorem IsFields.append (h : IsFields limit a fs) (h' : IsFields limit b gs) :
    IsFields limit (a ++ b) (fs ++ gs) := by
  induction h with
  | nil => exact h'
  | cons hf _ ih =>
    rw [List.append_assoc]
    exact .cons hf ih

theorem IsVarint.ne_nil (h : IsVarint data value) : data ≠ [] := by
  cases h <;> simp

theorem IsField.ne_nil (h : IsField limit data f) : data ≠ [] := by
  cases h with
  | mk htag => simp [htag.ne_nil]

theorem IsFields.exists_cons (h : IsFields limit data fs) (hne : data ≠ []) :
    ∃ head rest f gs, data = head ++ rest ∧ fs = f :: gs ∧ IsField limit head f ∧
    IsFields limit rest gs := by
  cases h with
  | nil => exact absurd rfl hne
  | cons hf hs => exact ⟨_, _, _, _, rfl, rfl, hf, hs⟩

theorem Payload.wire_lt (p : Payload) : p.wire < 8 := by
  cases p <;> simp [Payload.wire]

-- ---------------------------------------------------------------------------
-- One reading
-- ---------------------------------------------------------------------------

theorem IsVarint.unique (h : IsVarint a v) (h' : IsVarint b w) (heq : a ++ rest = b ++ rest') :
    v = w ∧ rest = rest' := by
  induction h generalizing b w with
  | @last byte hlt =>
    cases h' with
    | last =>
      obtain ⟨rfl, rfl⟩ := List.cons.inj heq
      exact ⟨rfl, rfl⟩
    | more hge =>
      obtain ⟨rfl, -⟩ := List.cons.inj heq
      omega
  | @more data value byte hge _ ih =>
    cases h' with
    | last hlt =>
      obtain ⟨rfl, -⟩ := List.cons.inj heq
      omega
    | more _ hrest =>
      obtain ⟨rfl, htail⟩ := List.cons.inj heq
      obtain ⟨rfl, rfl⟩ := ih hrest htail
      exact ⟨rfl, rfl⟩

theorem IsPayload.unique (h : IsPayload limit a p) (h' : IsPayload limit' b q)
    (hwire : p.wire = q.wire) (heq : a ++ rest = b ++ rest') : p = q ∧ rest = rest' := by
  cases h with
  | varint hv =>
    cases h' with
    | varint hw =>
      obtain ⟨rfl, rfl⟩ := hv.unique hw heq
      exact ⟨rfl, rfl⟩
    | _ => cases hwire
  | chunk hv =>
    cases h' with
    | chunk hw =>
      rw [List.append_assoc, List.append_assoc] at heq
      obtain ⟨hlength, heq⟩ := hv.unique hw heq
      obtain ⟨rfl, rfl⟩ := List.append_inj heq hlength
      exact ⟨rfl, rfl⟩
    | _ => cases hwire
  | fixed64 hlength =>
    cases h' with
    | fixed64 hlength' =>
      obtain ⟨rfl, rfl⟩ := List.append_inj heq (hlength.trans hlength'.symm)
      exact ⟨rfl, rfl⟩
    | _ => cases hwire
  | fixed32 hlength =>
    cases h' with
    | fixed32 hlength' =>
      obtain ⟨rfl, rfl⟩ := List.append_inj heq (hlength.trans hlength'.symm)
      exact ⟨rfl, rfl⟩
    | _ => cases hwire

theorem IsField.unique (h : IsField limit a f) (h' : IsField limit' b g)
    (heq : a ++ rest = b ++ rest') :
    f = g ∧ rest = rest' := by
  obtain ⟨number, p⟩ := f
  obtain ⟨number', q⟩ := g
  cases h with
  | mk htag _ _ hp =>
    cases h' with
    | mk htag' _ _ hq =>
      rw [List.append_assoc, List.append_assoc] at heq
      obtain ⟨hnumber, heq⟩ := htag.unique htag' heq
      have hlt := p.wire_lt
      have hlt' := q.wire_lt
      simp only at hnumber
      obtain ⟨rfl, hwire⟩ : number = number' ∧ p.wire = q.wire := by omega
      obtain ⟨rfl, rfl⟩ := hp.unique hq hwire heq
      exact ⟨rfl, rfl⟩

/-- Data are the fields of one list only, whatever the limits. -/
theorem IsFields.unique (h : IsFields limit data fs) (h' : IsFields limit' data gs) : fs = gs := by
  induction h generalizing gs with
  | nil =>
    generalize hdata : ([] : Bytes) = data at h'
    cases h' with
    | nil => rfl
    | cons hg => exact absurd (List.append_eq_nil_iff.mp hdata.symm).1 hg.ne_nil
  | @cons a f rest fs hf _ ih =>
    generalize hdata : a ++ rest = data at h'
    cases h' with
    | nil => exact absurd (List.append_eq_nil_iff.mp hdata).1 hf.ne_nil
    | cons hg hgs =>
      obtain ⟨rfl, rfl⟩ := hf.unique hg hdata
      rw [ih hgs]

-- ---------------------------------------------------------------------------
-- What the encoder writes
-- ---------------------------------------------------------------------------

theorem isVarint_varint (value : Nat) : IsVarint (varint value) value := by
  induction value using Nat.strongRecOn with
  | ind value ih =>
    rw [varint]
    split
    · rename_i hlt
      have hbyte : (UInt8.ofNat value).toNat = value := by
        simp [Nat.mod_eq_of_lt (show value < 256 by omega)]
      have h : IsVarint [UInt8.ofNat value] _ := .last (by omega)
      rwa [hbyte] at h
    · have hbyte : (UInt8.ofNat (value % 128 + 128)).toNat = value % 128 + 128 := by
        simp [Nat.mod_eq_of_lt (show value % 128 + 128 < 256 by omega)]
      have h : IsVarint (UInt8.ofNat (value % 128 + 128) :: varint (value / 128)) _ :=
        .more (by omega) (ih (value / 128) (by omega))
      rwa [hbyte, Nat.add_sub_cancel, Nat.mod_add_div] at h

theorem length_varint {limit value : Nat} (h : value < 128 ^ (limit + 1)) :
    (varint value).length ≤ limit + 1 := by
  induction limit generalizing value with
  | zero => rw [varint, if_pos (by simpa using h), List.length_singleton]
  | succ limit ih =>
    rw [varint]
    split
    · simp
    · have hdiv : value / 128 < 128 ^ (limit + 1) := by
        rw [Nat.div_lt_iff_lt_mul (by decide)]
        simpa [Nat.pow_succ] using h
      simpa using ih hdiv

def Payload.FitsIn (limit : Nat) : Payload → Prop
  | .varint value => value < 128 ^ limit
  | .chunk bytes => bytes.length < 128 ^ limit
  | .fixed64 bytes => bytes.length = 8
  | .fixed32 bytes => bytes.length = 4

theorem Payload.Fits.fitsIn {p : Payload} (h : p.Fits) : p.FitsIn 10 := by
  have hle : 2 ^ 64 ≤ 128 ^ 10 := by decide
  cases p with
  | varint value => exact Nat.lt_of_lt_of_le h hle
  | chunk bytes => exact Nat.lt_of_lt_of_le h hle
  | fixed64 | fixed32 => exact h

theorem isPayload_encode {p : Payload} (h : p.FitsIn (limit + 1)) :
    IsPayload (limit + 1) p.encode p := by
  cases p with
  | varint value => exact .varint (isVarint_varint value) (length_varint h)
  | chunk bytes => exact .chunk (isVarint_varint _) (length_varint h)
  | fixed64 => exact .fixed64 h
  | fixed32 => exact .fixed32 h

theorem isField_encode {f : Field} (hpos : 0 < f.number)
    (htag : f.number * 8 + 8 ≤ 128 ^ (limit + 1))
    (hfits : f.payload.FitsIn (limit + 1)) : IsField (limit + 1) f.encode f := by
  have hwire := f.payload.wire_lt
  exact .mk (isVarint_varint _) (length_varint (by omega)) hpos (isPayload_encode hfits)

theorem isFields_flatMap {fields : List Field} (h : ∀ f ∈ fields, IsField limit f.encode f) :
    IsFields limit (fields.flatMap Field.encode) fields := by
  induction fields with
  | nil => exact .nil
  | cons f fields ih =>
    rw [List.forall_mem_cons] at h
    exact .cons h.1 (ih h.2)

def Payload.Sized : Payload → Prop
  | .varint _ | .chunk _ => True
  | .fixed64 bytes => bytes.length = 8
  | .fixed32 bytes => bytes.length = 4

theorem isPayload_encode_of_length {p : Payload} (hsized : p.Sized)
    (hlen : p.encode.length ≤ limit) :
    IsPayload limit p.encode p := by
  cases p with
  | varint value => exact .varint (isVarint_varint value) hlen
  | chunk bytes =>
    rw [Payload.encode, List.length_append] at hlen
    exact .chunk (isVarint_varint _) (by omega)
  | fixed64 bytes => exact .fixed64 hsized
  | fixed32 bytes => exact .fixed32 hsized

theorem isField_encode_of_length {f : Field} (hpos : 0 < f.number) (hsized : f.payload.Sized)
    (hlen : f.encode.length ≤ limit) : IsField limit f.encode f := by
  rw [Field.encode, List.length_append] at hlen
  exact .mk (isVarint_varint _) (by omega) hpos (isPayload_encode_of_length hsized (by omega))

theorem isFields_flatMap_of_length {fields : List Field}
    (h : ∀ f ∈ fields, 0 < f.number ∧ f.payload.Sized)
    (hlen : (fields.flatMap Field.encode).length ≤ limit) : IsFields limit
      (fields.flatMap Field.encode) fields := by
  induction fields with
  | nil => exact .nil
  | cons f fields ih =>
    rw [List.forall_mem_cons] at h
    rw [List.flatMap_cons, List.length_append] at hlen
    exact .cons (isField_encode_of_length h.1.1 h.1.2 (by omega)) (ih h.2 (by omega))

def Payload.size : Payload → Nat
  | .varint _ => 0
  | .chunk bytes | .fixed64 bytes | .fixed32 bytes => bytes.length

theorem Payload.length_encode_le {p : Payload} (h : p.Fits) : p.encode.length ≤ p.size + 10 := by
  have hten {n : Nat} (hn : n < 2 ^ 64) : (Proto3.varint n).length ≤ 9 + 1 :=
    length_varint (hn.trans (by decide))
  cases p with
  | varint value => exact (hten h).trans (Nat.le_add_left _ _)
  | chunk bytes =>
    have := hten h
    simp only [Payload.encode, Payload.size, List.length_append]
    omega
  | fixed64 bytes | fixed32 bytes => exact Nat.le_add_right _ _

theorem Field.length_encode_le {f : Field} (h : f.Fits) :
    f.encode.length ≤ f.payload.size + 15 := by
  obtain ⟨-, hnumber, hpayload⟩ := h
  have hwire := f.payload.wire_lt
  have htag : (Proto3.varint (f.number * 8 + f.payload.wire)).length ≤ 4 + 1 :=
    length_varint (by norm_num at hnumber ⊢; omega)
  have := Payload.length_encode_le hpayload
  simp only [Field.encode, List.length_append]
  omega

theorem length_encode_le {fields : List Field} {n : Nat}
    (h : ∀ f ∈ fields, f.Fits ∧ f.payload.size ≤ n) :
    (encode fields).length ≤ fields.length * (n + 15) := by
  induction fields with
  | nil => exact Nat.zero_le _
  | cons f fields ih =>
    rw [List.forall_mem_cons] at h
    have hrest := ih h.2
    have hfirst := Field.length_encode_le h.1.1
    have hsize := h.1.2
    rw [List.length_cons, Nat.succ_mul]
    simp only [encode, present, List.filter_cons] at hrest ⊢
    split
    · rw [List.flatMap_cons, List.length_append]
      omega
    · omega

-- ---------------------------------------------------------------------------
-- Which field counts
-- ---------------------------------------------------------------------------

theorem last_append (fs gs : List Field) (number : Nat) :
    last (fs ++ gs) number = (last gs number).or (last fs number) := by
  induction fs with
  | nil => simp [last]
  | cons f fs ih => simp [last, ih, Option.or_assoc]

end Proto3
