import DeckyMyRig.Deck.Grammar

/-!
# The decoder over offsets

`_read_varint` and `fields` as they are written: with an offset into the whole
data, an `IndexError` where an index is out of range, and a loop that need not
end. They do what the readers of the remaining data do.
-/

namespace DeckyMyRig.Deck.Protobuf

open Octets Checked

def item (data : Bytes) (offset : Nat) : Except Raised UInt8 :=
  match data[offset]? with
  | some byte => .ok byte
  | none => .error .index

/-- `data[start:stop]`, which is cut at the end of the data. -/
def slice (data : Bytes) (start stop : Nat) : Bytes := (data.take stop).drop start

def readVarintAtFrom (data : Bytes) : (left shift value offset : Nat) → Except Raised (Nat × Nat)
  | 0, _, _, _ => .error (.decode "oversized varint".toList)
  | left + 1, shift, value, offset =>
    if offset ≥ data.length then .error (.decode "truncated varint".toList)
    else do
      let byte ← item data offset
      let value := value ||| (byte.toNat &&& 0x7f) <<< shift
      if byte < 0x80 then .ok (value, offset + 1)
      else readVarintAtFrom data left (shift + 7) value (offset + 1)

def readVarintAt (data : Bytes) (offset : Nat) : Except Raised (Nat × Nat) :=
  readVarintAtFrom data 10 0 0 offset

def readSliceAt (data : Bytes) (offset length : Nat) (error : String) :
    Except Raised (Value × Nat) :=
  if offset + length > data.length then .error (.decode error.toList)
  else .ok (.bytes (slice data offset (offset + length)), offset + length)

def readFieldAt (data : Bytes) (offset : Nat) : Except Raised ((Nat × Nat × Value) × Nat) := do
  let (tag, offset) ← readVarintAt data offset
  let number := tag >>> 3
  let wire := tag &&& 7
  if number = 0 then .error (.decode "invalid field zero".toList)
  else if wire = 0 then do
    let (value, offset) ← readVarintAt data offset
    pure ((number, wire, .int value), offset)
  else if wire = 2 then do
    let (length, offset) ← readVarintAt data offset
    let (value, offset) ← readSliceAt data offset length "truncated field"
    pure ((number, wire, value), offset)
  else if wire = 1 ∨ wire = 5 then do
    let (value, offset) ← readSliceAt data offset (if wire = 1 then 8 else 4)
      "truncated fixed-width field"
    pure ((number, wire, value), offset)
  else .error (.decode "unsupported wire type".toList)

/-- `while offset < len(data)`: the result after at most `turns` turns, `none`
where the loop is still running. -/
def fieldsLoop (data : Bytes) :
    (turns offset : Nat) → Dict Nat (Nat × Value) → Option (Except Raised (Dict Nat (Nat × Value)))
  | 0, offset, result => if offset < data.length then none else some (.ok result)
  | turns + 1, offset, result =>
    if offset < data.length then
      match readFieldAt data offset with
      | .error e => some (.error e)
      | .ok ((number, value), offset) => fieldsLoop data turns offset (result.set number value)
    else some (.ok result)

-- ---------------------------------------------------------------------------
-- Offsets and what remains
-- ---------------------------------------------------------------------------

/-- Both fail alike, or both return one value, and the offset is where the
remaining data begins. -/
def Agree (data : Bytes) (x : Except Raised (α × Nat)) (y : Except Raised (α × Bytes)) : Prop :=
  match x, y with
  | .error e, .error e' => e = e'
  | .ok (a, offset), .ok (a', rest) => a = a' ∧ rest = data.drop offset ∧ offset ≤ data.length
  | _, _ => False

theorem Agree.bind {f : α × Nat → Except Raised (β × Nat)}
    {g : α × Bytes → Except Raised (β × Bytes)} (h : Agree data x y)
    (hf : ∀ a offset, offset ≤ data.length → Agree data (f (a, offset)) (g (a, data.drop offset))) :
    Agree data (x >>= f) (y >>= g) := by
  cases x with
  | error e =>
    cases y with
    | error e' => exact h
    | ok r => exact h.elim
  | ok r =>
    cases y with
    | error e' => exact h.elim
    | ok r' =>
      obtain ⟨a, offset⟩ := r
      obtain ⟨a', rest⟩ := r'
      obtain ⟨rfl, rfl, hle⟩ := h
      exact hf a offset hle

theorem Agree.eq_error {x : Except Raised (α × Nat)} (h : Agree data x (.error e)) :
    x = .error e := by
  cases x with
  | error e' => exact congrArg Except.error h
  | ok r => exact h.elim

theorem Agree.exists_offset (h : Agree data x (.ok (a, rest))) :
    ∃ offset, x = .ok (a, offset) ∧ rest = data.drop offset ∧ offset ≤ data.length := by
  cases x with
  | error e => exact h.elim
  | ok r =>
    obtain ⟨a', offset⟩ := r
    obtain ⟨rfl, hrest⟩ := h
    exact ⟨offset, rfl, hrest⟩

theorem readVarintAtFrom_agree (data : Bytes) (left shift value offset : Nat) :
    Agree data (readVarintAtFrom data left shift value offset)
      (readVarintFrom left shift value (data.drop offset)) := by
  induction left generalizing shift value offset with
  | zero => rfl
  | succ left ih =>
    unfold readVarintAtFrom
    by_cases hend : offset ≥ data.length
    · rw [if_pos hend, List.drop_eq_nil_of_le hend]
      rfl
    · have hlt : offset < data.length := Nat.lt_of_not_le hend
      have hitem : item data offset = .ok data[offset] := by simp [item, hlt]
      rw [if_neg hend, hitem, ok_bind, List.drop_eq_getElem_cons hlt, readVarintFrom]
      split
      · exact ⟨rfl, rfl, hlt⟩
      · exact ih _ _ _

theorem readVarintAt_agree (data : Bytes) (offset : Nat) :
    Agree data (readVarintAt data offset) (readVarint (data.drop offset)) :=
  readVarintAtFrom_agree data 10 0 0 offset

theorem readSliceAt_agree {data : Bytes} {offset : Nat} (h : offset ≤ data.length)
    (length : Nat) (error : String) :
    Agree data (readSliceAt data offset length error)
      (readSlice length (data.drop offset) error) := by
  have hdrop : (data.drop offset).length = data.length - offset := List.length_drop
  unfold readSliceAt readSlice
  by_cases hend : offset + length > data.length
  · rw [if_pos hend, if_pos (by omega)]
    rfl
  · rw [if_neg hend, if_neg (by omega)]
    refine ⟨?_, List.drop_drop, by omega⟩
    rw [slice, List.drop_take, Nat.add_sub_cancel_left]

theorem readFieldAt_agree (data : Bytes) (offset : Nat) :
    Agree data (readFieldAt data offset) (readField (data.drop offset)) := by
  refine (readVarintAt_agree data offset).bind fun tag offset hle => ?_
  simp only
  split
  · rfl
  · split
    · exact (readVarintAt_agree data offset).bind fun _ _ hle => ⟨rfl, rfl, hle⟩
    · split
      · exact (readVarintAt_agree data offset).bind fun length _ hle =>
          (readSliceAt_agree hle length _).bind fun _ _ hle => ⟨rfl, rfl, hle⟩
      · split
        · exact (readSliceAt_agree hle _ _).bind fun _ _ hle => ⟨rfl, rfl, hle⟩
        · rfl

/-- The loop ends, since every turn takes a byte, and with what the readers of
the remaining data return. -/
theorem fieldsLoop_eq {data : Bytes} {turns offset : Nat} (h : data.length - offset ≤ turns)
    (result : Dict Nat (Nat × Value)) :
    fieldsLoop data turns offset result = some (fieldsOnto result (data.drop offset)) := by
  induction turns generalizing offset result with
  | zero =>
    have hend : data.length ≤ offset := Nat.sub_eq_zero_iff_le.mp (Nat.le_zero.mp h)
    rw [fieldsLoop, if_neg (Nat.not_lt.mpr hend), List.drop_eq_nil_of_le hend]
    rfl
  | succ turns ih =>
    rw [fieldsLoop]
    by_cases hlt : offset < data.length
    · have hagree := readFieldAt_agree data offset
      rw [if_pos hlt]
      cases hrest : data.drop offset with
      | nil => exact absurd (List.drop_eq_nil_iff.mp hrest) (Nat.not_le.mpr hlt)
      | cons byte rest =>
        rw [hrest] at hagree
        cases hread : readField (byte :: rest) with
        | error e =>
          rw [hread] at hagree
          rw [hagree.eq_error, fieldsOnto_error hread]
        | ok r =>
          obtain ⟨⟨number, value⟩, rest'⟩ := r
          have hshort := length_of_readField hread
          rw [hread] at hagree
          obtain ⟨next, hnext, rfl, -⟩ := hagree.exists_offset
          rw [← hrest, List.length_drop, List.length_drop] at hshort
          rw [hnext, fieldsOnto_read hread]
          exact ih (by omega) _
    · rw [if_neg hlt, List.drop_eq_nil_of_le (Nat.le_of_not_lt hlt)]
      rfl

/-- Decoding ends and returns a value or raises `DecodeError`, whatever the data. -/
theorem decoding_total (data : Bytes) :
    (∀ turns ≥ data.length, fieldsLoop data turns 0 [] = some (fields data)) ∧
      Rejects (fields data) ∧ Rejects (StatusResponse.decode data) ∧
      Rejects (PairResponse.decode data) ∧ Rejects (ErrorResponse.decode data) :=
  ⟨fun _ h => fieldsLoop_eq h [], fieldsFrom_rejects _ _ _, StatusResponse.decode_rejects data,
    PairResponse.decode_rejects data, ErrorResponse.decode_rejects data⟩

end DeckyMyRig.Deck.Protobuf
