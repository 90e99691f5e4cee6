import DeckyMyRig.Lib.Decimals
import DeckyMyRig.Lib.Octets

/-!
# Packed fields

A list of byte strings as one, with a mark before every byte and after every
string. What is cut short is not read.
-/

namespace Packing

open Octets

def writeField (rest : Bytes) : Bytes → Bytes
  | [] => 0 :: rest
  | b :: field => 1 :: b :: writeField rest field

def write : List Bytes → Bytes
  | [] => [2]
  | field :: fields => writeField (write fields) field

def read : Bytes → Option (List Bytes)
  | [] => none
  | mark :: rest =>
    if mark = 2 then if rest = [] then some [] else none
    else if mark = 0 then (read rest).map ([] :: ·)
    else
      match rest with
      | [] => none
      | b :: rest =>
        match read rest with
        | some (field :: fields) => some ((b :: field) :: fields)
        | _ => none

theorem read_end (rest : Bytes) : read (0 :: rest) = (read rest).map ([] :: ·) := by
  cases rest <;> rfl

theorem read_byte (b : UInt8) (rest : Bytes) :
    read (1 :: b :: rest) =
      match read rest with
      | some (field :: fields) => some ((b :: field) :: fields)
      | _ => none := rfl

theorem read_writeField (h : read rest = some fields) (field : Bytes) :
    read (writeField rest field) = some (field :: fields) := by
  induction field with
  | nil => rw [writeField, read_end, h, Option.map_some]
  | cons b field ih => rw [writeField, read_byte, ih]

theorem read_write (fields : List Bytes) : read (write fields) = some fields := by
  induction fields with
  | nil => rfl
  | cons field fields ih => exact read_writeField ih field

theorem read_writeField_cut
    (hrest : ∀ {stream more}, rest = stream ++ more → more ≠ [] → read stream = none)
    (h : writeField rest field = stream ++ more) (hmore : more ≠ []) : read stream = none := by
  induction field generalizing stream with
  | nil =>
    cases stream with
    | nil => rfl
    | cons mark stream =>
      obtain ⟨rfl, htail⟩ := List.cons.inj h
      rw [read_end, hrest htail hmore, Option.map_none]
  | cons b field ih =>
    cases stream with
    | nil => rfl
    | cons mark stream =>
      obtain ⟨rfl, htail⟩ := List.cons.inj h
      cases stream with
      | nil => rfl
      | cons b' stream =>
        obtain ⟨rfl, hfield⟩ := List.cons.inj htail
        rw [read_byte, ih hfield]

theorem read_cut (h : write fields = stream ++ more) (hmore : more ≠ []) : read stream = none := by
  induction fields generalizing stream more with
  | nil =>
    cases stream with
    | nil => rfl
    | cons mark stream =>
      obtain ⟨-, htail⟩ := List.cons.inj h
      exact absurd (List.append_eq_nil_iff.mp htail.symm).2 hmore
  | cons field fields ih => exact read_writeField_cut ih h hmore

theorem length_writeField (rest field : Bytes) :
    (writeField rest field).length = 2 * field.length + 1 + rest.length := by
  induction field with
  | nil => simp [writeField, Nat.add_comm]
  | cons b field ih => simp [writeField, ih]; omega

theorem length_write (fields : List Bytes) :
    (write fields).length = (fields.map fun field => 2 * field.length + 1).sum + 1 := by
  induction fields with
  | nil => rfl
  | cons field fields ih => simp [write, length_writeField, ih]; omega

-- ---------------------------------------------------------------------------
-- Fields
-- ---------------------------------------------------------------------------

def option (f : α → Bytes) : Option α → Bytes
  | none => []
  | some a => 0 :: f a

def readOption (f : Bytes → Option α) : Bytes → Option (Option α)
  | [] => some none
  | _ :: b => (f b).map some

def number (n : Nat) : Bytes := utf8 (Nat.toDigits 10 n)

def readNumber (b : Bytes) : Option Nat := (utf8Decode b).map Decimals.value

theorem readOption_option {f : α → Bytes} {g : Bytes → Option α}
    (h : ∀ a, g (f a) = some a) (o : Option α) :
    readOption g (option f o) = some o := by
  cases o with
  | none => rfl
  | some a => rw [option, readOption, h, Option.map_some]

theorem readNumber_number (n : Nat) : readNumber (number n) = some n := by
  rw [readNumber, number, utf8Decode_utf8, Option.map_some, Decimals.value_toDigits]

theorem length_option_le {f : α → Bytes} {o : Option α} (h : ∀ a ∈ o, (f a).length ≤ n) :
    (option f o).length ≤ n + 1 := by
  cases o with
  | none => exact Nat.zero_le _
  | some a => exact Nat.succ_le_succ (h a rfl)

end Packing
