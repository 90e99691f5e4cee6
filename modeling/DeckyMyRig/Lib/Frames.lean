import DeckyMyRig.Lib.Octets

/-!
# Frames on a byte stream

A message after its length, which is four bytes with the lowest first. The
reader takes lengths from one up to a limit. A frame is read back whatever
follows it, and a stream that ends inside a frame gives no message.
-/

namespace Frames

open Octets

def leBytes : (width : Nat) → Nat → Bytes
  | 0, _ => []
  | width + 1, n => UInt8.ofNat n :: leBytes width (n / 256)

def leValue : Bytes → Nat
  | [] => 0
  | b :: rest => b.toNat + 256 * leValue rest

@[simp] theorem length_leBytes (width n : Nat) : (leBytes width n).length = width := by
  induction width generalizing n with
  | zero => rfl
  | succ width ih => simp [leBytes, ih]

theorem leValue_leBytes (h : n < 256 ^ width) : leValue (leBytes width n) = n := by
  induction width generalizing n with
  | zero =>
    rw [Nat.pow_zero, Nat.lt_one_iff] at h
    rw [h]
    rfl
  | succ width ih =>
    have hrest : n / 256 < 256 ^ width := by
      rw [Nat.div_lt_iff_lt_mul (by decide)]
      exact h
    rw [leBytes, leValue, ih hrest, UInt8.toNat_ofNat']
    exact Nat.mod_add_div n 256

inductive Fault
  /-- The stream ends before the message does. -/
  | ended
  | length
  deriving DecidableEq

def readExact (n : Nat) (stream : Bytes) : Except Fault (Bytes × Bytes) :=
  if n ≤ stream.length then .ok (stream.take n, stream.drop n) else .error .ended

def read (limit : Nat) (stream : Bytes) : Except Fault (Bytes × Bytes) :=
  match readExact 4 stream with
  | .error fault => .error fault
  | .ok (head, rest) =>
    if leValue head = 0 ∨ limit < leValue head then .error .length else readExact
      (leValue head) rest

def frame (message : Bytes) : Bytes := leBytes 4 message.length ++ message

theorem readExact_append (a b : Bytes) : readExact a.length (a ++ b) = .ok (a, b) := by
  rw [readExact, if_pos (by simp), List.take_left, List.drop_left]

theorem readExact_short (h : stream.length < n) : readExact n stream = .error .ended :=
  if_neg (Nat.not_le.mpr h)

theorem readExact_head (message rest : Bytes) :
    readExact 4 (leBytes 4 message.length ++ rest) = .ok (leBytes 4 message.length, rest) := by
  have h := readExact_append (leBytes 4 message.length) rest
  rwa [length_leBytes] at h

section
variable {message : Bytes} {limit : Nat} (hne : message ≠ []) (hle : message.length ≤ limit)
  (hlimit : limit < 2 ^ 32)
include hne hle hlimit

theorem leValue_length : leValue (leBytes 4 message.length) = message.length ∧
    ¬ (message.length = 0 ∨ limit < message.length) := by
  refine ⟨leValue_leBytes (hle.trans_lt hlimit), ?_⟩
  rintro (hzero | hlong)
  · exact hne (List.length_eq_zero_iff.mp hzero)
  · omega

theorem read_frame (rest : Bytes) : read limit (frame message ++ rest) = .ok (message, rest) := by
  obtain ⟨hvalue, hfits⟩ := leValue_length hne hle hlimit
  rw [read, frame, List.append_assoc, readExact_head]
  simp only [hvalue, if_neg hfits]
  exact readExact_append message rest

theorem read_cut (h : frame message = stream ++ more) (hmore : more ≠ []) :
    read limit stream = .error .ended := by
  obtain ⟨hvalue, hfits⟩ := leValue_length hne hle hlimit
  have hlength : stream.length + more.length = 4 + message.length := by
    have := congrArg List.length h
    simp only [frame, List.length_append, length_leBytes] at this
    omega
  have hpos : 0 < more.length := List.length_pos_iff.mpr hmore
  rw [frame] at h
  rcases List.append_eq_append_iff.mp h with ⟨part, hstream, hmessage⟩ | ⟨part, hhead, hmessage⟩
  · -- the length has come, and a part of the message
    rw [read, hstream, readExact_head]
    simp only [hvalue, if_neg hfits]
    refine readExact_short ?_
    have := congrArg List.length hstream
    simp only [List.length_append, length_leBytes] at this
    omega
  · have hhead' := congrArg List.length hhead
    simp only [List.length_append, length_leBytes] at hhead'
    cases part with
    | nil =>
      -- nothing follows the length
      have hread := readExact_head message []
      rw [List.append_nil, hhead, List.append_nil] at hread
      rw [List.append_nil] at hhead
      rw [read, hread]
      simp only [← hhead, hvalue, if_neg hfits]
      exact readExact_short (List.length_pos_iff.mpr hne)
    | cons b part =>
      -- the length itself is cut
      rw [List.length_cons] at hhead'
      rw [read, readExact_short (by omega)]

end

end Frames
