import DeckyMyRig.Lib.Octets

/-!
# SHA-256, HMAC and HKDF

FIPS 180-4, RFC 2104 and RFC 5869 on lists of bytes, for runs on fixed inputs
that sign and verify. Words are natural numbers below `2 ^ 32`.
-/

namespace Sha256

open Octets

def roundConstants : List Nat :=
  [0x428a2f98, 0x71374491, 0xb5c0fbcf, 0xe9b5dba5, 0x3956c25b, 0x59f111f1, 0x923f82a4, 0xab1c5ed5,
    0xd807aa98, 0x12835b01, 0x243185be, 0x550c7dc3, 0x72be5d74, 0x80deb1fe, 0x9bdc06a7, 0xc19bf174,
    0xe49b69c1, 0xefbe4786, 0x0fc19dc6, 0x240ca1cc, 0x2de92c6f, 0x4a7484aa, 0x5cb0a9dc, 0x76f988da,
    0x983e5152, 0xa831c66d, 0xb00327c8, 0xbf597fc7, 0xc6e00bf3, 0xd5a79147, 0x06ca6351, 0x14292967,
    0x27b70a85, 0x2e1b2138, 0x4d2c6dfc, 0x53380d13, 0x650a7354, 0x766a0abb, 0x81c2c92e, 0x92722c85,
    0xa2bfe8a1, 0xa81a664b, 0xc24b8b70, 0xc76c51a3, 0xd192e819, 0xd6990624, 0xf40e3585, 0x106aa070,
    0x19a4c116, 0x1e376c08, 0x2748774c, 0x34b0bcb5, 0x391c0cb3, 0x4ed8aa4a, 0x5b9cca4f, 0x682e6ff3,
    0x748f82ee, 0x78a5636f, 0x84c87814, 0x8cc70208, 0x90befffa, 0xa4506ceb, 0xbef9a3f7, 0xc67178f2]

structure State where
  a : Nat
  b : Nat
  c : Nat
  d : Nat
  e : Nat
  f : Nat
  g : Nat
  h : Nat

def initial : State :=
  ⟨0x6a09e667, 0xbb67ae85, 0x3c6ef372, 0xa54ff53a, 0x510e527f, 0x9b05688c, 0x1f83d9ab, 0x5be0cd19⟩

/-- `f n`, where `n` is evaluated first. -/
def forced (n : Nat) (f : Nat → α) : α :=
  match n with
  | 0 => f 0
  | n + 1 => f n.succ

def rotr (x n : Nat) : Nat := (x.shiftRight n).lor ((x.shiftLeft (Nat.sub 32 n)).mod 0x100000000)

def xor₃ (x y z : Nat) : Nat := (x.xor y).xor z

/-- `count` more words of the schedule, the last one first. -/
def schedule : (count : Nat) → List Nat → List Nat
  | count + 1,
    ws@(_ :: x :: _ :: _ :: _ :: _ :: w₇ :: _ :: _ :: _ :: _ :: _ :: _ :: _ :: y :: w₁₆ :: _) =>
    forced (((w₁₆.add (xor₃ (rotr y 7) (rotr y 18) (y.shiftRight 3))).add
      (w₇.add (xor₃ (rotr x 17) (rotr x 19) (x.shiftRight 10)))).mod 0x100000000) fun next =>
      schedule count (next :: ws)
  | _, ws => ws

def rounds : (constants ws : List Nat) → State → State
  | k :: constants, w :: ws, ⟨a, b, c, d, e, f, g, h⟩ =>
    forced ((((h.add (xor₃ (rotr e 6) (rotr e 11) (rotr e 25))).add
      ((e.land f).xor ((Nat.sub 0xffffffff e).land g))).add k).add w) fun t =>
      forced (((t.add (xor₃ (rotr a 2) (rotr a 13) (rotr a 22))).add
        (xor₃ (a.land b) (a.land c) (b.land c))).mod 0x100000000) fun a' =>
        forced ((d.add t).mod 0x100000000) fun e' => rounds constants ws ⟨a', a, b, c, e', e, f, g⟩
  | _, _, s => s

def words : (ws : List Nat) → Bytes → List Nat
  | ws, a :: b :: c :: d :: rest =>
    forced (((a.toNat * 256 + b.toNat) * 256 + c.toNat) * 256 + d.toNat) fun w =>
      words (w :: ws) rest
  | ws, _ => ws

def compress (s : State) (block : Bytes) : State :=
  let t := rounds roundConstants (schedule 48 (words [] block)).reverse s
  ⟨(s.a + t.a) % 2 ^ 32, (s.b + t.b) % 2 ^ 32, (s.c + t.c) % 2 ^ 32, (s.d + t.d) % 2 ^ 32,
    (s.e + t.e) % 2 ^ 32, (s.f + t.f) % 2 ^ 32, (s.g + t.g) % 2 ^ 32, (s.h + t.h) % 2 ^ 32⟩

def blocks : (count : Nat) → Bytes → State → State
  | 0, _, s => s
  | count + 1, data, s => blocks count (data.drop 64) (compress s (data.take 64))

def padded (data : Bytes) : Bytes :=
  data ++ 0x80 :: List.replicate ((119 - data.length % 64) % 64) 0 ++ beBytes 8 (8 * data.length)

def State.bytes (s : State) : Bytes :=
  beBytes 4 s.a ++ beBytes 4 s.b ++ beBytes 4 s.c ++ beBytes 4 s.d ++ beBytes 4 s.e ++
    beBytes 4 s.f ++ beBytes 4 s.g ++ beBytes 4 s.h

def digest (data : Bytes) : Bytes :=
  (blocks ((padded data).length / 64) (padded data) initial).bytes

def hmac (key message : Bytes) : Bytes :=
  let key := if key.length > 64 then digest key else key
  let key := key ++ List.replicate (64 - key.length) 0
  digest (key.map (· ^^^ 0x5c) ++ digest (key.map (· ^^^ 0x36) ++ message))

/-- HKDF without salt, for 32 bytes. -/
def hkdf (secret info : Bytes) : Bytes := hmac (hmac (List.replicate 32 0) secret) (info ++ [1])

theorem length_digest (data : Bytes) : (digest data).length = 32 := by
  simp [digest, State.bytes]

theorem length_hmac (key message : Bytes) : (hmac key message).length = 32 := length_digest _

/-- The digest of `abc`. -/
example : hexEncode (digest [97, 98, 99]) =
    "ba7816bf8f01cfea414140de5dae2223b00361a396177a9cb410ff61f20015ad".toList := by
  decide +kernel

end Sha256
