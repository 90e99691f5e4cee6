import DeckyMyRig.Lib.Octets

/-!
# Version relations

`host/src/versioning.rs`, and the `u64` parser of the Rust standard library
that it and the header parsing use.
-/

namespace DeckyMyRig.Host

open Octets

/-- `str::parse::<u64>`: an optional plus sign, then at least one digit. -/
def parseU64 (value : Text) : Option UInt64 :=
  let digits := if value.head? = some '+' then value.tail else value
  if digits.isEmpty then none
  else do
    let n ← digits.foldlM
      (fun n c =>
        if c.isDigit ∧ n * 10 + (c.toNat - 48) < 2 ^ 64 then some (n * 10 + (c.toNat - 48))
        else none) 0
    some (UInt64.ofNat n)

def u64Text (n : UInt64) : Text := (Nat.repr n.toNat).toList

inductive VersionRelation
  | compatible
  | updateHost
  | updatePlugin
  | incompatible
  | unknown
  deriving DecidableEq

structure Version where
  major : UInt64
  minor : UInt64
  patch : UInt64
  deriving DecidableEq

def Version.text (v : Version) : Text :=
  u64Text v.major ++ '.' :: u64Text v.minor ++ '.' :: u64Text v.patch

/-- `parse`: three numbers whose canonical text is the input again. -/
def parseVersion (value : Text) : Option Version :=
  match value.splitOn '.' with
  | [major, minor, patch] => do
    let parsed := ⟨← parseU64 major, ← parseU64 minor, ← parseU64 patch⟩
    if Version.text parsed ≠ value then none else some parsed
  | _ => none

def compareVersions (plugin host : Text) : VersionRelation :=
  match parseVersion plugin, parseVersion host with
  | some plugin, some host =>
    if plugin.major ≠ host.major then .incompatible
    else if plugin.minor > host.minor then .updateHost
    else if plugin.minor < host.minor then .updatePlugin
    else .compatible
  | _, _ => .unknown

end DeckyMyRig.Host
