import DeckyMyRig.Deck.Libraries

/-!
# Version relations

`decky/py_modules/decky_my_rig/versioning.py`. The pattern's `\d` takes the
decimal digits of every script, and `int` refuses to read more than 4300 of
them.
-/

namespace DeckyMyRig.Deck

open Octets

inductive VersionRelation
  | compatible
  | updateHost
  | updatePlugin
  | incompatible
  | unknown
  deriving DecidableEq

/-- The value of a decimal digit, which `\d` and `int` take in every script. -/
def Libraries.digit (L : Libraries) (c : Char) : Option Nat :=
  if c.isDigit then some (c.toNat - 48) else if c.toNat < 128 then none else L.digitOther c

def isVersionNumber (L : Libraries) : Text → Bool
  | ['0'] => true
  | c :: rest => '1' ≤ c && c ≤ '9' && rest.all fun d => (L.digit d).isSome
  | [] => false

/-- The groups of `_VERSION.fullmatch`. -/
def versionGroups (L : Libraries) (version : Text) : Option (Text × Text × Text) :=
  match version.splitOn '.' with
  | [major, minor, patch] =>
    if isVersionNumber L major && isVersionNumber L minor && isVersionNumber L patch then
      some (major, minor, patch)
    else none
  | _ => none

def maxStrDigits : Nat := 4300

def versionInt (L : Libraries) (digits : Text) : Except Raised Nat :=
  if digits.length > maxStrDigits then
    .error (.value
      ("Exceeds the limit (4300 digits) for integer string conversion: value has ".toList ++
        (Nat.repr digits.length).toList ++
        " digits; use sys.set_int_max_str_digits() to increase the limit".toList))
  else .ok (digits.foldl (fun n c => 10 * n + (L.digit c).getD 0) 0)

def versionParts (L : Libraries) : Text × Text × Text → Except Raised (Nat × Nat × Nat)
  | (major, minor, patch) => do
    .ok (← versionInt L major, ← versionInt L minor, ← versionInt L patch)

def compareVersions (L : Libraries) (plugin host : Text) : Except Raised VersionRelation :=
  match versionGroups L plugin, versionGroups L host with
  | some plugin, some host => do
    let plugin ← versionParts L plugin
    let host ← versionParts L host
    if plugin.1 ≠ host.1 then .ok .incompatible
    else if plugin.2.1 > host.2.1 then .ok .updateHost
    else if plugin.2.1 < host.2.1 then .ok .updatePlugin
    else .ok .compatible
  | _, _ => .ok .unknown

end DeckyMyRig.Deck
