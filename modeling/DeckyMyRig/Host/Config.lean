import DeckyMyRig.Lib.Toml

/-!
# The configuration of the host

`HostConfig::load` of `host/src/config.rs`. `toml::from_str` is a parameter:
`FromStr.Reads` says that it reads TOML, for the one field of `RawConfig`.
-/

namespace DeckyMyRig.Host

open Octets

def defaultPort : Nat := 47991

inductive ConfigFile
  | absent
  /-- It cannot be read, or is not UTF-8. -/
  | unreadable
  | text (contents : Text)

inductive ConfigError
  | read
  | parse
  | invalidPort (value : Int)
  deriving DecidableEq

/-- `toml::from_str`, to a `RawConfig` -/
abbrev FromStr := Text → Option (Option Int)

/-- `RawConfig` has one field, an integer, and denies others. -/
def rawConfig : List Toml.Entry → Option (Option Int)
  | [] => some none
  | [entry] => if entry.key.name = "port".toList then some (some entry.value) else none
  | _ => none

/-- Without a byte order mark, `toml::from_str` takes the documents of the format,
in the version that has these strings, and of them those that make a `RawConfig`.
A document with tables or with values other than integers makes none. -/
def FromStr.Reads (fromStr : FromStr) (strings : Toml.Strings) : Prop :=
  ∀ contents, contents.head? ≠ some '\uFEFF' →
    fromStr contents = (Toml.parse strings contents).bind rawConfig

namespace HostConfig

def load (fromStr : FromStr) : ConfigFile → Except ConfigError Nat
  | .absent => .ok defaultPort
  | .unreadable => .error .read
  | .text contents =>
    match fromStr contents with
    | none => .error .parse
    | some port =>
      let value := port.getD defaultPort
      if 1 ≤ value ∧ value ≤ 65535 then .ok value.toNat else .error (.invalidPort value)

end HostConfig

end DeckyMyRig.Host
