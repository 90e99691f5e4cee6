import DeckyMyRig.Lib.Toml

/-!
# The port of the firewall rule

`ReadPortFromConfig` of `host/installer/DeckyMyRigHost.iss`. `StrToIntDef` takes
decimal numbers and hexadecimal ones after `$`. Whether it takes `0x` too, as
`Val` of Delphi does, is a parameter.
-/

namespace DeckyMyRig.Installer

open Octets Texts Toml

/-- What `Trim` removes: blanks and control characters. -/
def isBlank (c : Char) : Bool := c.toNat ≤ 32

def trim (s : Text) : Text := strip isBlank s

/-- `LoadStringsFromFile`: lines end in CR, LF or CRLF. -/
def loadStrings (contents : Text) : List Text := linesOf (fun c => c = '\n' || c = '\r') contents

def natural (base : Nat) (digits : Text) : Option Nat :=
  if !digits.isEmpty && digits.all (isDigitIn base) then some (number base digits) else none

/-- Hexadecimal numbers are those of 32 bits, decimal ones go up to `limit`. -/
def hexadecimal (digits : Text) : Option Int :=
  match natural 16 digits with
  | some n => if n < 2 ^ 31 then some n else if n < 2 ^ 32 then some (n - 2 ^ 32) else none
  | none => none

def decimal (limit : Nat) (digits : Text) : Option Int :=
  match natural 10 digits with
  | some n => if n ≤ limit then some n else none
  | none => none

def magnitude (zeroX : Bool) (limit : Nat) : Text → Option Int
  | '$' :: digits => hexadecimal digits
  | '0' :: x :: digits =>
    if zeroX && (x = 'x' || x = 'X') then hexadecimal digits else decimal limit ('0' :: x :: digits)
  | digits => decimal limit digits

def strToInt (zeroX : Bool) : Text → Option Int
  | '+' :: s => magnitude zeroX (2 ^ 31 - 1) s
  | '-' :: s => (magnitude zeroX (2 ^ 31) s).map fun v => -v
  | s => magnitude zeroX (2 ^ 31 - 1) s

def strToIntDef (zeroX : Bool) (s : Text) (default : Int) : Int := (strToInt zeroX s).getD default

def hostPort : Text := "47991".toList

def portValue (line : Text) : Option Text :=
  let line := trim line
  if '=' ∈ line ∧ trim (line.takeWhile (· ≠ '=')) = "port".toList then
    some (trim ((line.dropWhile (· ≠ '=')).drop 1))
  else none

def readPort (zeroX : Bool) : List Text → Text
  | [] => hostPort
  | line :: lines =>
    match portValue line with
    | some value =>
      if strToIntDef zeroX value 0 ≥ 1 ∧ strToIntDef zeroX value 0 ≤ 65535 then value else hostPort
    | none => readPort zeroX lines

def readPortFromConfig (zeroX : Bool) (contents : Text) : Text :=
  readPort zeroX (loadStrings contents)

def configuredPort (zeroX : Bool) (contents : Text) : Int :=
  strToIntDef zeroX (readPortFromConfig zeroX contents) 0

end DeckyMyRig.Installer
