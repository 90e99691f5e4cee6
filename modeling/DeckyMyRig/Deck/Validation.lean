import DeckyMyRig.Deck.Python

/-!
# Validation of device settings

`decky/py_modules/decky_my_rig/validation.py`. An address that
`ipaddress.ip_address` parses as IPv6 has a colon, and so is refused with the
message that its only label would be refused with.
-/

namespace DeckyMyRig.Deck

open Octets Texts

def defaultPort : Nat := 47991

def isHex (c : Char) : Bool := (hexValue c).isSome

def macMessage : Text := "Enter a valid 12-digit MAC address.".toList

def compactMac (value : Text) : Text :=
  value.filter fun c => !(c = '-' || c = ':' || c = '.' || isSpace c)

def normalizeMac (value : Text) : Except PyError Text :=
  match compactMac value with
  | [a, b, c, d, e, f, g, h, i, j, k, l] =>
    if [a, b, c, d, e, f, g, h, i, j, k, l].all isHex then
      let up := Char.toUpper
      .ok [up a, up b, ':', up c, up d, ':', up e, up f, ':', up g, up h, ':',
        up i, up j, ':', up k, up l]
    else .error (.validation macMessage)
  | _ => .error (.validation macMessage)

def pyDigits : Text → Option Text
  | [] => none
  | [c] => if c.isDigit then some [c] else none
  | c :: '_' :: rest => if c.isDigit then (pyDigits rest).map (c :: ·) else none
  | c :: rest => if c.isDigit then (pyDigits rest).map (c :: ·) else none

/-- What `int` strips. Of the blanks of `str.isspace`, it leaves U+001C to U+001F. -/
def isIntSpace (c : Char) : Bool := isSpace c && !(28 ≤ c.toNat && c.toNat ≤ 31)

/-- `int(value, 10)`, on ASCII digits; a number in other digits is never equal
to its own text, so the port check refuses it either way. -/
def pyInt (value : Text) : Option Int :=
  match strip isIntSpace value with
  | '-' :: rest => (pyDigits rest).map fun digits => -(Nat.ofDigitChars 10 digits 0 : Int)
  | '+' :: rest => (pyDigits rest).map fun digits => (Nat.ofDigitChars 10 digits 0 : Int)
  | rest => (pyDigits rest).map fun digits => (Nat.ofDigitChars 10 digits 0 : Int)

def portMessage : Text := "Host port must be a number from 1 to 65535.".toList

def Json.isUnset : Json → Bool
  | .null | .str [] => true
  | _ => false

def validatePort (py : Python) (value : Json) (default : Bool) : Except PyError Nat :=
  if value.isUnset && default then .ok defaultPort
  else match value with
    | .bool _ => .error (.validation portMessage)
    | value =>
      match pyInt (py.str value) with
      | none => .error (.validation portMessage)
      | some port =>
        if strip isSpace (py.str value) ≠ (toString port).toList ∨ ¬ (1 ≤ port ∧ port ≤ 65535) then
          .error (.validation portMessage)
        else .ok port.toNat

/-- An octet as `ipaddress` reads it: no leading zeros. -/
def isOctet (octet : Text) : Bool :=
  !octet.isEmpty && octet.all Char.isDigit && octet.length ≤ 3 &&
    (octet = ['0'] || octet.head? ≠ some '0') && Nat.ofDigitChars 10 octet 0 ≤ 255

/-- `ipaddress.IPv4Address(value)` succeeds. Its text is then `value` again. -/
def isIPv4 (value : Text) : Bool :=
  let octets := value.splitOn '.'
  octets.length = 4 && octets.all isOctet

def isLabel (label : Text) : Bool :=
  1 ≤ label.length && label.length ≤ 63 && (label.head?.any Char.isAlphanum) &&
    (label.getLast?.any Char.isAlphanum) && label.all fun c => c.isAlphanum || c = '-'

def removeDot (value : Text) : Text := if value.getLast? = some '.' then value.dropLast else value

def addressMessage : Text := "Enter a hostname or IP address.".toList
def hostMessage : Text := "Enter a hostname or IPv4 address.".toList

def Python.strOr (py : Python) (value : Json) : Text := if value.truthy then py.str value else []

def validateAddress (py : Python) (value : Json) : Except PyError Text :=
  let address := strip isSpace (py.strOr value)
  if address.isEmpty ∨ address.length > 253 ∨ address.any isSpace then
    .error (.validation addressMessage)
  else if isIPv4 address then .ok address
  else if ((removeDot address).splitOn '.').all isLabel then .ok (removeDot address)
  else .error (.validation hostMessage)

def broadcastMessage : Text := "Broadcast address must be a valid IPv4 address.".toList

def validateBroadcast (py : Python) (value : Json) : Except PyError (Option Text) :=
  let text := strip isSpace (py.strOr value)
  if text.isEmpty then .ok none
  else if isIPv4 text then .ok (some text)
  else .error (.validation broadcastMessage)

end DeckyMyRig.Deck
