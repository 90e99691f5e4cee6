import DeckyMyRig.Deck.Validation

/-!
# Discovery of hardware addresses

`find_mac` of `decky/py_modules/decky_my_rig/discovery.py`. Which characters
beyond ASCII are word characters is a parameter.
-/

namespace DeckyMyRig.Deck

open Octets Texts

/-- Where `str.splitlines` ends a line. -/
def isLineBreak (c : Char) : Bool :=
  let n := c.toNat
  10 ≤ n && n ≤ 13 || 28 ≤ n && n ≤ 30 || n = 0x85 || n = 0x2028 || n = 0x2029

def splitLines (s : Text) : List Text := linesOf isLineBreak s

/-- `(?:[:-][0-9a-f]{2}){n}`, without regard to case. -/
def isOctets : Nat → Text → Bool
  | 0, rest => rest.isEmpty
  | n + 1, separator :: high :: low :: rest =>
    (separator = ':' || separator = '-') && isHex high && isHex low && isOctets n rest
  | _ + 1, _ => false

def isMac : Text → Bool
  | high :: low :: rest => isHex high && isHex low && isOctets 5 rest
  | _ => false

def isWord (W : Char → Bool) (c : Char) : Bool :=
  if c.toNat < 128 then c.isAlphanum || c = '_' else W c

/-- `MAC_PATTERN` matches at the start of `rest`, after `before`. Its first and
last characters are word characters. -/
def macAt (W : Char → Bool) (before : Option Char) (rest : Text) : Bool :=
  !before.any (isWord W) && isMac (rest.take 17) && !(rest.drop 17).head?.any (isWord W)

def searchMac (W : Char → Bool) (before : Option Char) : Text → Option Text
  | [] => none
  | c :: rest =>
    if macAt W before (c :: rest) then some ((c :: rest).take 17) else searchMac W (some c) rest

def findIn (W : Char → Bool) (ip : Text) : List Text → Except PyError Text
  | [] => .ok []
  | line :: lines =>
    if ip ∈ words isSpace line then
      match searchMac W none line with
      | some mac => normalizeMac mac
      | none => findIn W ip lines
    else findIn W ip lines

def findMac (W : Char → Bool) (ip output : Text) : Except PyError Text :=
  findIn W ip (splitLines output)

end DeckyMyRig.Deck
