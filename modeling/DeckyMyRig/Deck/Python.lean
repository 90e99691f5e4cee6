import Mathlib.Data.List.Nodup
import DeckyMyRig.Lib.Octets
import DeckyMyRig.Lib.Texts
import DeckyMyRig.Lib.Dicts

/-!
# Python values

The values that `json.loads` gives, as the plugin's store and validators treat
them, and the exceptions they raise. Of the interpreter, the model takes as
parameters what `json` does with text and what `repr` prints.
-/

namespace DeckyMyRig.Deck

open Octets Texts

/-- `==` on `str`. -/
instance : LawfulBEq Text := inferInstance

inductive Json
  | null
  | bool (value : Bool)
  | int (value : Int)
  /-- A float, by its `repr`. -/
  | float (repr : Text)
  | str (value : Text)
  | list (items : List Json)
  | dict (items : List (Text × Json))

structure Python where
  /-- `json.loads` of a file's text, where it succeeds. -/
  loads : Text → Option Json
  /-- What `_atomic_write` puts into a file. -/
  dumps : Json → Text
  repr : Json → Text

/-- A file with the document reads back as the document. -/
def Python.Readable (py : Python) (document : Json) : Prop :=
  py.loads (py.dumps document) = some document

def Python.str (py : Python) : Json → Text
  | .null => "None".toList
  | .bool true => "True".toList
  | .bool false => "False".toList
  | .int value => (toString value).toList
  | .float repr => repr
  | .str value => value
  | value => py.repr value

def Json.truthy : Json → Bool
  | .null | .bool false => false
  | .bool true => true
  | .int value => value ≠ 0
  | .float repr => repr ≠ "0.0".toList ∧ repr ≠ "-0.0".toList
  | .str value => !value.isEmpty
  | .list items => !items.isEmpty
  | .dict items => !items.isEmpty

/-- `str.isspace` of one character. -/
def isSpace (c : Char) : Bool :=
  let n := c.toNat
  9 ≤ n && n ≤ 13 || 28 ≤ n && n ≤ 32 || n = 0x85 || n = 0xa0 || n = 0x1680 ||
    0x2000 ≤ n && n ≤ 0x200a || n = 0x2028 || n = 0x2029 || n = 0x202f || n = 0x205f || n = 0x3000

/-- `bytes.fromhex`: pairs of digits, with ASCII blanks between them. -/
def fromHex : Text → Option Bytes
  | [] => some []
  | hi :: rest =>
    if hi.toNat = 32 ∨ 9 ≤ hi.toNat ∧ hi.toNat ≤ 13 then fromHex rest
    else match rest with
      | [] => none
      | lo :: rest => do
        let h ← hexValue hi
        let l ← hexValue lo
        let tail ← fromHex rest
        some (UInt8.ofNat (16 * h + l) :: tail)

-- ---------------------------------------------------------------------------
-- Exceptions
-- ---------------------------------------------------------------------------

inductive File
  | settings
  | credentials
  | transaction
  deriving DecidableEq

/-- The calls of `_atomic_write`. -/
inductive WriteStep
  | create
  | write
  | sync
  | chmod
  | replace
  | openDirectory
  | syncDirectory
  deriving DecidableEq

inductive RemoveStep
  | unlink
  | openDirectory
  | syncDirectory
  deriving DecidableEq

inductive FileStep
  | write (file : File) (step : WriteStep)
  | remove (step : RemoveStep)
  deriving DecidableEq

inductive PyError
  /-- `OSError`, from the call that raised it. -/
  | os (step : FileStep)
  | store (message : Text)
  | validation (message : Text)
  | value
  | jsonDecode
  | type
  | key
  | stopIteration
  deriving DecidableEq

-- ---------------------------------------------------------------------------
-- Iteration
-- ---------------------------------------------------------------------------

def Json.iter : Json → Except PyError (List Json)
  | .list items => .ok items
  | .dict items => .ok (items.map fun e => .str e.1)
  | .str value => .ok (value.map fun c => .str [c])
  | _ => .error .type

/-- `dict(value)`. A key that is not text would be a `TypeError` at the call
that takes the dictionary as keywords; here it is one already. -/
def Json.toDict : Json → Except PyError (Dict Text Json)
  | .dict items => .ok items
  | value => do
    let items ← value.iter
    items.foldlM (fun d item => do
      match ← item.iter with
      | [.str key, value] => .ok (Dict.set d key value)
      | [_, _] => .error .type
      | _ => .error .value) []

-- ---------------------------------------------------------------------------
-- Printing
-- ---------------------------------------------------------------------------

def escapeUnit (unit : Nat) : Text :=
  '\\' :: 'u' :: hexEncode [UInt8.ofNat (unit / 256), UInt8.ofNat unit]

def escape (c : Char) : Text :=
  match c with
  | '"' => "\\\"".toList
  | '\\' => "\\\\".toList
  | '\n' => "\\n".toList
  | '\r' => "\\r".toList
  | '\t' => "\\t".toList
  | '\x08' => "\\b".toList
  | '\x0c' => "\\f".toList
  | c =>
    if 32 ≤ c.toNat ∧ c.toNat ≤ 126 then [c]
    else if c.toNat < 0x10000 then escapeUnit c.toNat
    else escapeUnit (0xd800 + (c.toNat - 0x10000) / 0x400) ++
      escapeUnit (0xdc00 + (c.toNat - 0x10000) % 0x400)

def quoted (text : Text) : Text := '"' :: text.flatMap escape ++ ['"']

def block (first last : Char) (newline : Text) (items : List Text) : Text :=
  if items.isEmpty then [first, last]
  else first :: newline ++ [' ', ' '] ++ (',' :: newline ++ [' ', ' ']).intercalate items ++
    newline ++ [last]

mutual

/-- `json.dumps(value, indent=2)`, where lines begin as `newline` says. -/
def Json.print (newline : Text) : Json → Text
  | .null => "null".toList
  | .bool true => "true".toList
  | .bool false => "false".toList
  | .int value => (toString value).toList
  | .float repr => repr
  | .str value => quoted value
  | .list items => block '[' ']' newline (printItems (newline ++ [' ', ' ']) items)
  | .dict items => block '\x7b' '\x7d' newline (printEntries (newline ++ [' ', ' ']) items)

def printItems (newline : Text) : List Json → List Text
  | [] => []
  | item :: items => item.print newline :: printItems newline items

def printEntries (newline : Text) : List (Text × Json) → List Text
  | [] => []
  | (key, value) :: items => (quoted key ++ [':', ' '] ++ value.print newline) ::
      printEntries newline items

end

/-- What `_atomic_write` writes. -/
def Json.text (document : Json) : Text := document.print ['\n'] ++ ['\n']

/-- An interpreter, as far as it reads files with these documents. -/
def Python.reading (documents : List Json) : Python where
  loads text := documents.find? (·.text = text)
  dumps := Json.text
  repr _ := []

theorem Python.readable_reading {documents : List Json} (h : (documents.map Json.text).Nodup)
    (hmem : document ∈ documents) : (Python.reading documents).Readable document := by
  obtain ⟨found, hfound⟩ : ∃ found, documents.find? (·.text = document.text) = some found :=
    Option.isSome_iff_exists.mp (List.find?_isSome.mpr ⟨document, hmem, by simp⟩)
  have htext : found.text = document.text := by simpa using List.find?_some hfound
  rw [List.inj_on_of_nodup_map h (List.mem_of_find?_eq_some hfound) hmem htext] at hfound
  exact hfound

end DeckyMyRig.Deck
