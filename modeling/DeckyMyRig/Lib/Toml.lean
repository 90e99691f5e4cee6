import DeckyMyRig.Lib.Octets
import DeckyMyRig.Lib.Texts

/-!
# TOML documents of integers

The documents that assign integers to keys and have no tables: lines with an
assignment, a comment, both or neither. Keys are bare or quoted; integers are
decimal, or hexadecimal, octal or binary with a prefix, and underscores may group
their digits. The versions of the format differ on these documents in the escapes
of basic strings, so the reading of these strings is a parameter.
-/

namespace Toml

open Octets Texts

def isWs (c : Char) : Bool := c = ' ' || c = '\t'

/-- A tab, or a character that is not a control character. TOML has no others
within a line. -/
def isAllowed (c : Char) : Bool := c = '\t' || 32 ≤ c.toNat && c.toNat ≠ 127

-- ---------------------------------------------------------------------------
-- Numbers
-- ---------------------------------------------------------------------------

def isDigitIn (base : Nat) (c : Char) : Bool := (hexValue c).any (· < base)

def number (base : Nat) (digits : Text) : Nat :=
  digits.foldl (fun n c => base * n + (hexValue c).getD 0) 0

/-- Digits, with single underscores between them. -/
def grouped (base : Nat) : Text → Option Text
  | [] => none
  | [c] => if isDigitIn base c then some [c] else none
  | c :: '_' :: rest => if isDigitIn base c then (grouped base rest).map (c :: ·) else none
  | c :: rest => if isDigitIn base c then (grouped base rest).map (c :: ·) else none

def radix : Text → Option (Nat × Text)
  | '0' :: 'x' :: digits => some (16, digits)
  | '0' :: 'o' :: digits => some (8, digits)
  | '0' :: 'b' :: digits => some (2, digits)
  | _ => none

/-- A decimal number has no leading zeros. -/
def unsigned (digits : Text) : Option Nat :=
  if digits.head? = some '0' ∧ digits.length ≠ 1 then none else (grouped 10 digits).map (number 10)

def signed : Text → Option Int
  | '+' :: digits => (unsigned digits).map fun (n : Nat) => (n : Int)
  | '-' :: digits => (unsigned digits).map fun (n : Nat) => -(n : Int)
  | digits => (unsigned digits).map fun (n : Nat) => (n : Int)

def integer (literal : Text) : Option Int :=
  let value :=
    match radix literal with
    | some (base, digits) => (grouped base digits).map fun ds => (number base ds : Int)
    | none => signed literal
  value.filter fun v => -2 ^ 63 ≤ v ∧ v < 2 ^ 63

theorem isDigitIn_le {small base : Nat} (h : isDigitIn small c = true) (hle : small ≤ base) :
    isDigitIn base c = true := by
  obtain ⟨n, hn, hlt⟩ := (Option.any_eq_true _ _).mp h
  exact (Option.any_eq_true _ _).mpr ⟨n, hn, decide_eq_true ((of_decide_eq_true hlt).trans_le hle)⟩

theorem grouped_chars (h : grouped base s = some digits) :
    s ≠ [] ∧ ∀ c ∈ s, isDigitIn base c = true ∨ c = '_' := by
  fun_induction grouped base s generalizing digits with
  | case1 => cases h
  | case2 c hc => simp [hc]
  | case4 c rest hc ih | case6 c rest _ _ hc ih =>
    obtain ⟨tail, htail, -⟩ := Option.map_eq_some_iff.mp h
    have htail := (ih htail).2
    simp_all
  | case3 | case5 | case7 => cases h

theorem grouped_plain (h : grouped base s = some digits) (hplain : '_' ∉ s) : digits = s := by
  fun_induction grouped base s generalizing digits with
  | case1 => cases h
  | case2 c hc => exact (Option.some.inj h).symm
  | case4 c rest hc ih => simp at hplain
  | case6 c rest _ _ hc ih =>
    obtain ⟨tail, htail, rfl⟩ := Option.map_eq_some_iff.mp h
    rw [ih htail fun hmem => hplain (List.mem_cons_of_mem _ hmem)]
  | case3 | case5 | case7 => cases h

-- ---------------------------------------------------------------------------
-- Keys
-- ---------------------------------------------------------------------------

def isBare (c : Char) : Bool := c.isAlphanum || c = '-' || c = '_'

def scalar (digits : Text) : Option Char :=
  if digits.all (isDigitIn 16) ∧ (number 16 digits).isValidChar then
    some (Char.ofNat (number 16 digits)) else none

/-- A basic string of TOML 1.0 after its first quotation mark: its text, and what
follows. -/
def basic : Text → Option (Text × Text)
  | [] => none
  | '\x22' :: rest => some ([], rest)
  | '\x5c' :: 'b' :: rest => (basic rest).map fun r => ('\x08' :: r.1, r.2)
  | '\x5c' :: 't' :: rest => (basic rest).map fun r => ('\t' :: r.1, r.2)
  | '\x5c' :: 'n' :: rest => (basic rest).map fun r => ('\n' :: r.1, r.2)
  | '\x5c' :: 'f' :: rest => (basic rest).map fun r => ('\x0c' :: r.1, r.2)
  | '\x5c' :: 'r' :: rest => (basic rest).map fun r => ('\r' :: r.1, r.2)
  | '\x5c' :: '\x22' :: rest => (basic rest).map fun r => ('\x22' :: r.1, r.2)
  | '\x5c' :: '\x5c' :: rest => (basic rest).map fun r => ('\x5c' :: r.1, r.2)
  | '\x5c' :: 'u' :: a :: b :: c :: d :: rest => do
    let ch ← scalar [a, b, c, d]
    (basic rest).map fun r => (ch :: r.1, r.2)
  | '\x5c' :: 'U' :: a :: b :: c :: d :: e :: f :: g :: h :: rest => do
    let ch ← scalar [a, b, c, d, e, f, g, h]
    (basic rest).map fun r => (ch :: r.1, r.2)
  | '\x5c' :: _ => none
  | c :: rest => (basic rest).map fun r => (c :: r.1, r.2)

def literal (s : Text) : Option (Text × Text) :=
  match s.dropWhile (· ≠ '\x27') with
  | [] => none
  | _ :: rest => some (s.takeWhile (· ≠ '\x27'), rest)

structure Key where
  name : Text
  bare : Bool

abbrev Strings := Text → Option (Text × Text)

def key (strings : Strings) : Text → Option (Key × Text)
  | '\x22' :: rest => (strings rest).map fun r => (⟨r.1, false⟩, r.2)
  | '\x27' :: rest => (literal rest).map fun r => (⟨r.1, false⟩, r.2)
  | rest =>
    if (rest.takeWhile isBare).isEmpty then none
    else some (⟨rest.takeWhile isBare, true⟩, rest.dropWhile isBare)

-- ---------------------------------------------------------------------------
-- Lines
-- ---------------------------------------------------------------------------

structure Entry where
  key : Key
  digits : Text
  value : Int
  comment : Bool

def ending : Text → Option Bool
  | [] => some false
  | '#' :: _ => some true
  | _ => none

def isLiteral (c : Char) : Bool := !isWs c && c ≠ '#'

def entry (strings : Strings) (s : Text) : Option Entry := do
  let (key, rest) ← key strings s
  match rest.dropWhile isWs with
  | '=' :: rest =>
    let rest := rest.dropWhile isWs
    let digits := rest.takeWhile isLiteral
    let value ← integer digits
    let comment ← ending ((rest.dropWhile isLiteral).dropWhile isWs)
    pure ⟨key, digits, value, comment⟩
  | _ => none

def line (strings : Strings) (s : Text) : Option (Option Entry) :=
  if s.all isAllowed then
    match s.dropWhile isWs with
    | [] | '#' :: _ => some none
    | rest => (entry strings rest).map some
  else none

/-- Lines end in LF or CRLF. -/
def parse (strings : Strings) (s : Text) : Option (List Entry) :=
  ((linesOf (· = '\n') s).mapM (line strings)).map List.reduceOption

theorem entry_eq_some {strings : Strings} (h : entry strings s = some e) :
    ∃ gap blanks after rest,
      key strings s = some (e.key, gap ++ '=' :: (blanks ++ (e.digits ++ (after ++ rest)))) ∧
      (∀ c ∈ gap, isWs c = true) ∧ (∀ c ∈ blanks, isWs c = true) ∧ (∀ c ∈ after, isWs c = true) ∧
      integer e.digits = some e.value ∧ ending rest = some e.comment := by
  obtain ⟨⟨k, tail⟩, hkey, h⟩ := Option.bind_eq_some_iff.mp h
  simp only at h
  split at h
  · rename_i rest hequals
    obtain ⟨value, hvalue, h⟩ := Option.bind_eq_some_iff.mp h
    obtain ⟨comment, hcomment, h⟩ := Option.bind_eq_some_iff.mp h
    cases h
    refine ⟨tail.takeWhile isWs, rest.takeWhile isWs,
      ((rest.dropWhile isWs).dropWhile isLiteral).takeWhile isWs,
      ((rest.dropWhile isWs).dropWhile isLiteral).dropWhile isWs, ?_, fun c hc =>
        List.mem_takeWhile_imp hc,
      fun c hc => List.mem_takeWhile_imp hc, fun c hc =>
        List.mem_takeWhile_imp hc, hvalue, hcomment⟩
    rw [List.takeWhile_append_dropWhile, List.takeWhile_append_dropWhile,
      List.takeWhile_append_dropWhile, ← hequals, List.takeWhile_append_dropWhile]
    exact hkey
  · cases h

end Toml
