import Audd.Lib.ExactDouble

/-!
# Reading numbers from characters

Runs of decimal digits, and the number grammar of the C library: white space,
an optional sign, then the longest decimal, hexadecimal, infinity or NaN form.

## Implementation notes

Every reader returns the value with the characters it leaves. Which values the
library rejects with a range error is a parameter.
-/

namespace Decimal

/-- A decimal digit. -/
def isDigit (c : Char) : Bool := '0' ≤ c && c ≤ '9'

/-- A hexadecimal digit. -/
def isHexDigit (c : Char) : Bool := isDigit c || ('a' ≤ c && c ≤ 'f') || ('A' ≤ c && c ≤ 'F')

/-- ASCII white space. -/
def isWs (c : Char) : Bool :=
  c = ' ' || c = '\t' || c = '\n' || c = '\r' || c = '\x0c' || c = '\x0b'

/-- ASCII lower case. -/
def toLowerAscii (c : Char) : Char :=
  if 'A' ≤ c ∧ c ≤ 'Z' then Char.ofNat (c.toNat + 32) else c

/-- The value of one hexadecimal digit. -/
def hexDigitValue (c : Char) : ℕ :=
  if isDigit c then c.toNat - 48 else (toLowerAscii c).toNat - 87

/-- The number that a list of decimal digits denotes. -/
def digitsValue (l : List Char) : ℕ := l.foldl (fun n c => 10 * n + (c.toNat - 48)) 0

/-- The number that a list of hexadecimal digits denotes. -/
def hexValue (l : List Char) : ℕ := l.foldl (fun n c => 16 * n + hexDigitValue c) 0

/-- Digits with an optional point, at least one digit in all. -/
def mantissa (digit : Char → Bool) (s : List Char) :
    Option (List Char × List Char × List Char) :=
  let whole := s.takeWhile digit
  match s.dropWhile digit with
  | '.' :: rest =>
      let part := rest.takeWhile digit
      if whole = [] ∧ part = [] then none else some (whole, part, rest.dropWhile digit)
  | rest => if whole = [] then none else some (whole, [], rest)

/-- An exponent with at least one digit; otherwise nothing is consumed. -/
def exponent (marker : Char → Bool) (s : List Char) : ℤ × List Char :=
  match s with
  | c :: rest =>
      let negative := rest.head? = some '-'
      let body := if negative ∨ rest.head? = some '+' then rest.tail else rest
      let digits := body.takeWhile isDigit
      if marker c ∧ digits ≠ [] then
        (if negative then -digitsValue digits else digitsValue digits, body.dropWhile isDigit)
      else (0, s)
  | [] => (0, s)

/-- The characters after a word, compared without case. -/
def dropWord (word : String) (s : List Char) : Option (List Char) :=
  if (s.take word.length).map toLowerAscii = word.toList then some (s.drop word.length) else none

/-- The magnitude at the head of the text, before its sign is applied. -/
def magnitude (s : List Char) : Option (ExactDouble × List Char) :=
  match dropWord "infinity" s, dropWord "inf" s, dropWord "nan" s with
  | some rest, _, _ => some (.infinite false, rest)
  | none, some rest, _ => some (.infinite false, rest)
  | none, none, some rest =>
      let tag := rest.drop 1 |>.dropWhile fun c => c.isAlphanum || c = '_'
      if rest.head? = some '(' ∧ tag.head? = some ')' then some (.nan, tag.tail)
      else some (.nan, rest)
  | none, none, none =>
      match (dropWord "0x" s).bind (mantissa isHexDigit) with
      | some (whole, part, rest) =>
          let (e, rest) := exponent (fun c => c = 'p' || c = 'P') rest
          some (.finite (hexValue (whole ++ part) * 2 ^ (e - 4 * part.length)), rest)
      | none =>
          match mantissa isDigit s with
          | some (whole, part, rest) =>
              let (e, rest) := exponent (fun c => c = 'e' || c = 'E') rest
              some (.finite (digitsValue (whole ++ part) * 10 ^ (e - part.length)), rest)
          | none => none

/-- `std::stod`: the value and the characters left. `none` is an exception, for
a text without a number or a value for which the library reports a range error. -/
def stod (rangeError : ℚ → Bool) (s : List Char) : Option (ExactDouble × List Char) :=
  let t := s.dropWhile isWs
  let negative := t.head? = some '-'
  let body := if negative ∨ t.head? = some '+' then t.tail else t
  match magnitude body with
  | none => none
  | some (.finite q, rest) =>
      if rangeError q then none else some (.finite (if negative then -q else q), rest)
  | some (.infinite _, rest) => some (.infinite negative, rest)
  | some (.nan, rest) => some (.nan, rest)

/-- A hexadecimal exponent is read, and a decimal one without digits is not. -/
example : stod (fun _ => false) " -1.5e".toList = some (.finite (-3 / 2), ['e']) := by
  decide +kernel

end Decimal
