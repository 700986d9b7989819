import Audd.Lib.Decimal
import Audd.Platform

/-!
# Scalar coercion

The readers of `json_parse.cpp`: a scalar of the wrong JSON type is converted
when it is convertible, and the field's default is used only when it is not.

## Implementation notes

Texts are taken apart as lists of characters. The two index loops of
`trim_ascii` are the two `dropWhile` passes, and `std::from_chars` returns the
number together with the characters it leaves.
-/

namespace Audd

open Decimal

/-- The text without leading and trailing ASCII white space. -/
def trimAscii (s : String) : String :=
  String.ofList ((s.toList.dropWhile isWs).reverse.dropWhile isWs).reverse

/-- `std::from_chars` in base ten: an optional minus sign, then the longest run
of digits. `none` is an error: no digit, or a number outside `std::int64_t`. -/
def fromChars (s : List Char) : Option (Int64 × List Char) :=
  let negative := s.head? = some '-'
  let body := if negative then s.tail else s
  let digits := body.takeWhile isDigit
  if digits = [] then none
  else
    let n : ℤ := if negative then -digitsValue digits else digitsValue digits
    if -2 ^ 63 ≤ n ∧ n < 2 ^ 63 then some (Int64.ofInt n, body.dropWhile isDigit) else none

/-- Parse a whole text as a decimal integer. A leading plus sign is removed
before `std::from_chars`, which itself accepts a minus sign. -/
def parseFullInt (s : String) : Option Int64 :=
  let t := (trimAscii s).toList
  let t := if t.head? = some '+' then t.tail else t
  if t = [] then none
  else
    match fromChars t with
    | some (v, []) => some v
    | _ => none

section
variable (P : Platform)

/-- Render a JSON number: integers, and doubles with an integral value in the
range of `std::int64_t`, without a decimal point. -/
def numToString (v : Json) : String :=
  match v with
  | .numberInteger i => toString i.toInt
  -- `is_number_integer` holds of unsigned numbers too, so they are read as signed
  | .numberUnsigned u => toString u.toInt64.toInt
  | .numberFloat d =>
      if d.isIntegral ∧ -2 ^ 63 ≤ d.trunc ∧ d.trunc < 2 ^ 63 then toString (P.toInt64 d).toInt
      else P.dump v
  | _ => P.dump v

def coerceString (v : Json) : Option String :=
  match v with
  | .string s => some s
  | .boolean b => some (if b then "true" else "false")
  | .numberInteger _ | .numberUnsigned _ | .numberFloat _ => some (numToString P v)
  | .null | .array _ | .object _ => none

def coerceInt (v : Json) : Option Int64 :=
  match v with
  | .numberInteger i => some i
  | .numberUnsigned u => some u.toInt64
  | .numberFloat d => some (P.toInt64 d)
  | .boolean b => some (if b then 1 else 0)
  | .string s => parseFullInt s
  | .null | .array _ | .object _ => none

/-- As `coerceInt`, but an identifier never comes from a boolean. -/
def coerceId (v : Json) : Option Int64 :=
  match v with
  | .boolean _ => none
  | _ => coerceInt P v

def coerceBool (v : Json) : Option Bool :=
  match v with
  | .boolean b => some b
  | .numberInteger i => some (i ≠ 0)
  | .numberUnsigned u => some (u ≠ 0)
  | .numberFloat d => some (!d.isZero)
  | .string s =>
      let t := String.ofList ((trimAscii s).toList.map toLowerAscii)
      if t = "" ∨ t = "false" ∨ t = "0" ∨ t = "no" ∨ t = "off" then some false
      else if t = "true" ∨ t = "1" ∨ t = "yes" ∨ t = "on" then some true
      else none
  | .null | .array _ | .object _ => none

/-- The value at a key, unless it is missing or an explicit null. -/
def findValue (j : Json) (key : String) : Option Json :=
  match j.find? key with
  | some v => if v.isNull then none else some v
  | none => none

/-- A text field: empty when missing, null or not convertible. -/
def jStr (j : Json) (key : String) : String :=
  match findValue j key with
  | some v => (coerceString P v).getD ""
  | none => ""

/-- An `int` field: zero when missing, null or not convertible. -/
def jInt (j : Json) (key : String) : Int32 :=
  match findValue j key with
  | some v => match coerceInt P v with
      | some n => n.toInt32
      | none => 0
  | none => 0

/-- A Boolean field: false when missing, null or not convertible. -/
def jBool (j : Json) (key : String) : Bool :=
  match findValue j key with
  | some v => (coerceBool v).getD false
  | none => false

/-- A 64-bit integer field: zero when missing, null or not convertible. -/
def jInt64 (j : Json) (key : String) : Int64 :=
  match findValue j key with
  | some v => (coerceInt P v).getD 0
  | none => 0

/-- The optional `audio_id` field, which `parse_recognition` and the songs of
`parse_enterprise_chunk` read in the same way. -/
def jAudioId (j : Json) (key : String) : Option Int32 :=
  match findValue j key with
  | some v => (coerceId P v).map (·.toInt32)
  | none => none

end

@[simp] theorem findValue_object (members : OrderedMap String Json) (key : String) :
    findValue (.object members) key = (members.find? key).filter (!·.isNull) := by
  simp only [findValue, Json.find?_object]
  cases members.find? key with
  | none => rfl
  | some v => cases v <;> rfl

theorem findValue_insert_self (members : OrderedMap String Json) (key : String) (v : Json) :
    findValue (.object (members.insert key v)) key = if v.isNull then none else some v := by
  rw [findValue, Json.find?_object, OrderedMap.find?_insert_self]

end Audd
