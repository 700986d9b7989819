import Audd.Lib.OrderedMap
import Audd.Lib.Binary64
import Mathlib.Data.String.Basic

/-!
# JSON values

The value types that a JSON text can produce in the vendored library. Integers
are stored signed when the literal is negative and unsigned otherwise, each in
64 bits; every other number is a double.

## Implementation notes

A `std::string` is a `String`, one character for each byte. An object is a map
with strictly increasing keys, as `std::map` keeps it, so it has no duplicate
key. The binary and discarded value types of the library are left out: a parsed
text never contains them.
-/

namespace Audd

/-- A parsed JSON value. -/
inductive Json
  | null
  | boolean (b : Bool)
  | numberInteger (i : Int64)
  | numberUnsigned (u : UInt64)
  | numberFloat (d : Binary64)
  | string (s : String)
  | array (elems : List Json)
  | object (members : OrderedMap String Json)

instance : Inhabited Json := ⟨.null⟩

namespace Json

def isNull : Json → Bool
  | null => true
  | _ => false

def isObject : Json → Bool
  | object _ => true
  | _ => false

/-- The member of an object stored under a key. Other values have no members. -/
def find? : Json → String → Option Json
  | object members, key => members.find? key
  | _, _ => none

/-- Whether an object has a key, a null value included. -/
def contains (j : Json) (key : String) : Bool := (j.find? key).isSome

@[simp] theorem find?_object (members : OrderedMap String Json) (key : String) :
    (object members).find? key = members.find? key := rfl

@[simp] theorem isNull_eq_true_iff (j : Json) : j.isNull = true ↔ j = null := by
  cases j <;> simp [isNull]

end Json

end Audd
