import Mathlib.Data.BitVec
import Mathlib.Algebra.Order.Ring.Int

/-!
# Binary64 words

A word is its 64 bits. A finite word has the value `scaled / 2 ^ 1074` for an
integer `scaled`, so comparisons and truncation need no rational arithmetic.
-/

/-- The bits of one binary64 number. -/
structure Binary64 where
  bits : BitVec 64
deriving DecidableEq

namespace Binary64

/-- The sign bit. -/
def negative (x : Binary64) : Bool := x.bits.msb

/-- The biased exponent, 11 bits. -/
def exponent (x : Binary64) : ℕ := x.bits.toNat / 2 ^ 52 % 2 ^ 11

/-- The trailing 52 bits of the significand. -/
def fraction (x : Binary64) : ℕ := x.bits.toNat % 2 ^ 52

/-- Neither an infinity nor a NaN. -/
def isFinite (x : Binary64) : Bool := x.exponent ≠ 2047

/-- The significand, with its hidden bit when the word is normal. -/
def significand (x : Binary64) : ℕ :=
  if x.exponent = 0 then x.fraction else 2 ^ 52 + x.fraction

/-- The magnitude of a finite word in units of `2 ^ (-1074)`. -/
def magnitude (x : Binary64) : ℕ := x.significand * 2 ^ (x.exponent - 1)

/-- The signed value of a finite word in units of `2 ^ (-1074)`. -/
def scaled (x : Binary64) : ℤ := if x.negative then -x.magnitude else x.magnitude

/-- The value of a finite word rounded toward zero. -/
def trunc (x : Binary64) : ℤ := x.scaled.tdiv (2 ^ 1074)

/-- A finite word whose value is an integer. -/
def isIntegral (x : Binary64) : Bool := x.isFinite && decide (2 ^ 1074 ∣ x.scaled)

/-- Positive or negative zero. -/
def isZero (x : Binary64) : Bool := x.isFinite && x.magnitude == 0

/-- The word nearest below in the usual encodings of `2.9` truncates to two. -/
example : (Binary64.mk 0x4007333333333333#64).trunc = 2 := by decide +kernel

end Binary64
