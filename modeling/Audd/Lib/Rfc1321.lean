import Audd.Lib.BlockHash
import Mathlib.Algebra.Order.Ring.Nat

/-!
# MD5 as RFC 1321 defines it

The digest of a whole message: padding, the 64 operations on each block and the
output of the four words. Sections refer to the RFC.
-/

namespace Rfc1321

/-- The four words of the buffer, section 3.3. -/
structure Words where
  a : UInt32
  b : UInt32
  c : UInt32
  d : UInt32
deriving DecidableEq

def initial : Words := ⟨0x67452301, 0xefcdab89, 0x98badcfe, 0x10325476⟩

/-! ## Bytes, section 2 -/

/-- The number whose low-order byte comes first. -/
def ofLittleEndian : List UInt8 → ℕ
  | [] => 0
  | byte :: rest => byte.toNat + 256 * ofLittleEndian rest

/-- The lowest `k` bytes of a number, low-order byte first. -/
def littleEndian (k n : ℕ) : List UInt8 :=
  (List.range k).map fun i => UInt8.ofNat (n / 256 ^ i)

/-- The words of a block. -/
def word (block : List UInt8) (i : ℕ) : UInt32 :=
  UInt32.ofNat (ofLittleEndian ((block.drop (4 * i)).take 4))

/-! ## The 64 operations, section 3.4 -/

def F (x y z : UInt32) : UInt32 := (x &&& y) ||| (~~~x &&& z)
def G (x y z : UInt32) : UInt32 := (x &&& z) ||| (y &&& ~~~z)
def H (x y z : UInt32) : UInt32 := x ^^^ y ^^^ z
def I (x y z : UInt32) : UInt32 := y ^^^ (x ||| ~~~z)

def rotateLeft (x s : UInt32) : UInt32 := (x <<< s) ||| (x >>> (32 - s))

/-- The integer parts of `4294967296 * |sin i|` for `i` from 1 to 64. -/
def sineTable : List UInt32 := [
  0xd76aa478, 0xe8c7b756, 0x242070db, 0xc1bdceee,
  0xf57c0faf, 0x4787c62a, 0xa8304613, 0xfd469501,
  0x698098d8, 0x8b44f7af, 0xffff5bb1, 0x895cd7be,
  0x6b901122, 0xfd987193, 0xa679438e, 0x49b40821,
  0xf61e2562, 0xc040b340, 0x265e5a51, 0xe9b6c7aa,
  0xd62f105d, 0x02441453, 0xd8a1e681, 0xe7d3fbc8,
  0x21e1cde6, 0xc33707d6, 0xf4d50d87, 0x455a14ed,
  0xa9e3e905, 0xfcefa3f8, 0x676f02d9, 0x8d2a4c8a,
  0xfffa3942, 0x8771f681, 0x6d9d6122, 0xfde5380c,
  0xa4beea44, 0x4bdecfa9, 0xf6bb4b60, 0xbebfbc70,
  0x289b7ec6, 0xeaa127fa, 0xd4ef3085, 0x04881d05,
  0xd9d4d039, 0xe6db99e5, 0x1fa27cf8, 0xc4ac5665,
  0xf4292244, 0x432aff97, 0xab9423a7, 0xfc93a039,
  0x655b59c3, 0x8f0ccc92, 0xffeff47d, 0x85845dd1,
  0x6fa87e4f, 0xfe2ce6e0, 0xa3014314, 0x4e0811a1,
  0xf7537e82, 0xbd3af235, 0x2ad7d2bb, 0xeb86d391]

/-- The function, the word and the shift of an operation, by its round. -/
def function (i : ℕ) : UInt32 → UInt32 → UInt32 → UInt32 :=
  if i < 16 then F else if i < 32 then G else if i < 48 then H else I

def wordIndex (i : ℕ) : ℕ :=
  if i < 16 then i
  else if i < 32 then (5 * i + 1) % 16
  else if i < 48 then (3 * i + 5) % 16
  else 7 * i % 16

def shift (i : ℕ) : UInt32 :=
  ([[7, 12, 17, 22], [5, 9, 14, 20], [4, 11, 16, 23], [6, 10, 15, 21]].getD (i / 16) []).getD
    (i % 4) 0

/-- The operation with number `i`. The words change places afterwards, so that the
next operation writes the word before. -/
def operation (x : ℕ → UInt32) (w : Words) (i : ℕ) : Words where
  a := w.d
  b := w.b + rotateLeft
    (w.a + function i w.b w.c w.d + x (wordIndex i) + sineTable.getD i 0) (shift i)
  c := w.b
  d := w.c

def compress (w : Words) (block : List UInt8) : Words :=
  let v := (List.range 64).foldl (operation (word block)) w
  ⟨w.a + v.a, w.b + v.b, w.c + v.c, w.d + v.d⟩

/-! ## The message, sections 3.1 and 3.2, and the digest, section 3.5 -/

/-- The zero bytes that bring a length with one more byte to 56 modulo 64. -/
def zeroCount (length : ℕ) : ℕ := (119 - length % 64) % 64

/-- The bytes after a message of a length. -/
def padding (length : ℕ) : List UInt8 :=
  0x80 :: List.replicate (zeroCount length) 0 ++ littleEndian 8 (8 * length % 2 ^ 64)

theorem zeroCount_spec (length : ℕ) : (length + 1 + zeroCount length) % 64 = 56 := by
  simp only [zeroCount]
  omega

def output (w : Words) : List UInt8 :=
  littleEndian 4 w.a.toNat ++ littleEndian 4 w.b.toNat ++ littleEndian 4 w.c.toNat ++
    littleEndian 4 w.d.toNat

def digest (message : List UInt8) : List UInt8 :=
  output (BlockHash.absorb 64 compress initial (message ++ padding message.length))

/-- Two lower-case hexadecimal digits for each byte. -/
def hexDigits (bytes : List UInt8) : String :=
  String.ofList (bytes.flatMap fun b => [Nat.digitChar (b.toNat / 16), Nat.digitChar (b.toNat % 16)])

/-- The digest of the empty message, from the test suite of the RFC. -/
example : hexDigits (digest []) = "d41d8cd98f00b204e9800998ecf8427e" := by decide +kernel

end Rfc1321
