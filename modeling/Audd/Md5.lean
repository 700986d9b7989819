import Audd.Lib.Rfc1321

/-!
# MD5

`md5.cpp` and the longpoll category that is derived with it: an incremental
context with a 64-byte buffer, four unrolled rounds and a hexadecimal digest.

## Implementation notes

The buffer of a fresh context is uninitialised memory, so it is an argument. A
`memcpy` into the buffer takes the proof that it stays inside.
-/

namespace Audd.Md5

open Rfc1321 (Words)

def S11 : UInt32 := 7
def S12 : UInt32 := 12
def S13 : UInt32 := 17
def S14 : UInt32 := 22
def S21 : UInt32 := 5
def S22 : UInt32 := 9
def S23 : UInt32 := 14
def S24 : UInt32 := 20
def S31 : UInt32 := 4
def S32 : UInt32 := 11
def S33 : UInt32 := 16
def S34 : UInt32 := 23
def S41 : UInt32 := 6
def S42 : UInt32 := 10
def S43 : UInt32 := 15
def S44 : UInt32 := 21

def F (x y z : UInt32) : UInt32 := (x &&& y) ||| (~~~x &&& z)
def G (x y z : UInt32) : UInt32 := (x &&& z) ||| (y &&& ~~~z)
def H (x y z : UInt32) : UInt32 := x ^^^ y ^^^ z
def I (x y z : UInt32) : UInt32 := y ^^^ (x ||| ~~~z)
def rotl (x n : UInt32) : UInt32 := (x <<< n) ||| (x >>> (32 - n))

/-! The new value of the first argument. -/

def FF (a b c d x s ac : UInt32) : UInt32 := b + rotl (a + F b c d + x + ac) s
def GG (a b c d x s ac : UInt32) : UInt32 := b + rotl (a + G b c d + x + ac) s
def HH (a b c d x s ac : UInt32) : UInt32 := b + rotl (a + H b c d + x + ac) s
def II (a b c d x s ac : UInt32) : UInt32 := b + rotl (a + I b c d + x + ac) s

/-! The rounds of `md5_transform`, one operation a line. -/

def round1 (x : ℕ → UInt32) : Words → Words
  | ⟨a, b, c, d⟩ =>
      let a := FF a b c d (x 0) S11 0xd76aa478
      let d := FF d a b c (x 1) S12 0xe8c7b756
      let c := FF c d a b (x 2) S13 0x242070db
      let b := FF b c d a (x 3) S14 0xc1bdceee
      let a := FF a b c d (x 4) S11 0xf57c0faf
      let d := FF d a b c (x 5) S12 0x4787c62a
      let c := FF c d a b (x 6) S13 0xa8304613
      let b := FF b c d a (x 7) S14 0xfd469501
      let a := FF a b c d (x 8) S11 0x698098d8
      let d := FF d a b c (x 9) S12 0x8b44f7af
      let c := FF c d a b (x 10) S13 0xffff5bb1
      let b := FF b c d a (x 11) S14 0x895cd7be
      let a := FF a b c d (x 12) S11 0x6b901122
      let d := FF d a b c (x 13) S12 0xfd987193
      let c := FF c d a b (x 14) S13 0xa679438e
      let b := FF b c d a (x 15) S14 0x49b40821
      ⟨a, b, c, d⟩

def round2 (x : ℕ → UInt32) : Words → Words
  | ⟨a, b, c, d⟩ =>
      let a := GG a b c d (x 1) S21 0xf61e2562
      let d := GG d a b c (x 6) S22 0xc040b340
      let c := GG c d a b (x 11) S23 0x265e5a51
      let b := GG b c d a (x 0) S24 0xe9b6c7aa
      let a := GG a b c d (x 5) S21 0xd62f105d
      let d := GG d a b c (x 10) S22 0x02441453
      let c := GG c d a b (x 15) S23 0xd8a1e681
      let b := GG b c d a (x 4) S24 0xe7d3fbc8
      let a := GG a b c d (x 9) S21 0x21e1cde6
      let d := GG d a b c (x 14) S22 0xc33707d6
      let c := GG c d a b (x 3) S23 0xf4d50d87
      let b := GG b c d a (x 8) S24 0x455a14ed
      let a := GG a b c d (x 13) S21 0xa9e3e905
      let d := GG d a b c (x 2) S22 0xfcefa3f8
      let c := GG c d a b (x 7) S23 0x676f02d9
      let b := GG b c d a (x 12) S24 0x8d2a4c8a
      ⟨a, b, c, d⟩

def round3 (x : ℕ → UInt32) : Words → Words
  | ⟨a, b, c, d⟩ =>
      let a := HH a b c d (x 5) S31 0xfffa3942
      let d := HH d a b c (x 8) S32 0x8771f681
      let c := HH c d a b (x 11) S33 0x6d9d6122
      let b := HH b c d a (x 14) S34 0xfde5380c
      let a := HH a b c d (x 1) S31 0xa4beea44
      let d := HH d a b c (x 4) S32 0x4bdecfa9
      let c := HH c d a b (x 7) S33 0xf6bb4b60
      let b := HH b c d a (x 10) S34 0xbebfbc70
      let a := HH a b c d (x 13) S31 0x289b7ec6
      let d := HH d a b c (x 0) S32 0xeaa127fa
      let c := HH c d a b (x 3) S33 0xd4ef3085
      let b := HH b c d a (x 6) S34 0x04881d05
      let a := HH a b c d (x 9) S31 0xd9d4d039
      let d := HH d a b c (x 12) S32 0xe6db99e5
      let c := HH c d a b (x 15) S33 0x1fa27cf8
      let b := HH b c d a (x 2) S34 0xc4ac5665
      ⟨a, b, c, d⟩

def round4 (x : ℕ → UInt32) : Words → Words
  | ⟨a, b, c, d⟩ =>
      let a := II a b c d (x 0) S41 0xf4292244
      let d := II d a b c (x 7) S42 0x432aff97
      let c := II c d a b (x 14) S43 0xab9423a7
      let b := II b c d a (x 5) S44 0xfc93a039
      let a := II a b c d (x 12) S41 0x655b59c3
      let d := II d a b c (x 3) S42 0x8f0ccc92
      let c := II c d a b (x 10) S43 0xffeff47d
      let b := II b c d a (x 1) S44 0x85845dd1
      let a := II a b c d (x 8) S41 0x6fa87e4f
      let d := II d a b c (x 15) S42 0xfe2ce6e0
      let c := II c d a b (x 6) S43 0xa3014314
      let b := II b c d a (x 13) S44 0x4e0811a1
      let a := II a b c d (x 4) S41 0xf7537e82
      let d := II d a b c (x 11) S42 0xbd3af235
      let c := II c d a b (x 2) S43 0x2ad7d2bb
      let b := II b c d a (x 9) S44 0xeb86d391
      ⟨a, b, c, d⟩

/-- The words of a block, low-order byte first. -/
def blockWord (block : List UInt8) (i : ℕ) : UInt32 :=
  (block.getD (i * 4) 0).toUInt32 ||| ((block.getD (i * 4 + 1) 0).toUInt32 <<< 8) |||
    ((block.getD (i * 4 + 2) 0).toUInt32 <<< 16) ||| ((block.getD (i * 4 + 3) 0).toUInt32 <<< 24)

def md5Transform (state : Words) (block : List UInt8) : Words :=
  let x := blockWord block
  let v := round4 x (round3 x (round2 x (round1 x state)))
  ⟨state.a + v.a, state.b + v.b, state.c + v.c, state.d + v.d⟩

/-- The 64 bytes of a buffer. -/
abbrev Buffer := { bytes : List UInt8 // bytes.length = 64 }

/-- A `memcpy` to a position of the buffer. -/
def Buffer.write (buffer : Buffer) (i : ℕ) (src : List UInt8) (h : i + src.length ≤ 64) :
    Buffer :=
  ⟨buffer.val.take i ++ src ++ buffer.val.drop (i + src.length), by
    simp only [List.length_append, List.length_take, List.length_drop, buffer.property]
    omega⟩

structure Md5Ctx where
  state : Words
  bitcount : UInt64
  buffer : Buffer

def md5Init (buffer : Buffer) : Md5Ctx where
  state := ⟨0x67452301, 0xefcdab89, 0x98badcfe, 0x10325476⟩
  bitcount := 0
  buffer

/-- How many bytes of the buffer are in use. -/
def Md5Ctx.index (ctx : Md5Ctx) : ℕ := ((ctx.bitcount >>> 3) &&& 0x3F).toNat

/-- The loop over the whole blocks of the data, with the state and the data it leaves. -/
def transformBlocks (state : Words) (data : List UInt8) : Words × List UInt8 :=
  if 63 < data.length then transformBlocks (md5Transform state (data.take 64)) (data.drop 64)
  else (state, data)
termination_by data.length
decreasing_by
  rw [List.length_drop]
  omega

theorem length_transformBlocks (state : Words) (data : List UInt8) :
    (transformBlocks state data).2.length < 64 := by
  fun_induction transformBlocks state data with
  | case1 state data h ih => exact ih
  | case2 state data h =>
      simp only
      omega

theorem Md5Ctx.index_eq (ctx : Md5Ctx) : ctx.index = ctx.bitcount.toNat / 8 % 64 := by
  have hmask := Nat.and_two_pow_sub_one_eq_mod (ctx.bitcount.toNat >>> 3) 6
  rw [Nat.shiftRight_eq_div_pow] at hmask
  simpa [Md5Ctx.index, Nat.shiftRight_eq_div_pow] using hmask

theorem Md5Ctx.index_lt (ctx : Md5Ctx) : ctx.index < 64 := by
  rw [ctx.index_eq]
  exact Nat.mod_lt _ (by decide)

def md5Update (ctx : Md5Ctx) (data : List UInt8) : Md5Ctx :=
  let bitcount := ctx.bitcount + (UInt64.ofNat data.length <<< 3)
  let partLen := 64 - ctx.index
  have hindex := ctx.index_lt
  if h : partLen ≤ data.length then
    let filled := ctx.buffer.write ctx.index (data.take partLen) (by
      rw [List.length_take]
      omega)
    let rest := transformBlocks (md5Transform ctx.state filled.val) (data.drop partLen)
    { state := rest.1
      bitcount
      buffer := filled.write 0 rest.2 (by
        rw [Nat.zero_add]
        exact (length_transformBlocks _ _).le) }
  else
    { ctx with bitcount, buffer := ctx.buffer.write ctx.index data (by omega) }

/-- The static array of `md5_final`. -/
def padding : List UInt8 := 0x80 :: List.replicate 63 0

def md5Final (ctx : Md5Ctx) : List UInt8 :=
  let bits := (List.range 8).map fun i =>
    ((ctx.bitcount >>> UInt64.ofNat (i * 8)) &&& 0xFF).toUInt8
  let padLen := if ctx.index < 56 then 56 - ctx.index else 120 - ctx.index
  let ctx := md5Update ctx (padding.take padLen)
  let ctx := md5Update ctx bits
  [ctx.state.a, ctx.state.b, ctx.state.c, ctx.state.d].flatMap fun word : UInt32 =>
    [(word &&& 0xFF).toUInt8, ((word >>> 8) &&& 0xFF).toUInt8, ((word >>> 16) &&& 0xFF).toUInt8,
      ((word >>> 24) &&& 0xFF).toUInt8]

/-- The bytes of a string, one for each character. -/
def bytesOf (s : String) : List UInt8 := s.toList.map fun c => UInt8.ofNat c.toNat

def hex : List Char := "0123456789abcdef".toList

def md5Hex (memory : Buffer) (s : String) : String :=
  let ctx := md5Update (md5Init memory) (bytesOf s)
  let digest := md5Final ctx
  String.ofList (digest.flatMap fun byte : UInt8 =>
    [hex.getD ((byte >>> 4) &&& 0xF).toNat '0', hex.getD (byte &&& 0xF).toNat '0'])

end Audd.Md5

namespace Audd

open Md5

def deriveLongpollCategory (memory memory' : Buffer) (apiToken : String) (radioId : ℤ) : String :=
  let inner := md5Hex memory apiToken
  let outer := md5Hex memory' (inner ++ toString radioId)
  String.ofList (outer.toList.take 9)

end Audd
