import Audd.Md5
import Mathlib.Data.List.GetD

/-!
# MD5 refines RFC 1321

The incremental context holds the message absorbed so far, the unrolled rounds
are the 64 operations and the padding that is computed from the bit count is that
of the whole message.
-/

namespace Audd.Md5

open Rfc1321 BlockHash

/-! ## The compression function -/

theorem foldl_round (f : Words → ℕ → Words) (i : ℕ) (w : Words) :
    (List.range' i 16).foldl f w =
      (List.range' (i + 12) 4).foldl f ((List.range' (i + 8) 4).foldl f
        ((List.range' (i + 4) 4).foldl f ((List.range' i 4).foldl f w))) := rfl

theorem round1_eq (x : ℕ → UInt32) (w : Words) :
    (List.range' 0 16).foldl (operation x) w = round1 x w := by
  obtain ⟨a, b, c, d⟩ := w
  simp -zeta only [round1]
  extract_lets a₁ d₁ c₁ b₁ a₂ d₂ c₂ b₂ a₃ d₃ c₃ b₃ a₄ d₄ c₄ b₄
  have h₁ : (List.range' 0 4).foldl (operation x) ⟨a, b, c, d⟩ = ⟨a₁, b₁, c₁, d₁⟩ := rfl
  have h₂ : (List.range' 4 4).foldl (operation x) ⟨a₁, b₁, c₁, d₁⟩ = ⟨a₂, b₂, c₂, d₂⟩ := rfl
  have h₃ : (List.range' 8 4).foldl (operation x) ⟨a₂, b₂, c₂, d₂⟩ = ⟨a₃, b₃, c₃, d₃⟩ := rfl
  have h₄ : (List.range' 12 4).foldl (operation x) ⟨a₃, b₃, c₃, d₃⟩ = ⟨a₄, b₄, c₄, d₄⟩ := rfl
  rw [foldl_round, h₁, h₂, h₃, h₄]

theorem round2_eq (x : ℕ → UInt32) (w : Words) :
    (List.range' 16 16).foldl (operation x) w = round2 x w := by
  obtain ⟨a, b, c, d⟩ := w
  simp -zeta only [round2]
  extract_lets a₁ d₁ c₁ b₁ a₂ d₂ c₂ b₂ a₃ d₃ c₃ b₃ a₄ d₄ c₄ b₄
  have h₁ : (List.range' 16 4).foldl (operation x) ⟨a, b, c, d⟩ = ⟨a₁, b₁, c₁, d₁⟩ := rfl
  have h₂ : (List.range' 20 4).foldl (operation x) ⟨a₁, b₁, c₁, d₁⟩ = ⟨a₂, b₂, c₂, d₂⟩ := rfl
  have h₃ : (List.range' 24 4).foldl (operation x) ⟨a₂, b₂, c₂, d₂⟩ = ⟨a₃, b₃, c₃, d₃⟩ := rfl
  have h₄ : (List.range' 28 4).foldl (operation x) ⟨a₃, b₃, c₃, d₃⟩ = ⟨a₄, b₄, c₄, d₄⟩ := rfl
  rw [foldl_round, h₁, h₂, h₃, h₄]

theorem round3_eq (x : ℕ → UInt32) (w : Words) :
    (List.range' 32 16).foldl (operation x) w = round3 x w := by
  obtain ⟨a, b, c, d⟩ := w
  simp -zeta only [round3]
  extract_lets a₁ d₁ c₁ b₁ a₂ d₂ c₂ b₂ a₃ d₃ c₃ b₃ a₄ d₄ c₄ b₄
  have h₁ : (List.range' 32 4).foldl (operation x) ⟨a, b, c, d⟩ = ⟨a₁, b₁, c₁, d₁⟩ := rfl
  have h₂ : (List.range' 36 4).foldl (operation x) ⟨a₁, b₁, c₁, d₁⟩ = ⟨a₂, b₂, c₂, d₂⟩ := rfl
  have h₃ : (List.range' 40 4).foldl (operation x) ⟨a₂, b₂, c₂, d₂⟩ = ⟨a₃, b₃, c₃, d₃⟩ := rfl
  have h₄ : (List.range' 44 4).foldl (operation x) ⟨a₃, b₃, c₃, d₃⟩ = ⟨a₄, b₄, c₄, d₄⟩ := rfl
  rw [foldl_round, h₁, h₂, h₃, h₄]

theorem round4_eq (x : ℕ → UInt32) (w : Words) :
    (List.range' 48 16).foldl (operation x) w = round4 x w := by
  obtain ⟨a, b, c, d⟩ := w
  simp -zeta only [round4]
  extract_lets a₁ d₁ c₁ b₁ a₂ d₂ c₂ b₂ a₃ d₃ c₃ b₃ a₄ d₄ c₄ b₄
  have h₁ : (List.range' 48 4).foldl (operation x) ⟨a, b, c, d⟩ = ⟨a₁, b₁, c₁, d₁⟩ := rfl
  have h₂ : (List.range' 52 4).foldl (operation x) ⟨a₁, b₁, c₁, d₁⟩ = ⟨a₂, b₂, c₂, d₂⟩ := rfl
  have h₃ : (List.range' 56 4).foldl (operation x) ⟨a₂, b₂, c₂, d₂⟩ = ⟨a₃, b₃, c₃, d₃⟩ := rfl
  have h₄ : (List.range' 60 4).foldl (operation x) ⟨a₃, b₃, c₃, d₃⟩ = ⟨a₄, b₄, c₄, d₄⟩ := rfl
  rw [foldl_round, h₁, h₂, h₃, h₄]

/-- The four rounds are the 64 operations. -/
theorem rounds_eq (x : ℕ → UInt32) (w : Words) :
    (List.range 64).foldl (operation x) w = round4 x (round3 x (round2 x (round1 x w))) := by
  have hsplit : List.range 64 =
      List.range' 0 16 ++ List.range' 16 16 ++ List.range' 32 16 ++ List.range' 48 16 := by decide
  rw [hsplit, List.foldl_append, List.foldl_append, List.foldl_append, round1_eq, round2_eq,
    round3_eq, round4_eq]

/-- Bytes at different places of a word do not overlap. -/
theorem or_shiftLeft_eq {low i : ℕ} (high : ℕ) (h : low < 2 ^ i) :
    low ||| high <<< i = low + high * 2 ^ i := by
  rw [Nat.or_comm, ← Nat.shiftLeft_add_eq_or_of_lt h, Nat.shiftLeft_eq, Nat.add_comm]

theorem ofLittleEndian_drop_take (bytes : List UInt8) (i k : ℕ) :
    ofLittleEndian ((bytes.drop i).take (k + 1)) =
      (bytes.getD i 0).toNat + 256 * ofLittleEndian ((bytes.drop (i + 1)).take k) := by
  by_cases hi : i < bytes.length
  · rw [List.drop_eq_getElem_cons hi, List.take_succ_cons, ofLittleEndian,
      List.getD_eq_getElem _ _ hi]
  · rw [List.drop_eq_nil_of_le (by omega), List.drop_eq_nil_of_le (by omega),
      List.getD_eq_default _ _ (by omega)]
    simp [ofLittleEndian]

/-- The shifted bytes of the source are the word they spell. -/
theorem fourBytes_eq (b₀ b₁ b₂ b₃ : UInt8) :
    b₀.toUInt32 ||| (b₁.toUInt32 <<< 8) ||| (b₂.toUInt32 <<< 16) ||| (b₃.toUInt32 <<< 24) =
      UInt32.ofNat (b₀.toNat + 256 * (b₁.toNat + 256 * (b₂.toNat + 256 * b₃.toNat))) := by
  have h₀ := b₀.toNat_lt
  have h₁ := b₁.toNat_lt
  have h₂ := b₂.toNat_lt
  have h₃ := b₃.toNat_lt
  have hor : b₀.toNat ||| b₁.toNat <<< 8 ||| b₂.toNat <<< 16 ||| b₃.toNat <<< 24 =
      b₀.toNat + b₁.toNat * 2 ^ 8 + b₂.toNat * 2 ^ 16 + b₃.toNat * 2 ^ 24 := by
    rw [or_shiftLeft_eq b₁.toNat h₀, or_shiftLeft_eq b₂.toNat (by omega),
      or_shiftLeft_eq b₃.toNat (by omega)]
  have hfits : ∀ {n i : ℕ}, n < 2 ^ 8 → i ≤ 24 → n <<< i % 4294967296 = n <<< i := by
    intro n i hn hi
    rw [Nat.shiftLeft_eq]
    apply Nat.mod_eq_of_lt
    calc n * 2 ^ i < 2 ^ 8 * 2 ^ i := Nat.mul_lt_mul_of_pos_right hn (Nat.two_pow_pos i)
      _ ≤ 2 ^ 8 * 2 ^ 24 := Nat.mul_le_mul_left _ (Nat.pow_le_pow_right (by decide) hi)
  apply UInt32.toNat_inj.mp
  simp only [UInt32.toNat_or, UInt32.toNat_shiftLeft, UInt8.toNat_toUInt32, UInt32.toNat_ofNat',
    UInt32.reduceToNat, Nat.reduceMod, Nat.reducePow]
  rw [hfits h₁ (by decide), hfits h₂ (by decide), hfits h₃ (by decide), hor]
  omega

theorem blockWord_eq (block : List UInt8) : blockWord block = word block := by
  funext i
  have hword : ofLittleEndian ((block.drop (4 * i)).take 4) =
      (block.getD (i * 4) 0).toNat + 256 * ((block.getD (i * 4 + 1) 0).toNat +
        256 * ((block.getD (i * 4 + 2) 0).toNat + 256 * (block.getD (i * 4 + 3) 0).toNat)) := by
    rw [Nat.mul_comm 4 i, ofLittleEndian_drop_take, ofLittleEndian_drop_take,
      ofLittleEndian_drop_take, ofLittleEndian_drop_take, List.take_zero]
    rfl
  rw [word, hword, blockWord, fourBytes_eq]

theorem md5Transform_eq : md5Transform = compress := by
  funext state block
  simp only [md5Transform, compress, blockWord_eq, rounds_eq]

/-! ## The incremental context -/

/-- The loop over the blocks absorbs them and leaves the remainder. -/
theorem transformBlocks_eq (state : Words) (data : List UInt8) :
    transformBlocks state data = (absorb 64 compress state data, remainder 64 data) := by
  induction data using block_induction (show 0 < 64 by decide) generalizing state with
  | short data h =>
      rw [transformBlocks, if_neg (by omega), absorb_of_lt h, remainder_of_lt h]
  | block b rest hb ih =>
      rw [transformBlocks, if_pos (by rw [List.length_append]; omega),
        absorb_append_block (by decide) hb, remainder_append (by decide) hb, List.take_left' hb,
        List.drop_left' hb, ih, md5Transform_eq]

/-- The bytes up to the end of a write. -/
theorem Buffer.take_write (buffer : Buffer) (i : ℕ) (src : List UInt8) (h : i + src.length ≤ 64) :
    (buffer.write i src h).val.take (i + src.length) = buffer.val.take i ++ src := by
  have hlen : (buffer.val.take i ++ src).length = i + src.length := by
    rw [List.length_append, List.length_take, buffer.property]
    omega
  exact List.take_left' hlen

/-- A write up to the end of the buffer. -/
theorem Buffer.write_full (buffer : Buffer) (i : ℕ) (src : List UInt8)
    (h : i + src.length = 64) : (buffer.write i src h.le).val = buffer.val.take i ++ src := by
  have hdrop : buffer.val.drop (i + src.length) = [] :=
    List.drop_eq_nil_of_le (by rw [buffer.property, h])
  simp only [Buffer.write, hdrop, List.append_nil]

/-- The context holds a message: its whole blocks are absorbed, the rest is in the
buffer and its length in bits is counted. -/
structure Md5Ctx.Holds (ctx : Md5Ctx) (message : List UInt8) : Prop where
  state : ctx.state = absorb 64 compress initial message
  bitcount : ctx.bitcount = UInt64.ofNat (8 * message.length)
  buffer : ctx.buffer.val.take (message.length % 64) = remainder 64 message

theorem md5Init_holds (buffer : Buffer) : (md5Init buffer).Holds [] :=
  ⟨rfl, rfl, rfl⟩

theorem Md5Ctx.Holds.index_eq {ctx : Md5Ctx} {message : List UInt8} (h : ctx.Holds message) :
    ctx.index = message.length % 64 := by
  rw [ctx.index_eq, h.bitcount, UInt64.toNat_ofNat']
  omega

theorem shiftLeft_three_eq (n : ℕ) : UInt64.ofNat n <<< 3 = UInt64.ofNat (8 * n) := by
  apply UInt64.toNat_inj.mp
  simp only [UInt64.toNat_shiftLeft, UInt64.toNat_ofNat', UInt64.reduceToNat, Nat.reduceMod,
    Nat.shiftLeft_eq]
  omega

/-- The bits of the message and of the data after it. -/
theorem Md5Ctx.Holds.bitcount_append {ctx : Md5Ctx} {message : List UInt8} (h : ctx.Holds message)
    (data : List UInt8) : ctx.bitcount + (UInt64.ofNat data.length <<< 3) =
      UInt64.ofNat (8 * (message ++ data).length) := by
  rw [h.bitcount, shiftLeft_three_eq, ← UInt64.ofNat_add, List.length_append, Nat.mul_add]

/-- Data that does not fill the buffer is kept behind the remainder. -/
theorem Md5Ctx.Holds.update_short {ctx : Md5Ctx} {message : List UInt8} (h : ctx.Holds message)
    {data : List UInt8} (hdata : data.length < 64 - ctx.index) :
    (md5Update ctx data).Holds (message ++ data) := by
  have hindex := h.index_eq
  have hshort : (remainder 64 message ++ data).length < 64 := by
    rw [List.length_append, length_remainder]
    omega
  simp only [md5Update, dif_neg (Nat.not_le.mpr hdata)]
  constructor
  · rw [absorb_append (by decide), absorb_of_lt hshort, h.state]
  · exact h.bitcount_append data
  · have hlen : (message ++ data).length % 64 = ctx.index + data.length := by
      rw [List.length_append, hindex]
      omega
    rw [hlen, Buffer.take_write, hindex, h.buffer, remainder_append_remainder (by decide),
      remainder_of_lt hshort]

/-- Data that fills the buffer is absorbed in whole blocks. -/
theorem Md5Ctx.Holds.update_long {ctx : Md5Ctx} {message : List UInt8} (h : ctx.Holds message)
    {data : List UInt8} (hdata : 64 - ctx.index ≤ data.length) :
    (md5Update ctx data).Holds (message ++ data) := by
  have hlt := ctx.index_lt
  have hfull : ctx.index + (data.take (64 - ctx.index)).length = 64 := by
    rw [List.length_take]
    omega
  have hfilled : (ctx.buffer.write ctx.index (data.take (64 - ctx.index)) hfull.le).val =
      remainder 64 message ++ data.take (64 - ctx.index) := by
    rw [Buffer.write_full _ _ _ hfull, ← h.buffer, h.index_eq]
  have hblock : (remainder 64 message ++ data.take (64 - ctx.index)).length = 64 := by
    rw [List.length_append, length_remainder, ← h.index_eq, hfull]
  have hsplit : remainder 64 message ++ data =
      remainder 64 message ++ data.take (64 - ctx.index) ++ data.drop (64 - ctx.index) := by
    rw [List.append_assoc, List.take_append_drop]
  have hrest : remainder 64 (message ++ data) = remainder 64 (data.drop (64 - ctx.index)) := by
    rw [remainder_append_remainder (by decide), hsplit, remainder_append (by decide) hblock]
  have hloop := transformBlocks_eq (md5Transform ctx.state
    (ctx.buffer.write ctx.index (data.take (64 - ctx.index)) hfull.le).val)
    (data.drop (64 - ctx.index))
  simp only [md5Update, dif_pos hdata]
  constructor
  · refine (congrArg Prod.fst hloop).trans ?_
    simp only
    rw [hfilled, md5Transform_eq, h.state, absorb_append (by decide) initial message data, hsplit,
      absorb_append_block (by decide) hblock]
  · exact h.bitcount_append data
  · have hlen : (message ++ data).length % 64 = 0 + (transformBlocks (md5Transform ctx.state
        (ctx.buffer.write ctx.index (data.take (64 - ctx.index)) hfull.le).val)
        (data.drop (64 - ctx.index))).2.length := by
      rw [hloop, Nat.zero_add, ← hrest, length_remainder]
    rw [hlen, Buffer.take_write, List.take_zero, List.nil_append, hloop, hrest]

theorem Md5Ctx.Holds.update {ctx : Md5Ctx} {message : List UInt8} (h : ctx.Holds message)
    (data : List UInt8) : (md5Update ctx data).Holds (message ++ data) := by
  by_cases hdata : 64 - ctx.index ≤ data.length
  · exact h.update_long hdata
  · exact h.update_short (Nat.not_le.mp hdata)

/-! ## The digest -/

theorem and_255_eq (n : ℕ) : n &&& 255 = n % 256 := Nat.and_two_pow_sub_one_eq_mod n 8

/-- The bytes of the bit count. -/
theorem lengthBytes_eq (n : ℕ) :
    ((List.range 8).map fun i => ((UInt64.ofNat n >>> UInt64.ofNat (i * 8)) &&& 0xFF).toUInt8) =
      littleEndian 8 (n % 2 ^ 64) := by
  apply List.map_congr_left
  intro i hi
  have hlt : i < 8 := List.mem_range.mp hi
  have hshift : i * 8 % 2 ^ 64 % 64 = 8 * i := by omega
  have h255 : UInt64.toNat 0xFF = 255 := rfl
  apply UInt8.toNat_inj.mp
  rw [UInt64.toNat_toUInt8, UInt64.toNat_and, UInt64.toNat_shiftRight, UInt64.toNat_ofNat',
    UInt64.toNat_ofNat', hshift, Nat.shiftRight_eq_div_pow, Nat.pow_mul, UInt8.toNat_ofNat', h255,
    and_255_eq, Nat.mod_mod]

/-- One byte of a word. -/
theorem wordByte_eq (w : UInt32) {i : ℕ} (hi : i < 4) :
    ((w >>> UInt32.ofNat (8 * i)) &&& 0xFF).toUInt8 = UInt8.ofNat (w.toNat / 256 ^ i) := by
  have hshift : 8 * i % 2 ^ 32 % 32 = 8 * i := by omega
  have h255 : UInt32.toNat 0xFF = 255 := rfl
  apply UInt8.toNat_inj.mp
  rw [UInt32.toNat_toUInt8, UInt32.toNat_and, UInt32.toNat_shiftRight, UInt32.toNat_ofNat', hshift,
    Nat.shiftRight_eq_div_pow, Nat.pow_mul, UInt8.toNat_ofNat', h255, and_255_eq, Nat.mod_mod]

/-- The bytes of a word of the digest. -/
theorem wordBytes_eq (w : UInt32) :
    [(w &&& 0xFF).toUInt8, ((w >>> 8) &&& 0xFF).toUInt8, ((w >>> 16) &&& 0xFF).toUInt8,
      ((w >>> 24) &&& 0xFF).toUInt8] = littleEndian 4 w.toNat := by
  have hlow : w >>> UInt32.ofNat (8 * 0) = w := UInt32.shiftRight_zero
  have h₀ := wordByte_eq w (show 0 < 4 by decide)
  have h₁ := wordByte_eq w (show 1 < 4 by decide)
  have h₂ := wordByte_eq w (show 2 < 4 by decide)
  have h₃ := wordByte_eq w (show 3 < 4 by decide)
  rw [hlow] at h₀
  calc
    _ = [UInt8.ofNat (w.toNat / 256 ^ 0), UInt8.ofNat (w.toNat / 256 ^ 1),
          UInt8.ofNat (w.toNat / 256 ^ 2), UInt8.ofNat (w.toNat / 256 ^ 3)] := by
      rw [← h₀, ← h₁, ← h₂, ← h₃]
      rfl
    _ = littleEndian 4 w.toNat := rfl

theorem padding_take {k : ℕ} (hk : k < 64) :
    padding.take (k + 1) = 0x80 :: List.replicate k 0 := by
  rw [padding, List.take_succ_cons, List.take_replicate, Nat.min_eq_left (by omega)]

/-- The two updates of `md5_final` pad the message. -/
theorem md5Final_eq {ctx : Md5Ctx} {message : List UInt8} (h : ctx.Holds message) :
    md5Final ctx = digest message := by
  have hpad : (if ctx.index < 56 then 56 - ctx.index else 120 - ctx.index) =
      zeroCount message.length + 1 := by
    rw [h.index_eq, zeroCount]
    split <;> omega
  have hzero : zeroCount message.length < 64 := Nat.mod_lt _ (by decide)
  have hpadded := (h.update (padding.take (zeroCount message.length + 1))).update
    (littleEndian 8 (8 * message.length % 2 ^ 64))
  have hmessage : message ++ padding.take (zeroCount message.length + 1) ++
      littleEndian 8 (8 * message.length % 2 ^ 64) =
        message ++ Rfc1321.padding message.length := by
    rw [padding_take hzero, List.append_assoc, Rfc1321.padding]
  simp only [md5Final, hpad, h.bitcount, lengthBytes_eq, wordBytes_eq, hpadded.state, hmessage]
  simp only [digest, output, List.flatMap_cons, List.flatMap_nil, List.append_nil,
    List.append_assoc]

/-! ## The hexadecimal digits -/

theorem hex_eq : ∀ n < 16, hex.getD n '0' = Nat.digitChar n := by decide

theorem highNibble_eq (b : UInt8) : ((b >>> 4) &&& 0xF).toNat = b.toNat / 16 := by
  have hlt := b.toNat_lt
  have h15 := Nat.and_two_pow_sub_one_eq_mod (b.toNat / 16) 4
  calc
    ((b >>> 4) &&& 0xF).toNat = b.toNat / 16 &&& 15 := by
      rw [UInt8.toNat_and, UInt8.toNat_shiftRight, Nat.shiftRight_eq_div_pow]
      rfl
    _ = b.toNat / 16 % 16 := h15
    _ = b.toNat / 16 := Nat.mod_eq_of_lt (by omega)

theorem lowNibble_eq (b : UInt8) : (b &&& 0xF).toNat = b.toNat % 16 := by
  rw [UInt8.toNat_and]
  exact Nat.and_two_pow_sub_one_eq_mod b.toNat 4

/-- The digest of a fresh context does not depend on its memory. -/
theorem md5Hex_digest (memory : Buffer) (s : String) :
    md5Hex memory s = hexDigits (digest (bytesOf s)) := by
  have hdigest : md5Final (md5Update (md5Init memory) (bytesOf s)) = digest (bytesOf s) :=
    md5Final_eq ((md5Init_holds memory).update (bytesOf s))
  simp only [md5Hex, hexDigits, hdigest]
  apply congrArg String.ofList
  apply List.flatMap_congr
  intro b _
  have hlt := b.toNat_lt
  rw [highNibble_eq, lowNibble_eq, hex_eq _ (by omega), hex_eq _ (by omega)]

end Audd.Md5

namespace Audd

open Md5 Rfc1321

/-- `md5_hex` is the MD5 digest of RFC 1321 for every string, and the longpoll category
the first nine digits of the digest of the token's digest and the radio id. -/
theorem md5Hex_eq_rfc1321 :
    (∀ (memory : Buffer) (s : String), md5Hex memory s = hexDigits (digest (bytesOf s))) ∧
      ∀ (memory memory' : Buffer) (apiToken : String) (radioId : ℤ),
        deriveLongpollCategory memory memory' apiToken radioId =
          String.ofList ((hexDigits (digest (bytesOf
            (hexDigits (digest (bytesOf apiToken)) ++ toString radioId)))).toList.take 9) := by
  constructor
  · exact md5Hex_digest
  · intro memory memory' apiToken radioId
    simp only [deriveLongpollCategory, md5Hex_digest]

end Audd
