import Audd.Md5Refinement

/-!
# Feeding MD5 in pieces

`md5_update` with the indices of its source: each copy and each block is read at an
index of the data, and an access outside the buffer or the data has no result. After any
calls a context holds the bytes that it was fed, however they were cut.

## Implementation notes

A `std::size_t` has 64 bits, and the sum in the condition of the block loop is one.
-/

namespace Audd.Md5

open Rfc1321 BlockHash

/-- The bytes behind a pointer, with a length that is a `std::size_t`. -/
abbrev Data := { bytes : List UInt8 // bytes.length < 2 ^ 64 }

/-- A `memcpy` of `n` bytes from an index of the data to an index of the buffer. -/
def Buffer.copy (buffer : Buffer) (i : ℕ) (data : Data) (j n : ℕ) : Option Buffer :=
  if h : i + n ≤ 64 ∧ j + n ≤ data.val.length then
    some (buffer.write i ((data.val.drop j).take n) (by
      rw [List.length_take]
      omega))
  else none

/-- The block loop from an index on, with the index where it stops. -/
def blockLoop (state : Words) (data : Data) (i : ℕ) : Option (Words × ℕ) :=
  if (i + 63) % 2 ^ 64 < data.val.length then
    if i + 64 ≤ data.val.length then
      blockLoop (md5Transform state ((data.val.drop i).take 64)) data ((i + 64) % 2 ^ 64)
    else none
  else some (state, i)
termination_by data.val.length - i
decreasing_by
  have _ := data.property
  omega

/-- `md5_update`; there is no result when an index is out of range. -/
def md5UpdateChecked (ctx : Md5Ctx) (data : Data) : Option Md5Ctx :=
  let len := data.val.length
  let index := ctx.index
  let bitcount := ctx.bitcount + (UInt64.ofNat len <<< 3)
  let partLen := 64 - index
  if partLen ≤ len then
    (ctx.buffer.copy index data 0 partLen).bind fun buffer =>
      (blockLoop (md5Transform ctx.state buffer.val) data partLen).bind fun (state, i) =>
        (buffer.copy 0 data i (len - i)).map fun buffer => { state, bitcount, buffer }
  else (ctx.buffer.copy index data 0 len).map fun buffer => { ctx with bitcount, buffer }

/-- The calls for a list of chunks, one after the other. -/
def feed (ctx : Md5Ctx) (chunks : List Data) : Option Md5Ctx := chunks.foldlM md5UpdateChecked ctx

/-- The bytes of the buffer that are in use. -/
def Md5Ctx.meaningful (ctx : Md5Ctx) : List UInt8 := ctx.buffer.val.take ctx.index

/-! ## One call -/

/-- The loop leaves the blocks to the list version, or its sum has wrapped. -/
theorem blockLoop_cases (state : Words) (data : Data) {i : ℕ} (hi : i ≤ data.val.length) :
    (∃ j ≤ data.val.length, blockLoop state data i =
        some ((transformBlocks state (data.val.drop i)).1, j) ∧
        data.val.drop j = (transformBlocks state (data.val.drop i)).2) ∨
      (blockLoop state data i = none ∧ 2 ^ 64 ≤ data.val.length + 63) := by
  have hlen := data.property
  fun_induction blockLoop state data i with
  | case1 state i hcond hin ih =>
      have hmod : (i + 64) % 2 ^ 64 = i + 64 := Nat.mod_eq_of_lt (by omega)
      have hblocks : transformBlocks state (data.val.drop i) =
          transformBlocks (md5Transform state ((data.val.drop i).take 64))
            (data.val.drop (i + 64)) := by
        conv_lhs => rw [transformBlocks]
        rw [if_pos (by rw [List.length_drop]; omega), List.drop_drop]
      rw [hmod] at ih
      rw [hmod, hblocks]
      exact ih hin
  | case2 state i hcond hout => exact .inr ⟨rfl, by omega⟩
  | case3 state i hcond =>
      have hstop : transformBlocks state (data.val.drop i) = (state, data.val.drop i) := by
        rw [transformBlocks, if_neg]
        rw [List.length_drop]
        omega
      rw [hstop]
      exact .inl ⟨i, hi, rfl, rfl⟩

/-- A copy in range is the write of the bytes that it reads. -/
theorem Buffer.copy_eq_write (buffer : Buffer) {i j n : ℕ} {data : Data} {src : List UInt8}
    (hsrc : (data.val.drop j).take n = src) (hdata : j + n ≤ data.val.length)
    (hbuffer : i + src.length ≤ 64) :
    buffer.copy i data j n = some (buffer.write i src hbuffer) := by
  subst hsrc
  have hn : ((data.val.drop j).take n).length = n := by
    rw [List.length_take, List.length_drop]
    omega
  rw [hn] at hbuffer
  rw [Buffer.copy, dif_pos ⟨hbuffer, hdata⟩]

/-- A call with data that fills the buffer. -/
theorem md5UpdateChecked_long (ctx : Md5Ctx) {data : Data}
    (hfill : 64 - ctx.index ≤ data.val.length) :
    md5UpdateChecked ctx data = some (md5Update ctx data.val) ∨
      (md5UpdateChecked ctx data = none ∧ 2 ^ 64 ≤ data.val.length + 63) := by
  have hindex := ctx.index_lt
  have hfits : ctx.index + (data.val.take (64 - ctx.index)).length ≤ 64 := by
    rw [List.length_take]
    omega
  have hfirst : ctx.buffer.copy ctx.index data 0 (64 - ctx.index) =
      some (ctx.buffer.write ctx.index (data.val.take (64 - ctx.index)) hfits) :=
    ctx.buffer.copy_eq_write (by rw [List.drop_zero]) (by omega) hfits
  simp only [md5UpdateChecked, if_pos hfill, hfirst, Option.bind_some]
  rcases blockLoop_cases (md5Transform ctx.state
    (ctx.buffer.write ctx.index (data.val.take (64 - ctx.index)) hfits).val) data hfill with
    ⟨j, hj, hloop, hrest⟩ | ⟨hloop, hwrap⟩
  · left
    have hshort := length_transformBlocks (md5Transform ctx.state
      (ctx.buffer.write ctx.index (data.val.take (64 - ctx.index)) hfits).val)
      (data.val.drop (64 - ctx.index))
    have htail : (data.val.drop j).take (data.val.length - j) = _ :=
      (List.take_of_length_le (by rw [List.length_drop])).trans hrest
    rw [hloop, Option.bind_some, Buffer.copy_eq_write _ htail (by omega) (by omega),
      Option.map_some, md5Update, dif_pos hfill]
  · exact .inr ⟨by rw [hloop, Option.bind_none], hwrap⟩

/-- A call with data that does not fill the buffer. -/
theorem md5UpdateChecked_short (ctx : Md5Ctx) {data : Data}
    (hshort : ¬64 - ctx.index ≤ data.val.length) :
    md5UpdateChecked ctx data = some (md5Update ctx data.val) := by
  have hindex := ctx.index_lt
  have hcopy : (data.val.drop 0).take data.val.length = data.val := List.take_length
  rw [md5UpdateChecked, if_neg hshort, ctx.buffer.copy_eq_write hcopy (by omega) (by omega),
    Option.map_some, md5Update, dif_neg hshort]

/-- A call is the one on lists, or the sum in its loop has wrapped. -/
theorem md5UpdateChecked_cases (ctx : Md5Ctx) (data : Data) :
    md5UpdateChecked ctx data = some (md5Update ctx data.val) ∨
      (md5UpdateChecked ctx data = none ∧ 2 ^ 64 ≤ data.val.length + 63) := by
  by_cases hfill : 64 - ctx.index ≤ data.val.length
  · exact md5UpdateChecked_long ctx hfill
  · exact .inl (md5UpdateChecked_short ctx hfill)

/-! ## A list of calls -/

/-- The context after a call holds the data behind the message. -/
theorem Md5Ctx.Holds.updateChecked {ctx ctx' : Md5Ctx} {message : List UInt8} {data : Data}
    (h : ctx.Holds message) (hcall : md5UpdateChecked ctx data = some ctx') :
    ctx'.Holds (message ++ data.val) := by
  rcases md5UpdateChecked_cases ctx data with heq | ⟨hnone, -⟩
  · obtain rfl := Option.some.inj (heq.symm.trans hcall)
    exact h.update data.val
  · rw [hnone] at hcall
    cases hcall

theorem feed_cons (ctx : Md5Ctx) (data : Data) (chunks : List Data) :
    feed ctx (data :: chunks) =
      (md5UpdateChecked ctx data).bind fun ctx' => feed ctx' chunks := rfl

/-- The context after any calls holds all their data. -/
theorem Md5Ctx.Holds.feed {ctx ctx' : Md5Ctx} {message : List UInt8} {chunks : List Data}
    (h : ctx.Holds message) (hfeed : feed ctx chunks = some ctx') :
    ctx'.Holds (message ++ chunks.flatMap Subtype.val) := by
  induction chunks generalizing ctx message with
  | nil =>
      obtain rfl := Option.some.inj hfeed
      rw [List.flatMap_nil, List.append_nil]
      exact h
  | cons data rest ih =>
      rw [feed_cons] at hfeed
      obtain ⟨next, hnext, hrest⟩ := Option.bind_eq_some_iff.mp hfeed
      rw [List.flatMap_cons, ← List.append_assoc]
      exact ih (h.updateChecked hnext) hrest

/-- Calls stay in range when the sum in their loop cannot wrap. -/
theorem exists_feed (ctx : Md5Ctx) {chunks : List Data}
    (hchunks : ∀ data ∈ chunks, data.val.length + 63 < 2 ^ 64) :
    ∃ ctx', feed ctx chunks = some ctx' := by
  induction chunks generalizing ctx with
  | nil => exact ⟨ctx, rfl⟩
  | cons data rest ih =>
      have hdata := hchunks data List.mem_cons_self
      rw [feed_cons]
      rcases md5UpdateChecked_cases ctx data with hcall | ⟨-, hwrap⟩
      · rw [hcall, Option.bind_some]
        exact ih _ fun data hmem => hchunks data (List.mem_cons_of_mem _ hmem)
      · omega

/-- A context is determined by the message that it holds, up to the unused bytes. -/
theorem Md5Ctx.Holds.unique {ctx ctx' : Md5Ctx} {message : List UInt8} (h : ctx.Holds message)
    (h' : ctx'.Holds message) :
    ctx.state = ctx'.state ∧ ctx.bitcount = ctx'.bitcount ∧ ctx.meaningful = ctx'.meaningful := by
  refine ⟨h.state.trans h'.state.symm, h.bitcount.trans h'.bitcount.symm, ?_⟩
  rw [meaningful, meaningful, h.index_eq, h'.index_eq, h.buffer, h'.buffer]

/-- The digest after any calls is that of all their data. -/
theorem md5Final_feed {memory : Buffer} {chunks : List Data} {ctx : Md5Ctx}
    (hfeed : feed (md5Init memory) chunks = some ctx) :
    md5Final ctx = digest (chunks.flatMap Subtype.val) :=
  md5Final_eq ((md5Init_holds memory).feed hfeed)

end Audd.Md5

namespace Audd

open Md5

/-- From every context that calls reach, feeding a byte string in chunks and feeding it at
once stay in range and end with the same state, bit count and used bytes of the buffer. -/
theorem md5Update_chunks {memory : Buffer} {past chunks : List Data} {whole : Data} {ctx : Md5Ctx}
    (hpast : feed (md5Init memory) past = some ctx)
    (hwhole : whole.val = chunks.flatMap Subtype.val) (hlen : whole.val.length < 2 ^ 61) :
    ∃ pieces atOnce, feed ctx chunks = some pieces ∧ md5UpdateChecked ctx whole = some atOnce ∧
      pieces.state = atOnce.state ∧ pieces.bitcount = atOnce.bitcount ∧
      pieces.meaningful = atOnce.meaningful := by
  have hctx := (md5Init_holds memory).feed hpast
  have hchunks : ∀ data ∈ chunks, data.val.length + 63 < 2 ^ 64 := by
    intro data hmem
    have hpart : data.val.length ≤ (chunks.flatMap Subtype.val).length :=
      (List.sublist_flatten_of_mem (List.mem_map_of_mem hmem)).length_le
    rw [← hwhole] at hpart
    omega
  obtain ⟨pieces, hpieces⟩ := exists_feed ctx hchunks
  have hholds := hctx.feed hpieces
  rcases md5UpdateChecked_cases ctx whole with hcall | ⟨-, hwrap⟩
  · rw [← hwhole] at hholds
    exact ⟨pieces, _, hpieces, hcall, hholds.unique (hctx.updateChecked hcall)⟩
  · omega

/-- Three chunks, one of them empty, that fill the buffer and one more block after 60 bytes. -/
theorem md5Update_chunks_boundary :
    let memory : Buffer := ⟨List.replicate 64 0xFF, rfl⟩
    let past : List Data := [⟨List.replicate 60 0x61, by decide⟩]
    let chunks : List Data :=
      [⟨[0x62, 0x63, 0x64, 0x65], by decide⟩, ⟨[], by decide⟩, ⟨List.replicate 70 0x66, by decide⟩]
    let whole : Data := ⟨[0x62, 0x63, 0x64, 0x65] ++ List.replicate 70 0x66, by decide⟩
    ∃ ctx pieces atOnce, feed (md5Init memory) past = some ctx ∧ feed ctx chunks = some pieces ∧
      md5UpdateChecked ctx whole = some atOnce ∧ pieces.state = atOnce.state ∧
      pieces.bitcount = atOnce.bitcount ∧ pieces.meaningful = atOnce.meaningful := by
  intro memory past chunks whole
  obtain ⟨ctx, hpast⟩ := exists_feed (md5Init memory) (show
    ∀ data ∈ past, data.val.length + 63 < 2 ^ 64 by decide)
  exact ⟨ctx, (md5Update_chunks hpast (by rfl : whole.val = chunks.flatMap Subtype.val)
    (by decide)).imp fun pieces => .imp fun atOnce h => ⟨hpast, h⟩⟩

end Audd
