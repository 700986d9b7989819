import Audd.ChunkOffset
import Audd.Decode

/-!
# Enterprise results

The matches of a success, one for each song of each chunk in their order, and the
file positions they are given: from the offset of their own chunk and no other.
-/

namespace Audd

/-- The elements of the `songs` array of a chunk. -/
def chunkSongs (chunk : Json) : List Json :=
  match chunk.find? "songs" with
  | some (.array songs) => songs
  | _ => []

/-- A JSON integer that is a natural number below `2 ^ 63`. -/
def IsNatural (j : Json) (n : ℕ) : Prop :=
  n < 2 ^ 63 ∧ (j = .numberUnsigned (UInt64.ofNat n) ∨ j = .numberInteger (Int64.ofNat n))

/-- `std::stod` reports a range error only for an overflow or an underflow: not for
zero and not for a magnitude well inside the normal numbers. -/
def Platform.RangeErrorsAreReal (P : Platform) : Prop :=
  P.stodRangeError 0 = false ∧
    ∀ q, 1 / 2 ^ 1022 ≤ q → q < 2 ^ 1023 → P.stodRangeError q = false

section
variable (P : Platform)

/-- A match is the decoded song, anchored at the offset of its chunk when that parses. -/
structure IsMatchOf (pair : Json × Json) (m : EnterpriseMatch) : Prop where
  decoded : { m with startSeconds := none, endSeconds := none } = parseEnterpriseSong P pair.2
  anchored : ∀ base, offsetToSeconds P (jStr P pair.1 "offset") = some base →
    ∃ q : ℚ, base = .finite q ∧
      m.startSeconds = some (.finite (q + m.startOffset.toInt / 1000)) ∧
      m.endSeconds = some (.finite (q + m.endOffset.toInt / 1000))
  ordered : ∀ start finish, m.startSeconds = some start → m.endSeconds = some finish →
    (start.le finish = true ↔ m.startOffset ≤ m.endOffset)
  unanchored : offsetToSeconds P (jStr P pair.1 "offset") = none →
    m.startSeconds = none ∧ m.endSeconds = none

/-- What a call returns for the members of a success. -/
structure EnterpriseContract (members : OrderedMap String Json)
    (result : Except Exn (List EnterpriseMatch)) : Prop where
  flattened : ∀ chunks, members.find? "result" = some (.array chunks) →
    ∃ found, result = .ok found ∧
      List.Forall₂ (IsMatchOf P)
        (chunks.flatMap fun chunk => (chunkSongs chunk).map fun song => (chunk, song)) found
  empty : (∀ chunks, members.find? "result" ≠ some (.array chunks)) → result = .ok []
  integerOffset : ∀ chunks, members.find? "result" = some (.array chunks) →
    ∀ chunk ∈ chunks, ∀ j n, chunk.find? "offset" = some j → IsNatural j n →
      offsetToSeconds P (jStr P chunk "offset") = some (.finite n) ∧
        offsetToSeconds P (toString n) = some (.finite n)

/-- The call gets a success with these members from the server. -/
def ReceivesSuccess (config : ClientConfig) (source : Source) (opts : EnterpriseOptions)
    (env : CallEnv) (members : OrderedMap String Json) : Prop :=
  ∃ fields resp, prepareSource env.fileExists source = .ok fields ∧
    (instrumentedPost P config "recognize_enterprise" (enterpriseBase ++ "/")
      (applyEnterpriseOpts fields opts) env).result = .ok resp ∧
    resp.jsonBody = .object members ∧ Succeeds P members

end

section
variable {P : Platform}

/-! ## Integer offsets -/

theorem stodRangeError_natural (hP : P.RangeErrorsAreReal) {n : ℕ} (hn : n < 2 ^ 63) :
    P.stodRangeError n = false := by
  rcases Nat.eq_zero_or_pos n with rfl | hpos
  · rw [Nat.cast_zero]
    exact hP.1
  · have hone : (1 : ℚ) ≤ n := by exact_mod_cast hpos
    have hlarge : (n : ℚ) < 2 ^ 63 := by exact_mod_cast hn
    apply hP.2
    · calc
        (1 : ℚ) / 2 ^ 1022 ≤ 1 := (div_le_one (by positivity)).mpr (one_le_pow₀ (by norm_num))
        _ ≤ n := hone
    · calc
        (n : ℚ) < 2 ^ 63 := hlarge
        _ ≤ 2 ^ 1023 := pow_le_pow_right₀ (by norm_num) (by omega)

/-- An integer is rendered as its decimal text. -/
theorem coerceString_natural {j : Json} {n : ℕ} (h : IsNatural j n) :
    coerceString P j = some (toString n) ∧ j.isNull = false := by
  obtain ⟨hn, rfl | rfl⟩ := h
  · rw [coerceString, numToString, UInt64.toInt64_ofNat', Int64.toInt_ofNat_of_lt hn]
    exact ⟨rfl, rfl⟩
  · rw [coerceString, numToString, Int64.toInt_ofNat_of_lt hn]
    exact ⟨rfl, rfl⟩

theorem offset_natural (hP : P.RangeErrorsAreReal) {chunk j : Json} {n : ℕ}
    (hoffset : chunk.find? "offset" = some j) (hj : IsNatural j n) :
    offsetToSeconds P (jStr P chunk "offset") = some (.finite n) ∧
      offsetToSeconds P (toString n) = some (.finite n) := by
  have htext : jStr P chunk "offset" = toString n := by
    obtain ⟨hcoerce, hnull⟩ := coerceString_natural (P := P) hj
    have hvalue : findValue chunk "offset" = some j := by
      rw [findValue, hoffset]
      exact if_neg (by rw [hnull]; decide)
    rw [jStr, hvalue]
    exact congrArg (·.getD "") hcoerce
  have hstring :=
    offsetToSeconds_toString (stodRangeError_natural hP hj.1)
      (ExactDouble.natCast_lt_overflow (hj.1.trans (by decide)))
  rw [htext]
  exact ⟨hstring, hstring⟩

/-! ## The matches of a chunk -/

theorem parseEnterpriseChunk_songs (chunk : Json) :
    (parseEnterpriseChunk P chunk).songs = (chunkSongs chunk).map (parseEnterpriseSong P) := by
  simp only [parseEnterpriseChunk, chunkSongs]
  cases chunk.find? "songs" with
  | none => rfl
  | some v => cases v <;> rfl

/-- The body of the loop over the songs of a chunk. -/
def anchorSong (base : Option ExactDouble) (song : EnterpriseMatch) : EnterpriseMatch :=
  match base with
  | none => song
  | some base => { song with
      startSeconds := some (base + .finite (song.startOffset.toInt / 1000))
      endSeconds := some (base + .finite (song.endOffset.toInt / 1000)) }

theorem anchoredSongs_eq (chunk : Json) :
    anchoredSongs P (parseEnterpriseChunk P chunk) = (chunkSongs chunk).map fun song =>
      anchorSong (offsetToSeconds P (jStr P chunk "offset")) (parseEnterpriseSong P song) := by
  unfold anchoredSongs
  rw [parseEnterpriseChunk_songs]
  have hoffset : (parseEnterpriseChunk P chunk).offset = jStr P chunk "offset" := rfl
  rw [hoffset]
  cases offsetToSeconds P (jStr P chunk "offset") with
  | none => rfl
  | some base => exact List.map_map

/-- Milliseconds added to one base keep their order. -/
theorem le_shift_iff (q : ℚ) (a b : Int32) :
    (ExactDouble.finite (q + a.toInt / 1000)).le (.finite (q + b.toInt / 1000)) = true ↔
      a ≤ b := by
  have hthousand : (0 : ℚ) < 1000 := by norm_num
  rw [ExactDouble.le, decide_eq_true_iff, add_le_add_iff_left,
    div_le_div_iff_of_pos_right hthousand, Int.cast_le, Int32.le_iff_toInt_le]

/-- A song anchored at a number of seconds, without an overflow. -/
theorem anchorSong_finite {q : ℚ} {song : EnterpriseMatch}
    (hstart : |q + song.startOffset.toInt / 1000| < ExactDouble.overflow)
    (hend : |q + song.endOffset.toInt / 1000| < ExactDouble.overflow) :
    anchorSong (some (.finite q)) song = { song with
      startSeconds := some (.finite (q + song.startOffset.toInt / 1000))
      endSeconds := some (.finite (q + song.endOffset.toInt / 1000)) } := by
  have hs := ExactDouble.ofRat_of_lt hstart
  have he := ExactDouble.ofRat_of_lt hend
  rw [← hs, ← he]
  rfl

/-- The offset of the chunk writes a number of seconds, and the start or the end of the song
is so far from it that the position overflows. -/
def HasOverflowingPosition (P : Platform) (pair : Json × Json) : Prop :=
  ∃ q, WritesSeconds P (jStr P pair.1 "offset") q ∧
    (ExactDouble.overflow ≤ |q + (jInt P pair.2 "start_offset").toInt / 1000| ∨
      ExactDouble.overflow ≤ |q + (jInt P pair.2 "end_offset").toInt / 1000|)

/-- A song that cannot be placed: the offset of its chunk has an infinity or a NaN, or one of
the sums on the way to a position overflows. -/
def Unplaceable (P : Platform) (pair : Json × Json) : Prop :=
  HasNonFiniteNumber P (jStr P pair.1 "offset") ∨
    HasOverflowingSum P (jStr P pair.1 "offset") ∨ HasOverflowingPosition P pair

/-- A song is anchored as it should be exactly when it can be placed. -/
theorem isMatchOf_anchorSong_iff (pair : Json × Json) :
    IsMatchOf P pair (anchorSong (offsetToSeconds P (jStr P pair.1 "offset"))
      (parseEnterpriseSong P pair.2)) ↔ ¬Unplaceable P pair := by
  rw [Unplaceable, ← or_assoc, nonFinite_iff, HasOverflowingPosition]
  simp only [← offsetToSeconds_eq_finite_iff]
  cases hbase : offsetToSeconds P (jStr P pair.1 "offset") with
  | none =>
      simp only [reduceCtorEq, false_and, exists_false, or_false, not_false_eq_true, iff_true]
      constructor
      · rfl
      · intro base h
        rw [hbase] at h
        cases h
      · intro start finish h
        cases h
      · intro _
        exact ⟨rfl, rfl⟩
  | some base =>
      constructor
      · intro h hplaced
        obtain ⟨q, rfl, hstart, hend⟩ := h.anchored base hbase
        obtain ⟨hlt, -⟩ := ExactDouble.ofRat_eq_finite_iff.mp (Option.some.inj hstart)
        obtain ⟨hlt', -⟩ := ExactDouble.ofRat_eq_finite_iff.mp (Option.some.inj hend)
        rcases hplaced with ⟨v, hv, hnonfinite⟩ | ⟨q', hq', hover | hover⟩
        · cases hv
          cases hnonfinite
        · cases hq'
          exact absurd hlt (not_lt.mpr hover)
        · cases hq'
          exact absurd hlt' (not_lt.mpr hover)
      · intro hplaced
        obtain ⟨hfinite, hposition⟩ := not_or.mp hplaced
        obtain ⟨q, rfl⟩ : ∃ q, base = .finite q := by
          rw [← ExactDouble.isFinite_eq_true_iff]
          by_contra hno
          exact hfinite ⟨base, rfl, Bool.eq_false_iff.mpr hno⟩
        have hstart : |q + (parseEnterpriseSong P pair.2).startOffset.toInt / 1000| <
            ExactDouble.overflow := not_le.mp fun h => hposition ⟨q, rfl, .inl h⟩
        have hend : |q + (parseEnterpriseSong P pair.2).endOffset.toInt / 1000| <
            ExactDouble.overflow := not_le.mp fun h => hposition ⟨q, rfl, .inr h⟩
        rw [anchorSong_finite hstart hend]
        constructor
        · rfl
        · intro base h
          obtain rfl := Option.some.inj (hbase.symm.trans h)
          exact ⟨q, rfl, rfl, rfl⟩
        · intro start finish hs hf
          obtain rfl := Option.some.inj hs
          obtain rfl := Option.some.inj hf
          exact le_shift_iff q _ _
        · intro h
          rw [hbase] at h
          cases h

/-! ## The call -/

section
variable {config : ClientConfig} {source : Source} {opts : EnterpriseOptions} {env : CallEnv}
variable {members : OrderedMap String Json}

/-- The result of the nested loops over the chunks of a success. -/
theorem recognizeEnterprise_result (h : ReceivesSuccess P config source opts env members) :
    (recognizeEnterprise P config source opts env).result =
      .ok (match members.find? "result" with
        | some (.array chunks) =>
            chunks.flatMap fun chunk => anchoredSongs P (parseEnterpriseChunk P chunk)
        | _ => []) := by
  obtain ⟨fields, resp, hfields, hresp, hbody, hsucceeds⟩ := h
  obtain ⟨kept, hkept, hsame⟩ :=
    decodeOrThrow_of_succeeds hbody hsucceeds config.onDeprecation false
  have hresult := hsame "result" (by decide) (by decide)
  simp only [recognizeEnterprise, hfields, ApiRun.andThen_result, hresp, Except.bind,
    ApiRun.map_result, decodeResponse, hkept, Except.map, resultArrayOrNull, Json.find?_object,
    hresult]
  cases members.find? "result" with
  | none => rfl
  | some v => cases v <;> rfl

/-- The songs of the chunks, each with its chunk. -/
def songsInOrder (chunks : List Json) : List (Json × Json) :=
  chunks.flatMap fun chunk => (chunkSongs chunk).map fun song => (chunk, song)

theorem mem_songsInOrder {chunks : List Json} {pair : Json × Json} :
    pair ∈ songsInOrder chunks ↔ pair.1 ∈ chunks ∧ pair.2 ∈ chunkSongs pair.1 := by
  simp only [songsInOrder, List.mem_flatMap, List.mem_map]
  constructor
  · rintro ⟨chunk, hchunk, song, hsong, rfl⟩
    exact ⟨hchunk, hsong⟩
  · rintro ⟨hchunk, hsong⟩
    exact ⟨pair.1, hchunk, pair.2, hsong, rfl⟩

/-- The nested loops treat each song on its own. -/
theorem flatMap_anchoredSongs (chunks : List Json) :
    (chunks.flatMap fun chunk => anchoredSongs P (parseEnterpriseChunk P chunk)) =
      (songsInOrder chunks).map fun pair =>
        anchorSong (offsetToSeconds P (jStr P pair.1 "offset")) (parseEnterpriseSong P pair.2) := by
  rw [songsInOrder, List.map_flatMap]
  apply List.flatMap_congr
  intro chunk _
  rw [anchoredSongs_eq, List.map_map]
  rfl

end

end

theorem ofTable_rangeErrorsAreReal (texts : List (String × Json)) :
    (Platform.ofTable texts).RangeErrorsAreReal := by
  have hlimit : ∀ q,
      (Platform.ofTable texts).stodRangeError q = decide (ExactDouble.overflow ≤ q) := fun _ => rfl
  constructor
  · rw [hlimit, decide_eq_false_iff_not, not_le]
    exact ExactDouble.overflow_pos
  · intro q _ hq
    rw [hlimit, decide_eq_false_iff_not, not_le]
    exact hq.trans_le ExactDouble.two_pow_le_overflow

/-- The surroundings of a call that is answered with a text. -/
def answeredWith (text : String) : CallEnv where
  attempts _ := {
    apiToken := "test"
    transfer := {
      first := { sent := 0, status := 200, headerLines := [] }
      redirects := []
      code := .ok
      body := text } }

def oneSong : Json :=
  .object (.ofList [("start_offset", .numberUnsigned 4200), ("end_offset", .numberUnsigned 11800)])

/-- A chunk at an offset with a song from 4.2 to 11.8 seconds. -/
def oneSongChunk (offset : Json) : Json :=
  .object (.ofList [("offset", offset), ("songs", .array [oneSong])])

def oneSongBody (offset : Json) : OrderedMap String Json :=
  .ofList [("status", .string "success"), ("result", .array [oneSongChunk offset])]

theorem find?_oneSongBody (offset : Json) :
    (oneSongBody offset).find? "status" = some (.string "success") ∧
      (oneSongBody offset).find? "result" = some (.array [oneSongChunk offset]) :=
  ⟨OrderedMap.find?_insertMany_of_mem _ _ (by simp) (by simp),
    OrderedMap.find?_insertMany_of_mem _ _ (by simp) (by simp)⟩

theorem find?_oneSongChunk (offset : Json) :
    (oneSongChunk offset).find? "offset" = some offset ∧
      (oneSongChunk offset).find? "songs" = some (.array [oneSong]) :=
  ⟨OrderedMap.find?_insertMany_of_mem _ _ (by simp) (by simp),
    OrderedMap.find?_insertMany_of_mem _ _ (by simp) (by simp)⟩

end Audd
