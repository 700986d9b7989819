import Audd.Callback
import Audd.Lib.FixedWidth
import Mathlib.Data.List.TakeWhile

/-!
# Integer fields

Which integer every integer-typed field of a decoded record has. A field is
described by how it converts its member, so one theorem for each conversion
covers all decoders.
-/

namespace Audd

open Decimal FixedWidth

/-! ## The integer that a member denotes -/

/-- An unsigned decimal numeral. -/
def numeral? (digits : List Char) : Option ℕ :=
  if digits ≠ [] ∧ digits.all isDigit then some (digitsValue digits) else none

/-- A whole text that is a decimal integer with an optional sign. -/
def decimalInteger? (s : String) : Option ℤ :=
  match (trimAscii s).toList with
  | '-' :: digits => (numeral? digits).map fun n : ℕ => -(n : ℤ)
  | '+' :: digits => (numeral? digits).map fun n : ℕ => (n : ℤ)
  | digits => (numeral? digits).map fun n : ℕ => (n : ℤ)

/-- The integer a JSON value denotes: a number truncated toward zero or a numeral. -/
def Json.denotes? : Json → Option ℤ
  | .numberInteger i => some i.toInt
  | .numberUnsigned u => some u.toNat
  | .numberFloat d => if d.isFinite then some d.trunc else none
  | .string s => decimalInteger? s
  | .null | .boolean _ | .array _ | .object _ => none

/-! ## The fields -/

/-- How a member becomes an integer field. -/
inductive IntKind
  | int
  | int64
  | audioId
  | outerTime
deriving DecidableEq

/-- The field's type has `width + 1` bits. -/
def IntKind.width : IntKind → ℕ
  | .int64 => 63
  | .int | .audioId | .outerTime => 31

/-- The value of a field without a number: zero, or none for an identifier. -/
def IntKind.default : IntKind → Option ℤ
  | .audioId => none
  | .int | .int64 | .outerTime => some 0

/-- What a field should hold for an integer. -/
def IntKind.expected (kind : IntKind) (n : ℤ) : Option ℤ :=
  if Fits kind.width n then some n else kind.default

section
variable (P : Platform)

/-- What a field does hold for a member. -/
def IntKind.read (kind : IntKind) (v : Json) : Option ℤ :=
  match kind with
  | .int => some (((coerceInt P v).map Int64.toInt32).getD 0).toInt
  | .int64 => some ((coerceInt P v).getD 0).toInt
  | .audioId => ((coerceId P v).map Int64.toInt32).map Int32.toInt
  | .outerTime => some ((P.getInt v).getD 0).toInt

/-- An integer field of a decoder. `read` is `none` where the decoder throws. -/
structure IntField where
  kind : IntKind
  key : String
  read : OrderedMap String Json → Option (Option ℤ)

/-- A field of a decoder that never throws. -/
def IntField.int {R : Type} (parse : Json → R) (key : String) (get : R → Int32) : IntField :=
  ⟨.int, key, fun m => some (some (get (parse (.object m))).toInt)⟩

/-- The outer `time` of a body that decodes to a notification. -/
def readOuterTime (fullBody : String) (m : OrderedMap String Json) : Option (Option ℤ) :=
  match parseCallbackObject P m fullBody with
  | .ok (.notificationEvent n) => some (some n.time.toInt)
  | _ => none

/-- The integer-typed fields of all decoders. -/
def intFields (outerTime : Int32) (fullBody : String) : List IntField :=
  let notification j := parseStreamCallbackNotification P j outerTime fullBody
  let readMatch (m : OrderedMap String Json) :=
    (parseStreamCallbackMatch P (.object m) fullBody).toOption
  [.int (parseAppleMusic P) "durationInMillis" (·.durationInMillis),
    .int (parseAppleMusic P) "trackNumber" (·.trackNumber),
    .int (parseAppleMusic P) "discNumber" (·.discNumber),
    .int (parseSpotify P) "duration_ms" (·.durationMs),
    .int (parseSpotify P) "popularity" (·.popularity),
    .int (parseSpotify P) "track_number" (·.trackNumber),
    .int (parseDeezer P) "id" (·.id),
    .int (parseDeezer P) "duration" (·.duration),
    .int (parseMusicbrainz P) "length" (·.length),
    ⟨.audioId, "audio_id", fun m =>
      some ((parseRecognition P (.object m)).audioId.map (·.toInt))⟩,
    .int (parseEnterpriseSong P) "score" (·.score),
    ⟨.audioId, "audio_id", fun m =>
      some ((parseEnterpriseSong P (.object m)).audioId.map (·.toInt))⟩,
    .int (parseEnterpriseSong P) "start_offset" (·.startOffset),
    .int (parseEnterpriseSong P) "end_offset" (·.endOffset),
    .int (parseLyrics P) "song_id" (·.songId),
    .int (parseLyrics P) "artist_id" (·.artistId),
    .int (parseStream P) "radio_id" (·.radioId),
    .int (parseStreamCallbackSong P) "score" (·.score),
    ⟨.int64, "radio_id", fun m => (readMatch m).map fun r => some r.radioId.toInt⟩,
    ⟨.int, "play_length", fun m => (readMatch m).map fun r => some r.playLength.toInt⟩,
    .int notification "radio_id" (·.radioId),
    .int notification "notification_code" (·.notificationCode),
    ⟨.outerTime, "time", readOuterTime P fullBody⟩]

/-- When the conversion of a member that denotes `n` gives what it should. The
two out-of-range conversions of a double are the platform's. -/
def IntKind.Unaltered (kind : IntKind) (v : Json) (n : ℤ) : Prop :=
  match kind, v with
  | .int, .numberFloat d => Fits 31 n ∨ (Fits 63 n ∧ 2 ^ 32 ∣ n) ∨
      (¬Fits 63 n ∧ (P.undefinedInt64 d).toInt32 = 0)
  | .int, .string _ => Fits 31 n ∨ 2 ^ 32 ∣ n ∨ ¬Fits 63 n
  | .int, _ => Fits 31 n ∨ 2 ^ 32 ∣ n
  | .int64, .numberFloat d => Fits 63 n ∨ P.undefinedInt64 d = 0
  | .int64, .string _ => True
  | .int64, _ => Fits 63 n
  | .audioId, .string _ => Fits 31 n ∨ ¬Fits 63 n
  | .audioId, _ => Fits 31 n
  | .outerTime, .numberFloat d => Fits 31 n ∨ P.undefinedInt32 d = 0
  | .outerTime, .string _ => n = 0 ∨ ¬Fits 31 n
  | .outerTime, _ => Fits 31 n ∨ 2 ^ 32 ∣ n

end

variable {P : Platform}

/-! ## The conversions -/

theorem takeWhile_dropWhile_numeral {digits : List Char} {n : ℕ} (h : numeral? digits = some n) :
    digits ≠ [] ∧ digits.takeWhile isDigit = digits ∧ digits.dropWhile isDigit = [] ∧
      digitsValue digits = n := by
  obtain ⟨⟨hne, hall⟩, hvalue⟩ : (digits ≠ [] ∧ digits.all isDigit) ∧ digitsValue digits = n := by
    simpa [numeral?] using h
  have hdigit := List.all_eq_true.mp hall
  exact ⟨hne, List.takeWhile_eq_self_iff.mpr hdigit, List.dropWhile_eq_nil_iff.mpr hdigit, hvalue⟩

/-- The first character of a numeral is no sign. -/
theorem head?_of_numeral {digits : List Char} {n : ℕ} (h : numeral? digits = some n) :
    digits.head? ≠ some '-' ∧ digits.head? ≠ some '+' := by
  obtain ⟨hne, htake, -, -⟩ := takeWhile_dropWhile_numeral h
  cases digits with
  | nil => exact absurd rfl hne
  | cons c rest =>
      have hc : isDigit c = true := by
        by_contra hc
        simp [hc] at htake
      constructor
      · rintro ⟨rfl⟩
        exact absurd hc (by decide)
      · rintro ⟨rfl⟩
        exact absurd hc (by decide)

theorem fromChars_numeral {digits : List Char} {n : ℕ} (h : numeral? digits = some n) :
    fromChars digits = if Fits 63 n then some (Int64.ofInt n, []) else none := by
  obtain ⟨hne, htake, hdrop, hvalue⟩ := takeWhile_dropWhile_numeral h
  simp [fromChars, (head?_of_numeral h).1, htake, hdrop, hne, hvalue, Fits]

theorem fromChars_neg_numeral {digits : List Char} {n : ℕ} (h : numeral? digits = some n) :
    fromChars ('-' :: digits) = if Fits 63 (-n) then some (Int64.ofInt (-n), []) else none := by
  obtain ⟨hne, htake, hdrop, hvalue⟩ := takeWhile_dropWhile_numeral h
  simp [fromChars, htake, hdrop, hne, hvalue, Fits]

/-- The whole text is one number, once its plus sign is removed. -/
theorem parseFullInt_of_fromChars {s : String} {t : List Char} {n : ℤ}
    (ht : (if (trimAscii s).toList.head? = some '+' then (trimAscii s).toList.tail
      else (trimAscii s).toList) = t) (hne : t ≠ [])
    (hread : fromChars t = if Fits 63 n then some (Int64.ofInt n, []) else none) :
    parseFullInt s = if Fits 63 n then some (Int64.ofInt n) else none := by
  simp only [parseFullInt, ht, hne, if_false]
  by_cases hn : Fits 63 n
  · rw [hread, if_pos hn, if_pos hn]
  · rw [hread, if_neg hn, if_neg hn]

/-- A numeral is read as it is when it fits 64 bits and not at all otherwise. -/
theorem parseFullInt_of_decimalInteger {s : String} {n : ℤ} (h : decimalInteger? s = some n) :
    parseFullInt s = if Fits 63 n then some (Int64.ofInt n) else none := by
  unfold decimalInteger? at h
  split at h
  · rename_i digits ht
    obtain ⟨k, hk, rfl⟩ := Option.map_eq_some_iff.mp h
    apply parseFullInt_of_fromChars (t := '-' :: digits) _ (by simp) (fromChars_neg_numeral hk)
    rw [ht]
    rfl
  · rename_i digits ht
    obtain ⟨k, hk, rfl⟩ := Option.map_eq_some_iff.mp h
    obtain ⟨hne, -⟩ := takeWhile_dropWhile_numeral hk
    apply parseFullInt_of_fromChars _ hne (fromChars_numeral hk)
    rw [ht]
    rfl
  · obtain ⟨k, hk, rfl⟩ := Option.map_eq_some_iff.mp h
    obtain ⟨hne, -⟩ := takeWhile_dropWhile_numeral hk
    exact parseFullInt_of_fromChars (if_neg (head?_of_numeral hk).2) hne (fromChars_numeral hk)

/-! ## Each conversion -/

/-- The 64 bits that the coercions make of a member that denotes `n`. -/
def coerced (P : Platform) (n : ℤ) : Json → Option Int64
  | .numberFloat d => some (if Fits 63 n then Int64.ofInt n else P.undefinedInt64 d)
  | .string _ => if Fits 63 n then some (Int64.ofInt n) else none
  | _ => some (Int64.ofInt n)

theorem coerceInt_of_denotes (P : Platform) {v : Json} {n : ℤ} (h : v.denotes? = some n) :
    coerceInt P v = coerced P n v := by
  cases v with
  | numberInteger i =>
      obtain rfl := Option.some.inj h
      simp [coerceInt, coerced]
  | numberUnsigned u =>
      obtain rfl := Option.some.inj h
      simp only [coerceInt, coerced, toInt64_eq_ofInt]
  | numberFloat d =>
      obtain ⟨hfin, rfl⟩ : d.isFinite = true ∧ d.trunc = n := by simpa [Json.denotes?] using h
      simp only [coerceInt, coerced, Platform.toInt64, hfin, true_and]
      rfl
  | string s =>
      simp only [coerceInt, coerced]
      exact parseFullInt_of_decimalInteger h
  | null | boolean | array | object => simp [Json.denotes?] at h

/-- A member that denotes a number is read as an identifier in the same way. -/
theorem coerceId_of_denotes (P : Platform) {v : Json} {n : ℤ} (h : v.denotes? = some n) :
    coerceId P v = coerceInt P v := by
  cases v with
  | boolean b => simp [Json.denotes?] at h
  | _ => rfl

/-- The 32 bits of a member that denotes `n`, read without a coercion of texts. -/
def narrowed (P : Platform) (n : ℤ) : Json → Option Int32
  | .numberFloat d => some (if Fits 31 n then Int32.ofInt n else P.undefinedInt32 d)
  | .string _ => none
  | _ => some (Int32.ofInt n)

theorem getInt_of_denotes (P : Platform) {v : Json} {n : ℤ} (h : v.denotes? = some n) :
    P.getInt v = narrowed P n v := by
  cases v with
  | numberInteger i =>
      obtain rfl := Option.some.inj h
      simp [Platform.getInt, narrowed]
  | numberUnsigned u =>
      obtain rfl := Option.some.inj h
      simp [Platform.getInt, narrowed, toInt64_eq_ofInt]
  | numberFloat d =>
      obtain ⟨hfin, rfl⟩ : d.isFinite = true ∧ d.trunc = n := by simpa [Json.denotes?] using h
      simp only [Platform.getInt, narrowed, Platform.toInt32, hfin, true_and]
      rfl
  | string s => rfl
  | null | boolean | array | object => simp [Json.denotes?] at h

/-- An integer narrowed to 32 bits is the integer or a default of zero. -/
theorem narrowed_eq_ite_iff (n : ℤ) :
    (Int32.ofInt n).toInt = (if Fits 31 n then n else 0) ↔ Fits 31 n ∨ 2 ^ 32 ∣ n := by
  have hself := bmod_eq_self_iff 31 n
  have hzero := bmod_eq_zero_iff 31 n
  rw [Int32.toInt_ofInt]
  by_cases hn : Fits 31 n
  · rw [if_pos hn]
    exact ⟨fun _ => .inl hn, fun _ => hself.mpr hn⟩
  · rw [if_neg hn]
    exact ⟨fun h => .inr (hzero.mp h), fun h => hzero.mpr (h.resolve_left hn)⟩

theorem narrowed_eq_self_iff (n : ℤ) : (Int32.ofInt n).toInt = n ↔ Fits 31 n := by
  rw [Int32.toInt_ofInt]
  exact bmod_eq_self_iff 31 n

theorem ofInt64_eq_self {n : ℤ} (hn : Fits 63 n) : (Int64.ofInt n).toInt = n := by
  rw [Int64.toInt_ofInt]
  exact (bmod_eq_self_iff 63 n).mpr hn

/-- No identifier is zero-filled, so it is right only where it fits. -/
theorem some_narrowed_eq_iff (n : ℤ) :
    some (Int32.ofInt n).toInt = IntKind.audioId.expected n ↔ Fits 31 n := by
  by_cases hn : Fits 31 n
  · simp [IntKind.expected, IntKind.width, hn, (narrowed_eq_self_iff n).mpr hn]
  · simp [IntKind.expected, IntKind.width, IntKind.default, hn]

/-- The integers that a word of the parser holds. -/
theorem range_of_denotes {v : Json} {n : ℤ} (h : v.denotes? = some n) :
    match v with
    | .numberInteger _ => Fits 63 n
    | .numberUnsigned _ => 0 ≤ n ∧ n < 2 ^ 64
    | _ => True := by
  cases v with
  | numberInteger i =>
      obtain rfl := Option.some.inj h
      exact ⟨i.le_toInt, i.toInt_lt⟩
  | numberUnsigned u =>
      obtain rfl := Option.some.inj h
      have := u.toNat_lt
      dsimp only
      omega
  | _ => trivial

theorem expected_of_default_zero {kind : IntKind} {n : ℤ} (h : kind.default = some 0) :
    kind.expected n = some (if Fits kind.width n then n else 0) := by
  rw [IntKind.expected, h]
  exact (apply_ite some _ _ _).symm

/-- A field of type `int` through the coercions. -/
theorem readInt_eq_expected_iff (P : Platform) {v : Json} {n : ℤ} (h : v.denotes? = some n) :
    IntKind.int.read P v = IntKind.int.expected n ↔ IntKind.int.Unaltered P v n := by
  rw [expected_of_default_zero rfl]
  simp only [IntKind.read, IntKind.width, coerceInt_of_denotes P h, Option.some.injEq]
  cases v with
  | numberInteger _ | numberUnsigned _ =>
      simp only [coerced, Option.map_some, Option.getD_some, Int64.toInt32_ofInt, IntKind.Unaltered]
      exact narrowed_eq_ite_iff n
  | numberFloat d =>
      by_cases hn : Fits 63 n
      · simp only [coerced, hn, if_true, Option.map_some, Option.getD_some, Int64.toInt32_ofInt,
          IntKind.Unaltered, true_and, not_true_eq_false, false_and, or_false]
        exact narrowed_eq_ite_iff n
      · have hn' : ¬Fits 31 n := fun h => hn (h.mono (by omega))
        simp only [coerced, hn, hn', if_false, Option.map_some, Option.getD_some, IntKind.Unaltered,
          false_and, not_false_eq_true, true_and, false_or]
        exact Int32.toInt_inj (y := 0)
  | string s =>
      by_cases hn : Fits 63 n
      · simp only [coerced, hn, if_true, Option.map_some, Option.getD_some, Int64.toInt32_ofInt,
          IntKind.Unaltered, not_true_eq_false, or_false]
        exact narrowed_eq_ite_iff n
      · have hn' : ¬Fits 31 n := fun h => hn (h.mono (by omega))
        simp [coerced, hn, hn', IntKind.Unaltered]
  | null | boolean | array | object => simp [Json.denotes?] at h

/-- A field of 64 bits through the coercions. -/
theorem readInt64_eq_expected_iff (P : Platform) {v : Json} {n : ℤ} (h : v.denotes? = some n) :
    IntKind.int64.read P v = IntKind.int64.expected n ↔ IntKind.int64.Unaltered P v n := by
  have hrange := range_of_denotes h
  rw [expected_of_default_zero rfl]
  simp only [IntKind.read, IntKind.width, coerceInt_of_denotes P h, Option.some.injEq]
  cases v with
  | numberInteger i =>
      simp only [coerced, Option.getD_some, IntKind.Unaltered]
      simp only at hrange
      simp [hrange, ofInt64_eq_self hrange]
  | numberUnsigned u =>
      simp only [coerced, Option.getD_some, IntKind.Unaltered]
      simp only at hrange
      by_cases hn : Fits 63 n
      · simp [hn, ofInt64_eq_self hn]
      · have hzero := bmod_eq_zero_iff 63 n
        rw [Int64.toInt_ofInt]
        simp only [hn, if_false, iff_false]
        intro hmod
        obtain ⟨k, rfl⟩ := hzero.mp hmod
        unfold Fits at hn
        omega
  | numberFloat d =>
      by_cases hn : Fits 63 n
      · simp [coerced, hn, ofInt64_eq_self hn, IntKind.Unaltered]
      · simp only [coerced, hn, if_false, Option.getD_some, IntKind.Unaltered, false_or]
        exact Int64.toInt_inj (y := 0)
  | string s =>
      by_cases hn : Fits 63 n
      · simp [coerced, hn, ofInt64_eq_self hn, IntKind.Unaltered]
      · simp [coerced, hn, IntKind.Unaltered]
  | null | boolean | array | object => simp [Json.denotes?] at h

/-- An optional identifier through the coercions. -/
theorem readAudioId_eq_expected_iff (P : Platform) {v : Json} {n : ℤ}
    (h : v.denotes? = some n) :
    IntKind.audioId.read P v = IntKind.audioId.expected n ↔ IntKind.audioId.Unaltered P v n := by
  simp only [IntKind.read, coerceId_of_denotes P h, coerceInt_of_denotes P h]
  cases v with
  | numberInteger _ | numberUnsigned _ =>
      simp only [coerced, Option.map_some, Int64.toInt32_ofInt, some_narrowed_eq_iff,
        IntKind.Unaltered]
  | numberFloat d =>
      by_cases hn : Fits 63 n
      · simp only [coerced, hn, if_true, Option.map_some, Int64.toInt32_ofInt, some_narrowed_eq_iff,
          IntKind.Unaltered]
      · have hn' : ¬Fits 31 n := fun h => hn (h.mono (by omega))
        simp [IntKind.expected, IntKind.width, IntKind.default, IntKind.Unaltered, coerced, hn']
  | string s =>
      by_cases hn : Fits 63 n
      · simp only [coerced, hn, if_true, Option.map_some, Int64.toInt32_ofInt, some_narrowed_eq_iff,
          IntKind.Unaltered, not_true_eq_false, or_false]
      · have hn' : ¬Fits 31 n := fun h => hn (h.mono (by omega))
        simp [coerced, hn, hn', IntKind.expected, IntKind.width, IntKind.default, IntKind.Unaltered]
  | null | boolean | array | object => simp [Json.denotes?] at h

/-- The outer `time`, which is not coerced. -/
theorem readOuterTime_eq_expected_iff (P : Platform) {v : Json} {n : ℤ}
    (h : v.denotes? = some n) :
    IntKind.outerTime.read P v = IntKind.outerTime.expected n ↔
      IntKind.outerTime.Unaltered P v n := by
  rw [expected_of_default_zero rfl]
  simp only [IntKind.read, IntKind.width, getInt_of_denotes P h, Option.some.injEq]
  cases v with
  | numberInteger _ | numberUnsigned _ =>
      simp only [narrowed, Option.getD_some, IntKind.Unaltered]
      exact narrowed_eq_ite_iff n
  | numberFloat d =>
      by_cases hn : Fits 31 n
      · simp [narrowed, hn, (narrowed_eq_self_iff n).mpr hn, IntKind.Unaltered]
      · simp only [narrowed, hn, if_false, Option.getD_some, IntKind.Unaltered, false_or]
        exact Int32.toInt_inj (y := 0)
  | string s =>
      by_cases hn : Fits 31 n
      · simp [narrowed, hn, IntKind.Unaltered, eq_comm]
      · simp [narrowed, hn, IntKind.Unaltered]
  | null | boolean | array | object => simp [Json.denotes?] at h

theorem IntKind.read_eq_expected_iff (P : Platform) (kind : IntKind) {v : Json} {n : ℤ}
    (h : v.denotes? = some n) :
    kind.read P v = kind.expected n ↔ kind.Unaltered P v n := by
  cases kind with
  | int => exact readInt_eq_expected_iff P h
  | int64 => exact readInt64_eq_expected_iff P h
  | audioId => exact readAudioId_eq_expected_iff P h
  | outerTime => exact readOuterTime_eq_expected_iff P h

/-! ## The fields -/

theorem ne_null_of_denotes {v : Json} {n : ℤ} (h : v.denotes? = some n) : v.isNull = false := by
  cases v <;> simp_all [Json.denotes?, Json.isNull]

theorem findValue_of_denotes {m : OrderedMap String Json} {key : String} {v : Json} {n : ℤ}
    (hv : m.find? key = some v) (h : v.denotes? = some n) :
    findValue (.object m) key = some v := by
  simp [hv, ne_null_of_denotes h]

theorem jInt_of_denotes {m : OrderedMap String Json} {key : String} {v : Json} {n : ℤ}
    (hv : m.find? key = some v) (h : v.denotes? = some n) :
    some (jInt P (.object m) key).toInt = IntKind.int.read P v := by
  simp only [jInt, findValue_of_denotes hv h, IntKind.read]
  cases coerceInt P v <;> rfl

/-- A body that decodes to a notification has read its outer `time`. -/
theorem readOuterTime_of_some {fullBody : String} {m : OrderedMap String Json}
    {value : Option ℤ} (hread : readOuterTime P fullBody m = some value) :
    value = some (outerTime P m).toInt := by
  unfold readOuterTime parseCallbackObject at hread
  cases hnotif : m.find? "notification" with
  | some notif =>
      rw [hnotif] at hread
      exact (Option.some.inj hread).symm
  | none =>
      rw [hnotif] at hread
      simp only at hread
      cases hresult : m.find? "result" with
      | none => simp [hresult] at hread
      | some result =>
          rw [hresult] at hread
          cases hmatch : parseStreamCallbackMatch P result fullBody <;>
            simp [hmatch, Except.map] at hread

/-- The integers of a decoded match are read from its own members. -/
theorem toOption_parseStreamCallbackMatch {resultObj : Json} {fullBody : String}
    {r : StreamCallbackMatch}
    (h : (parseStreamCallbackMatch P resultObj fullBody).toOption = some r) :
    r.radioId = jInt64 P resultObj "radio_id" ∧ r.playLength = jInt P resultObj "play_length" := by
  unfold parseStreamCallbackMatch at h
  cases hsongs : callbackSongs P resultObj with
  | nil => simp [hsongs, Except.toOption] at h
  | cons song alternatives =>
      rw [hsongs] at h
      obtain rfl := Option.some.inj h
      exact ⟨rfl, rfl⟩

/-- A field is its kind's conversion of its member. -/
def IntField.Converts (P : Platform) (f : IntField) : Prop :=
  ∀ m v n value, m.find? f.key = some v → v.denotes? = some n → f.read m = some value →
    value = f.kind.read P v

theorem converts_int {R : Type} {parse : Json → R} {key : String} {get : R → Int32}
    (hget : ∀ j, get (parse j) = jInt P j key) : (IntField.int parse key get).Converts P := by
  intro m v n value hv hn hread
  obtain rfl := Option.some.inj hread
  rw [hget]
  exact jInt_of_denotes hv hn

theorem converts_audioId {key : String} {read : OrderedMap String Json → Option (Option ℤ)}
    (hget : ∀ m, read m = some ((jAudioId P (.object m) key).map (·.toInt))) :
    IntField.Converts P ⟨.audioId, key, read⟩ := by
  intro m v n value hv hn hread
  obtain rfl := Option.some.inj ((hget m).symm.trans hread)
  simp only [jAudioId, findValue_of_denotes hv hn, IntKind.read]

theorem converts_radioId_match (fullBody : String) :
    IntField.Converts P ⟨.int64, "radio_id", fun m =>
      ((parseStreamCallbackMatch P (.object m) fullBody).toOption).map
        fun r => some r.radioId.toInt⟩ := by
  intro m v n value hv hn hread
  obtain ⟨r, hr, rfl⟩ := Option.map_eq_some_iff.mp hread
  rw [(toOption_parseStreamCallbackMatch hr).1, jInt64, findValue_of_denotes hv hn]
  rfl

theorem converts_playLength_match (fullBody : String) :
    IntField.Converts P ⟨.int, "play_length", fun m =>
      ((parseStreamCallbackMatch P (.object m) fullBody).toOption).map
        fun r => some r.playLength.toInt⟩ := by
  intro m v n value hv hn hread
  obtain ⟨r, hr, rfl⟩ := Option.map_eq_some_iff.mp hread
  rw [(toOption_parseStreamCallbackMatch hr).2]
  exact jInt_of_denotes hv hn

theorem converts_outerTime (fullBody : String) :
    IntField.Converts P ⟨.outerTime, "time", readOuterTime P fullBody⟩ := by
  intro m v n value hv hn hread
  obtain rfl := readOuterTime_of_some hread
  simp [outerTime, hv, ne_null_of_denotes hn, IntKind.read]

theorem intFields_convert (P : Platform) (outerTime : Int32) (fullBody : String) :
    ∀ f ∈ intFields P outerTime fullBody, f.Converts P := by
  have hint {R : Type} {parse : Json → R} {key : String} {get : R → Int32} :=
    @converts_int P R parse key get
  simp only [intFields, List.forall_mem_cons, List.not_mem_nil, false_implies, implies_true,
    and_true]
  refine ⟨hint fun _ => rfl, hint fun _ => rfl, hint fun _ => rfl, hint fun _ => rfl,
    hint fun _ => rfl, hint fun _ => rfl, hint fun _ => rfl, hint fun _ => rfl,
    hint fun _ => rfl, converts_audioId fun _ => rfl, hint fun _ => rfl,
    converts_audioId fun _ => rfl, hint fun _ => rfl, hint fun _ => rfl, hint fun _ => rfl,
    hint fun _ => rfl, hint fun _ => rfl, hint fun _ => rfl, converts_radioId_match fullBody,
    converts_playLength_match fullBody, hint fun _ => rfl, hint fun _ => rfl,
    converts_outerTime fullBody⟩

/-- A value that a field should hold and is not its default comes from one integer. -/
theorem expected_injective {kind : IntKind} {n n' : ℤ} (h : kind.expected n = kind.expected n')
    (hdefault : kind.expected n ≠ kind.default) : n = n' := by
  unfold IntKind.expected at h hdefault
  by_cases hn : Fits kind.width n
  · rw [if_pos hn] at h hdefault
    by_cases hn' : Fits kind.width n'
    · rw [if_pos hn'] at h
      exact Option.some.inj h
    · rw [if_neg hn'] at h
      exact absurd h hdefault
  · rw [if_neg hn] at hdefault
    exact absurd rfl hdefault

/-- When an integer field of a decoder holds the integer that its member denotes,
or its default where that integer does not fit. Under that condition, members with
different integers share no value but the default. -/
theorem intFields_expected_iff (P : Platform) (time : Int32) (fullBody : String) :
    (∀ f ∈ intFields P time fullBody, ∀ m v n value,
      m.find? f.key = some v → v.denotes? = some n → f.read m = some value →
        (value = f.kind.expected n ↔ f.kind.Unaltered P v n)) ∧
    (∀ f ∈ intFields P time fullBody, ∀ m v n m' v' n' value,
      m.find? f.key = some v → v.denotes? = some n → f.kind.Unaltered P v n →
      m'.find? f.key = some v' → v'.denotes? = some n' → f.kind.Unaltered P v' n' →
      f.read m = some value → f.read m' = some value → value ≠ f.kind.default → n = n') ∧
    (∀ chunk elems, chunk.find? "songs" = some (.array elems) →
      (parseEnterpriseChunk P (.object chunk)).songs = elems.map (parseEnterpriseSong P)) := by
  have hiff : ∀ f ∈ intFields P time fullBody, ∀ m v n value, m.find? f.key = some v →
      v.denotes? = some n → f.read m = some value →
      (value = f.kind.expected n ↔ f.kind.Unaltered P v n) := by
    intro f hf m v n value hv hn hread
    rw [intFields_convert P time fullBody f hf m v n value hv hn hread]
    exact f.kind.read_eq_expected_iff P hn
  refine ⟨hiff, ?_, ?_⟩
  · intro f hf m v n m' v' n' value hv hn hok hv' hn' hok' hread hread' hdefault
    have hvalue := (hiff f hf m v n value hv hn hread).mpr hok
    have hvalue' := (hiff f hf m' v' n' value hv' hn' hread').mpr hok'
    apply expected_injective (hvalue.symm.trans hvalue')
    rw [← hvalue]
    exact hdefault
  · intro chunk elems hsongs
    simp [parseEnterpriseChunk, hsongs]

/-- Two different `audio_id`s decode to the same one. -/
theorem audio_id_wraps :
    let P := Platform.ofTable []
    let large := Json.numberUnsigned 4294967297
    let body v := Json.object (.ofList [("audio_id", v)])
    large.denotes? = some 4294967297 ∧
      (parseRecognition P (body large)).audioId = some 1 ∧
      (parseRecognition P (body (.numberUnsigned 1))).audioId = some 1 ∧
      (parseRecognition P (body large)).audioId.map (·.toInt) ≠
        IntKind.audioId.expected 4294967297 := by
  intro P large body
  have hread : ∀ u : UInt64, (parseRecognition P (body (.numberUnsigned u))).audioId =
      some u.toInt64.toInt32 := fun _ => rfl
  refine ⟨rfl, ?_, ?_, ?_⟩
  · rw [hread]
    rfl
  · rw [hread]
    rfl
  · rw [hread]
    decide

end Audd
