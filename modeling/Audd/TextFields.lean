import Audd.IntegerTexts

/-!
# Numbers in text fields

Which text a text field has for a member that is an integer. The 64 bits of an
unsigned integer are read as signed before they are printed.
-/

namespace Audd

open Decimal FixedWidth

/-- A text field of a decoder. `read` is `none` where the decoder throws. -/
structure TextField where
  key : String
  read : OrderedMap String Json → Option String

/-- Text fields of a decoder that never throws. -/
def textsOf {R : Type} (parse : Json → R) (fields : List (String × (R → String))) :
    List TextField :=
  fields.map fun f => ⟨f.1, fun m => some (f.2 (parse (.object m)))⟩

/-- The text fields of all decoders. -/
def textFields (P : Platform) (outerTime : Int32) (fullBody : String) : List TextField :=
  textsOf (parseAppleMusic P)
    [("artistName", (·.artistName)), ("url", (·.url)), ("name", (·.name)), ("isrc", (·.isrc)),
      ("albumName", (·.albumName)), ("composerName", (·.composerName)),
      ("releaseDate", (·.releaseDate))] ++
  textsOf (parseSpotify P)
    [("id", (·.id)), ("name", (·.name)), ("type", (·.type)), ("uri", (·.uri))] ++
  textsOf (parseDeezer P) [("title", (·.title)), ("link", (·.link))] ++
  textsOf (parseNapster P)
    [("id", (·.id)), ("name", (·.name)), ("isrc", (·.isrc)), ("artistName", (·.artistName)),
      ("albumName", (·.albumName))] ++
  textsOf (parseMusicbrainz P) [("id", (·.id)), ("title", (·.title))] ++
  textsOf (parseRecognition P)
    [("timecode", (·.timecode)), ("artist", (·.artist)), ("title", (·.title)),
      ("album", (·.album)), ("release_date", (·.releaseDate)), ("label", (·.label)),
      ("song_link", (·.songLink)), ("isrc", (·.isrc)), ("upc", (·.upc))] ++
  textsOf (parseEnterpriseSong P)
    [("timecode", (·.timecode)), ("artist", (·.artist)), ("title", (·.title)),
      ("album", (·.album)), ("release_date", (·.releaseDate)), ("label", (·.label)),
      ("isrc", (·.isrc)), ("upc", (·.upc)), ("song_link", (·.songLink))] ++
  textsOf (parseEnterpriseChunk P) [("offset", (·.offset))] ++
  textsOf (parseLyrics P)
    [("artist", (·.artist)), ("title", (·.title)), ("lyrics", (·.lyrics)), ("media", (·.media)),
      ("full_title", (·.fullTitle)), ("song_link", (·.songLink))] ++
  textsOf (parseStream P) [("url", (·.url)), ("longpoll_category", (·.longpollCategory))] ++
  textsOf (parseStreamCallbackSong P)
    [("artist", (·.artist)), ("title", (·.title)), ("album", (·.album)),
      ("release_date", (·.releaseDate)), ("label", (·.label)), ("song_link", (·.songLink)),
      ("isrc", (·.isrc)), ("upc", (·.upc))] ++
  textsOf (fun j => parseStreamCallbackNotification P j outerTime fullBody)
    [("notification_message", (·.notificationMessage))] ++
  [⟨"timestamp", fun m =>
    ((parseStreamCallbackMatch P (.object m) fullBody).toOption).map (·.timestamp)⟩]

/-! ## The text of an integer -/

/-- The text is that of the signed word with the same 64 bits. -/
theorem coerceString_eq (P : Platform) {v : Json} {n : ℤ} (h : IntegerValue v n) :
    coerceString P v = some (toString (n.bmod (2 ^ 64))) := by
  obtain ⟨i, -, htext, rfl⟩ := coerceString_of_integerValue P h
  rw [htext, Int64.toInt_ofInt]
  rfl

/-- The integers of the parser start at the least signed one. -/
theorem le_of_integerValue {v : Json} {n : ℤ} (h : IntegerValue v n) : -2 ^ 63 ≤ n := by
  cases h with
  | signed i => exact i.le_toInt
  | unsigned u => omega
  | double h hfits => exact hfits.1

theorem bmod_text_iff {v : Json} {n : ℤ} (h : IntegerValue v n) :
    toString (n.bmod (2 ^ 64)) = toString n ↔ n < 2 ^ 63 := by
  have hle := le_of_integerValue h
  constructor
  · intro htext
    exact ((bmod_eq_self_iff 63 n).mp (toString_injective htext)).2
  · intro hlt
    rw [(bmod_eq_self_iff 63 n).mpr ⟨hle, hlt⟩]

theorem bmod_eq_bmod_iff (n n' : ℤ) : n.bmod (2 ^ 64) = n'.bmod (2 ^ 64) ↔ 2 ^ 64 ∣ n - n' := by
  rw [← bmod_eq_zero_iff 63]
  exact Int.bmod_eq_bmod_iff_bmod_sub_eq_zero

theorem jStr_eq (P : Platform) {j : Json} {key : String} {v : Json} {n : ℤ}
    (hv : findValue j key = some v) (h : IntegerValue v n) :
    jStr P j key = toString (n.bmod (2 ^ 64)) := by
  rw [jStr, hv]
  simp only [coerceString_eq P h, Option.getD_some]

/-! ## The fields -/

/-- A field is read through `j_str`. -/
def TextField.ReadsText (P : Platform) (f : TextField) : Prop :=
  ∀ m text, f.read m = some text → text = jStr P (.object m) f.key

theorem textsOf_readText {P : Platform} {R : Type} {parse : Json → R}
    {fields : List (String × (R → String))}
    (h : ∀ f ∈ fields, ∀ j, f.2 (parse j) = jStr P j f.1) :
    ∀ f ∈ textsOf parse fields, f.ReadsText P := by
  intro f hf m text hread
  obtain ⟨g, hg, rfl⟩ := List.mem_map.mp hf
  obtain rfl := Option.some.inj hread
  exact h g hg _

theorem timestamp_readText (P : Platform) (fullBody : String) :
    TextField.ReadsText P ⟨"timestamp", fun m =>
      ((parseStreamCallbackMatch P (.object m) fullBody).toOption).map (·.timestamp)⟩ := by
  intro m text hread
  obtain ⟨r, hr, rfl⟩ := Option.map_eq_some_iff.mp hread
  unfold parseStreamCallbackMatch at hr
  cases hsongs : callbackSongs P (.object m) with
  | nil => simp [hsongs, Except.toOption] at hr
  | cons song alternatives =>
      rw [hsongs] at hr
      obtain rfl := Option.some.inj hr
      rfl

theorem textFields_readText (P : Platform) (outerTime : Int32) (fullBody : String) :
    ∀ f ∈ textFields P outerTime fullBody, f.ReadsText P := by
  simp only [textFields, List.forall_mem_append, List.forall_mem_cons, List.not_mem_nil,
    false_implies, implies_true, and_true]
  refine ⟨⟨⟨⟨⟨⟨⟨⟨⟨⟨⟨⟨?_, ?_⟩, ?_⟩, ?_⟩, ?_⟩, ?_⟩, ?_⟩, ?_⟩, ?_⟩, ?_⟩, ?_⟩, ?_⟩,
    timestamp_readText P fullBody⟩
  all_goals
    apply textsOf_readText
    simp only [List.forall_mem_cons, List.not_mem_nil, false_implies, implies_true, and_true]
    and_intros <;> exact fun _ => rfl

/-- When an integer keeps its value in a text: `coerce_string`, `j_str` and every text
field of every decoder give its decimal text exactly below `2 ^ 63`, and two integers
share a text exactly when they differ by a multiple of `2 ^ 64`. -/
theorem coerceString_decimal_iff (P : Platform) (time : Int32) (fullBody : String) :
    (∀ v n, IntegerValue v n → (coerceString P v = some (toString n) ↔ n < 2 ^ 63)) ∧
    (∀ v v' n n', IntegerValue v n → IntegerValue v' n' →
      (coerceString P v = coerceString P v' ↔ 2 ^ 64 ∣ n - n')) ∧
    (∀ j key v n, findValue j key = some v → IntegerValue v n →
      (jStr P j key = toString n ↔ n < 2 ^ 63)) ∧
    (∀ f ∈ textFields P time fullBody, ∀ m v n text, m.find? f.key = some v →
      IntegerValue v n → f.read m = some text → (text = toString n ↔ n < 2 ^ 63)) := by
  have hjStr : ∀ j key v n, findValue j key = some v → IntegerValue v n →
      (jStr P j key = toString n ↔ n < 2 ^ 63) := by
    intro j key v n hv h
    rw [jStr_eq P hv h]
    exact bmod_text_iff h
  refine ⟨?_, ?_, hjStr, ?_⟩
  · intro v n h
    rw [coerceString_eq P h, Option.some.injEq]
    exact bmod_text_iff h
  · intro v v' n n' h h'
    rw [coerceString_eq P h, coerceString_eq P h', Option.some.injEq, ← bmod_eq_bmod_iff]
    exact ⟨toString_injective, congrArg toString⟩
  · intro f hf m v n text hv h hread
    have hvalue : findValue (.object m) f.key = some v := by
      rw [findValue_object, hv]
      cases h <;> rfl
    rw [textFields_readText P time fullBody f hf m text hread]
    exact hjStr _ _ v n hvalue h

/-- The integer `2 ^ 63` is printed as a negative one. -/
theorem coerceString_wraps :
    IntegerValue (.numberUnsigned 9223372036854775808) 9223372036854775808 ∧
      coerceString (Platform.ofTable []) (.numberUnsigned 9223372036854775808) =
        some (toString (-9223372036854775808 : ℤ)) ∧
      coerceString (Platform.ofTable []) (.numberUnsigned 9223372036854775808) ≠
        some (toString (9223372036854775808 : ℤ)) := by
  have htext : coerceString (Platform.ofTable []) (.numberUnsigned 9223372036854775808) =
      some (toString (-9223372036854775808 : ℤ)) := rfl
  refine ⟨.unsigned 9223372036854775808, htext, ?_⟩
  rw [htext]
  intro h
  exact absurd (toString_injective (Option.some.inj h)) (by decide)

end Audd
