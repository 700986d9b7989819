import Audd.Callback
import Audd.Lib.KeyedDecoder

/-!
# The homes of the wire keys

Each object decoder is described by the field that every known key is bound to,
in the order of its list of known keys. `results` of a match is bound to the song
and the alternatives together.
-/

namespace Audd

open KeyedDecoder

variable (P : Platform)

/-! ## Readers -/

def textReader : Reader String Json String where
  run m key := jStr P (.object m) key
  congr h := by simp [jStr, h]
  first := .string "a"
  second := .null
  separates m key := by
    simp only [jStr, findValue_insert_self]
    simp [Json.isNull, coerceString]

def intReader : Reader String Json Int32 where
  run m key := jInt P (.object m) key
  congr h := by simp [jInt, h]
  first := .numberInteger 1
  second := .null
  separates m key := by
    simp only [jInt, findValue_insert_self]
    simp [Json.isNull, coerceInt]

def int64Reader : Reader String Json Int64 where
  run m key := jInt64 P (.object m) key
  congr h := by simp [jInt64, h]
  first := .numberInteger 1
  second := .null
  separates m key := by
    simp only [jInt64, findValue_insert_self]
    simp [Json.isNull, coerceInt]

def audioIdReader : Reader String Json (Option Int32) where
  run m key := jAudioId P (.object m) key
  congr h := by simp [jAudioId, h]
  first := .numberInteger 1
  second := .null
  separates m key := by
    simp only [jAudioId, findValue_insert_self]
    simp [Json.isNull, coerceId, coerceInt]

def boolReader : Reader String Json Bool where
  run m key := jBool (.object m) key
  congr h := by simp [jBool, h]
  first := .boolean true
  second := .null
  separates m key := by
    simp only [jBool, findValue_insert_self]
    simp [Json.isNull, coerceBool]

def optionalBoolReader : Reader String Json (Option Bool) where
  run m key := (findValue (.object m) key).bind coerceBool
  congr h := by simp [h]
  first := .boolean true
  second := .null
  separates m key := by
    simp only [findValue_insert_self]
    simp [Json.isNull, coerceBool]

/-- The member as it is. -/
def rawReader : Reader String Json Json where
  run m key := (m.find? key).getD .null
  congr h := by rw [h]
  first := .boolean true
  second := .null
  separates m key := by simp

def blockReader {α : Type} (decode : Json → α) : Reader String Json (Option α) where
  run m key := metadataBlock decode (.object m) key
  congr h := by simp [metadataBlock, h]
  first := .object ∅
  second := .null
  separates m key := by simp [metadataBlock]

/-- The decoded elements of a list. Its two values are lists with an element, so a
decoder that refuses an empty list takes both. -/
def listReader {α : Type} (decode : Json → α) : Reader String Json (List α) where
  run m key :=
    match m.find? key with
    | some (.array elems) => elems.map decode
    | _ => []
  congr h := by rw [h]
  first := .array [.null]
  second := .array [.null, .null]
  separates m key := by simp

/-! ## Decoders that read every object -/

section
variable {R : Type}

/-- A decoder that never throws. -/
def objectDecoder (parse : Json → R) (known : List String) (fields : List (Field String Json R))
    (extras : R → OrderedMap String Json) (raw : R → String) : Decoder String Json R where
  decode m := some (parse (.object m))
  known := known
  fields := fields
  extras := extras
  raw := raw

theorem objectDecoder_lawful {parse : Json → R} {known : List String}
    {fields : List (Field String Json R)} {extras : R → OrderedMap String Json} {raw : R → String}
    (reads : ∀ m, fields.map (fun f => (⟨f.Value, f.get (parse (.object m))⟩ : Σ α, α)) =
      fields.map fun f => ⟨f.Value, f.reader.run m f.key⟩)
    (rest : ∀ m, extras (parse (.object m)) = extractExtras (.object m) known)
    (keys : fields.map Field.key = known) (nodup : known.Nodup)
    (complete : ∀ m m', (∀ f ∈ fields, f.get (parse (.object m)) = f.get (parse (.object m'))) →
      extras (parse (.object m)) = extras (parse (.object m')) →
      raw (parse (.object m)) = raw (parse (.object m')) →
      parse (.object m) = parse (.object m')) :
    (objectDecoder parse known fields extras raw).Lawful where
  reads := by
    intro m r hr f hf
    obtain rfl := Option.some.inj hr
    exact eq_of_heq (Sigma.mk.inj (List.map_inj_left.mp (reads m) f hf)).2
  rest := by
    rintro m r hr
    obtain rfl := Option.some.inj hr
    exact rest m
  keys := keys
  nodup := nodup
  complete := by
    intro m m' r r' hr hr'
    obtain rfl := Option.some.inj hr
    obtain rfl := Option.some.inj hr'
    exact complete m m'
  total := ⟨∅, fun _ _ => ⟨rfl, rfl⟩⟩

end

def appleMusicDecoder : Decoder String Json AppleMusicMetadata :=
  objectDecoder (parseAppleMusic P)
    ["artistName", "url", "durationInMillis", "name", "isrc", "albumName", "trackNumber",
      "composerName", "discNumber", "releaseDate"]
    [⟨"artistName", _, textReader P, (·.artistName)⟩,
      ⟨"url", _, textReader P, (·.url)⟩,
      ⟨"durationInMillis", _, intReader P, (·.durationInMillis)⟩,
      ⟨"name", _, textReader P, (·.name)⟩,
      ⟨"isrc", _, textReader P, (·.isrc)⟩,
      ⟨"albumName", _, textReader P, (·.albumName)⟩,
      ⟨"trackNumber", _, intReader P, (·.trackNumber)⟩,
      ⟨"composerName", _, textReader P, (·.composerName)⟩,
      ⟨"discNumber", _, intReader P, (·.discNumber)⟩,
      ⟨"releaseDate", _, textReader P, (·.releaseDate)⟩]
    (·.extras) (·.rawResponse)

theorem appleMusicDecoder_lawful : (appleMusicDecoder P).Lawful := by
  refine objectDecoder_lawful (fun _ => rfl) (fun _ => rfl) rfl (by decide) ?_
  intro m m' hf he hr
  simp only [List.forall_mem_cons] at hf
  simp_all [parseAppleMusic]

def spotifyDecoder : Decoder String Json SpotifyMetadata :=
  objectDecoder (parseSpotify P)
    ["id", "name", "duration_ms", "explicit", "popularity", "track_number", "type", "uri"]
    [⟨"id", _, textReader P, (·.id)⟩,
      ⟨"name", _, textReader P, (·.name)⟩,
      ⟨"duration_ms", _, intReader P, (·.durationMs)⟩,
      ⟨"explicit", _, boolReader, (·.explicit)⟩,
      ⟨"popularity", _, intReader P, (·.popularity)⟩,
      ⟨"track_number", _, intReader P, (·.trackNumber)⟩,
      ⟨"type", _, textReader P, (·.type)⟩,
      ⟨"uri", _, textReader P, (·.uri)⟩]
    (·.extras) (·.rawResponse)

theorem spotifyDecoder_lawful : (spotifyDecoder P).Lawful := by
  refine objectDecoder_lawful (fun _ => rfl) (fun _ => rfl) rfl (by decide) ?_
  intro m m' hf he hr
  simp only [List.forall_mem_cons] at hf
  simp_all [parseSpotify]

def deezerDecoder : Decoder String Json DeezerMetadata :=
  objectDecoder (parseDeezer P)
    ["id", "title", "duration", "link"]
    [⟨"id", _, intReader P, (·.id)⟩,
      ⟨"title", _, textReader P, (·.title)⟩,
      ⟨"duration", _, intReader P, (·.duration)⟩,
      ⟨"link", _, textReader P, (·.link)⟩]
    (·.extras) (·.rawResponse)

theorem deezerDecoder_lawful : (deezerDecoder P).Lawful := by
  refine objectDecoder_lawful (fun _ => rfl) (fun _ => rfl) rfl (by decide) ?_
  intro m m' hf he hr
  simp only [List.forall_mem_cons] at hf
  simp_all [parseDeezer]

def napsterDecoder : Decoder String Json NapsterMetadata :=
  objectDecoder (parseNapster P)
    ["id", "name", "isrc", "artistName", "albumName"]
    [⟨"id", _, textReader P, (·.id)⟩,
      ⟨"name", _, textReader P, (·.name)⟩,
      ⟨"isrc", _, textReader P, (·.isrc)⟩,
      ⟨"artistName", _, textReader P, (·.artistName)⟩,
      ⟨"albumName", _, textReader P, (·.albumName)⟩]
    (·.extras) (·.rawResponse)

theorem napsterDecoder_lawful : (napsterDecoder P).Lawful := by
  refine objectDecoder_lawful (fun _ => rfl) (fun _ => rfl) rfl (by decide) ?_
  intro m m' hf he hr
  simp only [List.forall_mem_cons] at hf
  simp_all [parseNapster]

def musicbrainzDecoder : Decoder String Json MusicBrainzEntry :=
  objectDecoder (parseMusicbrainz P)
    ["id", "score", "title", "length"]
    [⟨"id", _, textReader P, (·.id)⟩,
      ⟨"score", _, rawReader, (·.score)⟩,
      ⟨"title", _, textReader P, (·.title)⟩,
      ⟨"length", _, intReader P, (·.length)⟩]
    (·.extras) (·.rawResponse)

theorem musicbrainzDecoder_lawful : (musicbrainzDecoder P).Lawful := by
  refine objectDecoder_lawful (fun _ => rfl) (fun _ => rfl) rfl (by decide) ?_
  intro m m' hf he hr
  simp only [List.forall_mem_cons] at hf
  simp_all [parseMusicbrainz]

def recognitionDecoder : Decoder String Json RecognitionResult :=
  objectDecoder (parseRecognition P)
    ["timecode", "audio_id", "artist", "title", "album", "release_date", "label", "song_link",
      "isrc", "upc", "apple_music", "spotify", "deezer", "napster", "musicbrainz"]
    [⟨"timecode", _, textReader P, (·.timecode)⟩,
      ⟨"audio_id", _, audioIdReader P, (·.audioId)⟩,
      ⟨"artist", _, textReader P, (·.artist)⟩,
      ⟨"title", _, textReader P, (·.title)⟩,
      ⟨"album", _, textReader P, (·.album)⟩,
      ⟨"release_date", _, textReader P, (·.releaseDate)⟩,
      ⟨"label", _, textReader P, (·.label)⟩,
      ⟨"song_link", _, textReader P, (·.songLink)⟩,
      ⟨"isrc", _, textReader P, (·.isrc)⟩,
      ⟨"upc", _, textReader P, (·.upc)⟩,
      ⟨"apple_music", _, blockReader (parseAppleMusic P), (·.appleMusic)⟩,
      ⟨"spotify", _, blockReader (parseSpotify P), (·.spotify)⟩,
      ⟨"deezer", _, blockReader (parseDeezer P), (·.deezer)⟩,
      ⟨"napster", _, blockReader (parseNapster P), (·.napster)⟩,
      ⟨"musicbrainz", _, listReader (parseMusicbrainz P), (·.musicbrainz)⟩]
    (·.extras) (·.rawResponse)

theorem recognitionDecoder_lawful : (recognitionDecoder P).Lawful := by
  refine objectDecoder_lawful (fun _ => rfl) (fun _ => rfl) rfl (by decide) ?_
  intro m m' hf he hr
  simp only [List.forall_mem_cons] at hf
  simp_all [parseRecognition]

def enterpriseSongDecoder : Decoder String Json EnterpriseMatch :=
  objectDecoder (parseEnterpriseSong P)
    ["score", "timecode", "audio_id", "artist", "title", "album", "release_date", "label",
      "isrc", "upc", "song_link", "start_offset", "end_offset"]
    [⟨"score", _, intReader P, (·.score)⟩,
      ⟨"timecode", _, textReader P, (·.timecode)⟩,
      ⟨"audio_id", _, audioIdReader P, (·.audioId)⟩,
      ⟨"artist", _, textReader P, (·.artist)⟩,
      ⟨"title", _, textReader P, (·.title)⟩,
      ⟨"album", _, textReader P, (·.album)⟩,
      ⟨"release_date", _, textReader P, (·.releaseDate)⟩,
      ⟨"label", _, textReader P, (·.label)⟩,
      ⟨"isrc", _, textReader P, (·.isrc)⟩,
      ⟨"upc", _, textReader P, (·.upc)⟩,
      ⟨"song_link", _, textReader P, (·.songLink)⟩,
      ⟨"start_offset", _, intReader P, (·.startOffset)⟩,
      ⟨"end_offset", _, intReader P, (·.endOffset)⟩]
    (·.extras) (·.rawResponse)

theorem enterpriseSongDecoder_lawful : (enterpriseSongDecoder P).Lawful := by
  refine objectDecoder_lawful (fun _ => rfl) (fun _ => rfl) rfl (by decide) ?_
  intro m m' hf he hr
  simp only [List.forall_mem_cons] at hf
  simp_all [parseEnterpriseSong]

def enterpriseChunkDecoder : Decoder String Json EnterpriseChunkResult :=
  objectDecoder (parseEnterpriseChunk P)
    ["songs", "offset"]
    [⟨"songs", _, listReader (parseEnterpriseSong P), (·.songs)⟩,
      ⟨"offset", _, textReader P, (·.offset)⟩]
    (·.extras) (·.rawResponse)

theorem enterpriseChunkDecoder_lawful : (enterpriseChunkDecoder P).Lawful := by
  refine objectDecoder_lawful (fun _ => rfl) (fun _ => rfl) rfl (by decide) ?_
  intro m m' hf he hr
  simp only [List.forall_mem_cons] at hf
  simp_all [parseEnterpriseChunk]

def lyricsDecoder : Decoder String Json LyricsResult :=
  objectDecoder (parseLyrics P)
    ["artist", "title", "lyrics", "song_id", "media", "full_title", "artist_id", "song_link"]
    [⟨"artist", _, textReader P, (·.artist)⟩,
      ⟨"title", _, textReader P, (·.title)⟩,
      ⟨"lyrics", _, textReader P, (·.lyrics)⟩,
      ⟨"song_id", _, intReader P, (·.songId)⟩,
      ⟨"media", _, textReader P, (·.media)⟩,
      ⟨"full_title", _, textReader P, (·.fullTitle)⟩,
      ⟨"artist_id", _, intReader P, (·.artistId)⟩,
      ⟨"song_link", _, textReader P, (·.songLink)⟩]
    (·.extras) (·.rawResponse)

theorem lyricsDecoder_lawful : (lyricsDecoder P).Lawful := by
  refine objectDecoder_lawful (fun _ => rfl) (fun _ => rfl) rfl (by decide) ?_
  intro m m' hf he hr
  simp only [List.forall_mem_cons] at hf
  simp_all [parseLyrics]

def streamDecoder : Decoder String Json Stream :=
  objectDecoder (parseStream P)
    ["radio_id", "url", "stream_running", "longpoll_category"]
    [⟨"radio_id", _, intReader P, (·.radioId)⟩,
      ⟨"url", _, textReader P, (·.url)⟩,
      ⟨"stream_running", _, boolReader, (·.streamRunning)⟩,
      ⟨"longpoll_category", _, textReader P, (·.longpollCategory)⟩]
    (·.extras) (·.rawResponse)

theorem streamDecoder_lawful : (streamDecoder P).Lawful := by
  refine objectDecoder_lawful (fun _ => rfl) (fun _ => rfl) rfl (by decide) ?_
  intro m m' hf he hr
  simp only [List.forall_mem_cons] at hf
  simp_all [parseStream]

def callbackSongDecoder : Decoder String Json StreamCallbackSong :=
  objectDecoder (parseStreamCallbackSong P)
    ["score", "artist", "title", "album", "release_date", "label", "song_link", "isrc", "upc",
      "apple_music", "spotify", "deezer", "napster", "musicbrainz"]
    [⟨"score", _, intReader P, (·.score)⟩,
      ⟨"artist", _, textReader P, (·.artist)⟩,
      ⟨"title", _, textReader P, (·.title)⟩,
      ⟨"album", _, textReader P, (·.album)⟩,
      ⟨"release_date", _, textReader P, (·.releaseDate)⟩,
      ⟨"label", _, textReader P, (·.label)⟩,
      ⟨"song_link", _, textReader P, (·.songLink)⟩,
      ⟨"isrc", _, textReader P, (·.isrc)⟩,
      ⟨"upc", _, textReader P, (·.upc)⟩,
      ⟨"apple_music", _, blockReader (parseAppleMusic P), (·.appleMusic)⟩,
      ⟨"spotify", _, blockReader (parseSpotify P), (·.spotify)⟩,
      ⟨"deezer", _, blockReader (parseDeezer P), (·.deezer)⟩,
      ⟨"napster", _, blockReader (parseNapster P), (·.napster)⟩,
      ⟨"musicbrainz", _, listReader (parseMusicbrainz P), (·.musicbrainz)⟩]
    (·.extras) (fun _ => "")

theorem callbackSongDecoder_lawful : (callbackSongDecoder P).Lawful := by
  refine objectDecoder_lawful (fun _ => rfl) (fun _ => rfl) rfl (by decide) ?_
  intro m m' hf he hr
  simp only [List.forall_mem_cons] at hf
  simp_all [parseStreamCallbackSong]

def notificationDecoder (outerTime : Int32) (fullBody : String) :
    Decoder String Json StreamCallbackNotification :=
  objectDecoder (fun j => parseStreamCallbackNotification P j outerTime fullBody)
    ["radio_id", "stream_running", "notification_code", "notification_message"]
    [⟨"radio_id", _, intReader P, (·.radioId)⟩,
      ⟨"stream_running", _, optionalBoolReader, (·.streamRunning)⟩,
      ⟨"notification_code", _, intReader P, (·.notificationCode)⟩,
      ⟨"notification_message", _, textReader P, (·.notificationMessage)⟩]
    (·.extras) (·.rawResponse)

theorem notificationDecoder_lawful (outerTime : Int32) (fullBody : String) :
    (notificationDecoder P outerTime fullBody).Lawful := by
  refine objectDecoder_lawful (fun _ => rfl) (fun _ => rfl) rfl (by decide) ?_
  intro m m' hf he hr
  simp only [List.forall_mem_cons] at hf
  simp_all [parseStreamCallbackNotification]

/-! ## The decoder that throws -/

def matchDecoder (fullBody : String) : Decoder String Json StreamCallbackMatch where
  decode m := (parseStreamCallbackMatch P (.object m) fullBody).toOption
  known := ["radio_id", "timestamp", "play_length", "results"]
  fields :=
    [⟨"radio_id", _, int64Reader P, (·.radioId)⟩,
      ⟨"timestamp", _, textReader P, (·.timestamp)⟩,
      ⟨"play_length", _, intReader P, (·.playLength)⟩,
      ⟨"results", _, listReader (parseStreamCallbackSong P), fun r => r.song :: r.alternatives⟩]
  extras := (·.extras)
  raw := (·.rawResponse)

/-- A match is decoded when there is a song, and then field by field. -/
theorem parseStreamCallbackMatch_eq_ok {m : OrderedMap String Json} {fullBody : String}
    {r : StreamCallbackMatch}
    (h : (parseStreamCallbackMatch P (.object m) fullBody).toOption = some r) :
    callbackSongs P (.object m) = r.song :: r.alternatives ∧
      r.radioId = jInt64 P (.object m) "radio_id" ∧
      r.timestamp = jStr P (.object m) "timestamp" ∧
      r.playLength = jInt P (.object m) "play_length" ∧
      r.extras = extractExtras (.object m) ["radio_id", "timestamp", "play_length", "results"] ∧
      r.rawResponse = fullBody := by
  unfold parseStreamCallbackMatch at h
  split at h
  · simp [Except.toOption] at h
  · rename_i song alternatives hsongs
    obtain rfl := Option.some.inj h
    exact ⟨hsongs, rfl, rfl, rfl, rfl, rfl⟩

theorem parseStreamCallbackMatch_isSome {m : OrderedMap String Json} {elems : List Json}
    (fullBody : String) (h : m.find? "results" = some (.array elems)) (hne : elems ≠ []) :
    (parseStreamCallbackMatch P (.object m) fullBody).toOption.isSome := by
  obtain ⟨first, rest, rfl⟩ := List.exists_cons_of_ne_nil hne
  simp [parseStreamCallbackMatch, callbackSongs, h, Except.toOption]

theorem matchDecoder_lawful (fullBody : String) : (matchDecoder P fullBody).Lawful where
  reads := by
    intro m r hr
    obtain ⟨hsongs, hradio, htime, hlength, -⟩ := parseStreamCallbackMatch_eq_ok P hr
    simp only [matchDecoder, List.forall_mem_cons, List.not_mem_nil, false_imp_iff,
      forall_true_iff, and_true]
    exact ⟨hradio, htime, hlength, hsongs.symm⟩
  rest := by
    intro m r hr
    obtain ⟨-, -, -, -, hextras, -⟩ := parseStreamCallbackMatch_eq_ok P hr
    exact hextras
  keys := rfl
  nodup := by
    show ["radio_id", "timestamp", "play_length", "results"].Nodup
    decide
  complete := by
    intro m m' r r' hr hr' hf he hraw
    simp only [matchDecoder, List.forall_mem_cons] at hf he hraw
    obtain ⟨radioId, timestamp, playLength, song, alternatives, extras, rawResponse⟩ := r
    simp_all
  total := by
    let base := (∅ : OrderedMap String Json).insert "results" (.array [.null])
    have hother : ∀ key v, key ≠ "results" →
        ((matchDecoder P fullBody).decode (base.insert key v)).isSome := by
      intro key v hne
      have hresults : (base.insert key v).find? "results" = some (.array [.null]) := by
        rw [OrderedMap.find?_insert_of_ne _ _ hne.symm]
        exact OrderedMap.find?_insert_self _ _ _
      exact parseStreamCallbackMatch_isSome P fullBody hresults (by simp)
    refine ⟨base, fun f hf => ?_⟩
    simp only [matchDecoder, List.mem_cons, List.not_mem_nil, or_false] at hf
    rcases hf with rfl | rfl | rfl | rfl
    · exact ⟨hother "radio_id" _ (by decide), hother "radio_id" _ (by decide)⟩
    · exact ⟨hother "timestamp" _ (by decide), hother "timestamp" _ (by decide)⟩
    · exact ⟨hother "play_length" _ (by decide), hother "play_length" _ (by decide)⟩
    · have hself := fun v => OrderedMap.find?_insert_self base "results" v
      exact ⟨parseStreamCallbackMatch_isSome P fullBody (hself _) (by simp),
        parseStreamCallbackMatch_isSome P fullBody (hself _) (by simp)⟩

/-- In every object decoder each wire key has exactly one home. -/
theorem decoders_oneHome (P : Platform) (outerTime : Int32) (fullBody : String) :
    (appleMusicDecoder P).OneHome ∧ (spotifyDecoder P).OneHome ∧ (deezerDecoder P).OneHome ∧
      (napsterDecoder P).OneHome ∧ (musicbrainzDecoder P).OneHome ∧
      (recognitionDecoder P).OneHome ∧ (enterpriseChunkDecoder P).OneHome ∧
      (enterpriseSongDecoder P).OneHome ∧ (lyricsDecoder P).OneHome ∧ (streamDecoder P).OneHome ∧
      (callbackSongDecoder P).OneHome ∧ (matchDecoder P fullBody).OneHome ∧
      (notificationDecoder P outerTime fullBody).OneHome :=
  ⟨(appleMusicDecoder_lawful P).oneHome, (spotifyDecoder_lawful P).oneHome,
    (deezerDecoder_lawful P).oneHome, (napsterDecoder_lawful P).oneHome,
    (musicbrainzDecoder_lawful P).oneHome, (recognitionDecoder_lawful P).oneHome,
    (enterpriseChunkDecoder_lawful P).oneHome, (enterpriseSongDecoder_lawful P).oneHome,
    (lyricsDecoder_lawful P).oneHome, (streamDecoder_lawful P).oneHome,
    (callbackSongDecoder_lawful P).oneHome, (matchDecoder_lawful P fullBody).oneHome,
    (notificationDecoder_lawful P outerTime fullBody).oneHome⟩

end Audd
