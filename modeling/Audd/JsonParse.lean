import Audd.Coercion
import Audd.Error
import Audd.Recognition

/-!
# Decoders

The object decoders of `json_parse.cpp`. Each reads its fields by key and then
collects the members whose key is not in its list of known keys.
-/

namespace Audd

open Decimal

section
variable (P : Platform)

/-- One component of an offset: `std::stod` has to consume all of it. -/
def parseComponent (s : List Char) : Option ExactDouble :=
  if s = [] then none
  else
    match stod P.stodRangeError s with
    | some (v, []) => some v
    | _ => none

/-- The components of a text cut at every colon, `cur` being the one in progress. -/
def splitColons : List Char → List Char → List (List Char)
  | [], cur => [cur]
  | ':' :: rest, cur => cur :: splitColons rest []
  | ch :: rest, cur => splitColons rest (cur ++ [ch])

/-- Add the components up in base sixty, stopping at one that does not parse. -/
def sumComponents (total : ExactDouble) : List (List Char) → Option ExactDouble
  | [] => some total
  | p :: rest =>
      match parseComponent P p with
      | some v => sumComponents (total.scale 60 + v) rest
      | none => none

/-- The seconds of a chunk offset written `SS`, `MM:SS` or `HH:MM:SS`. -/
def offsetToSeconds (offset : String) : Option ExactDouble :=
  if offset = "" then none
  else
    let parts := splitColons offset.toList []
    if 3 < parts.length then none else sumComponents P (.finite 0) parts

/-- The members of an object whose key is not known. -/
def extractExtras (obj : Json) (known : List String) : OrderedMap String Json :=
  match obj with
  | .object members => members.filterKeys fun key => key ∉ known
  | _ => ∅

def parseAppleMusic (j : Json) : AppleMusicMetadata where
  artistName := jStr P j "artistName"
  url := jStr P j "url"
  durationInMillis := jInt P j "durationInMillis"
  name := jStr P j "name"
  isrc := jStr P j "isrc"
  albumName := jStr P j "albumName"
  trackNumber := jInt P j "trackNumber"
  composerName := jStr P j "composerName"
  discNumber := jInt P j "discNumber"
  releaseDate := jStr P j "releaseDate"
  extras := extractExtras j
    ["artistName", "url", "durationInMillis", "name", "isrc", "albumName", "trackNumber",
      "composerName", "discNumber", "releaseDate"]
  rawResponse := P.dump j

def parseSpotify (j : Json) : SpotifyMetadata where
  id := jStr P j "id"
  name := jStr P j "name"
  durationMs := jInt P j "duration_ms"
  explicit := jBool j "explicit"
  popularity := jInt P j "popularity"
  trackNumber := jInt P j "track_number"
  type := jStr P j "type"
  uri := jStr P j "uri"
  extras := extractExtras j
    ["id", "name", "duration_ms", "explicit", "popularity", "track_number", "type", "uri"]
  rawResponse := P.dump j

def parseDeezer (j : Json) : DeezerMetadata where
  id := jInt P j "id"
  title := jStr P j "title"
  duration := jInt P j "duration"
  link := jStr P j "link"
  extras := extractExtras j ["id", "title", "duration", "link"]
  rawResponse := P.dump j

def parseNapster (j : Json) : NapsterMetadata where
  id := jStr P j "id"
  name := jStr P j "name"
  isrc := jStr P j "isrc"
  artistName := jStr P j "artistName"
  albumName := jStr P j "albumName"
  extras := extractExtras j ["id", "name", "isrc", "artistName", "albumName"]
  rawResponse := P.dump j

def parseMusicbrainz (j : Json) : MusicBrainzEntry where
  id := jStr P j "id"
  score := (j.find? "score").getD .null
  title := jStr P j "title"
  length := jInt P j "length"
  extras := extractExtras j ["id", "score", "title", "length"]
  rawResponse := P.dump j

/-- A metadata block of a song: decoded when the member is an object. -/
def metadataBlock {α : Type} (decode : Json → α) (j : Json) (key : String) : Option α :=
  match j.find? key with
  | some (.object members) => some (decode (.object members))
  | _ => none

/-- The `musicbrainz` list of a song: one entry for each element of an array. -/
def musicbrainzEntries (j : Json) : List MusicBrainzEntry :=
  match j.find? "musicbrainz" with
  | some (.array elems) => elems.map (parseMusicbrainz P)
  | _ => []

def parseRecognition (j : Json) : RecognitionResult where
  timecode := jStr P j "timecode"
  audioId := jAudioId P j "audio_id"
  artist := jStr P j "artist"
  title := jStr P j "title"
  album := jStr P j "album"
  releaseDate := jStr P j "release_date"
  label := jStr P j "label"
  songLink := jStr P j "song_link"
  isrc := jStr P j "isrc"
  upc := jStr P j "upc"
  appleMusic := metadataBlock (parseAppleMusic P) j "apple_music"
  spotify := metadataBlock (parseSpotify P) j "spotify"
  deezer := metadataBlock (parseDeezer P) j "deezer"
  napster := metadataBlock (parseNapster P) j "napster"
  musicbrainz := musicbrainzEntries P j
  extras := extractExtras j
    ["timecode", "audio_id", "artist", "title", "album", "release_date", "label", "song_link",
      "isrc", "upc", "apple_music", "spotify", "deezer", "napster", "musicbrainz"]
  rawResponse := P.dump j

/-- The body of the loop of `parse_enterprise_chunk` over the songs. -/
def parseEnterpriseSong (song : Json) : EnterpriseMatch where
  score := jInt P song "score"
  timecode := jStr P song "timecode"
  audioId := jAudioId P song "audio_id"
  artist := jStr P song "artist"
  title := jStr P song "title"
  album := jStr P song "album"
  releaseDate := jStr P song "release_date"
  label := jStr P song "label"
  isrc := jStr P song "isrc"
  upc := jStr P song "upc"
  songLink := jStr P song "song_link"
  startOffset := jInt P song "start_offset"
  endOffset := jInt P song "end_offset"
  extras := extractExtras song
    ["score", "timecode", "audio_id", "artist", "title", "album", "release_date", "label",
      "isrc", "upc", "song_link", "start_offset", "end_offset"]
  rawResponse := P.dump song

def parseEnterpriseChunk (j : Json) : EnterpriseChunkResult where
  songs :=
    match j.find? "songs" with
    | some (.array elems) => elems.map (parseEnterpriseSong P)
    | _ => []
  offset := jStr P j "offset"
  extras := extractExtras j ["songs", "offset"]
  rawResponse := P.dump j

def parseLyrics (j : Json) : LyricsResult where
  artist := jStr P j "artist"
  title := jStr P j "title"
  lyrics := jStr P j "lyrics"
  songId := jInt P j "song_id"
  media := jStr P j "media"
  fullTitle := jStr P j "full_title"
  artistId := jInt P j "artist_id"
  songLink := jStr P j "song_link"
  extras := extractExtras j
    ["artist", "title", "lyrics", "song_id", "media", "full_title", "artist_id", "song_link"]
  rawResponse := P.dump j

def parseStream (j : Json) : Stream where
  radioId := jInt P j "radio_id"
  url := jStr P j "url"
  streamRunning := jBool j "stream_running"
  longpollCategory := jStr P j "longpoll_category"
  extras := extractExtras j ["radio_id", "url", "stream_running", "longpoll_category"]
  rawResponse := P.dump j

def parseStreamCallbackSong (j : Json) : StreamCallbackSong where
  score := jInt P j "score"
  artist := jStr P j "artist"
  title := jStr P j "title"
  album := jStr P j "album"
  releaseDate := jStr P j "release_date"
  label := jStr P j "label"
  songLink := jStr P j "song_link"
  isrc := jStr P j "isrc"
  upc := jStr P j "upc"
  appleMusic := metadataBlock (parseAppleMusic P) j "apple_music"
  spotify := metadataBlock (parseSpotify P) j "spotify"
  deezer := metadataBlock (parseDeezer P) j "deezer"
  napster := metadataBlock (parseNapster P) j "napster"
  musicbrainz := musicbrainzEntries P j
  extras := extractExtras j
    ["score", "artist", "title", "album", "release_date", "label", "song_link", "isrc", "upc",
      "apple_music", "spotify", "deezer", "napster", "musicbrainz"]

/-- The candidate songs of a match. -/
def callbackSongs (resultObj : Json) : List StreamCallbackSong :=
  match resultObj.find? "results" with
  | some (.array elems) => elems.map (parseStreamCallbackSong P)
  | _ => []

def parseStreamCallbackMatch (resultObj : Json) (fullBody : String) :
    Except Exn StreamCallbackMatch :=
  match callbackSongs P resultObj with
  | [] => .error (.serialization "callback result.results is empty" fullBody)
  | song :: alternatives => .ok {
      radioId := jInt64 P resultObj "radio_id"
      timestamp := jStr P resultObj "timestamp"
      playLength := jInt P resultObj "play_length"
      song := song
      alternatives := alternatives
      extras := extractExtras resultObj ["radio_id", "timestamp", "play_length", "results"]
      rawResponse := fullBody }

def parseStreamCallbackNotification (notificationObj : Json) (outerTime : Int32)
    (fullBody : String) : StreamCallbackNotification where
  radioId := jInt P notificationObj "radio_id"
  streamRunning := (findValue notificationObj "stream_running").bind coerceBool
  notificationCode := jInt P notificationObj "notification_code"
  notificationMessage := jStr P notificationObj "notification_message"
  time := outerTime
  extras := extractExtras notificationObj
    ["radio_id", "stream_running", "notification_code", "notification_message"]
  rawResponse := fullBody

/-- The text `Artist — Title` of a result block, as far as it has both. -/
def brandedMessage (result : Json) : String :=
  if !result.isObject then ""
  else
    let artist := jStr P result "artist"
    let title := jStr P result "title"
    if artist = "" ∧ title = "" then ""
    else if artist ≠ "" ∧ title ≠ "" then artist ++ " \xe2\x80\x94 " ++ title
    else if artist ≠ "" then artist
    else title

/-- The exception for a body that reports an error. -/
def raiseFromErrorResponse (body : Json) (httpStatus : ℤ) (requestId : String)
    (customCatalogContext : Bool) : Exn :=
  let err := (body.find? "error").filter Json.isObject
  let code := (err.map fun e => jInt P e "error_code").getD 0
  let msg := (err.map fun e => jStr P e "error_message").getD ""
  let params := (body.find? "request_params").or (body.find? "requested_params")
  let requestedParams : OrderedMap String String :=
    match params with
    | some (.object members) => members.mapValues fun _ v => (Platform.getString v).getD (P.dump v)
    | _ => ∅
  let e : ApiError := {
    errorCode := code
    message := msg
    httpStatus := httpStatus
    requestId := requestId
    requestMethod := jStr P body "request_api_method"
    brandedMessage := ((body.find? "result").map (brandedMessage P)).getD ""
    requestedParams := requestedParams
    rawResponse := if body.isNull then "" else P.dump body }
  -- the constructor's longer text is for `what()`: `message` is the server's own
  if customCatalogContext ∧ (code = 904 ∨ code = 905) then .customCatalogAccess e msg
  else .api e

/-- The exception is an `AudDApiError` of the response. -/
theorem raiseFromErrorResponse_apiError? (body : Json) (httpStatus : ℤ) (requestId : String)
    (customCatalogContext : Bool) : ∃ e,
      (raiseFromErrorResponse P body httpStatus requestId customCatalogContext).apiError? = some e ∧
        e.httpStatus = httpStatus ∧ e.requestId = requestId := by
  unfold raiseFromErrorResponse
  extract_lets err code msg params requestedParams e
  refine ⟨e, ?_, rfl, rfl⟩
  by_cases h : customCatalogContext ∧ (code = 904 ∨ code = 905)
  · rw [if_pos h]
    rfl
  · rw [if_neg h]
    rfl

end

/-- The list under `result`, when it is a list. -/
def resultArrayOrNull (body : Json) : Option (List Json) :=
  match body.find? "result" with
  | some (.array elems) => some elems
  | _ => none

/-- What the longpoll worker does with a completed round trip. -/
inductive LongpollDisposition
  | terminal
  | keepAlive
  | event
  | skip
deriving DecidableEq

def classifyLongpollResponse (httpStatus : ℤ) (body : Json) (bodyEmpty : Bool) :
    LongpollDisposition :=
  if 400 ≤ httpStatus then .terminal
  else if bodyEmpty then .skip
  else if body.isObject ∧ body.contains "timeout" ∧ ¬body.contains "result" ∧
      ¬body.contains "notification" then .keepAlive
  else .event

/-- Only the HTTP status ends a subscription. -/
theorem classifyLongpollResponse_eq_terminal_iff (httpStatus : ℤ) (body : Json)
    (bodyEmpty : Bool) :
    classifyLongpollResponse httpStatus body bodyEmpty = .terminal ↔ 400 ≤ httpStatus := by
  unfold classifyLongpollResponse
  split
  · simp [*]
  · split
    · simp [*]
    · split <;> simp [*]

/-- Look for a key in a query from a position on, one `&`-separated piece a turn. -/
def queryHasKey (key : List Char) (query : List Char) : Bool :=
  if (query.takeWhile (· ≠ '&')).takeWhile (· ≠ '=') = key then true
  else if query.dropWhile (· ≠ '&') = [] then false
  else queryHasKey key (query.dropWhile (· ≠ '&')).tail
termination_by query.length
decreasing_by
  rename_i h
  have hl := (List.dropWhile_suffix (l := query) (· ≠ '&')).length_le
  have hp := List.length_pos_iff.mpr h
  rw [List.length_tail]
  omega

/-- Whether the query of a URL has a key, as a whole key. -/
def urlQueryHasKey (url key : String) : Bool :=
  match url.toList.dropWhile (· ≠ '?') with
  | [] => false
  | _ :: query => queryHasKey key.toList query

end Audd
