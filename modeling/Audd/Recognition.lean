import Audd.Lib.ExactDouble
import Audd.Json

/-!
# Typed models

The plain data of `recognition.hpp` and `callback.hpp`. Every model has an
`extras` map for the keys its decoder does not know and, but for a song of a
callback, the text it was decoded from.
-/

namespace Audd

structure AppleMusicMetadata where
  artistName : String
  url : String
  durationInMillis : Int32
  name : String
  isrc : String
  albumName : String
  trackNumber : Int32
  composerName : String
  discNumber : Int32
  releaseDate : String
  extras : OrderedMap String Json
  rawResponse : String

structure SpotifyMetadata where
  id : String
  name : String
  durationMs : Int32
  explicit : Bool
  popularity : Int32
  trackNumber : Int32
  type : String
  uri : String
  extras : OrderedMap String Json
  rawResponse : String

structure DeezerMetadata where
  id : Int32
  title : String
  duration : Int32
  link : String
  extras : OrderedMap String Json
  rawResponse : String

structure NapsterMetadata where
  id : String
  name : String
  isrc : String
  artistName : String
  albumName : String
  extras : OrderedMap String Json
  rawResponse : String

/-- The server sends `score` as an integer or a text, so it stays raw. -/
structure MusicBrainzEntry where
  id : String
  score : Json
  title : String
  length : Int32
  extras : OrderedMap String Json
  rawResponse : String

structure RecognitionResult where
  timecode : String
  audioId : Option Int32
  artist : String
  title : String
  album : String
  releaseDate : String
  label : String
  songLink : String
  isrc : String
  upc : String
  appleMusic : Option AppleMusicMetadata
  spotify : Option SpotifyMetadata
  deezer : Option DeezerMetadata
  napster : Option NapsterMetadata
  musicbrainz : List MusicBrainzEntry
  extras : OrderedMap String Json
  rawResponse : String

/-- One match of an enterprise chunk. The two file positions are no wire fields:
`recognize_enterprise` computes them from the chunk's offset. -/
structure EnterpriseMatch where
  score : Int32
  timecode : String
  audioId : Option Int32
  artist : String
  title : String
  album : String
  releaseDate : String
  label : String
  isrc : String
  upc : String
  songLink : String
  startOffset : Int32
  endOffset : Int32
  startSeconds : Option ExactDouble := none
  endSeconds : Option ExactDouble := none
  extras : OrderedMap String Json
  rawResponse : String

structure EnterpriseChunkResult where
  songs : List EnterpriseMatch
  offset : String
  extras : OrderedMap String Json
  rawResponse : String

structure LyricsResult where
  artist : String
  title : String
  lyrics : String
  songId : Int32
  media : String
  fullTitle : String
  artistId : Int32
  songLink : String
  extras : OrderedMap String Json
  rawResponse : String

structure Stream where
  radioId : Int32
  url : String
  streamRunning : Bool
  longpollCategory : String
  extras : OrderedMap String Json
  rawResponse : String

structure StreamCallbackSong where
  score : Int32
  artist : String
  title : String
  album : String
  releaseDate : String
  label : String
  songLink : String
  isrc : String
  upc : String
  appleMusic : Option AppleMusicMetadata
  spotify : Option SpotifyMetadata
  deezer : Option DeezerMetadata
  napster : Option NapsterMetadata
  musicbrainz : List MusicBrainzEntry
  extras : OrderedMap String Json

structure StreamCallbackMatch where
  radioId : Int64
  timestamp : String
  playLength : Int32
  song : StreamCallbackSong
  alternatives : List StreamCallbackSong
  extras : OrderedMap String Json
  rawResponse : String

/-- `time` is a field of the outer body, not of the notification block. -/
structure StreamCallbackNotification where
  radioId : Int32
  streamRunning : Option Bool
  notificationCode : Int32
  notificationMessage : String
  time : Int32
  extras : OrderedMap String Json
  rawResponse : String

/-- What a callback body decodes to. -/
inductive CallbackEvent
  | matchEvent (m : StreamCallbackMatch)
  | notificationEvent (n : StreamCallbackNotification)

structure RecognizeOptions where
  returnMetadata : List String := []
  market : String := ""
  extraParameters : OrderedMap String String := ∅

structure EnterpriseOptions where
  returnMetadata : List String := []
  skip : Option ℤ := none
  every : Option ℤ := none
  limit : Option ℤ := none
  skipFirstSeconds : Option ℤ := none
  useTimecode : Option Bool := none
  accurateOffsets : Option Bool := none
  extraParameters : OrderedMap String String := ∅

end Audd
