import Audd.JsonParse
import Mathlib.Order.Lattice

/-!
# Links of a match

The helpers of `RecognitionResult` and `EnterpriseMatch` in `client.cpp` that give a
cover, a streaming or a preview link.

## Implementation notes

The early returns of a helper are the alternatives of an optional value. The map that
`streaming_urls` fills is ordered by the enumeration.
-/

namespace Audd

inductive StreamingProvider
  | spotify
  | appleMusic
  | deezer
  | napster
  | youTube
deriving DecidableEq

/-- The position in the enumeration. -/
def StreamingProvider.index : StreamingProvider → ℕ
  | .spotify => 0
  | .appleMusic => 1
  | .deezer => 2
  | .napster => 3
  | .youTube => 4

theorem StreamingProvider.index_injective : Function.Injective StreamingProvider.index := by
  intro p q h
  cases p <;> cases q <;> first | rfl | cases h

instance : LinearOrder StreamingProvider :=
  LinearOrder.lift' StreamingProvider.index StreamingProvider.index_injective

def streamingProviderName : StreamingProvider → String
  | .spotify => "spotify"
  | .appleMusic => "apple_music"
  | .deezer => "deezer"
  | .napster => "napster"
  | .youTube => "youtube"

def allStreamingProviders : List StreamingProvider :=
  [.spotify, .appleMusic, .deezer, .napster, .youTube]

/-- The text after the first double slash. -/
def afterSlashes : List Char → Option (List Char)
  | '/' :: '/' :: rest => some rest
  | _ :: rest => afterSlashes rest
  | [] => none

/-- A song link on lis.tn with one more parameter, else the empty text. -/
def lisTnStreamingUrl (songLink qparam : String) : String :=
  if songLink = "" then ""
  else
    match afterSlashes songLink.toList with
    | none => ""
    | some rest =>
        let host := rest.takeWhile fun c => c ≠ '/' ∧ c ≠ '?' ∧ c ≠ '#'
        if host ≠ "lis.tn".toList then ""
        else songLink ++ (if '?' ∈ songLink.toList then "&" else "?") ++ qparam

/-- The first element of an array. -/
def Json.head? : Json → Option Json
  | .array elems => elems.head?
  | _ => none

/-- The providers with a link, each with its link. -/
def urlsOf (streamingUrl : StreamingProvider → String) : OrderedMap StreamingProvider String :=
  allStreamingProviders.foldl
    (fun out p => if streamingUrl p = "" then out else out.insert p (streamingUrl p)) ∅

namespace RecognitionResult

variable (r : RecognitionResult)

def thumbnailUrl : String := lisTnStreamingUrl r.songLink "thumb"

/-- The link in the metadata block of a provider. -/
def directUrl : StreamingProvider → Option String
  | .appleMusic => (r.appleMusic.map (·.url)).filter (· ≠ "")
  | .spotify =>
      let external := r.spotify.bind fun m =>
        ((m.extras.find? "external_urls").bind (·.find? "spotify")).bind Platform.getString
      -- the block's own `uri` is used when it has no external link
      (external.filter (· ≠ "")).or ((r.spotify.map (·.uri)).filter (· ≠ ""))
  | .deezer => (r.deezer.map (·.link)).filter (· ≠ "")
  | .napster =>
      (r.napster.bind fun m => (m.extras.find? "href").bind Platform.getString).filter (· ≠ "")
  | .youTube => none

def streamingUrl (provider : StreamingProvider) : String :=
  (r.directUrl provider).getD (lisTnStreamingUrl r.songLink (streamingProviderName provider))

def streamingUrls : OrderedMap StreamingProvider String := urlsOf r.streamingUrl

def previewUrl : String :=
  let appleMusic := r.appleMusic.bind fun m =>
    (((m.extras.find? "previews").bind Json.head?).bind (·.find? "url")).bind Platform.getString
  let spotify := r.spotify.bind fun m =>
    (m.extras.find? "preview_url").bind Platform.getString
  let deezer := r.deezer.bind fun m => (m.extras.find? "preview").bind Platform.getString
  ((appleMusic.filter (· ≠ "")).or
    ((spotify.filter (· ≠ "")).or (deezer.filter (· ≠ "")))).getD ""

end RecognitionResult

namespace EnterpriseMatch

variable (m : EnterpriseMatch)

def thumbnailUrl : String := lisTnStreamingUrl m.songLink "thumb"

def streamingUrl (provider : StreamingProvider) : String :=
  lisTnStreamingUrl m.songLink (streamingProviderName provider)

def streamingUrls : OrderedMap StreamingProvider String := urlsOf m.streamingUrl

end EnterpriseMatch

/-! ## The map of links -/

theorem find?_foldl_urls (streamingUrl : StreamingProvider → String)
    (providers : List StreamingProvider) (out : OrderedMap StreamingProvider String)
    (p : StreamingProvider) :
    (providers.foldl (fun out p => if streamingUrl p = "" then out
      else out.insert p (streamingUrl p)) out).find? p =
      if p ∈ providers ∧ streamingUrl p ≠ "" then some (streamingUrl p) else out.find? p := by
  induction providers generalizing out with
  | nil => rfl
  | cons q rest ih =>
      rw [List.foldl_cons, ih]
      by_cases hrest : p ∈ rest ∧ streamingUrl p ≠ ""
      · rw [if_pos hrest, if_pos ⟨List.mem_cons_of_mem q hrest.1, hrest.2⟩]
      · rw [if_neg hrest]
        by_cases hp : p = q
        · subst hp
          by_cases hempty : streamingUrl p = ""
          · simp [hempty]
          · simp [hempty]
        · have hcons : ¬(p ∈ q :: rest ∧ streamingUrl p ≠ "") := by simpa [hp] using hrest
          rw [if_neg hcons]
          split
          · rfl
          · exact OrderedMap.find?_insert_of_ne out _ hp

/-- Exactly the providers with a link are listed. -/
theorem find?_urlsOf (streamingUrl : StreamingProvider → String) (p : StreamingProvider) :
    (urlsOf streamingUrl).find? p =
      if streamingUrl p = "" then none else some (streamingUrl p) := by
  have hall : p ∈ allStreamingProviders := by cases p <;> decide
  rw [urlsOf, find?_foldl_urls]
  by_cases hempty : streamingUrl p = ""
  · simp [hempty]
  · rw [if_pos ⟨hall, hempty⟩, if_neg hempty]

end Audd
