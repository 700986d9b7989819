import Audd.StreamingLinks

/-!
# The resolution of links

Where a streaming link and a preview link of a decoded result come from, said about
the response itself: each candidate is the value at a path into the JSON object.
-/

namespace Audd

/-! ## Paths -/

inductive PathStep
  | key (k : String)
  | index (i : ℕ)

/-- The value one step into a value: a member of an object or an element of an array. -/
def Json.at? : Json → PathStep → Option Json
  | .object members, .key k => members.find? k
  | .array elems, .index i => elems[i]?
  | _, _ => none

/-- The value at a path. Nothing is there when a step is missing or is applied to a value of
another type. -/
def Json.path? (j : Json) (path : List PathStep) : Option Json :=
  path.foldlM Json.at? j

theorem Json.path?_cons (j : Json) (step : PathStep) (path : List PathStep) :
    j.path? (step :: path) = (j.at? step).bind (·.path? path) := rfl

theorem Json.at?_key (j : Json) (k : String) : j.at? (.key k) = j.find? k := by
  cases j <;> rfl

theorem Json.at?_first (j : Json) : j.at? (.index 0) = j.head? := by
  cases j with
  | array elems => exact List.head?_eq_getElem?.symm
  | _ => rfl

theorem Json.path?_key (j : Json) (k : String) : j.path? [.key k] = j.find? k := by
  rw [Json.path?_cons, Json.at?_key]
  cases j.find? k <;> rfl

/-- A longer path goes on from the value at a shorter one. -/
theorem Json.path?_append (j : Json) (path rest : List PathStep) :
    j.path? (path ++ rest) = (j.path? path).bind (·.path? rest) := List.foldlM_append

/-! ## Candidates -/

/-- The first candidate that is there and not empty, else the empty text. -/
def firstNonEmpty (candidates : List (Option String)) : String :=
  ((candidates.filterMap (·.filter (· ≠ ""))).head?).getD ""

theorem firstNonEmpty_cons (c : Option String) (rest : List (Option String)) :
    firstNonEmpty (c :: rest) = (c.filter (· ≠ "")).getD (firstNonEmpty rest) := by
  unfold firstNonEmpty
  cases hc : c.filter (· ≠ "") with
  | none => rw [List.filterMap_cons_none hc, Option.getD_none]
  | some s => rw [List.filterMap_cons_some hc, List.head?_cons, Option.getD_some, Option.getD_some]

theorem firstNonEmpty_nil : firstNonEmpty [] = "" := rfl

section
variable (P : Platform)

/-- The text at a path after scalar coercion. -/
def coercedAt (j : Json) (path : List PathStep) : Option String :=
  (j.path? path).bind (coerceString P)

/-- The JSON string at a path. -/
def stringAt (j : Json) (path : List PathStep) : Option String :=
  (j.path? path).bind Platform.getString

/-- The direct link of a provider, which YouTube does not have. -/
def directLink (j : Json) : StreamingProvider → Option String
  | .appleMusic => coercedAt P j [.key "apple_music", .key "url"]
  | .spotify => stringAt j [.key "spotify", .key "external_urls", .key "spotify"]
  | .deezer => coercedAt P j [.key "deezer", .key "link"]
  | .napster => stringAt j [.key "napster", .key "href"]
  | .youTube => none

/-- The `uri` of the Spotify block. -/
def blockUri (j : Json) : StreamingProvider → Option String
  | .spotify => coercedAt P j [.key "spotify", .key "uri"]
  | _ => none

/-- The host of a link: what follows its first double slash up to the next slash, question
mark or number sign. -/
def linkHost (link : String) : Option String :=
  (afterSlashes link.toList).map fun rest =>
    String.ofList (rest.takeWhile fun c => c ≠ '/' ∧ c ≠ '?' ∧ c ≠ '#')

/-- The redirect to a provider of a link that is hosted on lis.tn. -/
def redirectLink (link : String) (provider : StreamingProvider) : Option String :=
  if linkHost link = some "lis.tn" then
    some (link ++ (if '?' ∈ link.toList then "&" else "?") ++ streamingProviderName provider)
  else none

/-- The paths of a preview. -/
def previewPaths : List (List PathStep) :=
  [[.key "apple_music", .key "previews", .index 0, .key "url"],
    [.key "spotify", .key "preview_url"],
    [.key "deezer", .key "preview"]]

/-! ## The decoded blocks -/

theorem metadataBlock_eq {α : Type} (decode : Json → α) (j : Json) (key : String) :
    metadataBlock decode j key = ((j.find? key).filter Json.isObject).map decode := by
  unfold metadataBlock
  cases j.find? key with
  | none => rfl
  | some v => cases v <;> rfl

theorem jStr_eq_coerceString (j : Json) (key : String) :
    jStr P j key = ((j.find? key).bind (coerceString P)).getD "" := by
  unfold jStr findValue
  cases j.find? key with
  | none => rfl
  | some v => cases v <;> rfl

/-- An empty text is no value either way. -/
theorem filter_getD (c : Option String) :
    (some (c.getD "")).filter (· ≠ "") = c.filter (· ≠ "") := by
  cases c <;> simp

theorem getD_filter (c : Option String) : (c.filter (· ≠ "")).getD "" = c.getD "" := by
  cases c with
  | none => rfl
  | some s => by_cases hs : s = "" <;> simp [Option.filter, hs]

/-- A text field of a block that is an object. -/
theorem metadataBlock_text {α : Type} (decode : Json → α) (get : α → String) (key : String)
    (hget : ∀ block, get (decode block) = jStr P block key) (j : Json) (blockKey : String) :
    ((metadataBlock decode j blockKey).map get).filter (· ≠ "") =
      (coercedAt P j [.key blockKey, .key key]).filter (· ≠ "") := by
  rw [metadataBlock_eq, coercedAt, Json.path?_cons, Json.at?_key]
  cases j.find? blockKey with
  | none => rfl
  | some block =>
      cases block with
      | object members =>
          change (some (get (decode (.object members)))).filter _ = _
          rw [hget, jStr_eq_coerceString, filter_getD, Option.bind_some, Json.path?_key]
      | _ => rfl

/-- An entry of the extras of a block that is an object. -/
theorem metadataBlock_extra {α : Type} (decode : Json → α) (extras : α → OrderedMap String Json)
    {known : List String} (key : String)
    (hextras : ∀ block, extras (decode block) = extractExtras block known) (hkey : key ∉ known)
    (j : Json) (blockKey : String) :
    ((metadataBlock decode j blockKey).bind fun m => (extras m).find? key) =
      j.path? [.key blockKey, .key key] := by
  rw [metadataBlock_eq, Json.path?_cons, Json.at?_key]
  cases j.find? blockKey with
  | none => rfl
  | some block =>
      cases block with
      | object members =>
          change (extras (decode (.object members))).find? key = _
          rw [hextras, extractExtras, OrderedMap.find?_filterKeys, if_pos (by simpa using hkey),
            Option.bind_some, Json.path?_key]
          rfl
      | _ => rfl

/-- A string in the extras of a block. -/
theorem metadataBlock_string {α : Type} (decode : Json → α) (extras : α → OrderedMap String Json)
    {known : List String} (key : String)
    (hextras : ∀ block, extras (decode block) = extractExtras block known) (hkey : key ∉ known)
    (j : Json) (blockKey : String) :
    ((metadataBlock decode j blockKey).bind fun m =>
      ((extras m).find? key).bind Platform.getString) =
      stringAt j [.key blockKey, .key key] := by
  rw [stringAt, ← metadataBlock_extra decode extras key hextras hkey, Option.bind_assoc]

/-! ## Streaming links -/

theorem lisTnStreamingUrl_eq (link : String) (provider : StreamingProvider) :
    lisTnStreamingUrl link (streamingProviderName provider) =
      (redirectLink link provider).getD "" := by
  unfold lisTnStreamingUrl redirectLink linkHost
  by_cases hempty : link = ""
  · subst hempty
    rfl
  · rw [if_neg hempty]
    cases hafter : afterSlashes link.toList with
    | none => rfl
    | some rest =>
        have hhost : (some rest).map (fun rest => String.ofList
            (rest.takeWhile fun c => c ≠ '/' ∧ c ≠ '?' ∧ c ≠ '#')) = some "lis.tn" ↔
            rest.takeWhile (fun c => c ≠ '/' ∧ c ≠ '?' ∧ c ≠ '#') = "lis.tn".toList := by
          rw [Option.map_some, Option.some.injEq, ← String.toList_inj, String.toList_ofList]
        by_cases heq : rest.takeWhile (fun c => c ≠ '/' ∧ c ≠ '?' ∧ c ≠ '#') = "lis.tn".toList
        · rw [if_pos (hhost.mpr heq)]
          exact if_neg (not_not.mpr heq)
        · rw [if_neg (hhost.not.mpr heq)]
          exact if_pos heq

/-- The link in the decoded block is the first of the candidates in the response. -/
theorem directUrl_parseRecognition (j : Json) (provider : StreamingProvider) :
    (parseRecognition P j).directUrl provider =
      ((directLink P j provider).filter (· ≠ "")).or
        ((blockUri P j provider).filter (· ≠ "")) := by
  cases provider with
  | appleMusic =>
      exact (metadataBlock_text P (parseAppleMusic P) (·.url) "url" (fun _ => rfl) j
        "apple_music").trans Option.or_none.symm
  | deezer =>
      exact (metadataBlock_text P (parseDeezer P) (·.link) "link" (fun _ => rfl) j
        "deezer").trans Option.or_none.symm
  | napster =>
      have hhref := metadataBlock_string (parseNapster P) (·.extras) "href" (fun _ => rfl)
        (by decide) j "napster"
      exact (congrArg (Option.filter _) hhref).trans Option.or_none.symm
  | spotify =>
      have hexternal : ((metadataBlock (parseSpotify P) j "spotify").bind fun m =>
          ((m.extras.find? "external_urls").bind (·.find? "spotify")).bind Platform.getString) =
          stringAt j [.key "spotify", .key "external_urls", .key "spotify"] := by
        have hblock := metadataBlock_extra (parseSpotify P) (·.extras) "external_urls"
          (fun _ => rfl) (by decide) j "spotify"
        have hpath := Json.path?_append j [.key "spotify", .key "external_urls"] [.key "spotify"]
        simp only [List.cons_append, List.nil_append, Json.path?_key] at hpath
        rw [stringAt, hpath, ← hblock]
        simp only [Option.bind_assoc]
      have huri := metadataBlock_text P (parseSpotify P) (·.uri) "uri" (fun _ => rfl) j "spotify"
      exact congrArg₂ (fun a b => (Option.filter _ a).or b) hexternal huri
  | youTube => rfl

/-- A streaming link is the first that is not empty of the provider's direct link, for
Spotify the `uri` of its block, and the redirect of a song link on lis.tn; the map of
links has exactly the providers with a link. -/
theorem streamingUrl_parseRecognition (j : Json) :
    (∀ provider, (parseRecognition P j).streamingUrl provider =
      firstNonEmpty [directLink P j provider, blockUri P j provider,
        redirectLink (jStr P j "song_link") provider]) ∧
    ∀ provider, (parseRecognition P j).streamingUrls.find? provider =
      if (parseRecognition P j).streamingUrl provider = "" then none
      else some ((parseRecognition P j).streamingUrl provider) := by
  constructor
  · intro provider
    rw [RecognitionResult.streamingUrl, directUrl_parseRecognition, lisTnStreamingUrl_eq,
      firstNonEmpty_cons, firstNonEmpty_cons, firstNonEmpty_cons, firstNonEmpty_nil, getD_filter,
      Option.getD_or]
    rfl
  · exact find?_urlsOf _

/-- The documented candidates alone: the `uri` hides the redirect. -/
theorem uri_before_redirect :
    let P := Platform.ofTable []
    let spotify := Json.object (.ofList [("uri", .string "spotify:track:1")])
    let j := Json.object (.ofList
      [("song_link", .string "https://lis.tn/a"), ("spotify", spotify)])
    (parseRecognition P j).streamingUrl .spotify = "spotify:track:1" ∧
      firstNonEmpty [directLink P j .spotify, redirectLink (jStr P j "song_link") .spotify] =
        "https://lis.tn/a?spotify" := by
  intro P spotify j
  exact ⟨by decide +kernel, by decide +kernel⟩

/-! ## Preview links -/

/-- A preview link is the first path of the response with a JSON string that is not empty. -/
theorem previewUrl_parseRecognition (j : Json) :
    (parseRecognition P j).previewUrl = firstNonEmpty (previewPaths.map (stringAt j)) := by
  have happle : ((metadataBlock (parseAppleMusic P) j "apple_music").bind fun m =>
      (((m.extras.find? "previews").bind Json.head?).bind (·.find? "url")).bind
        Platform.getString) =
      stringAt j [.key "apple_music", .key "previews", .index 0, .key "url"] := by
    have hblock := metadataBlock_extra (parseAppleMusic P) (·.extras) "previews" (fun _ => rfl)
      (by decide) j "apple_music"
    have hpath := Json.path?_append j [.key "apple_music", .key "previews"] [.index 0, .key "url"]
    have hurl : ∀ v : Json, v.path? [.index 0, .key "url"] = v.head?.bind (·.find? "url") := by
      intro v
      rw [Json.path?_cons, Json.at?_first]
      simp only [Json.path?_key]
    simp only [List.cons_append, List.nil_append, hurl] at hpath
    rw [stringAt, hpath, ← hblock]
    simp only [Option.bind_assoc]
  have hspotify := metadataBlock_string (parseSpotify P) (·.extras) "preview_url" (fun _ => rfl)
    (by decide) j "spotify"
  have hdeezer := metadataBlock_string (parseDeezer P) (·.extras) "preview" (fun _ => rfl)
    (by decide) j "deezer"
  simp only [previewPaths, List.map_cons, List.map_nil, firstNonEmpty_cons, firstNonEmpty_nil]
  rw [← happle, ← hspotify, ← hdeezer, ← Option.getD_or, ← Option.getD_or,
    Option.or_assoc]
  rfl

end

end Audd
