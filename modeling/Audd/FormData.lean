import Audd.Endpoints

/-!
# The data of a form

Which value the form of a request has under each key. The form is built by
several functions that write into one map, so each of them is described by what
it lays over the lookups before it.
-/

namespace Audd

/-- Parameters with the values that the caller supplied. -/
abbrev TypedParams := List (String × Option String)

def TypedParams.get (typed : TypedParams) (key : String) : Option String :=
  (typed.lookup key).join

/-- The value that a request should have under a key: a typed one, else an extra
one, else the client's token. -/
def sentValue (typed : TypedParams) (extra : OrderedMap String String) (token key : String) :
    Option String :=
  (typed.get key).or ((extra.find? key).or
    (if key = "api_token" ∧ token ≠ "" then some token else none))

/-- The address in a source that is one. -/
def Source.url? : Source → Option String
  | .text s => if startsWith s "http://" ∨ startsWith s "https://" then some s else none
  | .sourceUrl url => some url
  | .sourceFilePath _ => none
  | .sourceBytes _ _ _ => none

/-- The typed options of each call, the last written first. -/
def RecognizeOptions.typed (opts : RecognizeOptions) : TypedParams :=
  [("market", textOption opts.market), ("return", listOption opts.returnMetadata)]

def EnterpriseOptions.typed (opts : EnterpriseOptions) : TypedParams :=
  [("accurate_offsets", some (boolText (opts.accurateOffsets.getD true))),
    ("use_timecode", opts.useTimecode.map boolText),
    ("skip_first_seconds", opts.skipFirstSeconds.map toString),
    ("limit", opts.limit.map toString), ("every", opts.every.map toString),
    ("skip", opts.skip.map toString), ("return", listOption opts.returnMetadata)]

def AddStreamRequest.typed (req : AddStreamRequest) : TypedParams :=
  [("callbacks", textOption req.callbacks), ("radio_id", some (toString req.radioId)),
    ("url", some req.url)]

/-- The lookups of a map are those of some parameters laid over other lookups. -/
def Overlays (data : OrderedMap String String) (typed : TypedParams)
    (base : String → Option String) : Prop :=
  ∀ key, data.find? key = (typed.get key).or (base key)

namespace Overlays

variable {data : OrderedMap String String} {typed : TypedParams} {base : String → Option String}

/-- Before any parameter is written. -/
theorem of_find? (h : ∀ key, data.find? key = base key) : Overlays data [] base := h

theorem get_cons (key : String) (value : Option String) (typed : TypedParams) (k : String) :
    TypedParams.get ((key, value) :: typed) k = if k = key then value else typed.get k := by
  unfold TypedParams.get
  rw [List.lookup_cons]
  by_cases h : k = key
  · simp [h]
  · simp [h, beq_false_of_ne h]

/-- A parameter that is always written. -/
theorem insert (h : Overlays data typed base) (key value : String) :
    Overlays (data.insert key value) ((key, some value) :: typed) base := by
  intro k
  rw [OrderedMap.find?_insert, get_cons]
  split
  · rfl
  · exact h k

/-- A parameter that is written when it has a value. -/
theorem writeSome (h : Overlays data typed base) (key : String) (value : Option String)
    (hkey : typed.get key = none) :
    Overlays (Audd.writeSome data key value) ((key, value) :: typed) base := by
  cases value with
  | some v => exact h.insert key v
  | none =>
      intro k
      rw [get_cons]
      split
      · rename_i hk
        rw [Audd.writeSome, h k, hk, hkey]
      · exact h k

/-- A key that no parameter has. -/
theorem find?_of_get_eq_none (h : Overlays data typed base) {key : String}
    (hkey : typed.get key = none) : data.find? key = base key := by
  rw [h key, hkey, Option.none_or]

/-- The token goes under everything else. -/
theorem injectToken (h : Overlays data typed base) (token : String) (key : String) :
    (injectToken token data).find? key = (typed.get key).or ((base key).or
      (if key = "api_token" ∧ token ≠ "" then some token else none)) := by
  rw [← Option.or_assoc, ← h key, find?_injectToken]

end Overlays

/-- A prepared source puts its address, and nothing else, into the form. -/
theorem prepareSource_data {fileExists : String → Bool} {source : Source} {fields : FormFields}
    (h : prepareSource fileExists source = .ok fields) (key : String) :
    fields.data.find? key = if key = "url" then source.url? else none := by
  have hurl : ∀ url, (urlFields url).data.find? key = if key = "url" then some url else none := by
    intro url
    rw [urlFields, OrderedMap.find?_insert, OrderedMap.find?_empty]
  cases source with
  | text s =>
      simp only [prepareSource, prepareWith] at h
      split at h
      · obtain rfl := Except.ok.inj h
        have hsource : (Source.text s).url? = some s := by rw [Source.url?, if_pos ‹_›]
        rw [hurl, hsource]
      · split at h
        · obtain rfl := Except.ok.inj h
          simp [Source.url?, if_neg ‹_›, pathFields]
        · simp at h
  | sourceUrl url =>
      obtain rfl := Except.ok.inj h
      exact hurl url
  | sourceFilePath path =>
      obtain rfl := Except.ok.inj h
      simp [Source.url?, pathFields]
  | sourceBytes bytes name mimeType =>
      obtain rfl := Except.ok.inj h
      simp [Source.url?, bytesFields]

/-- The extra parameters are laid over the source's address. -/
theorem overlays_extra {fileExists : String → Bool} {source : Source} {fields : FormFields}
    (h : prepareSource fileExists source = .ok fields) (extra : OrderedMap String String) :
    Overlays (fields.data.insertAll extra) [] fun key =>
      (extra.find? key).or (if key = "url" then source.url? else none) := by
  apply Overlays.of_find?
  intro key
  rw [OrderedMap.find?_insertAll, prepareSource_data h]

theorem overlays_formOver (extra : OrderedMap String String) :
    Overlays ((∅ : OrderedMap String String).insertAll extra) [] extra.find? := by
  apply Overlays.of_find?
  intro key
  rw [OrderedMap.find?_insertAll, OrderedMap.find?_empty, Option.or_none]

theorem applyRecognizeOpts_overlays {fileExists : String → Bool} {source : Source}
    {fields : FormFields} (h : prepareSource fileExists source = .ok fields)
    (opts : RecognizeOptions) :
    Overlays (applyRecognizeOpts fields opts).data opts.typed fun key =>
      (opts.extraParameters.find? key).or (if key = "url" then source.url? else none) :=
  ((overlays_extra h opts.extraParameters).writeSome "return" _ rfl).writeSome "market" _ rfl

theorem applyEnterpriseOpts_overlays {fileExists : String → Bool} {source : Source}
    {fields : FormFields} (h : prepareSource fileExists source = .ok fields)
    (opts : EnterpriseOptions) :
    Overlays (applyEnterpriseOpts fields opts).data opts.typed fun key =>
      (opts.extraParameters.find? key).or (if key = "url" then source.url? else none) := by
  have hreturn := (overlays_extra h opts.extraParameters).writeSome "return"
    (listOption opts.returnMetadata) rfl
  have hskip := hreturn.writeSome "skip" (opts.skip.map toString) rfl
  have hevery := hskip.writeSome "every" (opts.every.map toString) rfl
  have hlimit := hevery.writeSome "limit" (opts.limit.map toString) rfl
  have hfirst := hlimit.writeSome "skip_first_seconds" (opts.skipFirstSeconds.map toString) rfl
  have htimecode := hfirst.writeSome "use_timecode" (opts.useTimecode.map boolText) rfl
  exact htimecode.insert "accurate_offsets" _

theorem addFields_overlays (req : AddStreamRequest) :
    Overlays (addFields req).data req.typed req.extraParameters.find? := by
  have hurl := (overlays_formOver req.extraParameters).insert "url" req.url
  exact (hurl.insert "radio_id" (toString req.radioId)).writeSome "callbacks" _ rfl

/-- What a recognition sends under a key. An extra `url` beside an address in the
source is left out. -/
theorem Overlays.sentValue_source {data : OrderedMap String String} {typed : TypedParams}
    {extra : OrderedMap String String} {url : Option String}
    (h : Overlays data typed fun key =>
      (extra.find? key).or (if key = "url" then url else none))
    (hurl : typed.get "url" = none) (token key : String)
    (hclash : key = "url" → url.isSome → extra.find? "url" = none) :
    (Audd.injectToken token data).find? key =
      sentValue (("url", url) :: typed) extra token key := by
  rw [h.injectToken, sentValue, Overlays.get_cons]
  by_cases hk : key = "url"
  · subst hk
    cases url with
    | none => simp [hurl]
    | some u => simp [hurl, hclash rfl rfl]
  · simp [hk]

/-- The data that every attempt sends under every key: the typed value, else the
extra parameter, else the token. `accurate_offsets` is typed with its default. -/
theorem sent_data_eq (P : Platform) (config : ClientConfig) (env : CallEnv) :
    (∀ source opts i a key, (recognize P config source opts env).attempts[i]? = some a →
      (key = "url" → source.url?.isSome → opts.extraParameters.find? "url" = none) →
      a.fields.data.find? key = sentValue (("url", source.url?) :: opts.typed)
        opts.extraParameters (env.attempts i).apiToken key) ∧
    (∀ source opts i a key, (recognizeEnterprise P config source opts env).attempts[i]? = some a →
      (key = "url" → source.url?.isSome → opts.extraParameters.find? "url" = none) →
      a.fields.data.find? key = sentValue (("url", source.url?) :: opts.typed)
        opts.extraParameters (env.attempts i).apiToken key) ∧
    (∀ url opts i a key, (setCallbackUrl P config url opts env).attempts[i]? = some a →
      ∃ finalUrl, addReturnToUrl url opts.returnMetadata = .ok finalUrl ∧
        a.fields.data.find? key = sentValue [("url", some finalUrl)]
          opts.extraParameters (env.attempts i).apiToken key) ∧
    (∀ req i a key, (addStream P config req env).attempts[i]? = some a →
      a.fields.data.find? key = sentValue req.typed req.extraParameters
        (env.attempts i).apiToken key) := by
  have hdata : ∀ {maxAttempts backoff gate url fields i} {a : Attempt},
      (postWithRetry P maxAttempts backoff gate url fields env).attempts[i]? = some a →
        a.fields.data = injectToken (env.attempts i).apiToken fields.data := by
    intro maxAttempts backoff gate url fields i a ha
    rw [eq_postForm_of_attempts ha, postForm_fields]
  refine ⟨?_, ?_, ?_, ?_⟩
  · intro source opts i a key ha hclash
    obtain ⟨fields, hfields, rfl⟩ := recognize_attempt ha
    rw [postForm_fields]
    exact (applyRecognizeOpts_overlays hfields opts).sentValue_source rfl _ key hclash
  · intro source opts i a key ha hclash
    obtain ⟨fields, hfields, rfl⟩ := recognizeEnterprise_attempt ha
    rw [postForm_fields]
    exact (applyEnterpriseOpts_overlays hfields opts).sentValue_source rfl _ key hclash
  · intro url opts i a key ha
    cases hurl : addReturnToUrl url opts.returnMetadata with
    | error e => simp [setCallbackUrl, hurl, ApiRun.throw] at ha
    | ok finalUrl =>
        simp only [setCallbackUrl, hurl, ApiRun.map_attempts, internalPostForm_attempts] at ha
        rw [hdata ha]
        exact ⟨finalUrl, rfl,
          ((overlays_formOver opts.extraParameters).insert "url" finalUrl).injectToken _ key⟩
  · intro req i a key ha
    simp only [addStream, ApiRun.map_attempts, internalPostForm_attempts] at ha
    rw [hdata ha]
    exact (addFields_overlays req).injectToken _ key

/-- An enterprise request carries `accurate_offsets` although the caller gave no
such option, and an extra `url` replaces the address in the source. -/
theorem recognition_data_differs :
    let P := Platform.ofTable []
    let env : CallEnv := { attempts := fun _ => { apiToken := "test", transfer := {
      first := { sent := 0, status := 200, headerLines := [] }
      redirects := []
      code := .ok
      body := "" } } }
    let source := Source.sourceUrl "https://example.com/a.mp3"
    let opts : RecognizeOptions :=
      { extraParameters := .ofList [("url", "https://example.com/b.mp3")] }
    (recognizeEnterprise P {} source {} env).attempts.map
        (fun a => a.fields.data.find? "accurate_offsets") = [some "true"] ∧
      (recognize P {} source opts env).attempts.map (fun a => a.fields.data.find? "url") =
        [some "https://example.com/b.mp3"] := by
  intro P env source opts
  exact ⟨by decide, by decide⟩

end Audd
