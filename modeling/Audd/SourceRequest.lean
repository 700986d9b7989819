import Audd.BodyEncodings
import Audd.FormData

/-!
# What a source becomes in a request

A source is an address, a file or bytes. An address goes into the `url` field of the
form, the other two into its file section, where an empty path stands for bytes.

## Implementation notes

A request is looked at when its form consists of bytes, as every C++ string does. A call
writes its own fields over the source's, so the condition on an address is about the extra
parameters too.
-/

namespace Audd

/-- What a source is. -/
inductive Payload
  | url (url : String)
  | path (path : String)
  | bytes (bytes : List UInt8)

def Source.payload : Source → Payload
  | .text s => if startsWith s "http://" ∨ startsWith s "https://" then .url s else .path s
  | .sourceUrl url => .url url
  | .sourceFilePath path => .path path
  | .sourceBytes bytes _ _ => .bytes bytes

/-- The sections of a body that are not data fields. -/
def RequestBody.fileParts : RequestBody → List MimePart
  | .multipart parts => parts.filter fun part => part.pair? = none
  | .urlencoded _ => []

def IsFileName (name : String) : Prop := name ≠ "" ∧ '/' ∉ name.toList ∧ '\\' ∉ name.toList

/-- A body carries a payload as what it is. -/
def Payload.CarriedBy (body : RequestBody) : Payload → Prop
  | .url u =>
      ∃ text, body = .urlencoded text ∧ ∀ value, ("url", value) ∈ formPairs text ↔ value = u
  | .path p =>
      ∃ part name, body.fileParts = [part] ∧ part.name = "file" ∧
        part.content = .filedata p ∧ part.filename = some name ∧ IsFileName name
  | .bytes b =>
      ∃ part, body.fileParts = [part] ∧ part.name = "file" ∧ part.content = .bytes b

/-- The paths whose file name survives the attaching of the file. -/
def FiledataName.Suits (path : String) : FiledataName → Prop
  | .kept => True
  | .posix => lastComponent path ≠ [] ∧ '\\' ∉ lastComponent path
  | .cut => ∀ c ∈ path.toList.getLast?, c ≠ '/' ∧ c ≠ '\\'

/-- No extra parameter replaces the address; the path is a C text with a file name. -/
def Payload.Sendable (P : Platform) (extra : OrderedMap String String) : Payload → Prop
  | .url u => ∀ value, extra.find? "url" = some value → value = u
  | .path p => p ≠ "" ∧ NulFree p ∧ P.filedataName.Suits p
  | .bytes _ => True

/-- The form that a payload is prepared as. -/
def Payload.PreparedAs (fields : FormFields) : Payload → Prop
  | .url u => fields = urlFields u
  | .path p => fields = pathFields p
  | .bytes b => ∃ name mimeType, fields = bytesFields b name mimeType

/-! ## Preparing a source -/

theorem payload_preparedAs {rejection : String → String} {fileExists : String → Bool}
    {source : Source} {fields : FormFields}
    (h : prepareWith rejection fileExists source = .ok fields) :
    source.payload.PreparedAs fields := by
  cases source with
  | text s =>
      rw [prepareWith] at h
      rw [Source.payload]
      split at h
      · rename_i hurl
        rw [if_pos hurl]
        exact (Except.ok.inj h).symm
      · rename_i hurl
        rw [if_neg hurl]
        split at h
        · exact (Except.ok.inj h).symm
        · cases h
  | sourceUrl url => exact (Except.ok.inj h).symm
  | sourceFilePath path => exact (Except.ok.inj h).symm
  | sourceBytes bytes name mimeType => exact ⟨name, mimeType, (Except.ok.inj h).symm⟩

/-- Both functions accept the same sources and build the same form. -/
theorem prepareSourceForUpload_toOption (fileExists : String → Bool) (source : Source) :
    (prepareSourceForUpload fileExists source).toOption =
      (prepareSource fileExists source).toOption := by
  cases source with
  | text s =>
      rw [prepareSourceForUpload, prepareSource, prepareWith, prepareWith]
      split
      · rfl
      · split <;> rfl
  | sourceUrl url => rfl
  | sourceFilePath path => rfl
  | sourceBytes bytes name mimeType => rfl

/-! ## The name of a file -/

theorem isFileName_ofList {l : List Char} :
    IsFileName (String.ofList l) ↔ l ≠ [] ∧ '/' ∉ l ∧ '\\' ∉ l := by
  rw [IsFileName, String.toList_ofList, ← String.toList_inj.ne, String.toList_ofList]
  rfl

theorem notMem_afterSeparators (path : String) :
    '/' ∉ afterSeparators path ∧ '\\' ∉ afterSeparators path := by
  constructor <;>
  · intro hmem
    simpa using List.mem_takeWhile_imp (List.mem_reverse.mp hmem)

theorem afterSeparators_ne_nil_iff {path : String} (hne : path ≠ "") :
    afterSeparators path ≠ [] ↔ ∀ c ∈ path.toList.getLast?, c ≠ '/' ∧ c ≠ '\\' := by
  rw [afterSeparators, ne_eq, List.reverse_eq_nil_iff, ← List.head?_reverse]
  cases hlast : path.toList.reverse with
  | nil => exact absurd (String.toList_eq_nil_iff.mp (List.reverse_eq_nil_iff.mp hlast)) hne
  | cons c rest => simp [List.takeWhile_cons]

theorem displayName_eq (path : String) :
    displayName path =
      if afterSeparators path = [] then "upload.bin" else String.ofList (afterSeparators path) :=
  rfl

theorem isFileName_displayName (path : String) : IsFileName (displayName path) := by
  rw [displayName_eq]
  split
  · unfold IsFileName
    decide
  · rename_i hne
    exact isFileName_ofList.mpr ⟨hne, notMem_afterSeparators path⟩

theorem nulFree_displayName {path : String} (h : NulFree path) : NulFree (displayName path) := by
  rw [displayName_eq]
  split
  · decide
  · intro hmem
    rw [String.toList_ofList, afterSeparators, List.mem_reverse] at hmem
    exact h (List.mem_reverse.mp ((List.takeWhile_sublist _).subset hmem))

theorem notMem_lastComponent (path : String) : '/' ∉ lastComponent path := by
  intro hmem
  simpa using List.mem_takeWhile_imp (List.mem_reverse.mp hmem)

theorem isFileName_posixBasename_iff {path : String} (hne : path ≠ "") :
    IsFileName (posixBasename path) ↔ lastComponent path ≠ [] ∧ '\\' ∉ lastComponent path := by
  rw [posixBasename, if_neg hne]
  split
  · rename_i hnil
    constructor
    · exact fun h => absurd h.2.1 (by decide)
    · exact fun h => absurd hnil h.1
  · rw [isFileName_ofList]
    exact and_congr_right fun _ => and_iff_right (notMem_lastComponent path)

/-- The file name that is sent is one exactly for the paths that suit the side effect. -/
theorem isFileName_apply_iff (rule : FiledataName) {path : String} (hne : path ≠ "") :
    IsFileName (rule.apply (displayName path) path) ↔ rule.Suits path := by
  cases rule with
  | kept => exact iff_of_true (isFileName_displayName path) trivial
  | posix => exact isFileName_posixBasename_iff hne
  | cut =>
      have hcut := afterSeparators_ne_nil_iff hne
      rw [FiledataName.apply, isFileName_ofList]
      exact (and_iff_left (notMem_afterSeparators path)).trans hcut

/-! ## The body -/

section
variable {P : Platform}

theorem fileParts_multipart (data : OrderedMap String String) (f : FileField) :
    (encodeBody P { data, file := some f }).fileParts = [filePart P f] := by
  have hdata : ∀ kv ∈ data.entries, ({ name := cStr kv.1, content := .data (cStr kv.2) } :
      MimePart).pair? ≠ none := fun _ _ => Option.some_ne_none _
  change List.filter _ (List.map _ data.entries ++ [filePart P f]) = _
  rw [List.filter_append, List.filter_cons_of_pos (by simp [pair?_filePart]), List.filter_nil,
    List.filter_map, List.filter_eq_nil_iff.mpr fun kv hkv => by simpa using hdata kv hkv,
    List.map_nil, List.nil_append]

theorem carriedBy_path_iff {data : OrderedMap String String} {path : String} :
    (Payload.path path).CarriedBy (encodeBody P { data, file := (pathFields path).file }) ↔
      path ≠ "" ∧ NulFree path ∧ P.filedataName.Suits path := by
  let f : FileField :=
    { name := displayName path, contentType := "application/octet-stream", path }
  have hparts : (encodeBody P { data, file := (pathFields path).file }).fileParts =
      [filePart P f] := fileParts_multipart data f
  rw [Payload.CarriedBy, hparts]
  by_cases hne : path = ""
  · -- an empty path is no path, so the section holds the bytes of the field: none
    have hbytes : (filePart P f).content = .bytes [] := if_neg (by simp [FileField.isPath, f, hne])
    constructor
    · rintro ⟨part, name, hpart, -, hcontent, -⟩
      obtain rfl := List.singleton_inj.mp hpart
      rw [hbytes] at hcontent
      cases hcontent
    · exact fun h => absurd hne h.1
  · have hpath : f.isPath = true := decide_eq_true hne
    have hcontent : (filePart P f).content = .filedata (cStr path) := if_pos hpath
    have hfilename : (filePart P f).filename =
        some (P.filedataName.apply (cStr (displayName path)) (cStr path)) := by
      rw [filePart, if_pos hpath]
    constructor
    · rintro ⟨part, name, hpart, -, hpartContent, hname, hfile⟩
      obtain rfl := List.singleton_inj.mp hpart
      rw [hcontent] at hpartContent
      have hfree : NulFree path := MimeContent.filedata.inj hpartContent ▸ nulFree_cStr path
      rw [hfilename, cStr_eq_self hfree, cStr_eq_self (nulFree_displayName hfree)] at hname
      rw [← Option.some.inj hname, isFileName_apply_iff _ hne] at hfile
      exact ⟨hne, hfree, hfile⟩
    · rintro ⟨-, hfree, hsuits⟩
      rw [cStr_eq_self hfree] at hcontent
      rw [cStr_eq_self hfree, cStr_eq_self (nulFree_displayName hfree)] at hfilename
      exact ⟨_, _, rfl, rfl, hcontent, hfilename, (isFileName_apply_iff _ hne).mpr hsuits⟩

theorem carriedBy_bytes {data : OrderedMap String String} {bytes : List UInt8}
    {name mimeType : String} : (Payload.bytes bytes).CarriedBy
      (encodeBody P { data, file := (bytesFields bytes name mimeType).file }) :=
  ⟨_, fileParts_multipart data _, rfl, rfl⟩

/-- The address in an urlencoded form is the one in its map. -/
theorem carriedBy_url_iff (hP : P.PercentEncodes) {data : OrderedMap String String} {url : String}
    (hbytes : IsByteMap data) :
    (Payload.url url).CarriedBy (encodeBody P { data }) ↔ data.find? "url" = some url := by
  have hpairs := formPairs_buildQuery hP hbytes
  constructor
  · rintro ⟨text, htext, hurl⟩
    obtain rfl := RequestBody.urlencoded.inj htext
    have hmem := (hurl url).mpr rfl
    rwa [hpairs, OrderedMap.mem_entries_iff] at hmem
  · intro hfind
    refine ⟨_, rfl, fun value => ?_⟩
    rw [hpairs, OrderedMap.mem_entries_iff, hfind, Option.some_inj, eq_comm]

/-- A body that is made of a prepared payload, with the extra parameters over it. -/
theorem carriedBy_iff (hP : P.PercentEncodes) {payload : Payload} {prepared : FormFields}
    (hprepared : payload.PreparedAs prepared) {data extra : OrderedMap String String}
    (hbytes : IsByteMap data)
    (hurl : data.find? "url" = (extra.find? "url").or (prepared.data.find? "url")) :
    payload.CarriedBy (encodeBody P { data, file := prepared.file }) ↔
      payload.Sendable P extra := by
  cases payload with
  | url url =>
      obtain rfl := hprepared
      rw [urlFields, OrderedMap.find?_insert_self] at hurl
      refine (carriedBy_url_iff hP hbytes).trans ?_
      rw [hurl, Payload.Sendable]
      cases extra.find? "url" <;> simp
  | path path =>
      obtain rfl := hprepared
      exact carriedBy_path_iff
  | bytes bytes =>
      obtain ⟨name, mimeType, rfl⟩ := hprepared
      exact iff_of_true carriedBy_bytes trivial

/-! ## One attempt -/

/-- libcurl gives a handle and, for a path, can attach the file. -/
def AttemptEnv.Attaches (env : AttemptEnv) (payload : Payload) : Prop :=
  env.easyInit = true ∧ ∀ path, payload = .path path → path ≠ "" → env.filedata = true

/-- An attempt fails before anything is sent, or its body carries the payload. -/
def Attempt.Delivers (a : Attempt) (payload : Payload) : Prop :=
  match a.body with
  | none => a.transfer = none ∧ ∃ msg, a.result = .error (.connection msg true)
  | some body => payload.CarriedBy body

theorem isPath_file_iff {payload : Payload} {prepared : FormFields}
    (hprepared : payload.PreparedAs prepared) :
    (∃ f, prepared.file = some f ∧ f.isPath = true) ↔
      ∃ path, payload = .path path ∧ path ≠ "" := by
  cases payload with
  | url url =>
      obtain rfl := hprepared
      simp [urlFields]
  | path path =>
      obtain rfl := hprepared
      simp [pathFields, FileField.isPath]
  | bytes bytes =>
      obtain ⟨name, mimeType, rfl⟩ := hprepared
      simp [bytesFields, FileField.isPath]

theorem postForm_body_eq_none_iff (url : String) (fields : FormFields) (env : AttemptEnv) :
    (postForm P url fields env).body = none ↔
      (env.easyInit = true → (∃ f, fields.file = some f ∧ f.isPath = true) ∧
        env.filedata = false) := by
  unfold postForm
  dsimp only
  cases hinit : env.easyInit with
  | false => simp
  | true =>
      rw [if_neg (by decide)]
      split
      · rename_i f hf
        obtain ⟨hfile, hrefused⟩ := Option.filter_eq_some_iff.mp hf
        obtain ⟨hpath, hattach⟩ := (Bool.and_eq_true _ _).mp hrefused
        exact iff_of_true rfl fun _ => ⟨⟨f, hfile, hpath⟩, by simpa using hattach⟩
      · rename_i hf
        refine iff_of_false (Option.some_ne_none _) fun h => ?_
        obtain ⟨⟨f, hfile, hpath⟩, hattach⟩ := h rfl
        have hrefused := Option.filter_eq_none_iff.mp hf f hfile
        rw [hpath, hattach] at hrefused
        exact hrefused rfl

/-- An attempt delivers a payload unless libcurl takes a form that does not carry it. -/
theorem postForm_delivers_iff (hP : P.PercentEncodes) {payload : Payload} {prepared : FormFields}
    (hprepared : payload.PreparedAs prepared) {fields : FormFields} {url : String}
    {env : AttemptEnv} {extra : OrderedMap String String} (hfile : fields.file = prepared.file)
    (hurl : fields.data.find? "url" = (extra.find? "url").or (prepared.data.find? "url"))
    (hbytes : IsByteMap (postForm P url fields env).fields.data) :
    (postForm P url fields env).Delivers payload ↔
      (env.Attaches payload → payload.Sendable P extra) := by
  have hattaches : (postForm P url fields env).body = none ↔ ¬env.Attaches payload := by
    rw [postForm_body_eq_none_iff, hfile, isPath_file_iff hprepared, AttemptEnv.Attaches]
    cases env.easyInit <;> cases env.filedata <;> simp
  rcases postForm_cases P url fields env with ⟨hnone, hsent, hresult⟩ | ⟨hsome, -, -⟩
  · rw [Attempt.Delivers, hnone]
    exact iff_of_true ⟨hsent, hresult⟩ fun h => absurd h (hattaches.mp hnone)
  · have hattached : env.Attaches payload := by
      by_contra hnot
      rw [hattaches.mpr hnot] at hsome
      cases hsome
    rw [postForm_fields] at hsome hbytes
    have htoken : (injectToken env.apiToken fields.data).find? "url" =
        (extra.find? "url").or (prepared.data.find? "url") := by
      rw [find?_injectToken, if_neg fun h => absurd h.1 (by decide), Option.or_none, hurl]
    have hcarried := carriedBy_iff hP hprepared hbytes htoken
    rw [Attempt.Delivers, hsome, hfile]
    exact hcarried.trans ⟨fun h _ => h, fun h => h hattached⟩

end

/-! ## The calls -/

/-- The attempts of a call deliver its source as what it is, as long as libcurl takes the
form, exactly when no extra parameter replaces an address and a path is a C text whose
file name suits. Both kinds of call prepare a source alike. -/
theorem source_delivered_iff {P : Platform} (hP : P.PercentEncodes) (config : ClientConfig)
    (env : CallEnv) :
    (∀ source opts i a, (recognize P config source opts env).attempts[i]? = some a →
      IsByteMap a.fields.data →
      (a.Delivers source.payload ↔ ((env.attempts i).Attaches source.payload →
        source.payload.Sendable P opts.extraParameters))) ∧
    (∀ source opts i a, (recognizeEnterprise P config source opts env).attempts[i]? = some a →
      IsByteMap a.fields.data →
      (a.Delivers source.payload ↔ ((env.attempts i).Attaches source.payload →
        source.payload.Sendable P opts.extraParameters))) ∧
    (∀ audioId source i a, (customCatalogAdd P config audioId source env).attempts[i]? = some a →
      IsByteMap a.fields.data →
      (a.Delivers source.payload ↔ ((env.attempts i).Attaches source.payload →
        source.payload.Sendable P ∅))) ∧
    ∀ fileExists source, (prepareSourceForUpload fileExists source).toOption =
      (prepareSource fileExists source).toOption := by
  refine ⟨?_, ?_, ?_, prepareSourceForUpload_toOption⟩
  · intro source opts i a ha hbytes
    obtain ⟨prepared, hprepare, rfl⟩ := recognize_attempt ha
    refine postForm_delivers_iff hP (payload_preparedAs hprepare) rfl ?_ hbytes
    rw [prepareSource_data hprepare]
    exact (applyRecognizeOpts_overlays hprepare opts).find?_of_get_eq_none rfl
  · intro source opts i a ha hbytes
    obtain ⟨prepared, hprepare, rfl⟩ := recognizeEnterprise_attempt ha
    refine postForm_delivers_iff hP (payload_preparedAs hprepare) rfl ?_ hbytes
    rw [prepareSource_data hprepare]
    exact (applyEnterpriseOpts_overlays hprepare opts).find?_of_get_eq_none rfl
  · intro audioId source i a ha hbytes
    cases hprepare : prepareSourceForUpload env.fileExists source with
    | error e => simp [customCatalogAdd, hprepare, ApiRun.throw] at ha
    | ok prepared =>
        simp only [customCatalogAdd, hprepare, ApiRun.map_attempts, internalPostForm_attempts] at ha
        obtain rfl := eq_postForm_of_attempts ha
        refine postForm_delivers_iff hP (payload_preparedAs hprepare) rfl ?_ hbytes
        rw [OrderedMap.find?_insert_of_ne _ _ (by decide), OrderedMap.find?_empty, Option.none_or]

/-- The upload of a song from its path. -/
theorem song_delivered :
    let env : CallEnv := { attempts := fun _ => {
      apiToken := "test"
      transfer := ⟨⟨0, 200, []⟩, [], .ok, "\x7b\x7d"⟩ } }
    let run := recognize escapingPlatform {} (.sourceFilePath "music/song.mp3") {} env
    ∃ a, run.attempts[0]? = some a ∧ a.body ≠ none ∧ a.Delivers (.path "music/song.mp3") := by
  intro env run
  have hbytes : IsByteMap (injectToken "test" ∅) :=
    isByteMap_injectToken (isBytes_of_all (by decide)) isByteMap_empty
  refine ⟨_, rfl, Option.some_ne_none _, ?_⟩
  apply ((source_delivered_iff escapingPlatform_percentEncodes {} env).1
    (.sourceFilePath "music/song.mp3") {} 0 _ rfl hbytes).mpr
  exact fun _ => ⟨by decide, by decide, by decide, by decide⟩

/-- An empty path is uploaded as a file without bytes. -/
theorem empty_path_sends_bytes :
    let env : CallEnv := { attempts := fun _ => {
      apiToken := "test"
      transfer := ⟨⟨0, 200, []⟩, [], .ok, "\x7b\x7d"⟩ } }
    let run := recognize (Platform.ofTable []) {} (.sourceFilePath "") {} env
    ∃ a body part, run.attempts[0]? = some a ∧ a.body = some body ∧ body.fileParts = [part] ∧
      part.content = .bytes [] ∧ ¬a.Delivers (.path "") := by
  intro env run
  refine ⟨_, _, _, rfl, rfl, rfl, rfl, fun h => ?_⟩
  exact absurd rfl (carriedBy_path_iff.mp h).1

end Audd
