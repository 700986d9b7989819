import Audd.HttpClient
import Audd.Lib.Lifetime
import Mathlib.Data.List.ModifyLast

/-!
# The calls of libcurl

`HttpClient::post_form` and `HttpClient::get` as the calls of libcurl that they make, with
the handles and the local variables that these create and refer to. A request can be left
by an exception at any point; its guards are the local variables with a destructor.

## Implementation notes

The handle copies the address and the user agent. Of the other options with storage it keeps
the pointer and follows it when the transfer is performed. Libcurl accepts a null mime handle
and a null list and does nothing with them.
-/

namespace Audd

open Lifetime

inductive CurlObject
  | easy
  | mime
  | headers
  | escaped
  | body
  | requestId
  | urlencoded
  | userAgent
deriving DecidableEq

inductive CurlOption
  | url (text : String)
  | userAgent
  | followLocation
  | noSignal
  | writeFunction
  | writeData
  | headerFunction
  | headerData
  | timeoutMs
  | connectTimeoutMs
  | mimePost
  | postFields
  | postFieldSize
  | httpHeader

/-- A call of libcurl, or the declaration of a variable that libcurl will refer to, or the
assignment of the encoded form. -/
inductive CurlCall
  | declare (o : CurlObject)
  | easyInit
  | setopt (option : CurlOption)
  | mimeInit
  | addPart
  | mimeName (name : String)
  | mimeFilename (filename : String)
  | mimeType (contentType : String)
  | mimeData (s : String)
  | mimeBytes (b : List UInt8)
  | mimeFiledata (path : String)
  | escape (s : String)
  | copyEscaped
  | freeEscaped
  | assign (text : String)
  | slistAppend
  | perform
  | getinfo

/-- The handles that libcurl fails to allocate, those of a request apart. -/
structure CurlNulls where
  mime : Bool := false
  slist : Bool := false

/-- What the handle keeps a pointer to. -/
def CurlOption.pointee (nulls : CurlNulls) : CurlOption → Option CurlObject
  | .writeData => some .body
  | .headerData => some .requestId
  | .mimePost => if nulls.mime then none else some .mime
  | .postFields => some .urlencoded
  | .httpHeader => if nulls.slist then none else some .headers
  | _ => none

/-- The destructors of a request, in the reverse order of the declarations. -/
def curlGuards : List CurlObject :=
  [.userAgent, .headers, .urlencoded, .mime, .requestId, .body, .easy]

/-- A request of the client. -/
inductive HttpCall
  | postForm (url : String) (fields : FormFields)
  | get (url : String) (params : OrderedMap String String)

/-- The options that every request sets. -/
def commonOptions (url : String) : List CurlCall :=
  [.url url, .userAgent, .followLocation, .noSignal, .writeFunction, .writeData, .headerFunction,
    .headerData, .timeoutMs, .connectTimeoutMs].map .setopt

def partCalls (kv : String × String) : List CurlCall :=
  [.addPart, .mimeName kv.1, .mimeData kv.2]

def fileCalls (f : FileField) : List CurlCall :=
  [.addPart, .mimeName "file", .mimeFilename f.name] ++
    (if f.contentType = "" then [] else [.mimeType f.contentType]) ++
    [if f.isPath then .mimeFiledata f.path else .mimeBytes f.bytes]

/-- A failed transfer is probed for its upload and its status, another for its status. -/
def performCalls (t : Transfer) : List CurlCall :=
  .perform :: if t.code = .ok then [.getinfo] else [.getinfo, .getinfo]

section
variable (P : Platform)

/-- The lifetimes that a call touches. -/
def CurlCall.events (nulls : CurlNulls) : CurlCall → List (Event CurlObject)
  | .declare o => [.acquire o]
  | .easyInit => [.acquire .easy]
  | .setopt .userAgent => [.use .easy, .use .userAgent]
  | .setopt option => .use .easy :: ((option.pointee nulls).map .keep).toList
  | .mimeInit => .use .easy :: if nulls.mime then [] else [.acquire .mime]
  | .addPart | .mimeName _ | .mimeFilename _ | .mimeType _ | .mimeData _ | .mimeBytes _
  | .mimeFiledata _ => if nulls.mime then [] else [.use .mime]
  | .escape s => .use .easy :: if (P.curlEscape s).isSome then [.acquire .escaped] else []
  | .copyEscaped => [.use .escaped]
  | .freeEscaped => [.release .escaped]
  | .assign _ => [.use .urlencoded]
  | .slistAppend => if nulls.slist then [] else [.acquire .headers]
  | .perform => [.use .easy, .follow]
  | .getinfo => [.use .easy]

/-- The calls of `url_encode`. -/
def escapeCalls (s : String) : List CurlCall :=
  .escape s :: if (P.curlEscape s).isSome then [.copyEscaped, .freeEscaped] else []

/-- The calls of `build_query`. -/
def queryCalls (params : OrderedMap String String) : List CurlCall :=
  params.entries.flatMap fun kv => escapeCalls P kv.1 ++ escapeCalls P kv.2

def HttpCall.calls (env : AttemptEnv) : HttpCall → List CurlCall
  | .postForm url fields =>
      let data := injectToken env.apiToken fields.data
      if !env.easyInit then []
      else
        [.easyInit, .declare .body, .declare .requestId, .declare .urlencoded,
          .declare .userAgent] ++ (commonOptions url ++
        match fields.file with
        | some f =>
            [.mimeInit] ++ (data.entries.flatMap partCalls ++ (fileCalls f ++
              if f.isPath && !env.filedata then []
              else .setopt .mimePost :: performCalls env.transfer))
        | none =>
            queryCalls P data ++ (.assign (buildQuery P data) ::
              [.setopt .postFields, .setopt .postFieldSize, .slistAppend, .setopt .httpHeader] ++
                performCalls env.transfer))
  | .get url params =>
      let withToken := injectToken env.apiToken params
      if !env.easyInit then []
      else
        [.easyInit, .declare .body, .declare .requestId, .declare .userAgent] ++
          (queryCalls P withToken ++ (commonOptions (queryUrl P url withToken) ++
            performCalls env.transfer))

def HttpCall.attempt (env : AttemptEnv) : HttpCall → Attempt
  | .postForm url fields => Audd.postForm P url fields env
  | .get url params => Audd.get P url params env

end

variable {P : Platform} {nulls : CurlNulls}

/-! ## Lifetimes -/

/-- The run of some calls. -/
def runCalls (P : Platform) (nulls : CurlNulls) (l : List CurlCall) (s : State CurlObject) :
    Option (State CurlObject) :=
  (lifetimes CurlObject).runFrom (l.flatMap (CurlCall.events P nulls)) s

theorem runCalls_append (l l' : List CurlCall) (s : State CurlObject) :
    runCalls P nulls (l ++ l') s = (runCalls P nulls l s).bind (runCalls P nulls l') := by
  rw [runCalls, List.flatMap_append, Transition.runFrom_append]
  rfl

theorem runCalls_escapeCalls {s : State CurlObject} (heasy : .easy ∈ s.live)
    (hfree : .escaped ∉ s.live) (text : String) :
    runCalls P nulls (escapeCalls P text) s = some s := by
  by_cases hsome : (P.curlEscape text).isSome = true
  · simp [runCalls, escapeCalls, hsome, CurlCall.events, Transition.runFrom, lifetimes, step,
      heasy, hfree]
  · simp [runCalls, escapeCalls, hsome, CurlCall.events, Transition.runFrom, lifetimes, step,
      heasy]

/-- Encoding a form leaves nothing behind, as every escaped text is freed. -/
theorem runCalls_queryCalls {s : State CurlObject} (heasy : .easy ∈ s.live)
    (hfree : .escaped ∉ s.live) (params : OrderedMap String String) :
    runCalls P nulls (queryCalls P params) s = some s := by
  rw [runCalls, queryCalls, List.flatMap_assoc]
  apply Transition.runFrom_flatMap_self
  intro kv _
  change runCalls P nulls _ s = some s
  rw [runCalls_append, runCalls_escapeCalls heasy hfree, Option.bind_some,
    runCalls_escapeCalls heasy hfree]

/-- The calls that fill a mime handle. -/
def CurlCall.isMime : CurlCall → Bool
  | .addPart | .mimeName _ | .mimeFilename _ | .mimeType _ | .mimeData _ | .mimeBytes _
  | .mimeFiledata _ => true
  | _ => false

theorem runCalls_mime {s : State CurlObject} (hmime : nulls.mime = true ∨ .mime ∈ s.live)
    {l : List CurlCall} (hl : ∀ c ∈ l, c.isMime = true) : runCalls P nulls l s = some s := by
  apply Transition.runFrom_flatMap_self
  intro c hc
  have hevents : c.events P nulls = if nulls.mime then [] else [.use .mime] := by
    have hkind := hl c hc
    cases c <;> first | rfl | cases hkind
  rw [hevents]
  rcases hmime with hnull | hlive
  · rw [if_pos hnull]
    rfl
  · split
    · rfl
    · simp [Transition.runFrom, lifetimes, step, hlive]

theorem isMime_partCalls (params : OrderedMap String String) :
    ∀ c ∈ params.entries.flatMap partCalls, c.isMime = true := by
  intro c hc
  obtain ⟨kv, -, hc⟩ := List.mem_flatMap.mp hc
  simp only [partCalls, List.mem_cons, List.not_mem_nil, or_false] at hc
  rcases hc with rfl | rfl | rfl <;> rfl

theorem isMime_fileCalls (f : FileField) : ∀ c ∈ fileCalls f, c.isMime = true := by
  intro c hc
  simp only [fileCalls, List.mem_append, List.mem_cons, List.not_mem_nil, or_false] at hc
  rcases hc with (hname | htype) | rfl
  · rcases hname with rfl | rfl | rfl <;> rfl
  · split at htype
    · cases htype
    · rw [List.mem_singleton.mp htype]
      rfl
  · split <;> rfl

/-- The state after the declarations and the common options. -/
def preparedState (locals : List CurlObject) : State CurlObject where
  live := locals ++ [.requestId, .body, .easy]
  kept := [.requestId, .body]

theorem exists_runCalls_form (data : OrderedMap String String) (t : Transfer) :
    ∃ s, runCalls P nulls (queryCalls P data ++ (.assign (buildQuery P data) ::
        [.setopt .postFields, .setopt .postFieldSize, .slistAppend, .setopt .httpHeader] ++
          performCalls t)) (preparedState [.userAgent, .urlencoded]) = some s ∧
      ∀ o ∈ s.live, o ∈ curlGuards := by
  rw [runCalls_append, runCalls_queryCalls (by decide) (by decide), Option.bind_some]
  obtain ⟨mime, slist⟩ := nulls
  unfold performCalls
  cases slist
  · refine ⟨{
      live := [.headers, .userAgent, .urlencoded, .requestId, .body, .easy]
      kept := [.headers, .urlencoded, .requestId, .body] }, ?_, by decide⟩
    split <;> rfl
  · refine ⟨{
      live := [.userAgent, .urlencoded, .requestId, .body, .easy]
      kept := [.urlencoded, .requestId, .body] }, ?_, by decide⟩
    split <;> rfl

theorem exists_runCalls_multipart (data : OrderedMap String String) (f : FileField)
    (refused : Bool) (t : Transfer) :
    ∃ s, runCalls P nulls ([.mimeInit] ++ (data.entries.flatMap partCalls ++ (fileCalls f ++
        if refused then [] else .setopt .mimePost :: performCalls t)))
          (preparedState [.userAgent, .urlencoded]) = some s ∧
      ∀ o ∈ s.live, o ∈ curlGuards := by
  -- the parts are filled in whatever state the allocation leaves
  have hfill : ∀ {locals : List CurlObject} {rest : List CurlCall},
      (nulls.mime = true ∨ .mime ∈ (preparedState locals).live) →
      runCalls P nulls (data.entries.flatMap partCalls ++ (fileCalls f ++ rest))
        (preparedState locals) = runCalls P nulls rest (preparedState locals) := by
    intro locals rest hmime
    rw [runCalls_append, runCalls_mime hmime (isMime_partCalls data), Option.bind_some,
      runCalls_append, runCalls_mime hmime (isMime_fileCalls f), Option.bind_some]
  obtain ⟨mime, slist⟩ := nulls
  unfold performCalls
  cases mime
  · have hinit : runCalls P ⟨false, slist⟩ [.mimeInit] (preparedState [.userAgent, .urlencoded]) =
        some (preparedState [.mime, .userAgent, .urlencoded]) := rfl
    rw [runCalls_append, hinit, Option.bind_some, hfill (.inr (by decide))]
    cases refused
    · refine ⟨{
        live := [.mime, .userAgent, .urlencoded, .requestId, .body, .easy]
        kept := [.mime, .requestId, .body] }, ?_, by decide⟩
      rw [if_neg Bool.false_ne_true]
      split <;> rfl
    · exact ⟨preparedState [.mime, .userAgent, .urlencoded], rfl, by decide⟩
  · have hinit : runCalls P ⟨true, slist⟩ [.mimeInit] (preparedState [.userAgent, .urlencoded]) =
        some (preparedState [.userAgent, .urlencoded]) := rfl
    rw [runCalls_append, hinit, Option.bind_some, hfill (.inl rfl)]
    cases refused
    · refine ⟨preparedState [.userAgent, .urlencoded], ?_, by decide⟩
      rw [if_neg Bool.false_ne_true]
      split <;> rfl
    · exact ⟨preparedState [.userAgent, .urlencoded], rfl, by decide⟩

/-- Every request is a safe use of libcurl, and all that is live at its end is guarded. -/
theorem exists_runCalls (r : HttpCall) (env : AttemptEnv) :
    ∃ s, runCalls P nulls (r.calls P env) (lifetimes CurlObject).start = some s ∧
      ∀ o ∈ s.live, o ∈ curlGuards := by
  by_cases hinit : env.easyInit = true
  · cases r with
    | get url params =>
        have hdeclare : runCalls P nulls [.easyInit, .declare .body, .declare .requestId,
            .declare .userAgent] (lifetimes CurlObject).start =
            some { live := [.userAgent, .requestId, .body, .easy] } := rfl
        have hoptions : ∀ address, runCalls P nulls (commonOptions address)
            { live := [.userAgent, .requestId, .body, .easy] } =
              some (preparedState [.userAgent]) := fun _ => rfl
        simp only [HttpCall.calls, hinit, Bool.not_true, Bool.false_eq_true, if_false]
        rw [runCalls_append, hdeclare, Option.bind_some, runCalls_append,
          runCalls_queryCalls (by decide) (by decide), Option.bind_some, runCalls_append, hoptions,
          Option.bind_some]
        refine ⟨preparedState [.userAgent], ?_, by decide⟩
        unfold performCalls
        split <;> rfl
    | postForm url fields =>
        have hdeclare : runCalls P nulls [.easyInit, .declare .body, .declare .requestId,
            .declare .urlencoded, .declare .userAgent] (lifetimes CurlObject).start =
            some { live := [.userAgent, .urlencoded, .requestId, .body, .easy] } := rfl
        have hoptions : runCalls P nulls (commonOptions url)
            { live := [.userAgent, .urlencoded, .requestId, .body, .easy] } =
              some (preparedState [.userAgent, .urlencoded]) := rfl
        simp only [HttpCall.calls, hinit, Bool.not_true, Bool.false_eq_true, if_false]
        rw [runCalls_append, hdeclare, Option.bind_some, runCalls_append, hoptions,
          Option.bind_some]
        cases fields.file with
        | none => exact exists_runCalls_form _ env.transfer
        | some f => exact exists_runCalls_multipart _ f _ env.transfer
  · simp only [HttpCall.calls, hinit]
    exact ⟨{}, by cases r <;> rfl, by simp⟩

/-- The configuration of a handle: what the options say, the parts of the mime handle, and
the variable that holds the encoded form. -/
structure CurlHandle where
  url : String := ""
  parts : List MimePart := []
  urlencoded : String := ""
  mimePost : Bool := false
  postFields : Bool := false

/-- The body that the transfer sends. A pointer to the form is followed, so it is the
variable's value at the time. -/
def CurlHandle.requestBody (h : CurlHandle) : Option RequestBody :=
  if h.mimePost then some (.multipart h.parts)
  else if h.postFields then some (.urlencoded h.urlencoded)
  else none

/-- Change the part that was added last. -/
def CurlHandle.changePart (h : CurlHandle) (f : MimePart → MimePart) : CurlHandle :=
  { h with parts := h.parts.modifyLast f }

section
variable (P : Platform)

/-- What a call changes of the configuration, when libcurl can allocate. -/
def CurlCall.configure (h : CurlHandle) : CurlCall → CurlHandle
  | .setopt (.url text) => { h with url := cStr text }
  | .setopt .mimePost => { h with mimePost := true }
  | .setopt .postFields => { h with postFields := true }
  | .addPart => { h with parts := h.parts ++ [{ name := "", content := .data "" }] }
  | .mimeName name => h.changePart ({ · with name := cStr name })
  | .mimeFilename filename => h.changePart ({ · with filename := some (cStr filename) })
  | .mimeType contentType => h.changePart ({ · with contentType := some (cStr contentType) })
  | .mimeData s => h.changePart ({ · with content := .data (cStr s) })
  | .mimeBytes b => h.changePart ({ · with content := .bytes b })
  | .mimeFiledata path => h.changePart fun part => { part with
      filename := part.filename.map fun name => P.filedataName.apply name (cStr path)
      content := .filedata (cStr path) }
  | .assign text => { h with urlencoded := text }
  | _ => h

def configured (l : List CurlCall) (h : CurlHandle) : CurlHandle :=
  l.foldl (CurlCall.configure P) h

end

theorem configured_append (l l' : List CurlCall) (h : CurlHandle) :
    configured P (l ++ l') h = configured P l' (configured P l h) :=
  List.foldl_append

/-- The parts of the data fields, in the order of the map. -/
theorem configured_partCalls (entries : List (String × String)) (h : CurlHandle) :
    configured P (entries.flatMap partCalls) h = { h with
      parts := h.parts ++ entries.map fun kv =>
        { name := cStr kv.1, content := .data (cStr kv.2) } } := by
  induction entries generalizing h with
  | nil => simp [configured]
  | cons kv rest ih =>
      have hpart : configured P (partCalls kv) h = { h with
          parts := h.parts ++ [{ name := cStr kv.1, content := .data (cStr kv.2) }] } := by
        simp [configured, partCalls, CurlCall.configure, CurlHandle.changePart,
          List.modifyLast_concat]
      rw [List.flatMap_cons, configured_append, hpart, ih]
      simp

theorem configured_fileCalls (f : FileField) (h : CurlHandle) :
    configured P (fileCalls f) h = { h with parts := h.parts ++ [filePart P f] } := by
  have hname : cStr "file" = "file" := by decide
  cases hpath : f.isPath <;> by_cases htype : f.contentType = ""
  all_goals
    simp [configured, fileCalls, CurlCall.configure, CurlHandle.changePart,
      List.modifyLast_concat, filePart, hname, hpath, htype]

theorem configured_queryCalls (params : OrderedMap String String) (h : CurlHandle) :
    configured P (queryCalls P params) h = h := by
  have hescape : ∀ text, configured P (escapeCalls P text) h = h := by
    intro text
    unfold escapeCalls
    split <;> rfl
  unfold queryCalls
  induction params.entries with
  | nil => rfl
  | cons kv rest ih =>
      rw [List.flatMap_cons, configured_append, configured_append, hescape, hescape, ih]

/-! ## The transfer -/

theorem perform_notMem_queryCalls (params : OrderedMap String String) :
    CurlCall.perform ∉ queryCalls P params := by
  intro h
  obtain ⟨kv, -, hmem⟩ := List.mem_flatMap.mp h
  simp [escapeCalls] at hmem

theorem perform_notMem_mime {l : List CurlCall} (hl : ∀ c ∈ l, c.isMime = true) :
    CurlCall.perform ∉ l := by
  intro h
  cases hl _ h

theorem perform_notMem_commonOptions (url : String) : CurlCall.perform ∉ commonOptions url := by
  simp [commonOptions]

/-- The calls that perform a transfer with a given address and body. -/
def Performs (P : Platform) (l : List CurlCall) (url : String) (body : Option RequestBody) :
    Prop :=
  ∃ before after, l = before ++ .perform :: after ∧ .perform ∉ before ∧ .perform ∉ after ∧
    (configured P before {}).url = url ∧ (configured P before {}).requestBody = body

theorem performs_of_configured {before : List CurlCall} {h : CurlHandle}
    (hbefore : .perform ∉ before) (hconfigured : configured P before {} = h) (t : Transfer) :
    Performs P (before ++ performCalls t) h.url h.requestBody := by
  refine ⟨before, _, rfl, hbefore, ?_, by rw [hconfigured], by rw [hconfigured]⟩
  split <;> simp

theorem get_performs (url : String) (params : OrderedMap String String) {env : AttemptEnv}
    (hinit : env.easyInit = true) :
    Performs P ((HttpCall.get url params).calls P env)
      (cStr (queryUrl P url (injectToken env.apiToken params))) none := by
  have hcalls : (HttpCall.get url params).calls P env =
      ([.easyInit, .declare .body, .declare .requestId, .declare .userAgent] ++
        (queryCalls P (injectToken env.apiToken params) ++
          commonOptions (queryUrl P url (injectToken env.apiToken params)))) ++
        performCalls env.transfer := by
    simp [HttpCall.calls, hinit]
  rw [hcalls]
  refine performs_of_configured (h := { url := cStr _ }) ?_ ?_ env.transfer
  · simp [perform_notMem_queryCalls, perform_notMem_commonOptions]
  · rw [configured_append, configured_append, configured_queryCalls]
    rfl

theorem form_performs (url : String) {fields : FormFields} {env : AttemptEnv}
    (hinit : env.easyInit = true) (hfile : fields.file = none) :
    Performs P ((HttpCall.postForm url fields).calls P env) (cStr url)
      (some (.urlencoded (buildQuery P (injectToken env.apiToken fields.data)))) := by
  have hcalls : (HttpCall.postForm url fields).calls P env =
      ([.easyInit, .declare .body, .declare .requestId, .declare .urlencoded,
        .declare .userAgent] ++ (commonOptions url ++
          (queryCalls P (injectToken env.apiToken fields.data) ++
            [.assign (buildQuery P (injectToken env.apiToken fields.data)), .setopt .postFields,
              .setopt .postFieldSize, .slistAppend, .setopt .httpHeader]))) ++
        performCalls env.transfer := by
    simp [HttpCall.calls, hinit, hfile]
  rw [hcalls]
  refine performs_of_configured
    (h := { url := cStr url, urlencoded := buildQuery P _, postFields := true }) ?_ ?_ env.transfer
  · simp [perform_notMem_queryCalls, perform_notMem_commonOptions]
  · rw [configured_append, configured_append, configured_append, configured_queryCalls]
    rfl

theorem multipart_performs (url : String) {fields : FormFields} {f : FileField}
    {env : AttemptEnv} (hinit : env.easyInit = true) (hfile : fields.file = some f)
    (hattached : (f.isPath && !env.filedata) = false) :
    Performs P ((HttpCall.postForm url fields).calls P env) (cStr url)
      (some (.multipart ((injectToken env.apiToken fields.data).entries.map
        (fun kv => { name := cStr kv.1, content := .data (cStr kv.2) }) ++ [filePart P f]))) := by
  have hcalls : (HttpCall.postForm url fields).calls P env =
      ([.easyInit, .declare .body, .declare .requestId, .declare .urlencoded,
        .declare .userAgent] ++ (commonOptions url ++ ([.mimeInit] ++
          ((injectToken env.apiToken fields.data).entries.flatMap partCalls ++ (fileCalls f ++
            [.setopt .mimePost]))))) ++ performCalls env.transfer := by
    simp [HttpCall.calls, hinit, hfile, hattached]
  rw [hcalls]
  refine performs_of_configured (h := { url := cStr url, parts := _, mimePost := true }) ?_ ?_
    env.transfer
  · have hparts := perform_notMem_mime (isMime_partCalls (injectToken env.apiToken fields.data))
    have hfilepart := perform_notMem_mime (isMime_fileCalls f)
    simp only [List.mem_append, not_or]
    exact ⟨by simp, perform_notMem_commonOptions url, by simp, hparts, hfilepart, by simp⟩
  · rw [configured_append, configured_append, configured_append, configured_append,
      configured_append, configured_partCalls, configured_fileCalls]
    rfl

end Audd
