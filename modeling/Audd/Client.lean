import Audd.Callback
import Audd.HttpClient
import Audd.Retry

/-!
# The client

`AudD::recognize`, `AudD::recognize_enterprise` and the shared request path of
`client.cpp`: preparing the source, overlaying the options, retrying the
transfer, reporting lifecycle events and decoding the body.

## Implementation notes

A call is a function of what its surroundings do. Its run keeps the requests
made, the waits between them, the events and warnings passed to the hooks, and
the result. A prepared source is the form fields that it yields, since every
attempt rebuilds the same fields. Hooks that throw are swallowed by the source
and change nothing here.
-/

namespace Audd

def apiBase : String := "https://api.audd.io"
def enterpriseBase : String := "https://enterprise.audd.io"

structure ClientConfig where
  maxAttempts : ℤ := 3
  backoffFactor : ℤ := 500
  /-- Whether `on_deprecation` is set; the constructor of the client sets it. -/
  onDeprecation : Bool := true
  /-- Whether an `on_event` hook is registered. -/
  onEvent : Bool := false

inductive EventKind
  | request
  | response
  | exception
deriving DecidableEq

structure AudDEvent where
  kind : EventKind
  method : String
  url : String
  requestId : String := ""
  httpStatus : ℤ := 0
  elapsed : ℤ := 0
  errorCode : Int32 := 0

/-- What the surroundings do during one call: each request made in it, the time
it takes, and which paths can be opened. -/
structure CallEnv where
  attempts : ℕ → AttemptEnv
  elapsed : ℤ := 0
  fileExists : String → Bool := fun _ => true

/-- One call as it ran. -/
structure ApiRun (α : Type) where
  attempts : List Attempt := []
  waits : List ℤ := []
  events : List AudDEvent := []
  warnings : List String := []
  result : Except Exn α

namespace ApiRun

variable {α β : Type}

/-- A call that throws before it does anything. -/
def throw (e : Exn) : ApiRun α := { result := .error e }

/-- Continue with the value of a call unless it threw. -/
def andThen (r : ApiRun α) (f : α → ApiRun β) : ApiRun β :=
  match r.result with
  | .error e => { r with result := .error e }
  | .ok a =>
      let s := f a
      { attempts := r.attempts ++ s.attempts
        waits := r.waits ++ s.waits
        events := r.events ++ s.events
        warnings := r.warnings ++ s.warnings
        result := s.result }

/-- Apply a function to the value of a call. -/
def map (f : α → β) (r : ApiRun α) : ApiRun β := { r with result := r.result.map f }

end ApiRun

/-- The accepted recognition inputs. -/
inductive Source
  | text (s : String)
  | sourceUrl (url : String)
  | sourceFilePath (path : String)
  | sourceBytes (bytes : List UInt8) (name mimeType : String)

/-- Whether a text starts with another one. -/
def startsWith (s start : String) : Bool := start.toList.isPrefixOf s.toList

def urlFields (url : String) : FormFields where
  data := (∅ : OrderedMap String String).insert "url" url

/-- The file name shown for a path: what follows its last slash or backslash. -/
def displayName (path : String) : String :=
  let name := (path.toList.reverse.takeWhile fun c => c ≠ '/' ∧ c ≠ '\\').reverse
  if name = [] then "upload.bin" else String.ofList name

def pathFields (path : String) : FormFields where
  file := some { name := displayName path, contentType := "application/octet-stream", path }

def bytesFields (bytes : List UInt8) (name mimeType : String) : FormFields where
  file := some { name, contentType := mimeType, bytes }

/-- The common body of `prepare_source` and `prepare_source_for_upload`, which
differ in the text of the exception for a rejected string. -/
def prepareWith (rejection : String → String) (fileExists : String → Bool) :
    Source → Except Exn FormFields
  | .text s =>
      if startsWith s "http://" ∨ startsWith s "https://" then .ok (urlFields s)
      else if fileExists (cStr s) then .ok (pathFields s)
      else .error (.invalidArgument (rejection s))
  | .sourceUrl url => .ok (urlFields url)
  | .sourceFilePath path => .ok (pathFields path)
  | .sourceBytes bytes name mimeType => .ok (bytesFields bytes name mimeType)

def prepareSource : (fileExists : String → Bool) → Source → Except Exn FormFields :=
  prepareWith fun s => "audd: \"" ++ s ++
    "\" is not an HTTP URL (must start with http:// or https://) " ++
    "and is not an existing file path; pass a URL string, a file " ++
    "path string, an audd::SourceBytes, or an explicit " ++
    "audd::SourceUrl / audd::SourceFilePath"

def joinCsv : List String → String
  | [] => ""
  | [s] => s
  | s :: rest => s ++ "," ++ joinCsv rest

/-- Write a field when it has a value. -/
def writeSome (data : OrderedMap String String) (key : String) :
    Option String → OrderedMap String String
  | some value => data.insert key value
  | none => data

/-- The value of a text option: an empty text is no value. -/
def textOption (s : String) : Option String := if s = "" then none else some s

/-- The value of a list option: an empty list is no value. -/
def listOption (l : List String) : Option String := if l = [] then none else some (joinCsv l)

def boolText (b : Bool) : String := if b then "true" else "false"

/-- The extra parameters are written first and the typed ones over them. -/
def applyRecognizeOpts (f : FormFields) (opts : RecognizeOptions) : FormFields :=
  let data := f.data.insertAll opts.extraParameters
  let data := writeSome data "return" (listOption opts.returnMetadata)
  let data := writeSome data "market" (textOption opts.market)
  { f with data }

def applyEnterpriseOpts (f : FormFields) (opts : EnterpriseOptions) : FormFields :=
  let data := f.data.insertAll opts.extraParameters
  let data := writeSome data "return" (listOption opts.returnMetadata)
  let data := writeSome data "skip" (opts.skip.map toString)
  let data := writeSome data "every" (opts.every.map toString)
  let data := writeSome data "limit" (opts.limit.map toString)
  let data := writeSome data "skip_first_seconds" (opts.skipFirstSeconds.map toString)
  let data := writeSome data "use_timecode" (opts.useTimecode.map boolText)
  -- on by default, so this field is written whether or not the caller gave it
  let data := data.insert "accurate_offsets" (boolText (opts.accurateOffsets.getD true))
  { f with data }

/-- The warnings passed to the hook and the body or the exception. -/
structure Decoded where
  warnings : List String := []
  result : Except Exn Json

/-- The requests of one retried transfer. -/
structure Posted where
  attempts : List Attempt
  waits : List ℤ
  result : Except Exn HttpResponse

section
variable (P : Platform)

/-- The code that the deprecation check reads: `value("error_code", 0)` as an
`int`, with its exceptions swallowed. -/
def deprecationCode (err : OrderedMap String Json) : Int32 :=
  match err.find? "error_code" with
  | some v => (P.getInt v).getD 0
  | none => 0

/-- Whether a body is a usable result with the deprecation warning beside it. -/
def isDeprecated (body : OrderedMap String Json) : Bool :=
  match body.find? "error" with
  | some (.object err) =>
      deprecationCode P err = 51 && (body.find? "result").any (!·.isNull)
  | _ => false

/-- The text of the warning. -/
def deprecationMessage (body : OrderedMap String Json) : String :=
  match body.find? "error" with
  | some err => ((err.find? "error_message").bind Platform.getString).getD ""
  | none => ""

/-- The strip-and-warn pass-through: the body to go on with and the warnings. -/
def stripDeprecation (hook : Bool) (body : OrderedMap String Json) :
    OrderedMap String Json × List String :=
  if isDeprecated P body then
    ((body.erase "error").insert "status" (.string "success"),
      if hook then [deprecationMessage body] else [])
  else (body, [])

/-- An `AudDApiError` without a server code, carrying the response. -/
def responseError (message : String) (resp : HttpResponse) : Exn :=
  .api {
    errorCode := 0
    message
    httpStatus := resp.httpStatus
    requestId := resp.requestId
    rawResponse := resp.rawBody }

def decodeOrThrow (resp : HttpResponse) (onDeprecation : Bool)
    (customCatalogContext : Bool := false) : Decoded :=
  match resp.jsonBody with
  | .null =>
      if 400 ≤ resp.httpStatus then
        { result := .error (responseError
            ("HTTP " ++ toString resp.httpStatus ++ " with non-JSON response body") resp) }
      else { result := .error (.serialization "Unparseable response" resp.rawBody) }
  | .object members =>
      let stripped := stripDeprecation P onDeprecation members
      let status := ((stripped.1.find? "status").bind Platform.getString).getD ""
      let result :=
        if status = "error" then
          .error (raiseFromErrorResponse P (.object stripped.1) resp.httpStatus resp.requestId
            customCatalogContext)
        else if status = "success" then .ok (.object stripped.1)
        else .error (responseError ("Unexpected response status: " ++ status) resp)
      { warnings := stripped.2, result }
  | _ => { result := .error (responseError "Unexpected response shape (not an object)" resp) }

/-- `retry_on_connection_error` over `post_form`. -/
def postWithRetry (maxAttempts backoff : ℤ) (gate : RetryGate) (url : String)
    (fields : FormFields) (env : CallEnv) : Posted :=
  let attempt i := postForm P url fields (env.attempts i)
  let run := retryOnConnectionError maxAttempts backoff (fun i => (attempt i).result) gate
  { attempts := (List.range run.calls).map attempt, waits := run.waits, result := run.result }

variable (config : ClientConfig)

/-- The decoding of a response as a part of a call. -/
def decodeResponse (resp : HttpResponse) (customCatalogContext : Bool := false) : ApiRun Json :=
  let d := decodeOrThrow P resp config.onDeprecation customCatalogContext
  { warnings := d.warnings, result := d.result }

/-- `AudD::Internal::post_form` with an explicit number of attempts. It reports no events. -/
def internalPostForm (url : String) (fields : FormFields) (customCatalogContext : Bool)
    (maxAttempts : ℤ) (env : CallEnv) (gate : RetryGate := .preUploadOnly) : ApiRun Json :=
  let posted := postWithRetry P maxAttempts config.backoffFactor gate url fields env
  let run : ApiRun HttpResponse :=
    { attempts := posted.attempts, waits := posted.waits, result := posted.result }
  run.andThen fun resp => decodeResponse P config resp customCatalogContext

def emitEvent (ev : AudDEvent) : List AudDEvent := if config.onEvent then [ev] else []

/-- The request path of `recognize` and `recognize_enterprise`: a request event,
the retried transfer, then a response or an exception event. -/
def instrumentedPost (method url : String) (fields : FormFields) (env : CallEnv) :
    ApiRun HttpResponse :=
  let request := emitEvent config { kind := .request, method, url }
  let posted := postWithRetry P config.maxAttempts config.backoffFactor .preUploadOnly url
    fields env
  let outcome :=
    match posted.result with
    | .error _ => emitEvent config { kind := .exception, method, url, elapsed := env.elapsed }
    | .ok resp => emitEvent config
        { kind := .response, method, url, requestId := resp.requestId,
          httpStatus := resp.httpStatus, elapsed := env.elapsed }
  { attempts := posted.attempts, waits := posted.waits, events := request ++ outcome,
    result := posted.result }

def recognize (source : Source) (opts : RecognizeOptions) (env : CallEnv) :
    ApiRun (Option RecognitionResult) :=
  match prepareSource env.fileExists source with
  | .error e => .throw e
  | .ok fields =>
      (instrumentedPost P config "recognize" (apiBase ++ "/") (applyRecognizeOpts fields opts)
        env).andThen fun resp =>
      (decodeResponse P config resp).map fun body =>
        (findValue body "result").map (parseRecognition P)

/-- Move a chunk's songs out, anchored at the chunk's own offset. -/
def anchoredSongs (chunk : EnterpriseChunkResult) : List EnterpriseMatch :=
  match offsetToSeconds P chunk.offset with
  | none => chunk.songs
  | some base => chunk.songs.map fun song =>
      { song with
        startSeconds := some (base + .finite (song.startOffset.toInt / 1000))
        endSeconds := some (base + .finite (song.endOffset.toInt / 1000)) }

def recognizeEnterprise (source : Source) (opts : EnterpriseOptions) (env : CallEnv) :
    ApiRun (List EnterpriseMatch) :=
  match prepareSource env.fileExists source with
  | .error e => .throw e
  | .ok fields =>
      (instrumentedPost P config "recognize_enterprise" (enterpriseBase ++ "/")
        (applyEnterpriseOpts fields opts) env).andThen fun resp =>
      (decodeResponse P config resp).map fun body =>
        match resultArrayOrNull body with
        | none => []
        | some chunks =>
            chunks.flatMap fun chunk => anchoredSongs P (parseEnterpriseChunk P chunk)

/-! ## What a call sends and reports -/

variable {P config}

/-- A continuation that sends nothing adds no request. -/
theorem ApiRun.andThen_attempts {α β : Type} (r : ApiRun α) {f : α → ApiRun β}
    (hf : ∀ a, (f a).attempts = []) : (r.andThen f).attempts = r.attempts := by
  unfold ApiRun.andThen
  split
  · rfl
  · simp [hf]

theorem ApiRun.andThen_events {α β : Type} (r : ApiRun α) {f : α → ApiRun β}
    (hf : ∀ a, (f a).events = []) : (r.andThen f).events = r.events := by
  unfold ApiRun.andThen
  split
  · rfl
  · simp [hf]

theorem ApiRun.andThen_result {α β : Type} (r : ApiRun α) (f : α → ApiRun β) :
    (r.andThen f).result = r.result.bind fun a => (f a).result := by
  unfold ApiRun.andThen
  split <;> simp_all [Except.bind]

@[simp] theorem ApiRun.map_result {α β : Type} (f : α → β) (r : ApiRun α) :
    (r.map f).result = r.result.map f := rfl

@[simp] theorem ApiRun.map_attempts {α β : Type} (f : α → β) (r : ApiRun α) :
    (r.map f).attempts = r.attempts := rfl

@[simp] theorem ApiRun.map_events {α β : Type} (f : α → β) (r : ApiRun α) :
    (r.map f).events = r.events := rfl

theorem internalPostForm_attempts (url : String) (fields : FormFields) (ctx : Bool)
    (maxAttempts : ℤ) (env : CallEnv) (gate : RetryGate) :
    (internalPostForm P config url fields ctx maxAttempts env gate).attempts =
      (postWithRetry P maxAttempts config.backoffFactor gate url fields env).attempts :=
  ApiRun.andThen_attempts _ fun _ => rfl

theorem internalPostForm_events (url : String) (fields : FormFields) (ctx : Bool)
    (maxAttempts : ℤ) (env : CallEnv) (gate : RetryGate) :
    (internalPostForm P config url fields ctx maxAttempts env gate).events = [] :=
  ApiRun.andThen_events _ fun _ => rfl

theorem recognize_attempts {source : Source} {env : CallEnv} {fields : FormFields}
    (opts : RecognizeOptions) (hfields : prepareSource env.fileExists source = .ok fields) :
    (recognize P config source opts env).attempts =
      (postWithRetry P config.maxAttempts config.backoffFactor .preUploadOnly (apiBase ++ "/")
        (applyRecognizeOpts fields opts) env).attempts := by
  simp only [recognize, hfields]
  exact ApiRun.andThen_attempts _ fun _ => rfl

theorem recognizeEnterprise_attempts {source : Source} {env : CallEnv} {fields : FormFields}
    (opts : EnterpriseOptions) (hfields : prepareSource env.fileExists source = .ok fields) :
    (recognizeEnterprise P config source opts env).attempts =
      (postWithRetry P config.maxAttempts config.backoffFactor .preUploadOnly
        (enterpriseBase ++ "/") (applyEnterpriseOpts fields opts) env).attempts := by
  simp only [recognizeEnterprise, hfields]
  exact ApiRun.andThen_attempts _ fun _ => rfl

/-- The requests of a retried transfer are `post_form` on the same form, each in
its own surroundings. -/
theorem postWithRetry_attempts_getElem? (maxAttempts backoff : ℤ) (gate : RetryGate)
    (url : String) (fields : FormFields) (env : CallEnv) (i : ℕ) :
    (postWithRetry P maxAttempts backoff gate url fields env).attempts[i]? =
      if i < (postWithRetry P maxAttempts backoff gate url fields env).attempts.length then
        some (postForm P url fields (env.attempts i)) else none := by
  simp only [postWithRetry, List.getElem?_map, List.length_map, List.length_range]
  split
  · rw [List.getElem?_range ‹_›]
    rfl
  · rw [List.getElem?_eq_none (by rw [List.length_range]; omega)]
    rfl

theorem eq_postForm_of_attempts {maxAttempts backoff : ℤ} {gate : RetryGate} {url : String}
    {fields : FormFields} {env : CallEnv} {i : ℕ} {a : Attempt}
    (h : (postWithRetry P maxAttempts backoff gate url fields env).attempts[i]? = some a) :
    a = postForm P url fields (env.attempts i) := by
  rw [postWithRetry_attempts_getElem?] at h
  split at h
  · exact (Option.some.inj h).symm
  · cases h

/-- Every request of a recognition is that of its prepared source under the options. -/
theorem recognize_attempt {source : Source} {opts : RecognizeOptions} {env : CallEnv} {i : ℕ}
    {a : Attempt} (h : (recognize P config source opts env).attempts[i]? = some a) :
    ∃ fields, prepareSource env.fileExists source = .ok fields ∧
      a = postForm P (apiBase ++ "/") (applyRecognizeOpts fields opts) (env.attempts i) := by
  cases hfields : prepareSource env.fileExists source with
  | error e => simp [recognize, hfields, ApiRun.throw] at h
  | ok fields =>
      rw [recognize_attempts opts hfields] at h
      exact ⟨fields, rfl, eq_postForm_of_attempts h⟩

theorem recognizeEnterprise_attempt {source : Source} {opts : EnterpriseOptions} {env : CallEnv}
    {i : ℕ} {a : Attempt}
    (h : (recognizeEnterprise P config source opts env).attempts[i]? = some a) :
    ∃ fields, prepareSource env.fileExists source = .ok fields ∧
      a = postForm P (enterpriseBase ++ "/") (applyEnterpriseOpts fields opts)
        (env.attempts i) := by
  cases hfields : prepareSource env.fileExists source with
  | error e => simp [recognizeEnterprise, hfields, ApiRun.throw] at h
  | ok fields =>
      rw [recognizeEnterprise_attempts opts hfields] at h
      exact ⟨fields, rfl, eq_postForm_of_attempts h⟩

/-- How many requests a retried transfer makes: one more while the last was a
connection error that the gate lets through and an attempt is left. -/
theorem lt_length_attempts_iff (maxAttempts backoff : ℤ) (gate : RetryGate) (url : String)
    (fields : FormFields) (env : CallEnv) (i : ℕ) :
    i < (postWithRetry P maxAttempts backoff gate url fields env).attempts.length ↔
      i ≤ attemptsLeft maxAttempts ∧
        ∀ j < i, retryable gate (postForm P url fields (env.attempts j)).result = true := by
  have hrun := retryOnConnectionError_follows maxAttempts backoff
    (fun i => (postForm P url fields (env.attempts i)).result) gate
  simp only [postWithRetry, List.length_map, List.length_range]
  generalize retryOnConnectionError maxAttempts backoff
    (fun i => (postForm P url fields (env.attempts i)).result) gate = run at hrun ⊢
  have hlt := hrun.start_lt
  have hle := hrun.calls_le
  constructor
  · intro hi
    exact ⟨by omega, fun j hj => hrun.retried j (by omega) (by omega)⟩
  · rintro ⟨hi, hretry⟩
    by_contra hge
    have hfinal := hrun.final (by omega)
    rw [hretry (run.calls - 1) (by omega)] at hfinal
    simp at hfinal

end

end Audd
