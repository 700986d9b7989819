import Audd.Endpoints

/-!
# One plan for every call

Each public call decides on a request before anything is sent: an address, a form and how
often it may be sent. `Plan` is that decision, `Plan.run` the one way to carry it out and
`ApiCall.read` what the call makes of the answer. A public call is rejected, or it runs its
plan and reads the answer.
-/

namespace Audd

variable (P : Platform) (config : ClientConfig)

/-- What a call decides before it sends anything. -/
structure Plan where
  url : String
  fields : FormFields
  maxAttempts : ℤ
  gate : RetryGate := .preUploadOnly
  customCatalogContext : Bool := false
  /-- The method named in the events, for a call that reports them. -/
  reported : Option String := none

/-- The events of a plan, by the outcome of its transfer. -/
def Plan.events (plan : Plan) (elapsed : ℤ) (outcome : Except Exn HttpResponse) :
    List AudDEvent :=
  match plan.reported with
  | none => []
  | some method =>
      let last : AudDEvent := match outcome with
        | .error _ => { kind := .exception, method, url := plan.url, elapsed }
        | .ok resp =>
            { kind := .response, method, url := plan.url, requestId := resp.requestId,
              httpStatus := resp.httpStatus, elapsed }
      emitEvent config { kind := .request, method, url := plan.url } ++ emitEvent config last

/-- The form is sent until the gate or the limit stops it, and what came back is decoded once. -/
def Plan.run (plan : Plan) (env : CallEnv) : ApiRun Json :=
  let posted := postWithRetry P plan.maxAttempts config.backoffFactor plan.gate plan.url
    plan.fields env
  let decoded : Decoded := match posted.result with
    | .error e => { result := .error e }
    | .ok resp => decodeOrThrow P resp config.onDeprecation plan.customCatalogContext
  { attempts := posted.attempts
    waits := posted.waits
    events := plan.events config env.elapsed posted.result
    warnings := decoded.warnings
    result := decoded.result }

/-- The plan of a call, or the exception with which it is rejected. -/
def ApiCall.plan (fileExists : String → Bool) : ApiCall → Except Exn Plan
  | .recognize source opts => (prepareSource fileExists source).map fun f =>
      { url := apiBase ++ "/", fields := applyRecognizeOpts f opts,
        maxAttempts := config.maxAttempts, reported := some "recognize" }
  | .recognizeEnterprise source opts => (prepareSource fileExists source).map fun f =>
      { url := enterpriseBase ++ "/", fields := applyEnterpriseOpts f opts,
        maxAttempts := config.maxAttempts, reported := some "recognize_enterprise" }
  | .setCallbackUrl url opts => (addReturnToUrl url opts.returnMetadata).map fun finalUrl =>
      { url := apiBase ++ "/setCallbackUrl/",
        fields := formOver opts.extraParameters [("url", finalUrl)],
        maxAttempts := config.maxAttempts }
  | .getCallbackUrl => .ok
      { url := apiBase ++ "/getCallbackUrl/", fields := {}, maxAttempts := config.maxAttempts,
        gate := .allConnectionErrors }
  | .addStream req => .ok
      { url := apiBase ++ "/addStream/", fields := addFields req,
        maxAttempts := config.maxAttempts }
  | .setUrl radioId url => .ok
      { url := apiBase ++ "/setStreamUrl/",
        fields := formOver ∅ [("radio_id", toString radioId), ("url", url)],
        maxAttempts := config.maxAttempts }
  | .del radioId => .ok
      { url := apiBase ++ "/deleteStream/",
        fields := formOver ∅ [("radio_id", toString radioId)], maxAttempts := config.maxAttempts }
  | .list => .ok
      { url := apiBase ++ "/getStreams/", fields := {}, maxAttempts := config.maxAttempts,
        gate := .allConnectionErrors }
  | .customCatalogAdd audioId source => (prepareSourceForUpload fileExists source).map fun f =>
      { url := apiBase ++ "/upload/",
        fields := { f with data := f.data.insert "audio_id" (toString audioId) },
        maxAttempts := 1, customCatalogContext := true }
  | .findLyrics query => .ok
      { url := apiBase ++ "/findLyrics/",
        fields := { data := (∅ : OrderedMap String String).insert "q" query },
        maxAttempts := config.maxAttempts }
  | .rawRequest method params => .ok
      { url := apiBase ++ "/" ++ method ++ "/", fields := { data := params },
        maxAttempts := config.maxAttempts }

/-- What a call returns for a decoded body. -/
def ApiCall.read : ApiCall → Json → ApiValue
  | .recognize .., body => .recognition ((findValue body "result").map (parseRecognition P))
  | .recognizeEnterprise .., body => .enterprise
      (((resultArrayOrNull body).getD []).flatMap fun chunk =>
        anchoredSongs P (parseEnterpriseChunk P chunk))
  | .getCallbackUrl, body =>
      .callbackUrl (((findValue body "result").bind Platform.getString).getD "")
  | .list, body => .streams (((resultArrayOrNull body).getD []).map (parseStream P))
  | .findLyrics _, body => .lyrics (((resultArrayOrNull body).getD []).map (parseLyrics P))
  | .rawRequest .., body => .body body
  | .setCallbackUrl .., _ | .addStream _, _ | .setUrl .., _ | .del _, _
  | .customCatalogAdd .., _ => .nothing

variable {P config}

/-! ## The calls run their plans -/

/-- The shared request path runs the plan without events. -/
theorem internalPostForm_eq_run (url : String) (fields : FormFields) (ctx : Bool)
    (maxAttempts : ℤ) (gate : RetryGate) (env : CallEnv) :
    internalPostForm P config url fields ctx maxAttempts env gate =
      Plan.run P config
        { url, fields, maxAttempts, gate, customCatalogContext := ctx } env := by
  simp only [internalPostForm, Plan.run, Plan.events, ApiRun.andThen]
  cases (postWithRetry P maxAttempts config.backoffFactor gate url fields env).result with
  | error e => rfl
  | ok resp => simp [decodeResponse]

/-- A recognition runs the plan with events. -/
theorem instrumentedPost_eq_run {α : Type} (method url : String) (fields : FormFields)
    (f : Json → α) (env : CallEnv) :
    ((instrumentedPost P config method url fields env).andThen fun resp =>
        (decodeResponse P config resp).map f) =
      (Plan.run P config
        { url, fields, maxAttempts := config.maxAttempts, reported := some method } env).map f := by
  simp only [instrumentedPost, Plan.run, Plan.events, ApiRun.andThen]
  cases (postWithRetry P config.maxAttempts config.backoffFactor .preUploadOnly url fields
    env).result with
  | error e => rfl
  | ok resp => simp [decodeResponse, ApiRun.map]

theorem ApiRun.map_map {α β γ : Type} (f : α → β) (g : β → γ) (r : ApiRun α) :
    (r.map f).map g = r.map fun a => g (f a) := by
  simp only [ApiRun.map]
  cases r.result <;> rfl

/-- Every public call is rejected before it sends anything, or it runs its plan. -/
theorem run_eq_plan (call : ApiCall) (env : CallEnv) :
    call.run P config env = match call.plan config env.fileExists with
      | .error e => .throw e
      | .ok plan => (plan.run P config env).map (call.read P) := by
  cases call with
  | recognize source opts =>
      simp only [ApiCall.run, ApiCall.plan, recognize]
      cases prepareSource env.fileExists source with
      | error e => rfl
      | ok fields =>
          dsimp only [Except.map]
          rw [instrumentedPost_eq_run, ApiRun.map_map]
          rfl
  | recognizeEnterprise source opts =>
      simp only [ApiCall.run, ApiCall.plan, recognizeEnterprise]
      cases prepareSource env.fileExists source with
      | error e => rfl
      | ok fields =>
          dsimp only [Except.map]
          rw [instrumentedPost_eq_run, ApiRun.map_map]
          congr 1
          funext body
          rw [ApiCall.read]
          cases resultArrayOrNull body <;> rfl
  | setCallbackUrl url opts =>
      simp only [ApiCall.run, ApiCall.plan, setCallbackUrl]
      cases addReturnToUrl url opts.returnMetadata with
      | error e => rfl
      | ok finalUrl =>
          dsimp only [Except.map]
          rw [internalPostForm_eq_run, ApiRun.map_map]
          rfl
  | customCatalogAdd audioId source =>
      simp only [ApiCall.run, ApiCall.plan, customCatalogAdd]
      cases prepareSourceForUpload env.fileExists source with
      | error e => rfl
      | ok fields =>
          dsimp only [Except.map]
          rw [internalPostForm_eq_run, ApiRun.map_map]
          rfl
  | addStream req =>
      simp only [ApiCall.run, ApiCall.plan, addStream, internalPostForm_eq_run, ApiRun.map_map]
      rfl
  | setUrl radioId url =>
      simp only [ApiCall.run, ApiCall.plan, setUrl, internalPostForm_eq_run, ApiRun.map_map]
      rfl
  | del radioId =>
      simp only [ApiCall.run, ApiCall.plan, del, internalPostForm_eq_run, ApiRun.map_map]
      rfl
  | getCallbackUrl =>
      simp only [ApiCall.run, ApiCall.plan, getCallbackUrl, internalPostForm_eq_run,
        ApiRun.map_map]
      rfl
  | list =>
      simp only [ApiCall.run, ApiCall.plan, list, internalPostForm_eq_run, ApiRun.map_map]
      rfl
  | findLyrics query =>
      simp only [ApiCall.run, ApiCall.plan, findLyrics, rawRequest, internalPostForm_eq_run,
        ApiRun.map_map]
      rfl
  | rawRequest method params =>
      simp only [ApiCall.run, ApiCall.plan, rawRequest, internalPostForm_eq_run]
      rfl

/-! ## The outcome of a call -/

/-- The requests before the last were connection errors that the gate lets through, and
the last decides the result. -/
theorem postWithRetry_outcome (maxAttempts backoff : ℤ) (gate : RetryGate) (url : String)
    (fields : FormFields) (env : CallEnv) :
    let posted := postWithRetry P maxAttempts backoff gate url fields env
    ∃ earlier last, posted.attempts = earlier ++ [last] ∧
      (∀ a ∈ earlier, retryable gate a.result = true) ∧ last.result = posted.result := by
  intro posted
  have hrun := retryOnConnectionError_follows maxAttempts backoff
    (fun i => (postForm P url fields (env.attempts i)).result) gate
  have hlt := hrun.start_lt
  have hresult : posted.result = _ := hrun.result_eq
  have hretried := hrun.retried
  rw [hresult]
  simp only [posted, postWithRetry]
  generalize (retryOnConnectionError maxAttempts backoff
    (fun i => (postForm P url fields (env.attempts i)).result) gate).calls = calls
    at hlt hretried ⊢
  obtain ⟨n, rfl⟩ : ∃ n, calls = n + 1 := ⟨calls - 1, by omega⟩
  refine ⟨(List.range n).map fun i => postForm P url fields (env.attempts i),
    postForm P url fields (env.attempts n), ?_, ?_, rfl⟩
  · rw [List.range_succ, List.map_append, List.map_singleton]
  · intro a ha
    obtain ⟨i, hi, rfl⟩ := List.mem_map.mp ha
    exact hretried i (Nat.zero_le i) (by simpa using List.mem_range.mp hi)

/-- What a call does when its plan is to be carried out: the last request is the one
that counts, and its answer is decoded, once, by the rules of the plan, and read. -/
structure Plan.Answers (P : Platform) (config : ClientConfig) (call : ApiCall) (plan : Plan)
    (last : Attempt) (r : ApiRun ApiValue) : Prop where
  failed : ∀ e, last.result = .error e → r.warnings = [] ∧ r.result = .error e
  answered : ∀ resp, last.result = .ok resp →
    let d := decodeOrThrow P resp config.onDeprecation plan.customCatalogContext
    r.warnings = d.warnings ∧ r.result = d.result.map (call.read P)

theorem Plan.run_answers (call : ApiCall) (plan : Plan) (env : CallEnv) {last : Attempt}
    (hlast : last.result = (postWithRetry P plan.maxAttempts config.backoffFactor plan.gate
      plan.url plan.fields env).result) :
    plan.Answers P config call last ((plan.run P config env).map (call.read P)) where
  failed := by
    intro e he
    simp [Plan.run, ApiRun.map, ← hlast, he, Except.map]
  answered := by
    intro resp hresp
    simp [Plan.run, ApiRun.map, ← hlast, hresp]

theorem run_of_rejected {call : ApiCall} {env : CallEnv} {e : Exn}
    (h : call.plan config env.fileExists = .error e) : call.run P config env = .throw e := by
  rw [run_eq_plan, h]

theorem run_of_plan {call : ApiCall} {env : CallEnv} {plan : Plan}
    (h : call.plan config env.fileExists = .ok plan) :
    call.run P config env = (plan.run P config env).map (call.read P) := by
  rw [run_eq_plan, h]

/-- A call that is not rejected makes requests for its plan and ends with the last. -/
theorem exchange_of_plan {call : ApiCall} {env : CallEnv} {plan : Plan}
    (h : call.plan config env.fileExists = .ok plan) :
    ∃ earlier last, (call.run P config env).attempts = earlier ++ [last] ∧
      (∀ a ∈ earlier, retryable plan.gate a.result = true) ∧
      (∀ (i : ℕ) (a : Attempt), (call.run P config env).attempts[i]? = some a →
        a = postForm P plan.url plan.fields (env.attempts i)) ∧
      plan.Answers P config call last (call.run P config env) := by
  obtain ⟨earlier, last, hattempts, hearlier, hlast⟩ := postWithRetry_outcome (P := P)
    plan.maxAttempts config.backoffFactor plan.gate plan.url plan.fields env
  rw [run_of_plan h]
  refine ⟨earlier, last, hattempts, hearlier, ?_, plan.run_answers call env hlast⟩
  intro i a ha
  exact eq_postForm_of_attempts ha

/-- Every public call, whatever its surroundings do, is one exchange. Rejected arguments
send nothing. Otherwise its requests are the form of its plan, the first in the first
surroundings, the second in the second and so on: connection errors that the gate lets
through, and then the one that counts. -/
theorem run_one_exchange (P : Platform) (config : ClientConfig) (call : ApiCall) (env : CallEnv) :
    (∃ e, call.plan config env.fileExists = .error e ∧ call.run P config env = .throw e) ∨
      ∃ plan earlier last, call.plan config env.fileExists = .ok plan ∧
        (call.run P config env).attempts = earlier ++ [last] ∧
        (∀ a ∈ earlier, retryable plan.gate a.result = true) ∧
        (∀ (i : ℕ) (a : Attempt), (call.run P config env).attempts[i]? = some a →
          a = postForm P plan.url plan.fields (env.attempts i)) ∧
        plan.Answers P config call last (call.run P config env) := by
  cases hplan : call.plan config env.fileExists with
  | error e => exact .inl ⟨e, rfl, run_of_rejected hplan⟩
  | ok plan =>
      obtain ⟨earlier, last, hexchange⟩ := exchange_of_plan (P := P) hplan
      exact .inr ⟨plan, earlier, last, rfl, hexchange⟩

end Audd
