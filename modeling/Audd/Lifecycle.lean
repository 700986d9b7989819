import Audd.Endpoints

/-!
# Lifecycle events

The events that a hook sees over a session of public calls, compared with the
requests that the calls sent.
-/

namespace Audd

/-- Which public call was made, without its arguments. -/
inductive Operation
  | recognize
  | recognizeEnterprise
  | setCallbackUrl
  | getCallbackUrl
  | addStream
  | setUrl
  | del
  | list
  | customCatalogAdd
  | findLyrics
  | rawRequest
deriving DecidableEq

def ApiCall.operation : ApiCall → Operation
  | .recognize _ _ => .recognize
  | .recognizeEnterprise _ _ => .recognizeEnterprise
  | .setCallbackUrl _ _ => .setCallbackUrl
  | .getCallbackUrl => .getCallbackUrl
  | .addStream _ => .addStream
  | .setUrl _ _ => .setUrl
  | .del _ => .del
  | .list => .list
  | .customCatalogAdd _ _ => .customCatalogAdd
  | .findLyrics _ => .findLyrics
  | .rawRequest _ _ => .rawRequest

def Operation.isRecognition : Operation → Bool
  | .recognize | .recognizeEnterprise => true
  | _ => false

/-- What the transport finally returned or threw; `none` when nothing was sent. -/
def ApiRun.transportOutcome {α : Type} (r : ApiRun α) : Option (Except Exn HttpResponse) :=
  r.attempts.getLast?.map Attempt.result

/-- The kinds of event that a call with this outcome should report. -/
def expectedKinds : Option (Except Exn HttpResponse) → List EventKind
  | none => []
  | some (.ok _) => [.request, .response]
  | some (.error _) => [.request, .exception]

/-- A session is its calls in order, each with its surroundings. -/
abbrev Session := List (ApiCall × CallEnv)

variable (P : Platform) (config : ClientConfig)

/-- The runs of a session on a client with an `on_event` hook. -/
def observedRun (c : ApiCall × CallEnv) : ApiRun ApiValue :=
  c.1.run P { config with onEvent := true } c.2

/-- All events that the hook of a session sees. -/
def sessionEvents (session : Session) : List AudDEvent :=
  session.flatMap fun c => (observedRun P config c).events

/-- An event without its time. -/
def AudDEvent.timeless (ev : AudDEvent) : AudDEvent := { ev with elapsed := 0 }

/-- The events of an instrumented request, without their times. -/
def outcomeEvents (method url : String) (outcome : Option (Except Exn HttpResponse)) :
    List AudDEvent :=
  match outcome with
  | none => []
  | some (.error _) =>
      [{ kind := .request, method, url }, { kind := .exception, method, url }]
  | some (.ok resp) =>
      [{ kind := .request, method, url },
        { kind := .response, method, url, requestId := resp.requestId,
          httpStatus := resp.httpStatus }]

variable {P config}

theorem ApiRun.map_transportOutcome {α β : Type} (f : α → β) (r : ApiRun α) :
    (r.map f).transportOutcome = r.transportOutcome := rfl

/-- The last request of a retried transfer decides its result. -/
theorem postWithRetry_getLast? (maxAttempts backoff : ℤ) (gate : RetryGate) (url : String)
    (fields : FormFields) (env : CallEnv) :
    let posted := postWithRetry P maxAttempts backoff gate url fields env
    posted.attempts.getLast?.map Attempt.result = some posted.result := by
  intro posted
  have hrun := retryOnConnectionError_follows maxAttempts backoff
    (fun i => (postForm P url fields (env.attempts i)).result) gate
  have hlt := hrun.start_lt
  have hresult : posted.result = _ := hrun.result_eq
  rw [hresult]
  simp only [posted, postWithRetry, List.getLast?_map, Option.map_map]
  generalize (retryOnConnectionError maxAttempts backoff
    (fun i => (postForm P url fields (env.attempts i)).result) gate).calls = calls at hlt ⊢
  obtain ⟨n, rfl⟩ : ∃ n, calls = n + 1 := ⟨calls - 1, by omega⟩
  simp [List.range_succ]

theorem instrumentedPost_transportOutcome (method url : String) (fields : FormFields)
    (env : CallEnv) : (instrumentedPost P config method url fields env).transportOutcome =
      some (instrumentedPost P config method url fields env).result :=
  postWithRetry_getLast? _ _ _ _ _ _

/-- The events of a request are decided by its outcome. -/
theorem instrumentedPost_events (P : Platform) (config : ClientConfig) (method url : String)
    (fields : FormFields) (env : CallEnv) :
    let run := instrumentedPost P { config with onEvent := true } method url fields env
    run.events.map AudDEvent.timeless = outcomeEvents method url run.transportOutcome := by
  intro run
  have hout : run.transportOutcome = some run.result := instrumentedPost_transportOutcome _ _ _ _
  rw [hout]
  simp only [run, instrumentedPost, emitEvent]
  generalize postWithRetry P config.maxAttempts config.backoffFactor .preUploadOnly url fields
    env = posted
  cases posted.result <;> rfl

/-- Decoding the response adds no event and no request. -/
theorem instrumented_decode_events {α : Type} (P : Platform) (config : ClientConfig)
    (method url : String) (fields : FormFields) (env : CallEnv) (f : Json → α) :
    let config := { config with onEvent := true }
    let run := (instrumentedPost P config method url fields env).andThen fun resp =>
      (decodeResponse P config resp).map f
    run.events.map AudDEvent.timeless = outcomeEvents method url run.transportOutcome := by
  intro config run
  have hevents : run.events = (instrumentedPost P config method url fields env).events :=
    ApiRun.andThen_events _ fun _ => rfl
  have hattempts : run.attempts = (instrumentedPost P config method url fields env).attempts :=
    ApiRun.andThen_attempts _ fun _ => rfl
  have hpost := instrumentedPost_events P config method url fields env
  unfold ApiRun.transportOutcome at hpost ⊢
  rw [hevents, hattempts]
  exact hpost

/-- The events that an operation reports for an outcome. -/
def Operation.events (op : Operation) (outcome : Option (Except Exn HttpResponse)) :
    List AudDEvent :=
  match op with
  | .recognize => outcomeEvents "recognize" (apiBase ++ "/") outcome
  | .recognizeEnterprise => outcomeEvents "recognize_enterprise" (enterpriseBase ++ "/") outcome
  | _ => []

/-- The operations over `AudD::Internal::post_form` report nothing. -/
theorem run_events_of_not_recognition (config : ClientConfig) (call : ApiCall) (env : CallEnv)
    (h : call.operation.isRecognition = false) : (call.run P config env).events = [] := by
  cases call with
  | recognize | recognizeEnterprise => simp [ApiCall.operation, Operation.isRecognition] at h
  | setCallbackUrl url opts =>
      simp only [ApiCall.run, setCallbackUrl]
      split
      · rfl
      · exact internalPostForm_events _ _ _ _ _ _
  | customCatalogAdd audioId source =>
      simp only [ApiCall.run, customCatalogAdd]
      split
      · rfl
      · exact internalPostForm_events _ _ _ _ _ _
  | getCallbackUrl | addStream | setUrl | del | list | findLyrics | rawRequest =>
      exact internalPostForm_events _ _ _ _ _ _

/-- The events of a call, without their times, are decided by the operation and
the outcome of the transport. -/
theorem observedRun_events (c : ApiCall × CallEnv) :
    (observedRun P config c).events.map AudDEvent.timeless =
      c.1.operation.events (observedRun P config c).transportOutcome := by
  obtain ⟨call, env⟩ := c
  cases call with
  | recognize source opts =>
      simp only [observedRun, ApiCall.run, recognize, ApiRun.map_events,
        ApiRun.map_transportOutcome]
      split
      · rfl
      · exact instrumented_decode_events P config _ _ _ _ _
  | recognizeEnterprise source opts =>
      simp only [observedRun, ApiCall.run, recognizeEnterprise, ApiRun.map_events,
        ApiRun.map_transportOutcome]
      split
      · rfl
      · exact instrumented_decode_events P config _ _ _ _ _
  | _ =>
      simp only [observedRun]
      rw [run_events_of_not_recognition _ _ _ rfl]
      rfl

theorem outcomeEvents_kinds (method url : String) (outcome : Option (Except Exn HttpResponse)) :
    (outcomeEvents method url outcome).map AudDEvent.kind = expectedKinds outcome := by
  rcases outcome with _ | _ | _ <;> rfl

theorem expectedKinds_eq_nil_iff (outcome : Option (Except Exn HttpResponse)) :
    expectedKinds outcome = [] ↔ outcome = none := by
  rcases outcome with _ | _ | _ <;> simp [expectedKinds]

theorem transportOutcome_eq_none_iff {α : Type} (r : ApiRun α) :
    r.transportOutcome = none ↔ r.attempts = [] := by
  simp [ApiRun.transportOutcome]

/-- Timing does not change the kind of an event. -/
theorem kind_eq_of_timeless (events : List AudDEvent) :
    (events.map AudDEvent.timeless).map AudDEvent.kind = events.map AudDEvent.kind := by
  simp [AudDEvent.timeless]

/-- A call reports the expected kinds when it is a recognition or sent nothing,
and otherwise it reports nothing. -/
theorem observedRun_kinds (P : Platform) (config : ClientConfig) (c : ApiCall × CallEnv) :
    (observedRun P config c).events.map AudDEvent.kind =
      if c.1.operation.isRecognition then expectedKinds (observedRun P config c).transportOutcome
      else [] := by
  rw [← kind_eq_of_timeless, observedRun_events]
  cases hop : c.1.operation with
  | recognize | recognizeEnterprise => exact outcomeEvents_kinds _ _ _
  | _ => rfl

/-- Pieces that are as expected or empty join to no more than the expected list. -/
theorem length_flatMap_le {α β : Type} {l : List α} {f g : α → List β}
    (h : ∀ a ∈ l, f a = g a ∨ f a = []) : (l.flatMap f).length ≤ (l.flatMap g).length := by
  induction l with
  | nil => simp
  | cons a rest ih =>
      have hrest := ih fun b hb => h b (List.mem_cons_of_mem _ hb)
      simp only [List.flatMap_cons, List.length_append]
      rcases h a List.mem_cons_self with ha | ha
      · rw [ha]
        omega
      · rw [ha, List.length_nil]
        omega

/-- They join to the expected list only when every piece is as expected. -/
theorem flatMap_eq_iff {α β : Type} {l : List α} {f g : α → List β}
    (h : ∀ a ∈ l, f a = g a ∨ f a = []) :
    l.flatMap f = l.flatMap g ↔ ∀ a ∈ l, f a = g a := by
  refine ⟨?_, List.flatMap_congr⟩
  induction l with
  | nil => simp
  | cons a rest ih =>
      intro heq
      have hrest : ∀ b ∈ rest, f b = g b ∨ f b = [] :=
        fun b hb => h b (List.mem_cons_of_mem _ hb)
      simp only [List.flatMap_cons] at heq
      have hhead : f a = g a := by
        rcases h a List.mem_cons_self with ha | ha
        · exact ha
        · have hle := length_flatMap_le hrest
          rw [ha, List.nil_append] at heq
          rw [heq, List.length_append] at hle
          rw [ha, List.length_eq_zero_iff.mp (by omega : (g a).length = 0)]
      rw [hhead] at heq
      intro b hb
      rcases List.mem_cons.mp hb with rfl | hb
      · exact hhead
      · exact ih hrest (List.append_cancel_left heq) b hb

/-- The same operation with the same outcome of its transport. -/
def SameOutcome (P : Platform) (config config' : ClientConfig) (c c' : ApiCall × CallEnv) : Prop :=
  c.1.operation = c'.1.operation ∧
    (observedRun P config c).transportOutcome = (observedRun P config' c').transportOutcome

/-- What the hook sees over every session. The kinds are, call by call, a request
and its outcome exactly when each call that sent something is a recognition: the
other operations report nothing. Apart from times, the operations and the
outcomes decide every event, whatever the tokens and the forms are. -/
theorem sessionEvents_complete_iff (P : Platform) (config : ClientConfig) :
    (∀ session : Session,
      (sessionEvents P config session).map AudDEvent.kind =
          session.flatMap (fun c => expectedKinds (observedRun P config c).transportOutcome) ↔
        ∀ c ∈ session, (observedRun P config c).attempts ≠ [] →
          c.1.operation.isRecognition = true) ∧
    (∀ (config' : ClientConfig) (session session' : Session),
      List.Forall₂ (SameOutcome P config config') session session' →
        (sessionEvents P config session).map AudDEvent.timeless =
          (sessionEvents P config' session').map AudDEvent.timeless) := by
  constructor
  · intro session
    have hkinds := observedRun_kinds P config
    rw [sessionEvents, List.map_flatMap, flatMap_eq_iff]
    · apply forall₂_congr
      intro c _
      rw [hkinds c, Ne, ← transportOutcome_eq_none_iff]
      by_cases hop : c.1.operation.isRecognition = true
      · simp [hop]
      · simp only [hop, Bool.false_eq_true, if_false, imp_false, not_not]
        rw [eq_comm, expectedKinds_eq_nil_iff]
    · intro c _
      rw [hkinds c]
      split
      · exact .inl rfl
      · exact .inr rfl
  · intro config' session session' hsame
    simp only [sessionEvents, List.map_flatMap]
    induction hsame with
    | nil => rfl
    | cons hhead _ ih =>
        simp only [List.flatMap_cons, observedRun_events, hhead.1, hhead.2]
        simp only [observedRun_events] at ih
        rw [ih]

/-- A stream listing that succeeds is not reported. -/
theorem list_not_reported :
    let P := Platform.ofTable []
    let env : CallEnv := { attempts := fun _ => { apiToken := "test", transfer := {
      first := { sent := 0, status := 200, headerLines := [] }
      redirects := []
      code := .ok
      body := "" } } }
    let session : Session := [(.list, env)]
    session.map (fun c => (observedRun P {} c).attempts.length) = [1] ∧
      (sessionEvents P {} session).map AudDEvent.kind ≠
        session.flatMap fun c => expectedKinds (observedRun P {} c).transportOutcome := by
  intro P env session
  have hexpected : session.flatMap
      (fun c => expectedKinds (observedRun P {} c).transportOutcome) = [.request, .response] := rfl
  refine ⟨rfl, ?_⟩
  rw [hexpected]
  decide

end Audd
