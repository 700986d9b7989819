import Audd.Decode
import Audd.Endpoints
import Audd.Longpoll

/-!
# The preflight of a longpoll

`StreamsClient::longpoll` asks for the callback URL before it starts the worker.
The reply is the outcome of the retried request, so the theorems are about every
sequence of transport outcomes.
-/

namespace Audd

def noCallbackErrorCode : Int32 := 19

def preflightHint : String :=
  "Longpoll won't deliver events because no callback URL is configured for " ++
  "this account. Set one first via client.streams().set_callback_url(url, " ++
  "opts) \xe2\x80\x94 `https://audd.tech/empty/` is fine if you only want longpolling " ++
  "and don't need a real receiver. To skip this check, set " ++
  "LongpollOptions.skip_callback_check = true."

/-- What the handler of `longpoll` throws for an exception of `get_callback_url`. -/
def translatePreflight (x : Exn) : Exn :=
  match x.apiError? with
  | some e =>
      if e.errorCode = noCallbackErrorCode then
        .api {
          errorCode := 0
          message := preflightHint
          httpStatus := e.httpStatus
          requestId := e.requestId }
      else x
  | none => x

section
variable (P : Platform) (config : ClientConfig)

/-- The poll that is started, or what is thrown before there is one. -/
def longpoll (category : String) (opts : LongpollOptions) (env : CallEnv) :
    ApiRun (Transition Poll PollAction) :=
  let poll := startLongpoll P category opts
  if opts.skipCallbackCheck then { result := .ok poll }
  else
    let preflight := getCallbackUrl P config env
    { preflight with
      result := match preflight.result with
        | .ok _ => .ok poll
        | .error x => .error (translatePreflight x) }

/-- The reply to the preflight request, after its retries. -/
def preflightReply (env : CallEnv) : Except Exn HttpResponse :=
  (postWithRetry P config.maxAttempts config.backoffFactor .allConnectionErrors
    (apiBase ++ "/getCallbackUrl/") {} env).result

/-- The exception or the body that the reply is decoded to. -/
def preflightBody (env : CallEnv) : Except Exn Json :=
  (preflightReply P config env).bind fun resp =>
    (decodeOrThrow P resp config.onDeprecation).result

/-- A reply that is a success. -/
def ReplySucceeds (env : CallEnv) (members : OrderedMap String Json) : Prop :=
  ∃ resp, preflightReply P config env = .ok resp ∧ resp.jsonBody = .object members ∧
    Succeeds P members

/-- The server names a callback URL. -/
def NamesCallbackUrl (members : OrderedMap String Json) : Prop :=
  ∃ url, members.find? "result" = some (.string url) ∧ url ≠ ""

/-- The server says that there is none: by the error code, or by an empty result. -/
def SaysNoCallbackUrl (env : CallEnv) : Prop :=
  (∃ x e, preflightBody P config env = .error x ∧ x.apiError? = some e ∧ e.errorCode = 19) ∨
    ∃ members, ReplySucceeds P config env members ∧
      (members.find? "result" = none ∨ members.find? "result" = some .null ∨
        members.find? "result" = some (.string ""))

/-- The preflight lets a poll start only with a callback URL and explains why not. -/
structure PreflightContract (env : CallEnv) (run : ApiRun (Transition Poll PollAction)) :
    Prop where
  starts_only : ∀ poll, run.result = .ok poll →
    ∃ members, ReplySucceeds P config env members ∧ NamesCallbackUrl members
  explains : SaysNoCallbackUrl P config env → ∃ httpStatus requestId,
    run.result = .error (.api { errorCode := 0, message := preflightHint, httpStatus, requestId })
  unchanged : ∀ x, preflightBody P config env = .error x → ¬SaysNoCallbackUrl P config env →
    run.result = .error x

end

variable {P : Platform} {config : ClientConfig} {env : CallEnv}

theorem getCallbackUrl_result :
    (getCallbackUrl P config env).result = (preflightBody P config env).map fun body =>
      ((findValue body "result").bind Platform.getString).getD "" := by
  rw [getCallbackUrl, ApiRun.map_result, internalPostForm, ApiRun.andThen_result]
  rfl

theorem longpoll_result (category : String) {opts : LongpollOptions}
    (hskip : opts.skipCallbackCheck = false) :
    (longpoll P config category opts env).result =
      match preflightBody P config env with
      | .ok _ => .ok (startLongpoll P category opts)
      | .error x => .error (translatePreflight x) := by
  simp only [longpoll, hskip, Bool.false_eq_true, if_false, getCallbackUrl_result]
  cases preflightBody P config env <;> rfl

/-- The reply decodes to a body exactly when it is a success. -/
theorem preflightBody_ok_iff :
    (∃ body, preflightBody P config env = .ok body) ↔
      ∃ members, ReplySucceeds P config env members := by
  constructor
  · rintro ⟨body, hbody⟩
    cases hreply : preflightReply P config env with
    | error x =>
        rw [preflightBody, hreply] at hbody
        cases hbody
    | ok resp =>
        rw [preflightBody, hreply] at hbody
        obtain ⟨members, hobject, hsucceeds⟩ := succeeds_of_decodeOrThrow hbody
        exact ⟨members, resp, hreply, hobject, hsucceeds⟩
  · rintro ⟨members, resp, hreply, hobject, hsucceeds⟩
    obtain ⟨kept, hkept, -⟩ :=
      decodeOrThrow_of_succeeds hobject hsucceeds config.onDeprecation false
    exact ⟨.object kept, by rw [preflightBody, hreply]; exact hkept⟩

theorem translatePreflight_of_code {x : Exn} {e : ApiError} (he : x.apiError? = some e)
    (h19 : e.errorCode = 19) :
    translatePreflight x = .api {
      errorCode := 0
      message := preflightHint
      httpStatus := e.httpStatus
      requestId := e.requestId } := by
  simp only [translatePreflight, he]
  exact if_pos h19

theorem translatePreflight_of_other {x : Exn}
    (h : ∀ e, x.apiError? = some e → e.errorCode ≠ 19) : translatePreflight x = x := by
  unfold translatePreflight
  split
  · rename_i e he
    exact if_neg (h e he)
  · rfl

/-- A success starts the poll whatever its result is. -/
theorem longpoll_of_succeeds (category : String) {opts : LongpollOptions}
    (hskip : opts.skipCallbackCheck = false) {members : OrderedMap String Json}
    (h : ReplySucceeds P config env members) :
    (longpoll P config category opts env).result = .ok (startLongpoll P category opts) := by
  obtain ⟨body, hbody⟩ := preflightBody_ok_iff.mpr ⟨members, h⟩
  rw [longpoll_result category hskip, hbody]

theorem ReplySucceeds.unique {members other : OrderedMap String Json}
    (h : ReplySucceeds P config env members) (h' : ReplySucceeds P config env other) :
    members = other := by
  obtain ⟨resp, hreply, hobject, -⟩ := h
  obtain ⟨resp', hreply', hobject', -⟩ := h'
  obtain rfl := Except.ok.inj (hreply.symm.trans hreply')
  exact Json.object.inj (hobject.symm.trans hobject')

/-- The preflight keeps its contract exactly when a success names a callback URL. -/
theorem preflightContract_iff (P : Platform) (config : ClientConfig) (category : String)
    (opts : LongpollOptions) (env : CallEnv) (hskip : opts.skipCallbackCheck = false) :
    PreflightContract P config env (longpoll P config category opts env) ↔
      ∀ members, ReplySucceeds P config env members → NamesCallbackUrl members := by
  constructor
  · intro hcontract members hmembers
    obtain ⟨other, hother, hnames⟩ :=
      hcontract.starts_only _ (longpoll_of_succeeds category hskip hmembers)
    rw [hmembers.unique hother]
    exact hnames
  · intro hnames
    have hresult : (longpoll P config category opts env).result = _ :=
      longpoll_result category hskip
    constructor
    · intro poll hpoll
      cases hbody : preflightBody P config env with
      | error x =>
          rw [hresult, hbody] at hpoll
          cases hpoll
      | ok body =>
          obtain ⟨members, hmembers⟩ := preflightBody_ok_iff.mp ⟨body, hbody⟩
          exact ⟨members, hmembers, hnames members hmembers⟩
    · rintro (⟨x, e, hx, he, h19⟩ | ⟨members, hmembers, hempty⟩)
      · refine ⟨e.httpStatus, e.requestId, ?_⟩
        rw [hresult, hx]
        exact congrArg Except.error (translatePreflight_of_code he h19)
      -- such a success is no success that names a URL
      · obtain ⟨url, hurl, hne⟩ := hnames members hmembers
        simp [hurl, hne] at hempty
    · intro x hx hno
      rw [hresult, hx]
      refine congrArg Except.error (translatePreflight_of_other ?_)
      intro e he h19
      exact hno (.inl ⟨x, e, hx, he, h19⟩)

theorem preflightContract_iff_unreachable :
    let P := Platform.ofTable []
    let env : CallEnv := { attempts := fun _ => { apiToken := "test", transfer := {
      first := { sent := 0, status := 0, headerLines := [] }
      redirects := []
      code := .couldntConnect
      body := "" } } }
    PreflightContract P {} env (longpoll P {} "category" {} env) ↔
      ∀ members, ReplySucceeds P {} env members → NamesCallbackUrl members := by
  intro P env
  exact preflightContract_iff P {} "category" {} env rfl

/-- The server answers that no callback URL is set, and the poll starts. -/
theorem empty_result_starts_poll :
    let members := OrderedMap.ofList [("status", Json.string "success"), ("result", .string "")]
    let text := "\x7b\"status\":\"success\",\"result\":\"\"\x7d"
    let P := Platform.ofTable [(text, .object members)]
    let env : CallEnv := { attempts := fun _ => { apiToken := "test", transfer := {
      first := { sent := 0, status := 200, headerLines := [] }
      redirects := []
      code := .ok
      body := text } } }
    SaysNoCallbackUrl P {} env ∧
      (longpoll P {} "category" {} env).result = .ok (startLongpoll P "category" {}) ∧
      ¬PreflightContract P {} env (longpoll P {} "category" {} env) := by
  intro members text P env
  have hkeys : ([("status", Json.string "success"), ("result", .string "")].map Prod.fst).Nodup :=
    by decide
  have hstatus : members.find? "status" = some (.string "success") :=
    OrderedMap.find?_insertMany_of_mem _ _ hkeys (by simp)
  have hresult : members.find? "result" = some (.string "") :=
    OrderedMap.find?_insertMany_of_mem _ _ hkeys (by simp)
  have hsucceeds : ReplySucceeds P {} env members := ⟨_, rfl, rfl, .inr hstatus⟩
  have hstarts : (longpoll P {} "category" {} env).result =
      .ok (startLongpoll P "category" {}) := longpoll_of_succeeds "category" rfl hsucceeds
  refine ⟨.inr ⟨members, hsucceeds, .inr (.inr hresult)⟩, hstarts, ?_⟩
  intro hcontract
  obtain ⟨other, hother, url, hurl, hne⟩ := hcontract.starts_only _ hstarts
  rw [← hsucceeds.unique hother, hresult] at hurl
  cases hurl
  exact hne rfl

end Audd
