import Audd.CallPlan
import Audd.Lib.KeyedDecoder
import Audd.TokenRotation

/-!
# Where the token goes

The token reaches a request as one field of its form and nothing else: no event, no
warning, no wait, no result and no address depends on it. A client that was built
strictly never has an empty token, so each of its requests has that field.
-/

namespace Audd

open KeyedDecoder

variable {P : Platform} {config : ClientConfig}

/-! ## What does not depend on the token -/

/-- The same surroundings with other tokens at the starts of the requests. -/
def CallEnv.withTokens (env : CallEnv) (tokens : ℕ → String) : CallEnv :=
  { env with attempts := fun i => { env.attempts i with apiToken := tokens i } }

/-- The requests differ at most in the value of the token's field. -/
structure Attempt.SameButToken (a a' : Attempt) : Prop where
  url : a'.url = a.url
  file : a'.fields.file = a.fields.file
  data : AgreeOff "api_token" a.fields.data a'.fields.data
  transfer : a'.transfer = a.transfer
  result : a'.result = a.result

theorem injectToken_agreeOff (token : String) (data : OrderedMap String String) :
    AgreeOff "api_token" data (injectToken token data) := by
  intro key hkey
  rw [find?_injectToken, if_neg (by simp [hkey]), Option.or_none]

theorem postForm_sameButToken (url : String) (fields : FormFields) (env : AttemptEnv)
    (token : String) :
    (postForm P url fields env).SameButToken (postForm P url fields { env with apiToken := token })
    where
  url := by
    unfold postForm
    dsimp only
    split
    · rfl
    · split <;> rfl
  file := by
    rw [postForm_fields, postForm_fields]
  data := by
    rw [postForm_fields, postForm_fields]
    intro key hkey
    rw [← injectToken_agreeOff env.apiToken fields.data key hkey]
    exact injectToken_agreeOff token fields.data key hkey
  transfer := by
    unfold postForm
    dsimp only
    split
    · rfl
    · split <;> rfl
  result := by
    unfold postForm
    dsimp only
    split
    · rfl
    · split <;> rfl

/-- The retry loop sees only results, so it makes the same requests. -/
theorem postWithRetry_withTokens (maxAttempts backoff : ℤ) (gate : RetryGate) (url : String)
    (fields : FormFields) (env : CallEnv) (tokens : ℕ → String) :
    let posted := postWithRetry P maxAttempts backoff gate url fields env
    let posted' := postWithRetry P maxAttempts backoff gate url fields (env.withTokens tokens)
    posted'.waits = posted.waits ∧ posted'.result = posted.result ∧
      List.Forall₂ Attempt.SameButToken posted.attempts posted'.attempts := by
  have hsame := fun i => postForm_sameButToken (P := P) url fields (env.attempts i) (tokens i)
  have hresults : (fun i => (postForm P url fields ((env.withTokens tokens).attempts i)).result) =
      fun i => (postForm P url fields (env.attempts i)).result := funext fun i => (hsame i).result
  intro posted posted'
  simp only [posted, posted', postWithRetry, hresults]
  refine ⟨trivial, trivial, ?_⟩
  rw [List.forall₂_map_left_iff, List.forall₂_map_right_iff, List.forall₂_same]
  intro i _
  exact hsame i

/-- The tokens that the requests of a call start with change the field `api_token` of its
requests and nothing else: not which requests are made or where to, not the waits
between them, what the hooks see, or how the call ends. -/
theorem run_token_confined (P : Platform) (config : ClientConfig) (call : ApiCall) (env : CallEnv)
    (tokens : ℕ → String) :
    let run := call.run P config env
    let run' := call.run P config (env.withTokens tokens)
    run'.events = run.events ∧ run'.warnings = run.warnings ∧ run'.waits = run.waits ∧
      run'.result = run.result ∧
      List.Forall₂ Attempt.SameButToken run.attempts run'.attempts := by
  intro run run'
  have hplan' : call.plan config (env.withTokens tokens).fileExists =
      call.plan config env.fileExists := rfl
  cases hplan : call.plan config env.fileExists with
  | error e =>
      simp only [run, run', run_of_rejected hplan, run_of_rejected (hplan'.trans hplan)]
      exact ⟨trivial, trivial, trivial, trivial, .nil⟩
  | ok plan =>
      obtain ⟨hwaits, hresult, hattempts⟩ := postWithRetry_withTokens (P := P) plan.maxAttempts
        config.backoffFactor plan.gate plan.url plan.fields env tokens
      simp only [run, run', run_of_plan hplan, run_of_plan (hplan'.trans hplan), Plan.run,
        ApiRun.map, hresult, hwaits]
      exact ⟨rfl, trivial, trivial, trivial, hattempts⟩

/-! ## Strict clients -/

/-- The text of an `AudDMissingApiTokenError`. -/
def missingApiToken : String :=
  "audd: api_token not supplied and AUDD_API_TOKEN env var " ++
    "is unset; get a token at https://dashboard.audd.io"

/-- An empty token is replaced by the environment variable, when that is set. -/
def effectiveToken (token : String) (envVar : Option String) : String :=
  if token = "" then envVar.getD "" else token

/-- The constructor of `AudD`. -/
def newClient (token : String) (envVar : Option String) : Transition TokenState TokenAction :=
  tokenRotation (effectiveToken token envVar)

/-- `AudD::strict`: its own check, which throws only an `AudDMissingApiTokenError`, and the
client that it builds. The two `HttpClient`s of a client run `global_init` first, which can
throw an `AudDConnectionError`: that is `globalInit`, and no part of this. -/
def strict (token : String) (envVar : Option String) :
    Except String (Transition TokenState TokenAction) :=
  let effective := effectiveToken token envVar
  if effective = "" then .error missingApiToken else .ok (newClient effective envVar)

/-- No copy of the token is empty, and none will be after the rotation in progress. -/
structure TokenState.Supplied (s : TokenState) : Prop where
  apiToken : s.apiToken ≠ ""
  standard : s.standard ≠ ""
  enterprise : s.enterprise ≠ ""
  rotating : ∀ t stage, s.rotating = some (t, stage) → t ≠ ""
  uses : ∀ u ∈ s.uses, u.token ≠ ""

theorem TokenState.Supplied.rotate {s s' : TokenState} (hs : s.Supplied)
    (h : s.rotate = some s') : s'.Supplied := by
  unfold TokenState.rotate at h
  split at h
  · cases h
  all_goals
    rename_i t hrotating
    have ht := hs.rotating t _ hrotating
    cases h
    constructor <;> simp_all [hs.apiToken, hs.standard, hs.enterprise, hs.uses]

theorem TokenState.Supplied.seenBy {s : TokenState} (hs : s.Supplied) {reader : TokenReader}
    {token : String} (h : s.seenBy reader = some token) : token ≠ "" := by
  cases reader with
  | apiTokenCall =>
      simp only [TokenState.seenBy] at h
      split at h
      · cases h
        exact hs.apiToken
      · cases h
  | standardRequest =>
      cases h
      exact hs.standard
  | enterpriseRequest =>
      cases h
      exact hs.enterprise

theorem TokenState.Supplied.step {s s' : TokenState} (hs : s.Supplied) {a : TokenAction}
    (h : tokenStep a s = some s') : s'.Supplied := by
  cases a with
  | setApiToken newToken =>
      simp only [tokenStep] at h
      split at h
      · cases h
        exact hs
      · split at h
        · cases h
          refine ⟨hs.apiToken, hs.standard, hs.enterprise, ?_, hs.uses⟩
          rintro t stage ⟨rfl, rfl⟩
          assumption
        · cases h
  | rotate => exact hs.rotate h
  | read reader =>
      obtain ⟨token, htoken, rfl⟩ := Option.map_eq_some_iff.mp h
      refine ⟨hs.apiToken, hs.standard, hs.enterprise, hs.rotating, ?_⟩
      intro u hu
      rcases List.mem_append.mp hu with hu | hu
      · exact hs.uses u hu
      · rw [List.mem_singleton.mp hu]
        exact hs.seenBy htoken

theorem supplied_of_reachable {token : String} (htoken : token ≠ "") {s : TokenState}
    (h : (tokenRotation token).Reachable s) : s.Supplied := by
  apply h.invariant
  · constructor <;> simp [tokenRotation, htoken]
  · intro a s s' hs hstep
    exact hs.step hstep

/-- `AudD::strict` refuses exactly when there is no token. A client that it built has one in
every state of every run, however its tokens are rotated and its calls interleaved, so
every form that it posts has the caller's own `api_token` or the one just read. -/
theorem strict_always_supplied (token : String) (envVar : Option String) :
    (strict token envVar = .error missingApiToken ↔ token = "" ∧ envVar.getD "" = "") ∧
      ∀ client, strict token envVar = .ok client → ∀ s, client.Reachable s →
        (∀ reader t, s.seenBy reader = some t → t ≠ "") ∧
          ∀ u ∈ s.uses, ∀ (P : Platform) (url : String) (fields : FormFields) (env : AttemptEnv),
            env.apiToken = u.token →
              (postForm P url fields env).fields.data.find? "api_token" =
                some ((fields.data.find? "api_token").getD u.token) := by
  constructor
  · unfold strict effectiveToken
    by_cases htoken : token = ""
    · simp [htoken]
    · simp [htoken]
  · intro client hclient s hs
    unfold strict at hclient
    by_cases heffective : effectiveToken token envVar = ""
    · rw [if_pos heffective] at hclient
      cases hclient
    · rw [if_neg heffective] at hclient
      obtain rfl := Except.ok.inj hclient
      -- the constructor sees a token that is not empty and keeps it
      have hkept : newClient (effectiveToken token envVar) envVar =
          tokenRotation (effectiveToken token envVar) := by
        rw [newClient, effectiveToken, if_neg heffective]
      rw [hkept] at hs
      have hsupplied := supplied_of_reachable heffective hs
      refine ⟨fun reader t hseen => hsupplied.seenBy hseen, ?_⟩
      intro u hu P url fields env henv
      rw [postForm_fields, find?_injectToken, henv, if_pos ⟨rfl, hsupplied.uses u hu⟩]
      cases fields.data.find? "api_token" <;> rfl

end Audd
