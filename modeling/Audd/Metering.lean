import Audd.Endpoints

/-!
# At most one submission

A metered request must not be sent twice. The retry loop re-sends a request only
when the failure is classified as one from before the upload, so everything
rests on that classification.
-/

namespace Audd

/-- The codes that `failure_is_pre_upload` takes for failures of the start of a
transfer, whatever the probes say. -/
def CurlCode.isStartUp : CurlCode → Bool
  | .unsupportedProtocol | .urlMalformat | .couldntResolveProxy | .couldntResolveHost
  | .couldntConnect | .sslConnectError | .peerFailedVerification | .sslCipher
  | .sslCacertBadfile | .interfaceFailed => true
  | .ok | .other _ => false

theorem failureIsPreUpload_eq (code : CurlCode) (uploaded status : ℤ) :
    failureIsPreUpload code uploaded status =
      (code.isStartUp || uploaded == 0 && status == 0) := by
  cases code <;> simp [failureIsPreUpload, CurlCode.isStartUp]

/-- Every request that sends a body byte is the last one of the call. -/
def SubmittedOnce (attempts : List Attempt) : Prop :=
  ∀ i a, attempts[i]? = some a → 0 < a.bodyBytes → i + 1 = attempts.length

/-- The transfer sent body bytes on one of its hops and then failed to start another. -/
def LateStartUpFailure (a : Attempt) : Prop :=
  ∃ t, a.transfer = some t ∧ t.code.isStartUp = true ∧ 0 < t.sizeUpload

variable (P : Platform)

/-- No request that may be followed by another one ends in a late start-up failure. -/
def NoLateStartUpFailure (maxAttempts : ℤ) (url : String) (fields : FormFields)
    (env : CallEnv) : Prop :=
  ∀ i < attemptsLeft maxAttempts,
    (∀ j < i, retryable .preUploadOnly (postForm P url fields (env.attempts j)).result = true) →
    ¬LateStartUpFailure (postForm P url fields (env.attempts i))

variable {P}

/-- A request that is retried although it sent body bytes is a late start-up failure. -/
theorem lateStartUpFailure_iff (url : String) (fields : FormFields) (env : AttemptEnv) :
    LateStartUpFailure (postForm P url fields env) ↔
      0 < (postForm P url fields env).bodyBytes ∧
        retryable .preUploadOnly (postForm P url fields env).result = true := by
  unfold LateStartUpFailure Attempt.bodyBytes
  rcases postForm_cases P url fields env with ⟨-, ht, -⟩ | ⟨-, ht, hr⟩
  · simp [ht]
  · simp only [ht, hr, Option.some.injEq, exists_eq_left', Option.map_some, Option.getD_some,
      transferResult, performFailedBeforeUpload, failureIsPreUpload_eq]
    generalize env.transfer = t
    by_cases hok : t.code = .ok
    · simp [hok, retryable, CurlCode.isStartUp]
    · simp only [hok, if_false, retryable, reduceCtorEq, decide_false, Bool.false_or]
      constructor
      · rintro ⟨hcode, hsent⟩
        exact ⟨hsent, by simp [hcode]⟩
      · rintro ⟨hsent, hpre⟩
        have hne : ((t.sizeUpload : ℤ) == 0) = false := by
          simpa using hsent.ne'
        exact ⟨by simpa [hne] using hpre, hsent⟩

/-- A retried transfer submits once exactly when no request that may be followed
by another ends in a late start-up failure. -/
theorem postWithRetry_submittedOnce_iff (maxAttempts backoff : ℤ) (url : String)
    (fields : FormFields) (env : CallEnv) :
    SubmittedOnce (postWithRetry P maxAttempts backoff .preUploadOnly url fields env).attempts ↔
      NoLateStartUpFailure P maxAttempts url fields env := by
  have hlength := lt_length_attempts_iff (P := P) maxAttempts backoff .preUploadOnly url fields env
  have hget := postWithRetry_attempts_getElem? (P := P) maxAttempts backoff .preUploadOnly url
    fields env
  generalize (postWithRetry P maxAttempts backoff .preUploadOnly url fields env).attempts =
    attempts at hlength hget ⊢
  constructor
  · intro honce i hi hearlier hlate
    obtain ⟨hsent, hretry⟩ := (lateStartUpFailure_iff url fields _).mp hlate
    have hnext : i + 1 < attempts.length := by
      apply (hlength (i + 1)).mpr
      refine ⟨hi, ?_⟩
      intro j hj
      rcases Nat.lt_succ_iff_lt_or_eq.mp hj with hj | rfl
      · exact hearlier j hj
      · exact hretry
    have hlast := honce i _ (by rw [hget i, if_pos (by omega)]) hsent
    omega
  · intro hno i a ha hsent
    rw [hget i] at ha
    obtain ⟨hi, rfl⟩ : i < attempts.length ∧ postForm P url fields (env.attempts i) = a := by
      simpa using ha
    by_contra hne
    obtain ⟨hleft, hretry⟩ := (hlength (i + 1)).mp (by omega)
    exact hno i hleft (fun j hj => hretry j (by omega))
      ((lateStartUpFailure_iff url fields _).mpr ⟨hsent, hretry i (by omega)⟩)

/-- A call allowed one attempt makes exactly one. -/
theorem postWithRetry_one (backoff : ℤ) (gate : RetryGate) (url : String) (fields : FormFields)
    (env : CallEnv) : (postWithRetry P 1 backoff gate url fields env).attempts.length = 1 := by
  have hlength := lt_length_attempts_iff (P := P) 1 backoff gate url fields env
  have hzero := (hlength 0).mpr ⟨by simp, by simp⟩
  have hone := (hlength 1).not.mpr (by simp [attemptsLeft])
  omega

theorem submittedOnce_of_length {attempts : List Attempt} (h : attempts.length ≤ 1) :
    SubmittedOnce attempts := by
  intro i a ha _
  have := (List.getElem?_eq_some_iff.mp ha).1
  omega

/-- When a metered call submits its body at most once, for every configuration
and every sequence of transfers. The classifier is wrong about the start-up
codes after an upload, and that is the only way a call submits twice. A custom
catalog upload never does. -/
theorem metered_submittedOnce_iff (P : Platform) (config : ClientConfig) (env : CallEnv) :
    (∀ code (uploaded : ℕ) status,
      (failureIsPreUpload code uploaded status = true → uploaded = 0) ↔
        ¬(code.isStartUp = true ∧ 0 < uploaded)) ∧
    (∀ source opts, SubmittedOnce (recognize P config source opts env).attempts ↔
      ∀ fields, prepareSource env.fileExists source = .ok fields →
        NoLateStartUpFailure P config.maxAttempts (apiBase ++ "/")
          (applyRecognizeOpts fields opts) env) ∧
    (∀ source opts, SubmittedOnce (recognizeEnterprise P config source opts env).attempts ↔
      ∀ fields, prepareSource env.fileExists source = .ok fields →
        NoLateStartUpFailure P config.maxAttempts (enterpriseBase ++ "/")
          (applyEnterpriseOpts fields opts) env) ∧
    (∀ url fields ctx maxAttempts,
      SubmittedOnce (internalPostForm P config url fields ctx maxAttempts env).attempts ↔
        NoLateStartUpFailure P maxAttempts url fields env) ∧
    (∀ audioId source, SubmittedOnce (customCatalogAdd P config audioId source env).attempts ∧
      ((prepareSourceForUpload env.fileExists source).toOption.isSome →
        (customCatalogAdd P config audioId source env).attempts.length = 1)) := by
  refine ⟨?_, ?_, ?_, ?_, ?_⟩
  · intro code uploaded status
    rw [failureIsPreUpload_eq]
    cases code.isStartUp <;> simp [Nat.pos_iff_ne_zero]
    omega
  · intro source opts
    cases hfields : prepareSource env.fileExists source with
    | error e => simp [recognize, hfields, ApiRun.throw, SubmittedOnce]
    | ok fields => simp [recognize_attempts opts hfields, postWithRetry_submittedOnce_iff]
  · intro source opts
    cases hfields : prepareSource env.fileExists source with
    | error e => simp [recognizeEnterprise, hfields, ApiRun.throw, SubmittedOnce]
    | ok fields =>
        simp [recognizeEnterprise_attempts opts hfields, postWithRetry_submittedOnce_iff]
  · intro url fields ctx maxAttempts
    rw [internalPostForm_attempts, postWithRetry_submittedOnce_iff]
  · intro audioId source
    cases hfields : prepareSourceForUpload env.fileExists source with
    | error e =>
        simp [customCatalogAdd, hfields, ApiRun.throw, SubmittedOnce, Except.toOption]
    | ok fields =>
        have hone : (customCatalogAdd P config audioId source env).attempts.length = 1 := by
          simp only [customCatalogAdd, hfields, ApiRun.map_attempts, internalPostForm_attempts]
          exact postWithRetry_one _ _ _ _ _
        exact ⟨submittedOnce_of_length hone.le, fun _ => hone⟩

/-- The first request uploads its whole body, is redirected and cannot connect to
the new place. It is sent again. -/
theorem recognize_redirected_submits_twice :
    let P := Platform.ofTable []
    let redirected : Transfer := {
      first := { sent := 1000, status := 307, headerLines := [] }
      redirects := [{ sent := 0, status := 0, headerLines := [] }]
      code := .couldntConnect
      body := "" }
    let accepted : Transfer := {
      first := { sent := 1000, status := 200, headerLines := [] }
      redirects := []
      code := .ok
      body := "" }
    let env : CallEnv := { attempts := fun i =>
      { apiToken := "test", transfer := if i = 0 then redirected else accepted } }
    let run := recognize P {} (.sourceUrl "https://example.com/a.mp3") {} env
    failureIsPreUpload redirected.code redirected.sizeUpload redirected.responseCode = true ∧
      run.attempts.map Attempt.bodyBytes = [1000, 1000] ∧ ¬SubmittedOnce run.attempts := by
  intro P redirected accepted env run
  have hbytes : run.attempts.map Attempt.bodyBytes = [1000, 1000] := rfl
  refine ⟨rfl, hbytes, ?_⟩
  intro honce
  obtain ⟨a, b, hab⟩ : ∃ a b, run.attempts = [a, b] := ⟨_, _, rfl⟩
  have hfirst : a.bodyBytes = 1000 := by
    rw [hab] at hbytes
    simpa using (List.cons.inj hbytes).1
  have := honce 0 a (by simp [hab]) (by omega)
  simp [hab] at this

end Audd
