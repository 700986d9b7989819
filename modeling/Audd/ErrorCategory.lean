import Audd.CallPlan
import Audd.Decode
import Audd.Lifecycle

/-!
# What an error says about its cause

The category of an exception that a public call throws tells what went wrong: the
arguments, the transport, a body that is no JSON, or what the server reported.
-/

namespace Audd

variable {P : Platform} {config : ClientConfig}

theorem Except.error_of_map {ε α β : Type} {x : Except ε α} {f : α → β} {e : ε}
    (h : x.map f = .error e) : x = .error e := by
  cases x with
  | error e' =>
      obtain rfl := Except.error.inj h
      rfl
  | ok a => cases h

theorem Except.ok_of_map {ε α β : Type} {x : Except ε α} {f : α → β} {b : β}
    (h : x.map f = .ok b) : ∃ a, x = .ok a ∧ f a = b := by
  cases x with
  | error e => cases h
  | ok a => exact ⟨a, rfl, Except.ok.inj h⟩

/-- The exceptions of `decode_or_throw`, each with what it takes. -/
inductive DecodeError (P : Platform) (resp : HttpResponse) (ctx : Bool) : Exn → Prop
  | unparseable (hbody : resp.jsonBody = .null) (hstatus : resp.httpStatus < 400) :
      DecodeError P resp ctx (.serialization "Unparseable response" resp.rawBody)
  | unexpected (message : String)
      (hstatus : ∀ members, resp.jsonBody = .object members →
        members.find? "status" ≠ some (.string "error"))
      (hbody : resp.jsonBody = .null → 400 ≤ resp.httpStatus) :
      DecodeError P resp ctx (responseError message resp)
  | reported (members : OrderedMap String Json) (hbody : resp.jsonBody = .object members)
      (hpass : ¬PassesThrough P members)
      (hstatus : members.find? "status" = some (.string "error")) :
      DecodeError P resp ctx
        (raiseFromErrorResponse P (.object members) resp.httpStatus resp.requestId ctx)

theorem decodeOrThrow_error {resp : HttpResponse} {hook ctx : Bool} {e : Exn}
    (h : (decodeOrThrow P resp hook ctx).result = .error e) : DecodeError P resp ctx e := by
  cases hbody : resp.jsonBody with
  | null =>
      simp only [decodeOrThrow, hbody] at h
      split at h
      · obtain rfl := Except.error.inj h
        exact .unexpected _ (by simp [hbody]) fun _ => ‹_›
      · obtain rfl := Except.error.inj h
        exact .unparseable hbody (by omega)
  | object members =>
      simp only [decodeOrThrow, hbody] at h
      rcases stripDeprecation_cases P hook members with ⟨hp, hkept, -⟩ | ⟨hp, hkept⟩
      -- a body that passes through is returned
      · rw [hkept, (find?_passedThrough members).1] at h
        cases h
      · have herror := getString_status_eq_iff members (show "error" ≠ "" by decide)
        rw [hkept] at h
        split at h
        · obtain rfl := Except.error.inj h
          exact .reported members hbody hp (herror.mp ‹_›)
        · split at h
          · cases h
          · obtain rfl := Except.error.inj h
            refine .unexpected _ ?_ (by simp [hbody])
            intro members' hmembers
            obtain rfl := Json.object.inj (hbody.symm.trans hmembers)
            exact herror.not.mp ‹_›
  | boolean | numberInteger | numberUnsigned | numberFloat | string | array =>
      simp only [decodeOrThrow, hbody] at h
      obtain rfl := Except.error.inj h
      exact .unexpected _ (by simp [hbody]) (by simp [hbody])

/-- The server answered with a report of this error. -/
def ReportsCode (P : Platform) (resp : HttpResponse) (code : Int32) : Prop :=
  ∃ members err, resp.jsonBody = .object members ∧ ¬PassesThrough P members ∧
    members.find? "status" = some (.string "error") ∧
    members.find? "error" = some (.object err) ∧ jInt P (.object err) "error_code" = code

/-- The code that `raise_from_error_response` reads from the members of a body. -/
def errorCodeOf (P : Platform) (members : OrderedMap String Json) : Int32 :=
  (((members.find? "error").filter Json.isObject).map fun e => jInt P e "error_code").getD 0

theorem raiseFromErrorResponse_spec (P : Platform) (members : OrderedMap String Json)
    (httpStatus : ℤ) (requestId : String) (ctx : Bool) :
    let x := raiseFromErrorResponse P (.object members) httpStatus requestId ctx
    let code := errorCodeOf P members
    (∃ a, x.apiError? = some a ∧ a.httpStatus = httpStatus ∧ a.requestId = requestId ∧
        a.errorCode = code) ∧
      x.category = some (if ctx = true ∧ (code = 904 ∨ code = 905) then .customCatalogAccess
        else sentinelForCode code) := by
  intro x code
  by_cases hcustom : ctx = true ∧ (code = 904 ∨ code = 905)
  · have hx : x = .customCatalogAccess _ _ := if_pos hcustom
    rw [hx, if_pos hcustom]
    exact ⟨⟨_, rfl, rfl, rfl, rfl⟩, rfl⟩
  · have hx : x = .api _ := if_neg hcustom
    rw [hx, if_neg hcustom]
    exact ⟨⟨_, rfl, rfl, rfl, rfl⟩, rfl⟩

/-- A code that is not zero was read from an error object. -/
theorem reportsCode_of_errorCodeOf {members : OrderedMap String Json} {resp : HttpResponse}
    (hbody : resp.jsonBody = .object members) (hpass : ¬PassesThrough P members)
    (hstatus : members.find? "status" = some (.string "error")) {code : Int32}
    (hcode : errorCodeOf P members = code) (hne : code ≠ 0) : ReportsCode P resp code := by
  unfold errorCodeOf at hcode
  cases herr : members.find? "error" with
  | none =>
      rw [herr] at hcode
      exact absurd hcode.symm hne
  | some v =>
      rw [herr] at hcode
      cases v with
      | object err => exact ⟨members, err, hbody, hpass, hstatus, herr, hcode⟩
      | _ => exact absurd hcode.symm hne

theorem errorCodeOf_eq_of_reportsCode {members : OrderedMap String Json} {resp : HttpResponse}
    {code : Int32} (hbody : resp.jsonBody = .object members) (h : ReportsCode P resp code) :
    errorCodeOf P members = code ∧ ¬PassesThrough P members ∧
      members.find? "status" = some (.string "error") := by
  obtain ⟨members', err, hmembers, hpass, hstatus, herr, hcode⟩ := h
  obtain rfl := Json.object.inj (hbody.symm.trans hmembers)
  refine ⟨?_, hpass, hstatus⟩
  rw [errorCodeOf, herr]
  exact hcode

/-- What an exception says about the response that it comes from. -/
structure SaysOf (P : Platform) (resp : HttpResponse) (ctx : Bool) (e : Exn) : Prop where
  answered : e.category ≠ some .connection ∧ e.category ≠ none
  serialization : e.category = some .serialization ↔ resp.jsonBody = .null ∧ resp.httpStatus < 400
  customCatalog : e.category = some .customCatalogAccess ↔
    ctx = true ∧ (ReportsCode P resp 904 ∨ ReportsCode P resp 905)
  api : ∀ a, e.apiError? = some a → a.httpStatus = resp.httpStatus ∧
    a.requestId = resp.requestId ∧ (a.errorCode ≠ 0 → ReportsCode P resp a.errorCode)

theorem DecodeError.tells {resp : HttpResponse} {ctx : Bool} {e : Exn}
    (h : DecodeError P resp ctx e) : SaysOf P resp ctx e := by
  cases h with
  | unparseable hbody hstatus =>
      refine ⟨by simp [Exn.category], by simp [Exn.category, hbody, hstatus], ?_, ?_⟩
      · simp [Exn.category, ReportsCode, hbody]
      · intro a ha
        cases ha
  | unexpected message hstatus hbody =>
      have hcategory : (responseError message resp).category = some .server := rfl
      have hnone : ∀ code, ¬ReportsCode P resp code := by
        rintro code ⟨members, err, hmembers, -, hs, -⟩
        exact hstatus members hmembers hs
      refine ⟨by simp [hcategory], ?_, by simp [hcategory, hnone], ?_⟩
      · simp only [hcategory, Option.some.injEq, reduceCtorEq, false_iff, not_and, not_lt]
        exact hbody
      · rintro a ⟨rfl⟩
        exact ⟨rfl, rfl, fun hne => absurd rfl hne⟩
  | reported members hbody hpass hstatus =>
      obtain ⟨⟨a, ha, hhttp, hrid, hcode⟩, hcategory⟩ :=
        raiseFromErrorResponse_spec P members resp.httpStatus resp.requestId ctx
      obtain ⟨hconnection, hserialization, hcustom⟩ := sentinelForCode_ne (errorCodeOf P members)
      have hreports : ∀ code : Int32, code ≠ 0 →
          (ReportsCode P resp code ↔ errorCodeOf P members = code) := fun code hne =>
        ⟨fun hr => (errorCodeOf_eq_of_reportsCode hbody hr).1, fun heq =>
          reportsCode_of_errorCodeOf hbody hpass hstatus heq hne⟩
      refine ⟨?_, ?_, ?_, ?_⟩
      · rw [hcategory]
        refine ⟨?_, by simp⟩
        split <;> simp [hconnection]
      · rw [hcategory, hbody]
        simp only [reduceCtorEq, false_and, iff_false]
        split <;> simp [hserialization]
      · rw [hcategory, hreports 904 (by decide), hreports 905 (by decide)]
        split <;> simp_all
      · intro a' ha'
        obtain rfl := Option.some.inj (ha.symm.trans ha')
        exact ⟨hhttp, hrid, fun hne => (hreports _ hne).mpr hcode.symm⟩

/-- Whatever a request throws is a connection error. -/
theorem postForm_error {url : String} {fields : FormFields} {env : AttemptEnv} {e : Exn}
    (h : (postForm P url fields env).result = .error e) : e.category = some .connection := by
  rcases postForm_cases P url fields env with ⟨-, -, msg, hresult⟩ | ⟨-, -, hresult⟩
  · rw [hresult] at h
    obtain rfl := Except.error.inj h
    rfl
  · rw [hresult, transferResult] at h
    split at h
    · cases h
    · obtain rfl := Except.error.inj h
      rfl

theorem apiError?_of_connection {e : Exn} (h : e.category = some .connection) :
    e.apiError? = none := by
  cases e with
  | api a => exact absurd (Option.some.inj h) (sentinelForCode_ne a.errorCode).1
  | customCatalogAccess => cases h
  | connection | serialization | invalidArgument => rfl

theorem prepareWith_error {rejection : String → String} {fileExists : String → Bool}
    {source : Source} {e : Exn} (h : prepareWith rejection fileExists source = .error e) :
    ∃ message, e = .invalidArgument message := by
  cases source with
  | text s =>
      simp only [prepareWith] at h
      split at h
      · cases h
      · split at h
        · cases h
        · exact ⟨_, (Except.error.inj h).symm⟩
  | sourceUrl | sourceFilePath | sourceBytes => cases h

theorem addReturnToUrl_error {url : String} {metadata : List String} {e : Exn}
    (h : addReturnToUrl url metadata = .error e) :
    ∃ a, e = .api a ∧ a.errorCode = 0 ∧ a.httpStatus = 0 ∧ a.requestId = "" := by
  unfold addReturnToUrl at h
  split at h
  · cases h
  · split at h
    · obtain rfl := Except.error.inj h
      exact ⟨_, rfl, rfl, rfl, rfl⟩
    · cases h

/-- A call is rejected for its arguments alone. -/
theorem plan_error {call : ApiCall} {fileExists : String → Bool} {e : Exn}
    (h : call.plan config fileExists = .error e) :
    (∃ message, e = .invalidArgument message) ∨ call.operation = .setCallbackUrl ∧
      ∃ a, e = .api a ∧ a.errorCode = 0 ∧ a.httpStatus = 0 ∧ a.requestId = "" := by
  cases call with
  | recognize source | recognizeEnterprise source | customCatalogAdd _ source =>
      left
      simp only [ApiCall.plan] at h
      exact prepareWith_error (Except.error_of_map h)
  | setCallbackUrl url opts =>
      right
      simp only [ApiCall.plan] at h
      exact ⟨rfl, addReturnToUrl_error (Except.error_of_map h)⟩
  | _ => cases h

theorem plan_customCatalogContext {call : ApiCall} {fileExists : String → Bool} {plan : Plan}
    (h : call.plan config fileExists = .ok plan) :
    plan.customCatalogContext = true ↔ call.operation = .customCatalogAdd := by
  cases call with
  | recognize source | recognizeEnterprise source | customCatalogAdd _ source =>
      simp only [ApiCall.plan] at h
      obtain ⟨fields, -, rfl⟩ := Except.ok_of_map h
      simp [ApiCall.operation]
  | setCallbackUrl url opts =>
      simp only [ApiCall.plan] at h
      obtain ⟨finalUrl, -, rfl⟩ := Except.ok_of_map h
      simp [ApiCall.operation]
  | _ =>
      obtain rfl := Except.ok.inj h
      simp [ApiCall.operation]

/-- What an exception of a public call says, compared with what the transport finally
returned or threw; `none` when nothing was sent. -/
structure TellsCause (P : Platform) (op : Operation) (sent : Option (Except Exn HttpResponse))
    (e : Exn) : Prop where
  rejected : e.category = none → sent = none
  unsent : sent = none → e.category = none ∨ op = .setCallbackUrl ∧ e.category = some .server
  connection : e.category = some .connection ↔ ∃ x, sent = some (.error x)
  serialization : e.category = some .serialization ↔
    ∃ resp, sent = some (.ok resp) ∧ resp.jsonBody = .null ∧ resp.httpStatus < 400
  customCatalog : e.category = some .customCatalogAccess ↔ op = .customCatalogAdd ∧
    ∃ resp, sent = some (.ok resp) ∧ (ReportsCode P resp 904 ∨ ReportsCode P resp 905)
  api : ∀ a, e.apiError? = some a →
    (sent = none ∧ a.errorCode = 0 ∧ a.httpStatus = 0 ∧ a.requestId = "") ∨
      ∃ resp, sent = some (.ok resp) ∧ a.httpStatus = resp.httpStatus ∧
        a.requestId = resp.requestId ∧ (a.errorCode ≠ 0 → ReportsCode P resp a.errorCode)

end Audd
