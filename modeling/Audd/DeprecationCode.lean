import Audd.Decode
import Audd.Lib.FixedWidth

/-!
# The two readings of an error code

`decode_or_throw` reads `error_code` with the typed getter of the JSON library,
`raise_from_error_response` with the coercing reader. They decide the same body:
one whether its result is kept, the other which code is raised.
-/

namespace Audd

open FixedWidth

section
variable (P : Platform)

/-- A body with an error object beside a result. -/
structure ErrorBesideResult (members err : OrderedMap String Json) : Prop where
  error_eq : members.find? "error" = some (.object err)
  result : ∃ v, members.find? "result" = some v ∧ v.isNull = false

/-- The error code that an exception raised for the body reports. -/
def reportedCode (members : OrderedMap String Json) (resp : HttpResponse) (ctx : Bool) :
    Option Int32 :=
  ((raiseFromErrorResponse P (.object members) resp.httpStatus resp.requestId ctx).apiError?).map
    (·.errorCode)

/-- The error is stripped, the body returned as a success and the hook told. -/
def TakesPassThrough (members : OrderedMap String Json) (resp : HttpResponse)
    (hook ctx : Bool) : Prop :=
  (decodeOrThrow P resp hook ctx).result =
      .ok (.object ((members.erase "error").insert "status" (.string "success"))) ∧
    (decodeOrThrow P resp hook ctx).warnings.length = if hook then 1 else 0

/-- The pass-through and the error path agree about the code, so a result is never
raised as the deprecation error. -/
structure SameErrorCode (members : OrderedMap String Json) (resp : HttpResponse) : Prop where
  passThrough_iff : ∀ hook ctx,
    TakesPassThrough P members resp hook ctx ↔ reportedCode P members resp ctx = some 51
  never_raised : ∀ hook ctx x e, (decodeOrThrow P resp hook ctx).result = .error x →
    x.apiError? = some e → e.errorCode ≠ 51

/-- The code is no text that coerces to 51, and no double outside `int` of which
only one of the two conversions is 51. -/
def CodeReadAlike (err : OrderedMap String Json) : Prop :=
  match err.find? "error_code" with
  | some (.string s) => (parseFullInt s).map Int64.toInt32 ≠ some 51
  | some (.numberFloat d) => d.isFinite ∧ Fits 31 d.trunc ∨
      (P.toInt32 d = 51 ↔ (P.toInt64 d).toInt32 = 51)
  | _ => True

end

variable {P : Platform}

/-- Inside `int` both conversions of a double are exact. -/
theorem toInt32_eq_of_fits {d : Binary64} (hfin : d.isFinite = true) (h : Fits 31 d.trunc) :
    P.toInt32 d = (P.toInt64 d).toInt32 := by
  have hwide : Fits 63 d.trunc := h.mono (by decide)
  have h32 : P.toInt32 d = Int32.ofInt d.trunc := if_pos ⟨hfin, h⟩
  have h64 : P.toInt64 d = Int64.ofInt d.trunc := if_pos ⟨hfin, hwide⟩
  rw [h32, h64, Int64.toInt32_ofInt]

/-- A null member converts to no integer, so the null test changes nothing. -/
theorem jInt_object (members : OrderedMap String Json) (key : String) :
    jInt P (.object members) key =
      (((members.find? key).bind (coerceInt P)).map Int64.toInt32).getD 0 := by
  simp only [jInt, findValue, Json.find?_object]
  cases members.find? key with
  | none => rfl
  | some v =>
      cases hnull : v.isNull with
      | true =>
          obtain rfl := (Json.isNull_eq_true_iff v).mp hnull
          rfl
      | false =>
          simp only [hnull, Bool.false_eq_true, if_false, Option.bind_some]
          cases coerceInt P v <;> rfl

/-- The two readings agree about 51 exactly on the codes that are read alike. -/
theorem deprecationCode_iff_jInt (err : OrderedMap String Json) :
    (deprecationCode P err = 51 ↔ jInt P (.object err) "error_code" = 51) ↔
      CodeReadAlike P err := by
  rw [jInt_object]
  unfold deprecationCode CodeReadAlike
  cases err.find? "error_code" with
  | none => exact iff_of_true Iff.rfl trivial
  | some v =>
      cases v with
      | null | numberInteger | numberUnsigned | array | object => exact iff_of_true Iff.rfl trivial
      | boolean b => cases b <;> exact iff_of_true Iff.rfl trivial
      | numberFloat d =>
          constructor
          · exact Or.inr
          · rintro (⟨hfin, hfits⟩ | hsame)
            · have hexact := toInt32_eq_of_fits (P := P) hfin hfits
              exact iff_of_eq (congrArg (· = 51) hexact)
            · exact hsame
      | string s =>
          have hgetter : (P.getInt (.string s)).getD 0 = 0 := rfl
          have hcoerce : coerceInt P (.string s) = parseFullInt s := rfl
          have hzero : (0 : Int32) ≠ 51 := by decide
          simp only [hgetter, Option.bind_some, hcoerce]
          cases parseFullInt s with
          | none => simp [hzero]
          | some n => simp [hzero]

/-- The exception of an error object reports the code that is read with coercion. -/
theorem reportedCode_eq {members err : OrderedMap String Json}
    (herr : members.find? "error" = some (.object err)) (resp : HttpResponse) (ctx : Bool) :
    reportedCode P members resp ctx = some (jInt P (.object err) "error_code") := by
  simp only [reportedCode, raiseFromErrorResponse, Json.find?_object, herr, Option.filter_some,
    Json.isObject, if_true, Option.map_some, Option.getD_some]
  split <;> rfl

/-- The exceptions of `decode_or_throw` for an object. -/
theorem decodeOrThrow_error_cases {members : OrderedMap String Json} {resp : HttpResponse}
    (hbody : resp.jsonBody = .object members) {hook ctx : Bool} {x : Exn}
    (hx : (decodeOrThrow P resp hook ctx).result = .error x) :
    x = raiseFromErrorResponse P (.object (stripDeprecation P hook members).1)
        resp.httpStatus resp.requestId ctx ∨ ∃ message, x = responseError message resp := by
  simp only [decodeOrThrow, hbody] at hx
  split at hx
  · left
    exact (Except.error.inj hx).symm
  · split at hx
    · cases hx
    · right
      exact ⟨_, (Except.error.inj hx).symm⟩

theorem takesPassThrough_iff {members : OrderedMap String Json} {resp : HttpResponse}
    (hbody : resp.jsonBody = .object members) (herr : members.find? "error" ≠ none)
    (hook ctx : Bool) :
    TakesPassThrough P members resp hook ctx ↔ PassesThrough P members := by
  obtain ⟨hwarn, hresult⟩ := decodeOrThrow_object P members resp hbody hook ctx
  have hpassed := find?_passedThrough members
  rcases stripDeprecation_cases P hook members with ⟨hp, hkept, hlen⟩ | ⟨hn, hkept⟩
  · refine iff_of_true ⟨?_, by rw [hwarn, hlen]⟩ hp
    rcases hresult with ⟨-, hd⟩ | ⟨hs, -⟩
    · rw [hd, hkept]
    · exact absurd (hkept ▸ hpassed.1) hs
  · refine iff_of_false ?_ hn
    rintro ⟨hok, -⟩
    rcases hresult with ⟨-, hd⟩ | ⟨-, x, hd, -⟩
    -- a body that is returned unchanged still has its error
    · rw [hkept, hok] at hd
      have hsame := Json.object.inj (Except.ok.inj hd)
      have hnone := hpassed.2.1
      rw [hsame] at hnone
      exact herr hnone
    · rw [hok] at hd
      cases hd

theorem passesThrough_iff {members err : OrderedMap String Json}
    (h : ErrorBesideResult members err) :
    PassesThrough P members ↔ deprecationCode P err = 51 := by
  constructor
  · rintro ⟨other, result, hother, hcode, -, -⟩
    rw [h.error_eq] at hother
    cases hother
    exact hcode
  · intro hcode
    obtain ⟨result, hresult, hnull⟩ := h.result
    exact ⟨err, result, h.error_eq, hcode, hresult, hnull⟩

theorem takesPassThrough_iff_code {members err : OrderedMap String Json} {resp : HttpResponse}
    (hbody : resp.jsonBody = .object members) (h : ErrorBesideResult members err)
    (hook ctx : Bool) :
    TakesPassThrough P members resp hook ctx ↔ deprecationCode P err = 51 := by
  rw [takesPassThrough_iff hbody (by simp [h.error_eq]), passesThrough_iff h]

/-- A result is raised under the deprecation code only if the readers disagree. -/
theorem not_raised_of_readAlike {members err : OrderedMap String Json} {resp : HttpResponse}
    (hbody : resp.jsonBody = .object members) (h : ErrorBesideResult members err)
    (halike : CodeReadAlike P err) {hook ctx : Bool} {x : Exn} {e : ApiError}
    (hx : (decodeOrThrow P resp hook ctx).result = .error x) (he : x.apiError? = some e) :
    e.errorCode ≠ 51 := by
  intro h51
  rcases decodeOrThrow_error_cases hbody hx with rfl | ⟨message, rfl⟩
  · rcases stripDeprecation_cases P hook members with ⟨hp, -, -⟩ | ⟨hn, hkept⟩
    -- the pass-through throws nothing
    · have hok := ((takesPassThrough_iff hbody (by simp [h.error_eq]) hook ctx).mpr hp).1
      rw [hx] at hok
      cases hok
    · rw [hkept] at he
      have hraised : reportedCode P members resp ctx = some 51 := by
        rw [reportedCode, he, Option.map_some, h51]
      rw [reportedCode_eq h.error_eq, Option.some.injEq] at hraised
      have hcode := ((deprecationCode_iff_jInt err).mpr halike).mpr hraised
      exact hn ((passesThrough_iff h).mpr hcode)
  · obtain rfl := Option.some.inj he
    have hzero : (0 : Int32) ≠ 51 := by decide
    exact hzero h51

theorem SameErrorCode.readAlike {members err : OrderedMap String Json} {resp : HttpResponse}
    (hsame : SameErrorCode P members resp) (hbody : resp.jsonBody = .object members)
    (h : ErrorBesideResult members err) : CodeReadAlike P err := by
  have hiff := hsame.passThrough_iff true true
  rw [takesPassThrough_iff_code hbody h, reportedCode_eq h.error_eq, Option.some.injEq] at hiff
  exact (deprecationCode_iff_jInt err).mp hiff

/-- The two readers of the error code agree about the deprecation code, so that no
usable result is raised under it, exactly for the codes that are read alike. -/
theorem sameErrorCode_iff (P : Platform) (members err : OrderedMap String Json)
    (resp : HttpResponse) (hbody : resp.jsonBody = .object members)
    (h : ErrorBesideResult members err) :
    SameErrorCode P members resp ↔ CodeReadAlike P err := by
  constructor
  · intro hsame
    exact hsame.readAlike hbody h
  · intro halike
    constructor
    · intro hook ctx
      rw [takesPassThrough_iff_code hbody h, reportedCode_eq h.error_eq, Option.some.injEq]
      exact (deprecationCode_iff_jInt err).mpr halike
    · intro hook ctx x e hx he
      exact not_raised_of_readAlike hbody h halike hx he

/-- An error body with a result and a code of one's choice. -/
theorem errorBesideResult_ofList (err : OrderedMap String Json) :
    ErrorBesideResult (.ofList [("error", .object err), ("result", .object ∅),
      ("status", .string "error")]) err := by
  have hkeys : ([("error", Json.object err), ("result", .object ∅),
      ("status", .string "error")].map Prod.fst).Nodup := by simp
  constructor
  · exact OrderedMap.find?_insertMany_of_mem _ _ hkeys (by simp)
  · exact ⟨.object ∅, OrderedMap.find?_insertMany_of_mem _ _ hkeys (by simp), rfl⟩

theorem sameErrorCode_iff_number :
    let err := OrderedMap.ofList [("error_code", Json.numberUnsigned 51)]
    let members := OrderedMap.ofList [("error", .object err), ("result", .object ∅),
      ("status", .string "error")]
    let resp : HttpResponse :=
      { httpStatus := 200, rawBody := "", jsonBody := .object members, requestId := "" }
    SameErrorCode (Platform.ofTable []) members resp ↔ CodeReadAlike (Platform.ofTable []) err := by
  intro err members resp
  exact sameErrorCode_iff _ members err resp rfl (errorBesideResult_ofList err)

/-- A quoted code is raised as the deprecation error, with its result lost. -/
theorem quoted_code_raised :
    let err := OrderedMap.ofList [("error_code", Json.string "51")]
    let members := OrderedMap.ofList [("error", .object err), ("result", .object ∅),
      ("status", .string "error")]
    let resp : HttpResponse :=
      { httpStatus := 200, rawBody := "", jsonBody := .object members, requestId := "" }
    ErrorBesideResult members err ∧ ¬SameErrorCode (Platform.ofTable []) members resp := by
  intro err members resp
  refine ⟨errorBesideResult_ofList err, ?_⟩
  intro hsame
  have halike : (parseFullInt "51").map Int64.toInt32 ≠ some 51 :=
    hsame.readAlike rfl (errorBesideResult_ofList err)
  exact halike (by decide)

end Audd
