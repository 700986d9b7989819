import Audd.Client

/-!
# Decoding a response

What `decode_or_throw` returns, warns about and throws, over all bodies and
statuses.
-/

namespace Audd

variable (P : Platform)

/-- The pass-through case: an error object with the deprecation code beside a result. -/
def PassesThrough (members : OrderedMap String Json) : Prop :=
  ∃ err result, members.find? "error" = some (.object err) ∧ deprecationCode P err = 51 ∧
    members.find? "result" = some result ∧ result.isNull = false

theorem isDeprecated_eq_true_iff (members : OrderedMap String Json) :
    isDeprecated P members = true ↔ PassesThrough P members := by
  unfold isDeprecated PassesThrough
  cases herr : members.find? "error" with
  | none => simp
  | some v =>
      cases v with
      | object err =>
          cases members.find? "result" <;> simp
      | _ => simp

/-- What a body becomes before its status is read. -/
theorem stripDeprecation_cases (hook : Bool) (members : OrderedMap String Json) :
    (PassesThrough P members ∧
      (stripDeprecation P hook members).1 =
        (members.erase "error").insert "status" (.string "success") ∧
      (stripDeprecation P hook members).2.length = if hook then 1 else 0) ∨
    (¬PassesThrough P members ∧ stripDeprecation P hook members = (members, [])) := by
  unfold stripDeprecation
  by_cases h : isDeprecated P members = true
  · refine .inl ⟨(isDeprecated_eq_true_iff P members).mp h, ?_, ?_⟩
    · rw [if_pos h]
    · rw [if_pos h]
      cases hook <;> rfl
  · exact .inr ⟨(isDeprecated_eq_true_iff P members).not.mp h, by rw [if_neg h]⟩

/-- The error body of the pass-through, made a success. -/
theorem find?_passedThrough (members : OrderedMap String Json) :
    let kept := (members.erase "error").insert "status" (.string "success")
    kept.find? "status" = some (.string "success") ∧ kept.find? "error" = none ∧
      ∀ k, k ≠ "error" → k ≠ "status" → kept.find? k = members.find? k := by
  intro kept
  refine ⟨OrderedMap.find?_insert_self _ _ _, ?_, ?_⟩
  · rw [OrderedMap.find?_insert_of_ne _ _ (by decide), OrderedMap.find?_erase_self]
  · intro k herror hstatus
    rw [OrderedMap.find?_insert_of_ne _ _ hstatus, OrderedMap.find?_erase_of_ne _ herror]

/-- The status read from a map of members. -/
theorem getString_status_eq_iff (members : OrderedMap String Json) {text : String}
    (htext : text ≠ "") :
    ((members.find? "status").bind Platform.getString).getD "" = text ↔
      members.find? "status" = some (.string text) := by
  cases members.find? "status" with
  | none => simp [htext.symm]
  | some v => cases v <;> simp [Platform.getString, htext.symm]

/-- The exceptions of `decode_or_throw` for a body that is not null. -/
def ResponseError (resp : HttpResponse) (x : Exn) : Prop :=
  ∃ e, x.apiError? = some e ∧ e.httpStatus = resp.httpStatus ∧ e.requestId = resp.requestId

/-- A decoded object is returned exactly when its status is, or was made, a success. -/
theorem decodeOrThrow_object (members : OrderedMap String Json) (resp : HttpResponse)
    (hbody : resp.jsonBody = .object members) (hook ctx : Bool) :
    (decodeOrThrow P resp hook ctx).warnings = (stripDeprecation P hook members).2 ∧
      ((stripDeprecation P hook members).1.find? "status" = some (.string "success") ∧
          (decodeOrThrow P resp hook ctx).result =
            .ok (.object (stripDeprecation P hook members).1) ∨
        (stripDeprecation P hook members).1.find? "status" ≠ some (.string "success") ∧
          ∃ x, (decodeOrThrow P resp hook ctx).result = .error x ∧ ResponseError resp x) := by
  unfold decodeOrThrow
  rw [hbody]
  dsimp only
  generalize stripDeprecation P hook members = kept
  have herror := getString_status_eq_iff kept.1 (show "error" ≠ "" by decide)
  have hsuccess := getString_status_eq_iff kept.1 (show "success" ≠ "" by decide)
  refine ⟨rfl, ?_⟩
  by_cases hs : kept.1.find? "status" = some (.string "success")
  · refine .inl ⟨hs, ?_⟩
    have hne : kept.1.find? "status" ≠ some (.string "error") := by simp [hs]
    rw [if_neg (herror.not.mpr hne), if_pos (hsuccess.mpr hs)]
  · refine .inr ⟨hs, ?_⟩
    rw [if_neg (hsuccess.not.mpr hs)]
    split
    · exact ⟨_, rfl, raiseFromErrorResponse_apiError? P _ _ _ _⟩
    · exact ⟨_, rfl, _, rfl, rfl, rfl⟩

/-- A response object that is a success: by its status, or by the pass-through. -/
def Succeeds (members : OrderedMap String Json) : Prop :=
  PassesThrough P members ∨ members.find? "status" = some (.string "success")

section
variable {P}

/-- A success is returned, with its members other than the error and the status. -/
theorem decodeOrThrow_of_succeeds {members : OrderedMap String Json} {resp : HttpResponse}
    (hbody : resp.jsonBody = .object members) (h : Succeeds P members) (hook ctx : Bool) :
    ∃ kept, (decodeOrThrow P resp hook ctx).result = .ok (.object kept) ∧
      ∀ k, k ≠ "error" → k ≠ "status" → kept.find? k = members.find? k := by
  obtain ⟨-, hresult⟩ := decodeOrThrow_object P members resp hbody hook ctx
  have hpassed := find?_passedThrough members
  rcases stripDeprecation_cases P hook members with ⟨-, hkept, -⟩ | ⟨hn, hkept⟩
  · rw [hkept] at hresult
    rcases hresult with ⟨-, hd⟩ | ⟨hs, -⟩
    · exact ⟨_, hd, hpassed.2.2⟩
    · exact absurd hpassed.1 hs
  · rw [hkept] at hresult
    rcases hresult with ⟨-, hd⟩ | ⟨hs, -⟩
    · exact ⟨members, hd, fun k _ _ => rfl⟩
    · exact absurd (h.resolve_left hn) hs

/-- A success without the deprecation warning is returned as it was received. -/
theorem decodeOrThrow_of_success {members : OrderedMap String Json} {resp : HttpResponse}
    (hbody : resp.jsonBody = .object members) (hpass : ¬PassesThrough P members)
    (hstatus : members.find? "status" = some (.string "success")) (hook ctx : Bool) :
    (decodeOrThrow P resp hook ctx).result = .ok (.object members) := by
  obtain ⟨-, hresult⟩ := decodeOrThrow_object P members resp hbody hook ctx
  rcases stripDeprecation_cases P hook members with ⟨hp, -⟩ | ⟨-, hkept⟩
  · exact absurd hp hpass
  · rw [hkept] at hresult
    rcases hresult with ⟨-, hd⟩ | ⟨hne, -⟩
    · exact hd
    · exact absurd hstatus hne

/-- A body that is not an object is an error, and nothing is reported to the hook. -/
theorem decodeOrThrow_of_not_object {resp : HttpResponse}
    (hbody : ∀ members, resp.jsonBody ≠ .object members) (hook ctx : Bool) :
    (decodeOrThrow P resp hook ctx).warnings = [] ∧
      ∃ x, (decodeOrThrow P resp hook ctx).result = .error x ∧
        if resp.jsonBody.isNull ∧ resp.httpStatus < 400 then
          x = .serialization "Unparseable response" resp.rawBody
        else ResponseError resp x := by
  unfold decodeOrThrow
  cases hjson : resp.jsonBody with
  | null =>
      by_cases hst : 400 ≤ resp.httpStatus
      · simp only [if_pos hst]
        refine ⟨trivial, _, rfl, ?_⟩
        rw [if_neg fun h => not_le.mpr h.2 hst]
        exact ⟨_, rfl, rfl, rfl⟩
      · simp only [if_neg hst]
        refine ⟨trivial, _, rfl, ?_⟩
        rw [if_pos ⟨rfl, not_le.mp hst⟩]
  | object members => exact absurd hjson (hbody members)
  | boolean | numberInteger | numberUnsigned | numberFloat | string | array =>
      refine ⟨rfl, _, rfl, ?_⟩
      rw [if_neg fun h => Bool.false_ne_true h.1]
      exact ⟨_, rfl, rfl, rfl⟩

/-- A returned body is a success, unchanged or with the deprecation error stripped. -/
theorem decodeOrThrow_ok {resp : HttpResponse} {hook ctx : Bool} {body : Json}
    (h : (decodeOrThrow P resp hook ctx).result = .ok body) :
    ∃ members kept, resp.jsonBody = .object members ∧ body = .object kept ∧
      kept.find? "status" = some (.string "success") ∧
      (¬PassesThrough P members ∧ kept = members ∨
        PassesThrough P members ∧ kept.find? "error" = none ∧
          ∀ k, k ≠ "error" → k ≠ "status" → kept.find? k = members.find? k) := by
  cases hbody : resp.jsonBody with
  | object members =>
      obtain ⟨-, hresult⟩ := decodeOrThrow_object P members resp hbody hook ctx
      rcases hresult with ⟨hs, hd⟩ | ⟨-, x, hd, -⟩
      · rw [hd] at h
        obtain rfl := Except.ok.inj h
        refine ⟨members, _, rfl, rfl, hs, ?_⟩
        rcases stripDeprecation_cases P hook members with ⟨hp, hkept, -⟩ | ⟨hp, hkept⟩
        · exact .inr ⟨hp, hkept ▸ (find?_passedThrough members).2⟩
        · exact .inl ⟨hp, by rw [hkept]⟩
      · rw [hd] at h
        cases h
  | null =>
      simp only [decodeOrThrow, hbody] at h
      split at h <;> cases h
  | boolean | numberInteger | numberUnsigned | numberFloat | string | array =>
      simp only [decodeOrThrow, hbody] at h
      cases h

/-- Only a success is returned. -/
theorem succeeds_of_decodeOrThrow {resp : HttpResponse} {hook ctx : Bool} {body : Json}
    (h : (decodeOrThrow P resp hook ctx).result = .ok body) :
    ∃ members, resp.jsonBody = .object members ∧ Succeeds P members := by
  obtain ⟨members, kept, hbody, -, hs, ⟨-, rfl⟩ | ⟨hp, -⟩⟩ := decodeOrThrow_ok h
  · exact ⟨_, hbody, .inr hs⟩
  · exact ⟨members, hbody, .inl hp⟩

end

/-- What `decode_or_throw` does with every response. It returns the successes and nothing
else, unchanged or with the deprecation error stripped, and warns once in that case
alone. Anything else is a serialization error, for a null body below 400, or an
`AudDApiError` of the response. -/
theorem decodeOrThrow_usable (P : Platform) (resp : HttpResponse) (hook ctx : Bool) :
    (∀ body, (decodeOrThrow P resp hook ctx).result = .ok body →
      ∃ members kept, resp.jsonBody = .object members ∧ body = .object kept ∧
        kept.find? "status" = some (.string "success") ∧
        (¬PassesThrough P members ∧ kept = members ∨
          PassesThrough P members ∧ kept.find? "error" = none ∧
            ∀ k, k ≠ "error" → k ≠ "status" → kept.find? k = members.find? k)) ∧
    (∀ members, resp.jsonBody = .object members → ¬PassesThrough P members →
      members.find? "status" = some (.string "success") →
        (decodeOrThrow P resp hook ctx).result = .ok (.object members)) ∧
    (∀ members, resp.jsonBody = .object members → PassesThrough P members →
      (decodeOrThrow P resp hook ctx).result.toOption.isSome ∧
        (decodeOrThrow P resp hook ctx).warnings.length = if hook then 1 else 0) ∧
    ((∀ members, resp.jsonBody = .object members → ¬PassesThrough P members) →
      (decodeOrThrow P resp hook ctx).warnings = []) ∧
    (∀ x, (decodeOrThrow P resp hook ctx).result = .error x →
      if resp.jsonBody.isNull ∧ resp.httpStatus < 400 then
        x = .serialization "Unparseable response" resp.rawBody
      else ResponseError resp x) := by
  refine ⟨fun body hok => decodeOrThrow_ok hok, ?_, ?_⟩
  · intro members hbody hpass hstatus
    exact decodeOrThrow_of_success hbody hpass hstatus hook ctx
  by_cases hobject : ∃ members, resp.jsonBody = .object members
  · obtain ⟨members, hbody⟩ := hobject
    obtain ⟨hwarn, hresult⟩ := decodeOrThrow_object P members resp hbody hook ctx
    rw [hbody, hwarn]
    refine ⟨?_, ?_, ?_⟩
    · rintro _ ⟨rfl⟩ hp
      obtain ⟨kept, hkept, -⟩ := decodeOrThrow_of_succeeds hbody (.inl hp) hook ctx
      refine ⟨by rw [hkept]; rfl, ?_⟩
      rcases stripDeprecation_cases P hook members with ⟨-, -, hlen⟩ | ⟨hn, -⟩
      · exact hlen
      · exact absurd hp hn
    · intro hno
      rcases stripDeprecation_cases P hook members with ⟨hp, -⟩ | ⟨-, hkept⟩
      · exact absurd hp (hno members rfl)
      · rw [hkept]
    · intro x hx
      rcases hresult with ⟨-, hd⟩ | ⟨-, y, hd, hy⟩
      · rw [hd] at hx
        cases hx
      · rw [hd] at hx
        obtain rfl := Except.error.inj hx
        simpa [Json.isNull] using hy
  · push Not at hobject
    obtain ⟨hwarn, y, hd, hy⟩ := decodeOrThrow_of_not_object hobject hook ctx
    refine ⟨fun members hbody => absurd hbody (hobject members), fun _ => hwarn, ?_⟩
    intro x hx
    rw [hd] at hx
    obtain rfl := Except.error.inj hx
    exact hy

end Audd
