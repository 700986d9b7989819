import Audd.Callback

/-!
# What a callback body can decode to

`parse_callback` on an arbitrary text: the one exception class it throws, the
bodies it rejects and the candidates that a match keeps.
-/

namespace Audd

/-- The text that an event was decoded from. -/
def CallbackEvent.rawResponse : CallbackEvent → String
  | .matchEvent m => m.rawResponse
  | .notificationEvent n => n.rawResponse

/-- `result.results` is a non-empty array. -/
structure HasCandidates (members : OrderedMap String Json) (result : Json) (rs : List Json) :
    Prop where
  result_eq : members.find? "result" = some result
  results_eq : result.find? "results" = some (.array rs)
  ne_nil : rs ≠ []

/-- The bodies that hold no event. -/
inductive HoldsNoEvent (P : Platform) (body : String) : Prop
  | notJson (what : String) (h : P.parse body = .error what)
  | notObject (j : Json) (h : P.parse body = .ok j) (hj : j.isObject = false)
  | neitherKey (members : OrderedMap String Json) (h : P.parse body = .ok (.object members))
      (hnotif : members.find? "notification" = none) (hresult : members.find? "result" = none)
  | noCandidate (members : OrderedMap String Json) (h : P.parse body = .ok (.object members))
      (hnotif : members.find? "notification" = none)
      (hcand : ∀ result rs, ¬HasCandidates members result rs)

/-- The match of a result block with at least one candidate. -/
structure MatchOf (P : Platform) (m : StreamCallbackMatch) (result : Json) (rs : List Json) :
    Prop where
  candidates : m.song :: m.alternatives = rs.map (parseStreamCallbackSong P)
  radioId : m.radioId = jInt64 P result "radio_id"
  timestamp : m.timestamp = jStr P result "timestamp"
  playLength : m.playLength = jInt P result "play_length"

/-- What `parse_callback` promises about its outcome on a body. -/
structure CallbackContract (P : Platform) (body : String)
    (outcome : Except Exn CallbackEvent) : Prop where
  error : ∀ e, outcome = .error e → ∃ what, e = .serialization what body
  matched : ∀ m, outcome = .ok (.matchEvent m) → ∃ members result rs,
    P.parse body = .ok (.object members) ∧ HasCandidates members result rs ∧
      MatchOf P m result rs
  matches_candidates : ∀ members result rs, P.parse body = .ok (.object members) →
    members.find? "notification" = none → HasCandidates members result rs →
      ∃ m, outcome = .ok (.matchEvent m)
  rejects : HoldsNoEvent P body → ∃ e, outcome = .error e
  rawResponse : ∀ ev, outcome = .ok ev → ev.rawResponse = body

variable {P : Platform}

/-- A result block with candidates is a match of all of them. -/
theorem parseStreamCallbackMatch_of_candidates {members : OrderedMap String Json} {result : Json}
    {rs : List Json} (h : HasCandidates members result rs) (body : String) :
    ∃ m, parseStreamCallbackMatch P result body = .ok m ∧ MatchOf P m result rs ∧
      m.rawResponse = body := by
  obtain ⟨first, rest, rfl⟩ := List.exists_cons_of_ne_nil h.ne_nil
  simp only [parseStreamCallbackMatch, callbackSongs, h.results_eq, List.map_cons]
  exact ⟨_, rfl, ⟨rfl, rfl, rfl, rfl⟩, rfl⟩

/-- A result block without candidates is rejected. -/
theorem parseStreamCallbackMatch_of_none {members : OrderedMap String Json} {result : Json}
    (hresult : members.find? "result" = some result)
    (h : ∀ rs, ¬HasCandidates members result rs) (body : String) :
    parseStreamCallbackMatch P result body =
      .error (.serialization "callback result.results is empty" body) := by
  have hsongs : callbackSongs P result = [] := by
    unfold callbackSongs
    split
    · rename_i elems helems
      by_contra hne
      exact h elems ⟨hresult, helems, fun hnil => hne (by rw [hnil]; rfl)⟩
    · rfl
  simp only [parseStreamCallbackMatch, hsongs]

/-- The three ways in which an object decodes. -/
inductive ObjectOutcome (P : Platform) (members : OrderedMap String Json) (body : String) :
    Except Exn CallbackEvent → Prop
  | notification (n : StreamCallbackNotification)
      (hnotif : members.find? "notification" ≠ none) (hraw : n.rawResponse = body) :
      ObjectOutcome P members body (.ok (.notificationEvent n))
  | matched (m : StreamCallbackMatch) (result : Json) (rs : List Json)
      (hnotif : members.find? "notification" = none) (hcand : HasCandidates members result rs)
      (hof : MatchOf P m result rs) (hraw : m.rawResponse = body) :
      ObjectOutcome P members body (.ok (.matchEvent m))
  | rejected (what : String) (hnotif : members.find? "notification" = none)
      (hnone : ∀ result rs, ¬HasCandidates members result rs) :
      ObjectOutcome P members body (.error (.serialization what body))

theorem HasCandidates.result_unique {members : OrderedMap String Json} {result other : Json}
    {rs : List Json} (h : HasCandidates members other rs)
    (hresult : members.find? "result" = some result) : other = result := by
  have hfound := h.result_eq
  rw [hresult] at hfound
  exact (Option.some.inj hfound).symm

theorem parseCallbackObject_outcome (members : OrderedMap String Json) (body : String) :
    ObjectOutcome P members body (parseCallbackObject P members body) := by
  simp only [parseCallbackObject]
  cases hnotif : members.find? "notification" with
  | some notif => exact .notification _ (by simp [hnotif]) rfl
  | none =>
      cases hresult : members.find? "result" with
      | none =>
          apply ObjectOutcome.rejected _ hnotif
          intro result rs hcand
          have hfound := hcand.result_eq
          rw [hresult] at hfound
          cases hfound
      | some result =>
          by_cases hcand : ∃ rs, HasCandidates members result rs
          · obtain ⟨rs, hcand⟩ := hcand
            obtain ⟨m, hm, hof, hraw⟩ := parseStreamCallbackMatch_of_candidates (P := P) hcand body
            simp only [hm, Except.map]
            exact .matched m result rs hnotif hcand hof hraw
          · have hnone : ∀ rs, ¬HasCandidates members result rs := not_exists.mp hcand
            simp only [parseStreamCallbackMatch_of_none hresult hnone, Except.map]
            apply ObjectOutcome.rejected _ hnotif
            intro other rs hother
            obtain rfl := hother.result_unique hresult
            exact hnone rs hother

/-- An object without an event has neither a notification nor candidates. -/
theorem HoldsNoEvent.of_object {body : String} {members : OrderedMap String Json}
    (h : HoldsNoEvent P body) (hparse : P.parse body = .ok (.object members)) :
    members.find? "notification" = none ∧ ∀ result rs, ¬HasCandidates members result rs := by
  rcases h with ⟨what, h⟩ | ⟨j, h, hj⟩ | ⟨other, h, hnotif, hresult⟩ | ⟨other, h, hnotif, hcand⟩
  · simp [hparse] at h
  · rw [hparse] at h
    cases h
    cases hj
  · rw [hparse] at h
    cases h
    refine ⟨hnotif, ?_⟩
    intro result rs hcand
    have hfound := hcand.result_eq
    rw [hresult] at hfound
    cases hfound
  · rw [hparse] at h
    cases h
    exact ⟨hnotif, hcand⟩

theorem ObjectOutcome.contract {body : String} {members : OrderedMap String Json}
    {outcome : Except Exn CallbackEvent} (h : ObjectOutcome P members body outcome)
    (hparse : P.parse body = .ok (.object members)) : CallbackContract P body outcome := by
  have hmembers : ∀ other, P.parse body = .ok (.object other) → other = members := by
    intro other hother
    rw [hparse] at hother
    cases hother
    rfl
  cases h with
  | notification n hnotif hraw =>
      constructor
      · intro e he
        cases he
      · intro m hm
        cases hm
      · intro other result rs hother habsent
        rw [hmembers other hother] at habsent
        exact absurd habsent hnotif
      · intro hempty
        exact absurd (hempty.of_object hparse).1 hnotif
      · rintro ev ⟨⟩
        exact hraw
  | matched m result rs hnotif hcand hof hraw =>
      constructor
      · intro e he
        cases he
      · rintro m ⟨⟩
        exact ⟨members, result, rs, hparse, hcand, hof⟩
      · intro other result rs _ _ _
        exact ⟨m, rfl⟩
      · intro hempty
        exact absurd hcand ((hempty.of_object hparse).2 result rs)
      · rintro ev ⟨⟩
        exact hraw
  | rejected what hnotif hnone =>
      constructor
      · rintro e ⟨⟩
        exact ⟨what, rfl⟩
      · intro m hm
        cases hm
      · intro other result rs hother _ hcand
        rw [hmembers other hother] at hcand
        exact absurd hcand (hnone result rs)
      · intro _
        exact ⟨_, rfl⟩
      · intro ev hev
        cases hev

/-- A body that is not a JSON object is rejected. -/
theorem parseCallback_of_not_object {body : String}
    (h : ∀ members, P.parse body ≠ .ok (.object members)) :
    ∃ what, parseCallback P body = .error (.serialization what body) := by
  simp only [parseCallback]
  split
  · exact ⟨_, rfl⟩
  · rename_i members hparse
    exact absurd hparse (h members)
  · exact ⟨_, rfl⟩

/-- Every callback body is decoded as its shape says, or rejected with its text. -/
theorem parseCallback_contract (P : Platform) (body : String) :
    CallbackContract P body (parseCallback P body) := by
  by_cases hobject : ∃ members, P.parse body = .ok (.object members)
  · obtain ⟨members, hparse⟩ := hobject
    rw [parseCallback_of_parse hparse]
    exact (parseCallbackObject_outcome members body).contract hparse
  · rw [not_exists] at hobject
    obtain ⟨what, herror⟩ := parseCallback_of_not_object hobject
    rw [herror]
    constructor
    · rintro e ⟨⟩
      exact ⟨what, rfl⟩
    · intro m hm
      cases hm
    · intro members result rs hparse
      exact absurd hparse (hobject members)
    · intro _
      exact ⟨_, rfl⟩
    · intro ev hev
      cases hev

end Audd
