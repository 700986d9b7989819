import Audd.Callback

/-!
# Null blocks

A body with an explicit null under `notification` or `result`, compared with the
body that lacks the key.
-/

namespace Audd

/-- An event without the text that it was decoded from. -/
def CallbackEvent.withoutRaw : CallbackEvent → CallbackEvent
  | .matchEvent m => .matchEvent { m with rawResponse := "" }
  | .notificationEvent n => .notificationEvent { n with rawResponse := "" }

/-- The same event apart from its text, or a serialization error on both sides. -/
def SameDecoding : Except Exn CallbackEvent → Except Exn CallbackEvent → Prop
  | .ok ev, .ok ev' => ev.withoutRaw = ev'.withoutRaw
  | .error (.serialization _ _), .error (.serialization _ _) => True
  | _, _ => False

/-- For both functions a null under a key is the same as no such key, whatever
texts the two bodies were parsed from. -/
def NullAsAbsent (httpStatus : ℤ) (members : OrderedMap String Json) (key : String) : Prop :=
  ∀ (P : Platform) (raw raw' : String),
    P.parse raw = .ok (.object (members.insert key .null)) →
    P.parse raw' = .ok (.object (members.erase key)) →
    SameDecoding (parseCallback P raw) (parseCallback P raw') ∧
      classifyLongpollResponse httpStatus (P.parseOrNull raw) (raw = "") =
        classifyLongpollResponse httpStatus (P.parseOrNull raw') (raw' = "")

variable {P : Platform}

theorem ne_empty_of_parse {raw : String} {j : Json} (h : P.parse raw = .ok j) : raw ≠ "" := by
  rintro rfl
  obtain ⟨what, hwhat⟩ := P.parse_empty
  simp [hwhat] at h

/-- The classifier on an object that was received, by the keys it has. -/
theorem classify_of_parse {raw : String} {members : OrderedMap String Json} (httpStatus : ℤ)
    (h : P.parse raw = .ok (.object members)) :
    classifyLongpollResponse httpStatus (P.parseOrNull raw) (raw = "") =
      if 400 ≤ httpStatus then .terminal
      else if (members.find? "timeout").isSome ∧ ¬(members.find? "result").isSome ∧
        ¬(members.find? "notification").isSome then .keepAlive
      else .event := by
  simp [classifyLongpollResponse, Platform.parseOrNull, h, ne_empty_of_parse h, Json.isObject,
    Json.contains]

/-- A null result is rejected as a missing one is. -/
theorem sameDecoding_result (members : OrderedMap String Json) (raw raw' : String) :
    SameDecoding (parseCallbackObject P (members.insert "result" .null) raw)
      (parseCallbackObject P (members.erase "result") raw') := by
  have hnotif : (members.insert "result" .null).find? "notification" =
      members.find? "notification" := OrderedMap.find?_insert_of_ne _ _ (by decide)
  have hnotif' : (members.erase "result").find? "notification" = members.find? "notification" :=
    OrderedMap.find?_erase_of_ne _ (by decide)
  have htime : outerTime P (members.insert "result" .null) =
      outerTime P (members.erase "result") := by
    unfold outerTime
    rw [OrderedMap.find?_insert_of_ne _ _ (by decide), OrderedMap.find?_erase_of_ne _ (by decide)]
  unfold parseCallbackObject
  rw [hnotif, hnotif', htime]
  cases members.find? "notification" with
  | some notif => rfl
  | none =>
      rw [OrderedMap.find?_insert_self, OrderedMap.find?_erase_self]
      trivial

/-- A null notification decodes to a notification, and a missing one never does. -/
theorem not_sameDecoding_notification (members : OrderedMap String Json) (raw raw' : String) :
    ¬SameDecoding (parseCallbackObject P (members.insert "notification" .null) raw)
      (parseCallbackObject P (members.erase "notification") raw') := by
  unfold parseCallbackObject
  rw [OrderedMap.find?_insert_self, OrderedMap.find?_erase_self]
  cases (members.erase "notification").find? "result" with
  | none => exact id
  | some result =>
      simp only
      cases parseStreamCallbackMatch P result raw' with
      | error e => exact id
      | ok m =>
          intro h
          exact CallbackEvent.noConfusion h

theorem not_nullAsAbsent_notification (httpStatus : ℤ) (members : OrderedMap String Json) :
    ¬NullAsAbsent httpStatus members "notification" := by
  intro h
  let P := Platform.ofTable [("null", .object (members.insert "notification" .null)),
    ("absent", .object (members.erase "notification"))]
  have hnull : P.parse "null" = .ok (.object (members.insert "notification" .null)) := rfl
  have habsent : P.parse "absent" = .ok (.object (members.erase "notification")) := rfl
  have hsame := (h P _ _ hnull habsent).1
  rw [parseCallback_of_parse hnull, parseCallback_of_parse habsent] at hsame
  exact not_sameDecoding_notification members _ _ hsame

/-- A body with songs, by its notification. -/
theorem parseCallbackObject_songs (members result : OrderedMap String Json)
    (first : Json) (rest : List Json) (raw : String)
    (hresult : members.find? "result" = some (.object result))
    (hresults : result.find? "results" = some (.array (first :: rest))) :
    (∃ m, parseCallbackObject P members raw = .ok (.matchEvent m)) ↔
      members.find? "notification" = none := by
  unfold parseCallbackObject
  cases members.find? "notification" with
  | some notif => simp
  | none =>
      simp only [hresult, iff_true]
      simp [parseStreamCallbackMatch, callbackSongs, hresults, Except.map]

/-- A null result is an absent one for the classifier, except where the body would
be a keep-alive without the key. -/
theorem nullAsAbsent_result_iff (httpStatus : ℤ) (members : OrderedMap String Json) :
    NullAsAbsent httpStatus members "result" ↔
      400 ≤ httpStatus ∨ members.find? "timeout" = none ∨
        members.find? "notification" ≠ none := by
  have htimeout : (members.insert "result" .null).find? "timeout" = members.find? "timeout" :=
    OrderedMap.find?_insert_of_ne _ _ (by decide)
  have htimeout' : (members.erase "result").find? "timeout" = members.find? "timeout" :=
    OrderedMap.find?_erase_of_ne _ (by decide)
  have hnotif' : (members.erase "result").find? "notification" =
      members.find? "notification" := OrderedMap.find?_erase_of_ne _ (by decide)
  constructor
  · intro h
    let P := Platform.ofTable [("null", .object (members.insert "result" .null)),
      ("absent", .object (members.erase "result"))]
    have hnull : P.parse "null" = .ok (.object (members.insert "result" .null)) := rfl
    have habsent : P.parse "absent" = .ok (.object (members.erase "result")) := rfl
    have hsame := (h P _ _ hnull habsent).2
    rw [classify_of_parse httpStatus hnull, classify_of_parse httpStatus habsent, htimeout,
      htimeout', hnotif', OrderedMap.find?_insert_self, OrderedMap.find?_erase_self] at hsame
    by_contra hno
    simp only [not_or, not_not] at hno
    obtain ⟨hst, htime, hnotif⟩ := hno
    simp [hst, hnotif, Option.isSome_iff_ne_none, htime] at hsame
  · intro hwhen P raw raw' hnull habsent
    constructor
    · rw [parseCallback_of_parse hnull, parseCallback_of_parse habsent]
      exact sameDecoding_result members _ _
    · rw [classify_of_parse httpStatus hnull, classify_of_parse httpStatus habsent, htimeout,
        htimeout', hnotif', OrderedMap.find?_insert_self, OrderedMap.find?_erase_self]
      rcases hwhen with hst | htime | hnotif
      · simp [hst]
      · simp [htime]
      · simp [Option.isSome_iff_ne_none, hnotif]

/-- Where a null block is the same as an absent one: never for `notification`, and
for `result` except where the body would be a keep-alive without it. A body with
songs decodes to a match only when `notification` is really absent. -/
theorem nullAsAbsent_iff (httpStatus : ℤ) (members : OrderedMap String Json) :
    ¬NullAsAbsent httpStatus members "notification" ∧
    (NullAsAbsent httpStatus members "result" ↔
      400 ≤ httpStatus ∨ members.find? "timeout" = none ∨
        members.find? "notification" ≠ none) ∧
    (∀ (P : Platform) (raw raw' : String),
      P.parse raw = .ok (.object (members.insert "result" .null)) →
      P.parse raw' = .ok (.object (members.erase "result")) →
      SameDecoding (parseCallback P raw) (parseCallback P raw')) ∧
    (∀ (P : Platform) (raw : String) (result : OrderedMap String Json) first rest,
      P.parse raw = .ok (.object members) →
      members.find? "result" = some (.object result) →
      result.find? "results" = some (.array (first :: rest)) →
      ((∃ m, parseCallback P raw = .ok (.matchEvent m)) ↔
        members.find? "notification" = none)) := by
  refine ⟨not_nullAsAbsent_notification httpStatus members,
    nullAsAbsent_result_iff httpStatus members, ?_, ?_⟩
  · intro P raw raw' hnull habsent
    rw [parseCallback_of_parse hnull, parseCallback_of_parse habsent]
    exact sameDecoding_result members _ _
  · intro P raw result first rest hparse hresult hresults
    rw [parseCallback_of_parse hparse]
    exact parseCallbackObject_songs members result first rest raw hresult hresults

/-- A body with a song and a null notification decodes to an empty notification. -/
theorem null_notification_drops_song :
    let song := Json.object (.ofList [("artist", .string "A")])
    let result : OrderedMap String Json := .ofList [("results", .array [song])]
    let members := OrderedMap.ofList [("notification", .null), ("result", Json.object result)]
    let text := "\x7b\"notification\":null,\"result\":" ++
      "\x7b\"results\":[\x7b\"artist\":\"A\"\x7d]\x7d\x7d"
    let P := Platform.ofTable [(text, .object members)]
    (∃ n, parseCallback P text = .ok (.notificationEvent n) ∧ n.notificationCode = 0) ∧
      (∃ m, parseCallbackObject P (members.erase "notification") text = .ok (.matchEvent m)) ∧
      ¬NullAsAbsent 200 members "notification" := by
  intro song result members text P
  have hparse : P.parse text = .ok (.object members) := rfl
  have hkeys : ([("notification", Json.null), ("result", Json.object result)].map Prod.fst).Nodup :=
    by decide
  have hnotif : members.find? "notification" = some .null :=
    OrderedMap.find?_insertMany_of_mem _ _ hkeys (by simp)
  have hresult : (members.erase "notification").find? "result" = some (.object result) := by
    rw [OrderedMap.find?_erase_of_ne _ (by decide)]
    exact OrderedMap.find?_insertMany_of_mem _ _ hkeys (by simp)
  refine ⟨⟨parseStreamCallbackNotification P .null (outerTime P members) text, ?_, rfl⟩, ?_,
    not_nullAsAbsent_notification 200 members⟩
  · rw [parseCallback_of_parse hparse, parseCallbackObject, hnotif]
  · exact (parseCallbackObject_songs _ result song [] text hresult rfl).mpr
      (OrderedMap.find?_erase_self _ _)

end Audd
