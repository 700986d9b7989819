import Audd.Client
import Audd.Lib.FixedWidth
import Audd.Lib.Numeral
import Audd.LongpollDelivery

/-!
# The requests of a poll

Each request is determined by the round trips before it: its cursor is a fold
over them. With the delivered prefix this says which responses end a poll and
which ones are asked for again.
-/

namespace Audd

section
variable (P : Platform)

/-- The cursor after a round trip: a keep-alive and a decoded event move it. -/
def nextCursor (curSince : Int64) : RoundTrip → Int64
  | .connectionError => curSince
  | .response httpStatus rawBody _ =>
      let advanced := advanceSince P (P.parseOrNull rawBody) curSince
      match disposition P httpStatus rawBody, parseCallback P rawBody with
      | .keepAlive, _ => advanced
      | .event, .ok _ => advanced
      | _, _ => curSince

/-- The cursor after a sequence of round trips. -/
def cursorAfter (sinceTime : Int64) (outcomes : List RoundTrip) : Int64 :=
  outcomes.foldl (nextCursor P) sinceTime

theorem cursorAfter_concat (sinceTime : Int64) (outcomes : List RoundTrip) (r : RoundTrip) :
    cursorAfter P sinceTime (outcomes ++ [r]) =
      nextCursor P (cursorAfter P sinceTime outcomes) r := by
  simp [cursorAfter]

/-- The worker moves its cursor as the fold does, an event at the end of its push. -/
theorem handleResponse_cursor (w : Worker) (status : ℤ) (raw rid : String) :
    let w' := handleResponse P w status raw rid
    match w'.pc with
    | .pushing _ body =>
        advanceSince P body w'.curSince = nextCursor P w.curSince (.response status raw rid)
    | .loopHead => w'.curSince = nextCursor P w.curSince (.response status raw rid)
    | _ => True := by
  unfold handleResponse nextCursor
  cases hd : disposition P status raw with
  | terminal => simp
  | skip => simp [hd]
  | keepAlive => simp [hd]
  | event => cases hp : parseCallback P raw <;> simp [hd, hp]

/-- What the worker has asked for and how its cursor stands, at each of its places. -/
def Poll.AskedAt (s : Poll) (sinceTime : Int64) : WorkerPc → Prop
  | .loopHead | .sleeping => s.requests.length = s.outcomes.length ∧
      (∀ r ∈ s.outcomes, errorOf r = none) ∧
      s.worker.curSince = cursorAfter P sinceTime s.outcomes
  | .requesting => s.requests.length = s.outcomes.length + 1 ∧
      (∀ r ∈ s.outcomes, errorOf r = none) ∧
      s.worker.curSince = cursorAfter P sinceTime s.outcomes
  | .received status raw rid => s.requests.length = s.outcomes.length ∧
      ∃ before, s.outcomes = before ++ [.response status raw rid] ∧
        (∀ r ∈ before, errorOf r = none) ∧
        s.worker.curSince = cursorAfter P sinceTime before
  | .pushing _ body => s.requests.length = s.outcomes.length ∧
      (∀ r ∈ s.outcomes, errorOf r = none) ∧
      advanceSince P body s.worker.curSince = cursorAfter P sinceTime s.outcomes
  | .pushingError _ | .closing _ | .stopped => s.requests.length = s.outcomes.length ∧
      ∀ r ∈ s.outcomes.dropLast, errorOf r = none

/-- Every request carries the cursor after the round trips before it. -/
structure RequestLog (category : String) (timeout : ℤ) (sinceTime : Int64) (s : Poll) : Prop where
  asked : s.AskedAt P sinceTime s.worker.pc
  request : ∀ i < s.requests.length, s.requests[i]? =
    some (requestParams category timeout (cursorAfter P sinceTime (s.outcomes.take i)))

end

variable {P : Platform} {category : String} {timeout : ℤ} {sinceTime : Int64} {s s' : Poll}

/-- A completed round trip changes no cursor that has been sent. -/
theorem RequestLog.complete (hs : RequestLog P category timeout sinceTime s)
    (hpc : s.worker.pc = .requesting) (o : RoundTrip) (i : ℕ) (hi : i < s.requests.length) :
    s.requests[i]? = some (requestParams category timeout
      (cursorAfter P sinceTime ((s.outcomes ++ [o]).take i))) := by
  have hasked := hs.asked
  simp only [hpc, Poll.AskedAt] at hasked
  rw [List.take_append_of_le_length (by omega)]
  exact hs.request i hi

theorem RequestLog.step (hs : RequestLog P category timeout sinceTime s)
    (h : Moves P category timeout s s') : RequestLog P category timeout sinceTime s' := by
  have hasked := hs.asked
  cases h with
  | stop hc hpc =>
      refine ⟨?_, hs.request⟩
      rcases hpc with hpc | hpc | ⟨status, raw, rid, hpc⟩ <;>
        simp only [hpc, Poll.AskedAt] at hasked
      · exact ⟨hasked.1, fun r hr => hasked.2.1 r (List.mem_of_mem_dropLast hr)⟩
      · exact ⟨hasked.1, fun r hr => hasked.2.1 r (List.mem_of_mem_dropLast hr)⟩
      · obtain ⟨hlen, before, hout, hquiet, -⟩ := hasked
        exact ⟨hlen, by simpa [hout] using hquiet⟩
  | send hc hpc =>
      simp only [hpc, Poll.AskedAt] at hasked
      obtain ⟨hlen, hquiet, hcur⟩ := hasked
      refine ⟨⟨by simp [hlen], hquiet, hcur⟩, ?_⟩
      intro i hi
      by_cases hlt : i < s.requests.length
      · rw [List.getElem?_append_left hlt]
        exact hs.request i hlt
      · obtain rfl : i = s.requests.length := by
          simp only [List.length_append, List.length_singleton] at hi
          omega
        simp [hlen, hcur]
  | fail hpc =>
      refine ⟨?_, hs.complete hpc _⟩
      simp only [hpc, Poll.AskedAt] at hasked
      obtain ⟨hlen, hquiet, hcur⟩ := hasked
      refine ⟨by simp [hlen], ?_, ?_⟩
      · simpa [or_imp, forall_and, errorOf] using hquiet
      · rw [cursorAfter_concat, ← hcur]
        rfl
  | reply status raw rid hpc =>
      refine ⟨?_, hs.complete hpc _⟩
      simp only [hpc, Poll.AskedAt] at hasked
      exact ⟨by simp [hasked.1], s.outcomes, rfl, hasked.2⟩
  | wake hc hpc =>
      simp only [hpc, Poll.AskedAt] at hasked
      exact ⟨hasked, hs.request⟩
  | handle status raw rid hc hpc =>
      refine ⟨?_, hs.request⟩
      simp only [hpc, Poll.AskedAt] at hasked
      obtain ⟨hlen, before, hout, hquiet, hcur⟩ := hasked
      have hnext := handleResponse_pc P s.worker status raw rid
      have hcursor := handleResponse_cursor P s.worker status raw rid
      cases herr : errorOf (.response status raw rid) with
      | some e =>
          simp only [hnext, herr]
          exact ⟨hlen, by simpa [hout] using hquiet⟩
      | none =>
          have hall : ∀ r ∈ s.outcomes, errorOf r = none := by
            simpa [hout, or_imp, forall_and, herr] using hquiet
          have hafter : cursorAfter P sinceTime s.outcomes =
              nextCursor P s.worker.curSince (.response status raw rid) := by
            rw [hout, cursorAfter_concat, hcur]
          cases hev : eventOf P (.response status raw rid) with
          | some ev =>
              simp only [hnext, herr, hev] at hcursor ⊢
              exact ⟨hlen, hall, hcursor.trans hafter.symm⟩
          | none =>
              simp only [hnext, herr, hev] at hcursor ⊢
              exact ⟨hlen, hall, hcursor.trans hafter.symm⟩
  | push ev body hpc =>
      simp only [hpc, Poll.AskedAt] at hasked
      cases ev <;> exact ⟨hasked, hs.request⟩
  | pushError e hpc =>
      simp only [hpc, Poll.AskedAt] at hasked
      exact ⟨hasked, hs.request⟩
  | workerClose stage pc hpc hnext =>
      simp only [hpc, Poll.AskedAt] at hasked
      subst hnext
      cases stage <;> exact ⟨hasked, hs.request⟩
  | callerClose stage | closerClose _ stage =>
      cases stage <;> exact ⟨hs.asked, hs.request⟩
  | _ => exact ⟨hs.asked, hs.request⟩

theorem requestLog_of_reachable {opts : LongpollOptions}
    (h : (startLongpoll P category opts).Reachable s) :
    RequestLog P category (if opts.timeoutSeconds ≤ 0 then 50 else opts.timeoutSeconds)
      opts.sinceTime s := by
  apply h.invariant
  · refine ⟨⟨rfl, ?_, rfl⟩, ?_⟩
    · intro r hr
      simp [startLongpoll] at hr
    · intro i hi
      simp [startLongpoll] at hi
  · intro a t t' ht hstep
    exact ht.step (pollStep_moves hstep)

/-! ## Responses that end a poll -/

/-- After an error no request is sent, and the worker is on its way out. -/
theorem RequestLog.after_error (hs : RequestLog P category timeout sinceTime s) {i : ℕ}
    {r : RoundTrip} {e : Exn} (hr : s.outcomes[i]? = some r) (herr : errorOf r = some e) :
    s.outcomes.length = i + 1 ∧ s.requests.length = i + 1 := by
  have hlt : i < s.outcomes.length := (List.getElem?_eq_some_iff.mp hr).1
  have hmem : r ∈ s.outcomes := List.mem_of_getElem? hr
  have hlast : (∀ r ∈ s.outcomes.dropLast, errorOf r = none) → s.outcomes.length = i + 1 := by
    intro hquiet
    by_contra hne
    have hdrop : s.outcomes.dropLast[i]? = some r := by
      rw [List.getElem?_dropLast, if_pos (by omega), hr]
    simp [hquiet r (List.mem_of_getElem? hdrop)] at herr
  have hasked := hs.asked
  cases hpc : s.worker.pc with
  | loopHead | sleeping | requesting | pushing =>
      simp only [hpc, Poll.AskedAt] at hasked
      simp [hasked.2.1 r hmem] at herr
  | received status raw rid =>
      simp only [hpc, Poll.AskedAt] at hasked
      obtain ⟨hlen, before, hout, hquiet, -⟩ := hasked
      have := hlast (by simpa [hout] using hquiet)
      exact ⟨this, hlen.trans this⟩
  | pushingError | closing | stopped =>
      simp only [hpc, Poll.AskedAt] at hasked
      have := hlast hasked.2
      exact ⟨this, hasked.1.trans this⟩

/-- The worker is done with its last response. -/
def WorkerPc.leaving : WorkerPc → Bool
  | .closing _ | .stopped => true
  | _ => false

/-- In every run such a response is the last thing asked for, and unless a
`close()` came before its error was pushed the error queue has that error from
then on, and no other. -/
def EndsSubscription (P : Platform) (httpStatus : ℤ) (rawBody : String) : Prop :=
  ∀ (category : String) (opts : LongpollOptions) (s : Poll) (i : ℕ) (requestId : String),
    (startLongpoll P category opts).Reachable s →
    s.outcomes[i]? = some (.response httpStatus rawBody requestId) →
    s.requests.length = i + 1 ∧
      (s.closers = [] → s.worker.pc.leaving = true → ∀ actions s',
        (startLongpoll P category opts).runFrom actions s = some s' →
        s'.errorQueue.accepted = [longpollError httpStatus rawBody requestId])

/-- A longer run keeps the errors. -/
theorem errors_kept_of_runFrom {opts : LongpollOptions} {actions : List PollAction}
    (h : (startLongpoll P category opts).runFrom actions s = some s') :
    s.errorQueue.accepted <+: s'.errorQueue.accepted := by
  induction actions generalizing s with
  | nil =>
      obtain rfl : s = s' := by simpa [Transition.runFrom] using h
      exact List.prefix_refl _
  | cons a rest ih =>
      obtain ⟨mid, hmid, hrest⟩ := Option.bind_eq_some_iff.mp h
      exact (pollStep_moves hmid).errors_kept.trans (ih hrest)

/-- No queue of errors ever accepts two. -/
theorem errors_length_le {opts : LongpollOptions}
    (h : (startLongpoll P category opts).Reachable s) : s.errorQueue.accepted.length ≤ 1 := by
  obtain ⟨pre, hd⟩ := (delivery_of_reachable h).delivers
  rw [hd.onError, filterMap_errorOf_eq hd.phase.shape.2.1]
  cases pre.getLast?.bind errorOf <;> simp

/-- A response of 400 or above ends the subscription. -/
theorem endsSubscription_of_le {status : ℤ} (raw : String) (hst : 400 ≤ status) :
    EndsSubscription P status raw := by
  intro category opts s i rid hs hout
  have herr : errorOf (.response status raw rid) = some (longpollError status raw rid) := by
    simp [errorOf, hst]
  obtain ⟨hlen, hreq⟩ := (requestLog_of_reachable hs).after_error hout herr
  refine ⟨hreq, ?_⟩
  intro hopen hleaving actions s' hrun
  have hpushed : s.errorQueue.accepted = [longpollError status raw rid] := by
    obtain ⟨pre, hd⟩ := (delivery_of_reachable hs).delivers
    have hphase := hd.phase
    cases hpc : s.worker.pc with
    | closing | stopped =>
        simp only [hpc, Poll.Phase] at hphase
        rcases hphase with ⟨-, -, hcl⟩ | ⟨before, r, rfl, hpre, hquiet, -⟩
        · exact absurd hopen hcl
        · obtain rfl : r = .response status raw rid := by
            rw [hpre] at hout hlen
            simp only [List.length_append, List.length_singleton] at hlen
            obtain rfl : i = before.length := by omega
            simpa using hout
          simp [hd.onError, hquiet, herr]
    | _ => simp [hpc, WorkerPc.leaving] at hleaving
  obtain ⟨more, hmore⟩ := errors_kept_of_runFrom hrun
  have hle := errors_length_le (hs.runFrom _ hrun)
  rw [← hmore, hpushed] at hle ⊢
  simpa using hle

/-- An open poll at the head of its loop sends a request. -/
theorem send_reachable {opts : LongpollOptions}
    (h : (startLongpoll P category opts).Reachable s) (hpc : s.worker.pc = .loopHead)
    (hc : s.closed = false) : ∃ s', (startLongpoll P category opts).Reachable s' ∧
      s'.requests.length = s.requests.length + 1 ∧ s'.outcomes = s.outcomes := by
  have hstep : (startLongpoll P category opts).step (.worker .connectionError) s = some { s with
      worker := { s.worker with pc := .requesting }
      requests := s.requests ++ [requestParams category
        (if opts.timeoutSeconds ≤ 0 then 50 else opts.timeoutSeconds) s.worker.curSince] } := by
    simp [startLongpoll, pollStep, workerStep, hpc, hc]
  exact ⟨_, h.next _ hstep, by simp, rfl⟩

/-- An event that is being pushed leads back to the head of the loop. -/
theorem push_reachable {opts : LongpollOptions} {ev : CallbackEvent} {body : Json}
    (h : (startLongpoll P category opts).Reachable s) (hpc : s.worker.pc = .pushing ev body) :
    ∃ s', (startLongpoll P category opts).Reachable s' ∧ s'.worker.pc = .loopHead ∧
      s'.closed = s.closed ∧ s'.requests = s.requests ∧ s'.outcomes = s.outcomes := by
  have hstep : (startLongpoll P category opts).step (.worker .connectionError) s =
      some { s.pushEvent ev with worker :=
        { s.worker with pc := .loopHead, curSince := advanceSince P body s.worker.curSince } } := by
    simp only [startLongpoll, pollStep, workerStep, hpc]
  exact ⟨_, h.next _ hstep, by cases ev <;> exact ⟨rfl, rfl, rfl, rfl⟩⟩

/-- After a response below 400 the worker goes back to asking. -/
theorem asks_again (P : Platform) {status : ℤ} (raw : String) (hst : ¬400 ≤ status) :
    ¬EndsSubscription P status raw := by
  intro h
  have herr : errorOf (.response status raw "") = none := by simp [errorOf, hst]
  let received : Poll := {
    worker := { pc := .received status raw "", curSince := 0 }
    requests := [requestParams "" 50 0]
    outcomes := [.response status raw ""] }
  let handled : Poll := { received with worker := handleResponse P received.worker status raw "" }
  have hreceived : (startLongpoll P "" {}).Reachable received :=
    Transition.Reachable.start.runFrom
      [.worker .connectionError, .worker (.response status raw "")] rfl
  have hhandled : (startLongpoll P "" {}).Reachable handled :=
    hreceived.next (.worker .connectionError) rfl
  have hpc : handled.worker.pc = _ := handleResponse_pc P received.worker status raw ""
  rw [herr] at hpc
  obtain ⟨s, hs, hloop, hopen, hreq, hout⟩ : ∃ s, (startLongpoll P "" {}).Reachable s ∧
      s.worker.pc = .loopHead ∧ s.closed = false ∧ s.requests = received.requests ∧
      s.outcomes = received.outcomes := by
    cases hev : eventOf P (.response status raw "") with
    | none => exact ⟨handled, hhandled, by simpa [hev] using hpc, rfl, rfl, rfl⟩
    | some ev => exact push_reachable hhandled (by simpa [hev] using hpc)
  obtain ⟨s', hs', hlen, hout'⟩ := send_reachable hs hloop hopen
  have hends := (h "" {} s' 0 "" hs' (by rw [hout', hout]; rfl)).1
  rw [hlen, hreq] at hends
  simp [received] at hends

/-- A body that `decode_or_throw` rejects because its status is `error`, with
neither block of a callback. -/
structure ReportsError (members : OrderedMap String Json) : Prop where
  status : members.find? "status" = some (.string "error")
  result : members.find? "result" = none
  notification : members.find? "notification" = none

/-- The request path and the longpoll path on a body that reports an error. The
first always rejects it. The second ends the subscription exactly when the HTTP
status is 400 or above, and otherwise asks again. -/
theorem reportsError_ends_iff (P : Platform) (httpStatus : ℤ) (rawBody requestId : String)
    (members : OrderedMap String Json) (hparse : P.parse rawBody = .ok (.object members))
    (hreports : ReportsError members) :
    (∀ hook, ∃ x, (decodeOrThrow P
        { httpStatus, rawBody, jsonBody := P.parseOrNull rawBody, requestId } hook).result =
          .error x ∧ x.apiError?.isSome) ∧
      (classifyLongpollResponse httpStatus (P.parseOrNull rawBody) false = .terminal ↔
        400 ≤ httpStatus) ∧
      (EndsSubscription P httpStatus rawBody ↔ 400 ≤ httpStatus) := by
  refine ⟨?_, ?_, ?_⟩
  · intro hook
    have hkept : stripDeprecation P hook members = (members, []) := by
      have : isDeprecated P members = false := by
        unfold isDeprecated
        split
        · simp [hreports.result]
        · rfl
      simp [stripDeprecation, this]
    obtain ⟨e, he, -⟩ :=
      raiseFromErrorResponse_apiError? P (.object members) httpStatus requestId false
    refine ⟨_, ?_, Option.isSome_iff_exists.mpr ⟨e, he⟩⟩
    simp [Platform.parseOrNull, hparse, decodeOrThrow, hkept, hreports.status,
      Platform.getString]
  · exact classifyLongpollResponse_eq_terminal_iff _ _ _
  · refine ⟨?_, endsSubscription_of_le rawBody⟩
    intro h
    by_contra hst
    exact asks_again P rawBody hst h

theorem reportsError_ends_iff_badGateway :
    let members := OrderedMap.ofList [("status", Json.string "error")]
    let text := "\x7b\"status\":\"error\"\x7d"
    let P := Platform.ofTable [(text, .object members)]
    (∀ hook, ∃ x, (decodeOrThrow P
        { httpStatus := 502, rawBody := text, jsonBody := P.parseOrNull text, requestId := "" }
        hook).result = .error x ∧ x.apiError?.isSome) ∧
      (classifyLongpollResponse 502 (P.parseOrNull text) false = .terminal ↔ (400 : ℤ) ≤ 502) ∧
      (EndsSubscription P 502 text ↔ (400 : ℤ) ≤ 502) := by
  intro members text P
  exact reportsError_ends_iff P 502 text "" members rfl ⟨rfl, rfl, rfl⟩

/-- Sent with HTTP status 200, such a body does not end the subscription. -/
theorem reportsError_ok_asks_again :
    let members := OrderedMap.ofList [("status", Json.string "error")]
    let text := "\x7b\"status\":\"error\"\x7d"
    let P := Platform.ofTable [(text, .object members)]
    ReportsError members ∧ P.parse text = .ok (.object members) ∧
      classifyLongpollResponse 200 (P.parseOrNull text) false = .event ∧
      ¬EndsSubscription P 200 text := by
  intro members text P
  exact ⟨⟨rfl, rfl, rfl⟩, rfl, rfl, asks_again P text (by decide)⟩

/-! ## Responses that are asked for again -/

/-- The value of a JSON number that is an integer. -/
def Json.integer? : Json → Option ℤ
  | .numberUnsigned u => some u.toNat
  | .numberInteger i => some i.toInt
  | .numberFloat d => if d.isFinite ∧ d.isIntegral then some d.trunc else none
  | _ => none

/-- The request carries a `since_time` of at least `t`. -/
def AsksFrom (t : ℤ) (request : OrderedMap String String) : Prop :=
  ∃ v : ℤ, request.find? "since_time" = some (toString v) ∧ t ≤ v

/-- The timestamp of a keep-alive or a decoded event is read; every other body
is passed over. -/
def ReadsTimestamp (P : Platform) (httpStatus : ℤ) (rawBody : String) : Prop :=
  disposition P httpStatus rawBody = .keepAlive ∨ ∃ ev, parseCallback P rawBody = .ok ev

theorem asksFrom_requestParams_iff (category : String) (timeout : ℤ) (cur : Int64) {t : ℤ}
    (ht : 0 < t) : AsksFrom t (requestParams category timeout cur) ↔ t ≤ cur.toInt := by
  unfold AsksFrom requestParams
  by_cases hcur : 0 < cur
  · simp only [hcur, if_true, OrderedMap.find?_insert_self, Option.some.injEq]
    constructor
    · rintro ⟨v, hv, hle⟩
      rwa [Decimal.toString_injective hv]
    · exact fun hle => ⟨_, rfl, hle⟩
  · have hneg : cur.toInt ≤ 0 := by
      have := Int64.lt_iff_toInt_lt.not.mp hcur
      simpa using this
    simp only [hcur, if_false]
    constructor
    · rintro ⟨v, hv, -⟩
      simp [OrderedMap.find?_insert] at hv
    · intro hle
      omega

theorem nextCursor_of_not_reads {status : ℤ} {raw rid : String} (cur : Int64)
    (h : ¬ReadsTimestamp P status raw) : nextCursor P cur (.response status raw rid) = cur := by
  unfold ReadsTimestamp at h
  rw [not_or, not_exists] at h
  unfold nextCursor
  cases hd : disposition P status raw with
  | keepAlive => exact absurd hd h.1
  | terminal | skip => simp [hd]
  | event =>
      cases hp : parseCallback P raw with
      | ok ev => exact absurd hp (h.2 ev)
      | error e => simp [hd, hp]

theorem nextCursor_of_reads {status : ℤ} {raw rid : String} (cur : Int64) (hst : status < 400)
    (h : ReadsTimestamp P status raw) : nextCursor P cur (.response status raw rid) =
      advanceSince P (P.parseOrNull raw) cur := by
  unfold nextCursor
  rcases h with hd | ⟨ev, hp⟩
  · simp [hd]
  · simp [disposition_of_ok P hst hp, hp]

/-- A positive integer that fits 64 bits is read as it is. -/
theorem getLongLong_of_integer (P : Platform) {j : Json} {t : ℤ} (hj : j.integer? = some t)
    (ht : 0 < t) : ∃ v, P.getLongLong j = some v ∧ (t < 2 ^ 63 → v.toInt = t) := by
  cases j with
  | numberUnsigned u =>
      obtain rfl : (u.toNat : ℤ) = t := by simpa [Json.integer?] using hj
      refine ⟨_, rfl, fun hlt => ?_⟩
      rw [FixedWidth.toInt_toInt64]
      exact (FixedWidth.bmod_eq_self_iff 63 _).mpr ⟨by omega, hlt⟩
  | numberInteger i =>
      obtain rfl : i.toInt = t := by simpa [Json.integer?] using hj
      exact ⟨_, rfl, fun _ => rfl⟩
  | numberFloat d =>
      obtain ⟨⟨hfin, -⟩, rfl⟩ : (d.isFinite ∧ d.isIntegral) ∧ d.trunc = t := by
        simpa [Json.integer?] using hj
      refine ⟨_, rfl, fun hlt => ?_⟩
      rw [Platform.toInt64, if_pos ⟨hfin, by omega, hlt⟩]
      exact Int64.toInt_ofInt_of_le (by omega) hlt
  | _ => simp [Json.integer?] at hj

/-- A timestamp that fits 64 bits is taken as it is, and no other can be. -/
theorem le_advanceSince_iff (P : Platform) {body j : Json} {t : ℤ} (cur : Int64)
    (hfind : body.find? "timestamp" = some j) (hj : j.integer? = some t) (ht : 0 < t) :
    t ≤ (advanceSince P body cur).toInt ↔ t < 2 ^ 63 := by
  obtain ⟨v, hv, hval⟩ := getLongLong_of_integer P hj ht
  have hnull : j.isNull = false := by
    cases j <;> simp_all [Json.integer?, Json.isNull]
  have hadv : advanceSince P body cur = v := by
    simp [advanceSince, hfind, hnull, hv]
  rw [hadv]
  constructor
  · intro hle
    have := v.toInt_lt
    omega
  · intro hlt
    rw [hval hlt]

/-- What the request after a response asks for, in every run: the response's
timestamp or later exactly when the worker read the timestamp and it fits 64
bits, or when the request before already asked so. -/
theorem next_request_asksFrom_iff (P : Platform) (category : String) (opts : LongpollOptions)
    (s : Poll) (hs : (startLongpoll P category opts).Reachable s) (i : ℕ) (httpStatus : ℤ)
    (rawBody requestId : String) (body timestamp : Json) (t : ℤ)
    (before next : OrderedMap String String)
    (hresponse : s.outcomes[i]? = some (.response httpStatus rawBody requestId))
    (hstatus : httpStatus < 400) (hparse : P.parse rawBody = .ok body)
    (htimestamp : body.find? "timestamp" = some timestamp) (hinteger : timestamp.integer? = some t)
    (hpos : 0 < t) (hbefore : s.requests[i]? = some before)
    (hnext : s.requests[i + 1]? = some next) :
    AsksFrom t next ↔
      (ReadsTimestamp P httpStatus rawBody ∧ t < 2 ^ 63) ∨ AsksFrom t before := by
  have hlog := requestLog_of_reachable hs
  have hrequest : ∀ k r, s.requests[k]? = some r → (AsksFrom t r ↔
      t ≤ (cursorAfter P opts.sinceTime (s.outcomes.take k)).toInt) := by
    intro k r hr
    have hk := hlog.request k (List.getElem?_eq_some_iff.mp hr).1
    rw [hr, Option.some.injEq] at hk
    rw [hk, asksFrom_requestParams_iff _ _ _ hpos]
  have htake : s.outcomes.take (i + 1) =
      s.outcomes.take i ++ [.response httpStatus rawBody requestId] := by
    rw [List.take_add_one, hresponse]
    rfl
  rw [hrequest _ _ hbefore, hrequest _ _ hnext, htake, cursorAfter_concat]
  by_cases hreads : ReadsTimestamp P httpStatus rawBody
  · have hbody : P.parseOrNull rawBody = body := by simp [Platform.parseOrNull, hparse]
    rw [nextCursor_of_reads _ hstatus hreads, hbody,
      le_advanceSince_iff P _ htimestamp hinteger hpos]
    constructor
    · exact fun hlt => .inl ⟨hreads, hlt⟩
    · rintro (⟨-, hlt⟩ | hle)
      · exact hlt
      · exact hle.trans_lt (Int64.toInt_lt _)
  · rw [nextCursor_of_not_reads _ hreads]
    simp [hreads]

theorem next_request_asksFrom_keepAlive :
    let body := Json.object (.ofList [("timeout", .string "no events"),
      ("timestamp", .numberUnsigned 100)])
    let text := "\x7b\"timeout\":\"no events\",\"timestamp\":100\x7d"
    let P := Platform.ofTable [(text, body)]
    ∃ s before next, (startLongpoll P "0123abcde" {}).Reachable s ∧
      s.requests = [before, next] ∧
      (AsksFrom 100 next ↔ (ReadsTimestamp P 200 text ∧ (100 : ℤ) < 2 ^ 63) ∨
        AsksFrom 100 before) := by
  intro body text P
  obtain ⟨s, hrun, hout, before, next, hreq⟩ : ∃ s,
      (startLongpoll P "0123abcde" {}).runFrom
        [.worker .connectionError, .worker (.response 200 text ""), .worker .connectionError,
          .worker .connectionError] (startLongpoll P "0123abcde" {}).start = some s ∧
        s.outcomes = [.response 200 text ""] ∧ ∃ before next, s.requests = [before, next] :=
    ⟨_, rfl, rfl, _, _, rfl⟩
  have hs := Transition.Reachable.start.runFrom _ hrun
  exact ⟨s, before, next, hs, hreq,
    next_request_asksFrom_iff P "0123abcde" {} s hs 0 200 text "" body (.numberUnsigned 100) 100
      before next (by simp [hout]) (by decide) rfl rfl rfl (by decide) (by simp [hreq])
      (by simp [hreq])⟩

/-- A body with a timestamp that `parse_callback` rejects is asked for again from
the same cursor. -/
theorem rejected_body_asked_again :
    let body := Json.object (.ofList [("timestamp", .numberUnsigned 100)])
    let text := "\x7b\"timestamp\":100\x7d"
    let P := Platform.ofTable [(text, body)]
    ∃ s request, (startLongpoll P "0123abcde" {}).Reachable s ∧
      s.outcomes = [.response 200 text ""] ∧ s.requests = [request, request] ∧
      ¬AsksFrom 100 request := by
  intro body text P
  obtain ⟨s, hrun, hout, hreq⟩ : ∃ s,
      (startLongpoll P "0123abcde" {}).runFrom
        [.worker .connectionError, .worker (.response 200 text ""), .worker .connectionError,
          .worker .connectionError] (startLongpoll P "0123abcde" {}).start = some s ∧
        s.outcomes = [.response 200 text ""] ∧
        s.requests = [requestParams "0123abcde" 50 0, requestParams "0123abcde" 50 0] :=
    ⟨_, rfl, rfl, rfl⟩
  refine ⟨s, _, Transition.Reachable.start.runFrom _ hrun, hout, hreq, ?_⟩
  rw [asksFrom_requestParams_iff _ _ _ (by decide)]
  decide

end Audd
