import Audd.LongpollRequests

/-!
# The cursor of a poll

When the cursor moves, and to what. A step of the worker reads the timestamp of
the last response, and only the type and the value of that timestamp decide
whether the cursor goes forward.
-/

namespace Audd

open FixedWidth

section
variable (P : Platform)

/-- The body whose timestamp a step reads. -/
def PollAction.reads (s : Poll) : PollAction → Option Json
  | .worker _ =>
      match s.worker.pc with
      | .received httpStatus rawBody _ =>
          if s.closed = false ∧ disposition P httpStatus rawBody = .keepAlive then
            some (P.parseOrNull rawBody) else none
      | .pushing _ body => some body
      | _ => none
  | _ => none

/-- The cursor goes forward, and moves only to the integer that the timestamp of
the last response is. -/
structure CursorForward (s s' : Poll) : Prop where
  le : s.worker.curSince ≤ s'.worker.curSince
  moved : s'.worker.curSince ≠ s.worker.curSince → ∃ httpStatus rawBody requestId timestamp n,
    s.outcomes.getLast? = some (.response httpStatus rawBody requestId) ∧
      (P.parseOrNull rawBody).find? "timestamp" = some timestamp ∧
      timestamp.integer? = some n ∧ Fits 63 n ∧ s'.worker.curSince.toInt = n

/-- A timestamp that does not spoil the cursor: an integer in range from the cursor
on, a value that does not convert, or one that converts to the cursor itself. -/
def StampKept (curSince : Int64) : Json → Prop
  | .numberUnsigned u =>
      if u.toNat < 2 ^ 63 then curSince.toInt ≤ u.toNat else u.toInt64 = curSince
  | .numberInteger i => curSince ≤ i
  | .numberFloat d =>
      if d.isIntegral ∧ Fits 63 d.trunc then curSince.toInt ≤ d.trunc
      else P.toInt64 d = curSince
  | .boolean b => P.longLongIsInt64 = true ∨ (if b then 1 else 0) = curSince
  | .null | .string _ | .array _ | .object _ => True

/-- A step reads no timestamp that spoils the cursor. -/
def ReadsKept (a : PollAction) (s : Poll) : Prop :=
  ∀ body timestamp, a.reads P s = some body → body.find? "timestamp" = some timestamp →
    StampKept P s.worker.curSince timestamp

end

variable {P : Platform} {category : String} {timeout : ℤ} {s s' : Poll}

/-- Where a body has a timestamp, the cursor is what it converts to. -/
theorem advanceSince_of_find {body timestamp : Json} (cur : Int64)
    (h : body.find? "timestamp" = some timestamp) :
    advanceSince P body cur = (P.getLongLong timestamp).getD cur := by
  simp only [advanceSince, h]
  cases hnull : timestamp.isNull with
  | true =>
      obtain rfl := (Json.isNull_eq_true_iff timestamp).mp hnull
      rfl
  | false => rfl

theorem handleResponse_curSince (w : Worker) (status : ℤ) (raw rid : String) :
    (handleResponse P w status raw rid).curSince =
      if disposition P status raw = .keepAlive then
        advanceSince P (P.parseOrNull raw) w.curSince else w.curSince := by
  unfold handleResponse
  cases disposition P status raw with
  | terminal | skip | keepAlive => rfl
  | event => cases parseCallback P raw <;> rfl

theorem workerStep_curSince {o : RoundTrip} (h : workerStep P category timeout o s = some s') :
    s'.worker.curSince =
      (((PollAction.worker o).reads P s).map fun body =>
        advanceSince P body s.worker.curSince).getD s.worker.curSince := by
  unfold workerStep at h
  cases hpc : s.worker.pc with
  | loopHead | sleeping =>
      simp only [hpc] at h
      simp only [PollAction.reads, hpc]
      split at h <;> cases h <;> rfl
  | requesting | pushingError =>
      simp only [hpc] at h
      simp only [PollAction.reads, hpc]
      cases h
      rfl
  | closing stage =>
      simp only [hpc] at h
      simp only [PollAction.reads, hpc]
      cases h
      rfl
  | received status raw rid =>
      simp only [hpc] at h
      simp only [PollAction.reads, hpc]
      split at h
      · cases h
        simp [*]
      · cases h
        have hopen : s.closed = false := Bool.eq_false_of_not_eq_true ‹_›
        simp only [handleResponse_curSince, hopen, true_and]
        split <;> rfl
  | pushing ev body =>
      simp only [hpc] at h
      simp only [PollAction.reads, hpc]
      cases h
      rfl
  | stopped => simp [hpc] at h

@[simp] theorem Poll.closeAt_worker (s : Poll) (stage : CloseStage) :
    (s.closeAt stage).worker = s.worker := by
  cases stage <;> rfl

theorem callerStep_worker (h : callerStep s = some s') : s'.worker = s.worker := by
  unfold callerStep at h
  cases hca : s.caller with
  | pulling =>
      simp only [hca] at h
      split at h
      · cases h
        rfl
      · cases h
        rfl
      · cases h
  | delivering | returned =>
      simp only [hca] at h
      cases h
      try rfl
  | closing stage =>
      simp only [hca] at h
      cases h
      exact s.closeAt_worker stage
  | joining =>
      simp only [hca] at h
      split at h
      · cases h
        rfl
      · cases h

/-- What a step makes of the cursor. -/
theorem pollStep_curSince {a : PollAction} (h : pollStep P category timeout a s = some s') :
    s'.worker.curSince =
      ((a.reads P s).map fun body => advanceSince P body s.worker.curSince).getD
        s.worker.curSince := by
  cases a with
  | worker o => exact workerStep_curSince h
  | matchPump =>
      obtain ⟨l, -, rfl⟩ := Option.map_eq_some_iff.mp h
      rfl
  | notificationPump =>
      obtain ⟨l, -, rfl⟩ := Option.map_eq_some_iff.mp h
      rfl
  | caller =>
      rw [callerStep_worker h]
      rfl
  | beginClose =>
      cases h
      rfl
  | closer i =>
      simp only [pollStep] at h
      split at h
      · cases h
        simp [PollAction.reads]
      · cases h

/-! ## The response that is read -/

/-- The response in the worker's hands is the last one. -/
def Poll.HoldsLast (P : Platform) (s : Poll) : Prop :=
  match s.worker.pc with
  | .received httpStatus rawBody requestId =>
      s.outcomes.getLast? = some (.response httpStatus rawBody requestId)
  | .pushing _ body => ∃ httpStatus rawBody requestId,
      s.outcomes.getLast? = some (.response httpStatus rawBody requestId) ∧
        body = P.parseOrNull rawBody
  | _ => True

theorem Poll.HoldsLast.step (hs : s.HoldsLast P) (h : Moves P category timeout s s') :
    s'.HoldsLast P := by
  unfold Poll.HoldsLast at hs ⊢
  cases h with
  | reply status raw rid hpc => simp
  | handle status raw rid hc hpc =>
      simp only [hpc] at hs
      have hnext := handleResponse_pc P s.worker status raw rid
      cases herr : errorOf (.response status raw rid) with
      | some e => simp only [hnext, herr]
      | none =>
          cases hev : eventOf P (.response status raw rid) with
          | some ev =>
              simp only [hnext, herr, hev]
              exact ⟨status, raw, rid, hs, rfl⟩
          | none => simp only [hnext, herr, hev]
  | workerClose stage pc hpc hnext =>
      subst hnext
      cases stage <;> trivial
  | callerClose stage | closerClose _ stage => cases stage <;> exact hs
  | push ev body hpc => cases ev <;> trivial
  | stop | send | fail | wake | pushError => trivial
  | _ => exact hs

theorem holdsLast_of_reachable {opts : LongpollOptions}
    (h : (startLongpoll P category opts).Reachable s) : s.HoldsLast P := by
  apply h.invariant
  · trivial
  · intro a t t' ht hstep
    exact ht.step (pollStep_moves hstep)

/-- The timestamp that a step reads is that of the last response. -/
theorem Poll.HoldsLast.of_reads (h : s.HoldsLast P) {a : PollAction} {body : Json}
    (hreads : a.reads P s = some body) : ∃ httpStatus rawBody requestId,
      s.outcomes.getLast? = some (.response httpStatus rawBody requestId) ∧
        body = P.parseOrNull rawBody := by
  cases a with
  | worker o =>
      cases hpc : s.worker.pc with
      | received status raw rid =>
          simp only [PollAction.reads, hpc] at hreads
          simp only [Poll.HoldsLast, hpc] at h
          split at hreads
          · cases hreads
            exact ⟨status, raw, rid, h, rfl⟩
          · cases hreads
      | pushing ev payload =>
          simp only [PollAction.reads, hpc] at hreads
          simp only [Poll.HoldsLast, hpc] at h
          cases hreads
          exact h
      | _ => simp [PollAction.reads, hpc] at hreads
  | _ => cases hreads

/-! ## Which timestamps move the cursor forward -/

/-- A value may become the cursor: it is no step back, and it is new only as the
integer that the timestamp is. -/
def MayBecome (cur v : Int64) (timestamp : Json) : Prop :=
  cur ≤ v ∧ (v ≠ cur → ∃ n, timestamp.integer? = some n ∧ Fits 63 n ∧ v.toInt = n)

theorem mayBecome_self (cur : Int64) (timestamp : Json) : MayBecome cur cur timestamp :=
  ⟨Int64.le_refl cur, fun hne => absurd rfl hne⟩

theorem mayBecome_iff_le {cur v : Int64} {timestamp : Json} {n : ℤ}
    (hn : timestamp.integer? = some n) (hfits : Fits 63 n) (hv : v.toInt = n) :
    MayBecome cur v timestamp ↔ cur.toInt ≤ n := by
  rw [MayBecome, Int64.le_iff_toInt_le, hv]
  constructor
  · exact And.left
  · intro hle
    exact ⟨hle, fun _ => ⟨n, hn, hfits, rfl⟩⟩

theorem mayBecome_iff_eq {cur v : Int64} {timestamp : Json}
    (hno : ∀ n, timestamp.integer? = some n → ¬Fits 63 n) :
    MayBecome cur v timestamp ↔ v = cur := by
  constructor
  · rintro ⟨-, hmoved⟩
    by_contra hne
    obtain ⟨n, hn, hfits, -⟩ := hmoved hne
    exact hno n hn hfits
  · rintro rfl
    exact mayBecome_self v timestamp

/-- What a timestamp converts to may become the cursor exactly when it does not
spoil the cursor. -/
theorem mayBecome_getLongLong_iff (P : Platform) (cur : Int64) (timestamp : Json) :
    MayBecome cur ((P.getLongLong timestamp).getD cur) timestamp ↔
      StampKept P cur timestamp := by
  cases timestamp with
  | numberUnsigned u =>
      change MayBecome cur u.toInt64 (.numberUnsigned u) ↔
        if u.toNat < 2 ^ 63 then cur.toInt ≤ u.toNat else u.toInt64 = cur
      by_cases hu : u.toNat < 2 ^ 63
      · rw [if_pos hu]
        have hfits : Fits 63 (u.toNat : ℤ) := ⟨by omega, by omega⟩
        apply mayBecome_iff_le rfl hfits
        rw [toInt_toInt64]
        exact (bmod_eq_self_iff 63 _).mpr hfits
      · rw [if_neg hu]
        apply mayBecome_iff_eq
        rintro n ⟨⟩ ⟨-, hlt⟩
        omega
  | numberInteger i =>
      change MayBecome cur i (.numberInteger i) ↔ cur ≤ i
      rw [Int64.le_iff_toInt_le]
      exact mayBecome_iff_le rfl ⟨i.le_toInt, i.toInt_lt⟩ rfl
  | numberFloat d =>
      change MayBecome cur (P.toInt64 d) (.numberFloat d) ↔
        if d.isIntegral ∧ Fits 63 d.trunc then cur.toInt ≤ d.trunc else P.toInt64 d = cur
      by_cases hd : d.isIntegral ∧ Fits 63 d.trunc
      · rw [if_pos hd]
        obtain ⟨hint, hfits⟩ := hd
        have hfin : d.isFinite = true := (Bool.and_eq_true_iff.mp hint).1
        have hn : (Json.numberFloat d).integer? = some d.trunc := if_pos ⟨hfin, hint⟩
        apply mayBecome_iff_le hn hfits
        rw [Platform.toInt64, if_pos ⟨hfin, hfits⟩]
        exact Int64.toInt_ofInt_of_le hfits.1 hfits.2
      · rw [if_neg hd]
        apply mayBecome_iff_eq
        intro n hn hfits
        simp only [Json.integer?] at hn
        split at hn
        · rename_i hint
          obtain rfl := Option.some.inj hn
          exact hd ⟨hint.2, hfits⟩
        · cases hn
  | boolean b =>
      have hno : ∀ n, (Json.boolean b).integer? = some n → ¬Fits 63 n := by
        rintro n ⟨⟩
      simp only [Platform.getLongLong, StampKept]
      cases P.longLongIsInt64 with
      | true => exact iff_of_true (mayBecome_self cur _) (.inl rfl)
      | false => simpa using mayBecome_iff_eq hno
  | null | string | array | object => exact iff_of_true (mayBecome_self cur _) trivial

/-! ## Runs -/

/-- A step takes the cursor forward exactly when it reads no timestamp that spoils it. -/
theorem cursorForward_iff_readsKept (hlast : s.HoldsLast P) {a : PollAction}
    (h : pollStep P category timeout a s = some s') :
    CursorForward P s s' ↔ ReadsKept P a s := by
  have hcur := pollStep_curSince h
  have hstays : s'.worker.curSince = s.worker.curSince → CursorForward P s s' := by
    intro heq
    exact ⟨heq ▸ Int64.le_refl _, fun hne => absurd heq hne⟩
  cases hreads : a.reads P s with
  | none =>
      rw [hreads] at hcur
      refine iff_of_true (hstays hcur) ?_
      intro body timestamp hbody
      rw [hreads] at hbody
      cases hbody
  | some body =>
      obtain ⟨status, raw, rid, hout, rfl⟩ := hlast.of_reads hreads
      rw [hreads, Option.map_some, Option.getD_some] at hcur
      cases hfind : (P.parseOrNull raw).find? "timestamp" with
      | none =>
          have hsame : s'.worker.curSince = s.worker.curSince := by
            rw [hcur, advanceSince, hfind]
          refine iff_of_true (hstays hsame) ?_
          intro body timestamp hbody htimestamp
          rw [hreads] at hbody
          cases hbody
          rw [hfind] at htimestamp
          cases htimestamp
      | some timestamp =>
          rw [advanceSince_of_find _ hfind] at hcur
          have hmay := mayBecome_getLongLong_iff P s.worker.curSince timestamp
          rw [← hcur] at hmay
          constructor
          · rintro ⟨hle, hmoved⟩ body other hbody hother
            rw [hreads] at hbody
            cases hbody
            rw [hfind] at hother
            cases hother
            apply hmay.mp
            refine ⟨hle, ?_⟩
            intro hne
            obtain ⟨status', raw', rid', stamp, n, hout', hstamp, hn⟩ := hmoved hne
            rw [hout] at hout'
            cases hout'
            rw [hfind] at hstamp
            cases hstamp
            exact ⟨n, hn⟩
          · intro hkept
            obtain ⟨hle, hmoved⟩ := hmay.mpr (hkept _ timestamp hreads hfind)
            refine ⟨hle, ?_⟩
            intro hne
            obtain ⟨n, hn⟩ := hmoved hne
            exact ⟨status, raw, rid, timestamp, n, hout, hfind, hn⟩

/-- In every run the cursor goes only forward, to integral timestamps, exactly when
no step of the run reads a timestamp that spoils it. -/
theorem run_cursorForward_iff (P : Platform) (category : String) (opts : LongpollOptions)
    (actions : List PollAction) :
    (startLongpoll P category opts).EveryStep (fun _ s s' => CursorForward P s s') actions
        (startLongpoll P category opts).start ↔
      (startLongpoll P category opts).EveryStep (fun a s _ => ReadsKept P a s) actions
        (startLongpoll P category opts).start := by
  apply Transition.Reachable.start.everyStep_congr
  intro a s s' hs hstep
  exact cursorForward_iff_readsKept (holdsLast_of_reachable hs) hstep

/-- The run that gets one response and handles it. -/
def oneResponse (raw : String) : List PollAction :=
  [.worker .connectionError, .worker (.response 200 raw ""), .worker .connectionError]

theorem oneResponse_le {opts : LongpollOptions} {raw : String}
    (h : (startLongpoll P category opts).EveryStep (fun _ s s' => CursorForward P s s')
      (oneResponse raw) (startLongpoll P category opts).start) :
    opts.sinceTime ≤ (handleResponse P
      { pc := .received 200 raw "", curSince := opts.sinceTime } 200 raw "").curSince := by
  obtain ⟨-, hsent⟩ := h _ rfl
  obtain ⟨-, hreceived⟩ := hsent _ rfl
  exact (hreceived _ rfl).1.le

theorem disposition_keepAlive {raw : String} {members : OrderedMap String Json}
    (hparse : P.parse raw = .ok (.object members)) (htimeout : members.find? "timeout" ≠ none)
    (hresult : members.find? "result" = none) (hnotif : members.find? "notification" = none) :
    disposition P 200 raw = .keepAlive := by
  have hraw : raw ≠ "" := by
    rintro rfl
    obtain ⟨what, hempty⟩ := P.parse_empty
    rw [hempty] at hparse
    cases hparse
  simp [disposition, classifyLongpollResponse, Platform.parseOrNull, hparse, hraw, Json.isObject,
    Json.contains, hresult, hnotif, Option.isSome_iff_ne_none, htimeout]

/-- A keep-alive with a fractional timestamp takes the cursor back. -/
theorem fractional_timestamp_rewinds :
    let d : Binary64 := ⟨0x4059200000000000#64⟩
    let members := OrderedMap.ofList [("timeout", Json.string "no events"),
      ("timestamp", .numberFloat d)]
    let text := "\x7b\"timeout\":\"no events\",\"timestamp\":100.5\x7d"
    let P := Platform.ofTable [(text, .object members)]
    let opts : LongpollOptions := { sinceTime := 200 }
    P.toInt64 d = 100 ∧
      ¬(startLongpoll P "0123abcde" opts).EveryStep (fun _ s s' => CursorForward P s s')
        (oneResponse text) (startLongpoll P "0123abcde" opts).start := by
  intro d members text P opts
  have hcast : P.toInt64 d = 100 := by decide +kernel
  refine ⟨hcast, ?_⟩
  intro h
  have hle := oneResponse_le h
  have hparse : P.parse text = .ok (.object members) := rfl
  have hkeys : ([("timeout", Json.string "no events"), ("timestamp", .numberFloat d)].map
      Prod.fst).Nodup := by simp
  have htimeout : members.find? "timeout" = some (.string "no events") :=
    OrderedMap.find?_insertMany_of_mem _ _ hkeys (by simp)
  have hstamp : (Json.object members).find? "timestamp" = some (.numberFloat d) :=
    OrderedMap.find?_insertMany_of_mem _ _ hkeys (by simp)
  have hdisp : disposition P 200 text = .keepAlive :=
    disposition_keepAlive hparse (by simp [htimeout])
      (OrderedMap.find?_insertMany_of_notMem _ _ _ (by simp))
      (OrderedMap.find?_insertMany_of_notMem _ _ _ (by simp))
  have hbody : P.parseOrNull text = .object members := rfl
  rw [handleResponse_curSince, if_pos hdisp, hbody, advanceSince_of_find _ hstamp] at hle
  change (200 : Int64) ≤ P.toInt64 d at hle
  rw [hcast] at hle
  exact absurd hle (by decide)

end Audd
