import Audd.LongpollInvariant

/-!
# Exact delivery of a poll

The callbacks of a run are compared with a prefix of the round trips: what they
were given is the list of events, and the error, of that prefix.
-/

namespace Audd

variable (P : Platform)

/-- The event a round trip carries, if `parse_callback` finds one in its body. -/
def eventOf : RoundTrip → Option CallbackEvent
  | .connectionError => none
  | .response httpStatus rawBody _ =>
      if httpStatus < 400 then (parseCallback P rawBody).toOption else none

def matchOf (r : RoundTrip) : Option StreamCallbackMatch :=
  match eventOf P r with
  | some (.matchEvent m) => some m
  | _ => none

def notificationOf (r : RoundTrip) : Option StreamCallbackNotification :=
  match eventOf P r with
  | some (.notificationEvent n) => some n
  | _ => none

/-- The error of a round trip that ends the subscription. -/
def errorOf : RoundTrip → Option Exn
  | .connectionError => none
  | .response httpStatus rawBody requestId =>
      if 400 ≤ httpStatus then some (longpollError httpStatus rawBody requestId) else none

/-! ## The classifier and the decoder agree -/

/-- `parse_callback` accepts only an object that has a notification or a result. -/
theorem parseCallback_ok {raw : String} {ev : CallbackEvent}
    (h : parseCallback P raw = .ok ev) : ∃ members : OrderedMap String Json,
      P.parse raw = .ok (.object members) ∧
        ((members.find? "notification").isSome ∨ (members.find? "result").isSome) := by
  unfold parseCallback at h
  split at h
  · simp at h
  · rename_i members hp
    refine ⟨members, hp, ?_⟩
    unfold parseCallbackObject at h
    split at h
    · simp [*]
    · split at h
      · simp [*]
      · simp at h
  · simp at h

/-- A response below 400 whose body decodes is classified as an event. -/
theorem disposition_of_ok {status : ℤ} {raw : String} {ev : CallbackEvent} (hst : status < 400)
    (h : parseCallback P raw = .ok ev) : disposition P status raw = .event := by
  obtain ⟨members, hparse, hkeys⟩ := parseCallback_ok P h
  have hraw : raw ≠ "" := by
    rintro rfl
    obtain ⟨what, hempty⟩ := P.parse_empty
    simp [hempty] at hparse
  have hnot : ¬(400 ≤ status) := by omega
  rw [disposition, classifyLongpollResponse, if_neg hnot, if_neg (by simpa using hraw), if_neg]
  rintro ⟨-, -, hr, hn⟩
  rcases hkeys with hk | hk <;>
    simp_all [Platform.parseOrNull, Json.contains]

/-- A round trip that carries nothing adds nothing. -/
theorem filterMap_concat_of_none {T : Type} {f : RoundTrip → Option T} {pre : List RoundTrip}
    {r : RoundTrip} (h : f r = none) : (pre ++ [r]).filterMap f = pre.filterMap f := by
  simp [h]

/-- What the worker does next with a response, in terms of what it carries. -/
theorem handleResponse_pc (w : Worker) (status : ℤ) (raw rid : String) :
    (handleResponse P w status raw rid).pc =
      match errorOf (.response status raw rid), eventOf P (.response status raw rid) with
      | some e, _ => .pushingError e
      | none, some ev => .pushing ev (P.parseOrNull raw)
      | none, none => .loopHead := by
  by_cases hst : 400 ≤ status
  · simp [handleResponse, disposition, classifyLongpollResponse, errorOf, hst]
  · have hlt : status < 400 := by omega
    simp only [errorOf, hst, if_false, eventOf, hlt, if_true]
    cases hp : parseCallback P raw with
    | ok ev =>
        simp [handleResponse, disposition_of_ok P hlt hp, hp, Except.toOption]
    | error e =>
        have hne : disposition P status raw ≠ .terminal :=
          fun h => hst ((classifyLongpollResponse_eq_terminal_iff _ _ _).mp h)
        cases hd : disposition P status raw with
        | terminal => exact absurd hd hne
        | skip | keepAlive | event => simp [handleResponse, hd, hp, Except.toOption]

/-! ## The delivered prefix -/

/-- Where the worker is between the prefix that it has passed on and the round
trips that it has completed. Only a `close()` makes it drop one. -/
def Poll.Phase (s : Poll) (pre : List RoundTrip) : WorkerPc → Prop
  | .loopHead => pre.filterMap errorOf = [] ∧
      (s.outcomes = pre ∨ pre <+: s.outcomes ∧ s.closed = true)
  | .requesting | .sleeping => pre.filterMap errorOf = [] ∧ s.outcomes = pre
  | .received status raw rid => pre.filterMap errorOf = [] ∧
      s.outcomes = pre ++ [.response status raw rid]
  | .pushing ev _ => pre.filterMap errorOf = [] ∧
      ∃ r, s.outcomes = pre ++ [r] ∧ eventOf P r = some ev ∧ errorOf r = none
  | .pushingError e => pre.filterMap errorOf = [] ∧
      ∃ r, s.outcomes = pre ++ [r] ∧ eventOf P r = none ∧ errorOf r = some e
  | .closing _ | .stopped => (pre.filterMap errorOf = [] ∧ pre <+: s.outcomes ∧ s.closers ≠ []) ∨
      ∃ before r, pre = before ++ [r] ∧ s.outcomes = pre ∧ before.filterMap errorOf = [] ∧
        (errorOf r).isSome

/-- The queues have accepted what a prefix of the round trips carries. -/
structure Poll.Delivers (s : Poll) (pre : List RoundTrip) : Prop where
  onMatch : s.matchLane.queue.accepted = pre.filterMap (matchOf P)
  onNotification : s.notificationLane.queue.accepted = pre.filterMap (notificationOf P)
  onError : s.errorQueue.accepted = pre.filterMap errorOf
  phase : s.Phase P pre s.worker.pc

/-- A closed poll was closed by a `close()` or by an error. -/
def Poll.ClosedForCause (s : Poll) : Prop :=
  ∀ stage, s.shut stage = true → s.closers ≠ [] ∨ s.errorQueue.accepted ≠ []

structure Delivery (s : Poll) : Prop where
  threads : Threads s
  cause : s.ClosedForCause
  delivers : ∃ pre, s.Delivers P pre

variable {P} {category : String} {timeout : ℤ} {s s' : Poll}

theorem Moves.closers_ne_nil (h : Moves P category timeout s s') (hs : s.closers ≠ []) :
    s'.closers ≠ [] := by
  cases h with
  | push ev => cases ev <;> exact hs
  | workerClose stage | callerClose stage => cases stage <;> exact hs
  | beginClose => simp
  | closerClose i stage hi => simpa using hs
  | _ => exact hs

/-- What the error queue has accepted stays accepted. -/
theorem Moves.errors_kept (h : Moves P category timeout s s') :
    s.errorQueue.accepted <+: s'.errorQueue.accepted := by
  have hrefl := List.prefix_refl s.errorQueue.accepted
  cases h with
  | push ev => cases ev <;> exact hrefl
  | workerClose stage | callerClose stage | closerClose _ stage => cases stage <;> exact hrefl
  | pushError e =>
      simp only [TracedQueue.push_accepted]
      split
      · exact hrefl
      · exact List.prefix_append _ _
  | pullError e q hq | pullNoError q hq => exact (TracedQueue.pull_spec hq).1 ▸ hrefl
  | _ => exact hrefl

/-- A thread that is about to close something was told to, or there is an error. -/
theorem Delivery.closing_cause (hs : Delivery P s) {stage : CloseStage}
    (ha : s.AtStage (some stage)) : s.closers ≠ [] ∨ s.errorQueue.accepted ≠ [] := by
  cases ha with
  | worker hpc =>
      obtain ⟨pre, hd⟩ := hs.delivers
      have hphase := hd.phase
      simp only [hpc, Poll.Phase] at hphase
      rcases hphase with ⟨-, -, hcl⟩ | ⟨before, r, rfl, -, -, hr⟩
      · exact .inl hcl
      · obtain ⟨e, he⟩ := Option.isSome_iff_exists.mp hr
        exact .inr (by simp [hd.onError, he])
  | caller hca =>
      have hcaller := hs.threads.caller
      simp only [Poll.CallerExact, hca] at hcaller
      obtain ⟨e, hret, -⟩ := hcaller
      exact .inr (by simp [s.errorQueue.fifo, hret])
  | closer hmem => exact .inl (List.ne_nil_of_mem hmem)

theorem Delivery.cause_step (hs : Delivery P s) (h : Moves P category timeout s s') :
    s'.ClosedForCause := by
  intro stage hshut
  have hcause : s.closers ≠ [] ∨ s.errorQueue.accepted ≠ [] := by
    rcases h.shut with heq | ⟨next, ha, -⟩
    · exact hs.cause stage (heq stage ▸ hshut)
    · exact hs.closing_cause ha
  exact hcause.imp h.closers_ne_nil h.errors_kept.ne_nil

/-- A step of another thread keeps the worker's place. -/
theorem Poll.Phase.frame {pre : List RoundTrip} {pc : WorkerPc} (hp : s.Phase P pre pc)
    (ho : s'.outcomes = s.outcomes) (hc : s.closed = true → s'.closed = true)
    (hcl : s.closers ≠ [] → s'.closers ≠ []) : s'.Phase P pre pc := by
  cases pc with
  | loopHead =>
      refine ⟨hp.1, ?_⟩
      rw [ho]
      exact hp.2.imp_right fun h => ⟨h.1, hc h.2⟩
  | requesting | sleeping | received | pushing | pushingError =>
      simp only [Poll.Phase, ho] at hp ⊢
      exact hp
  | closing | stopped =>
      simp only [Poll.Phase, ho] at hp ⊢
      exact hp.imp_left fun h => ⟨h.1, h.2.1, hcl h.2.2⟩

theorem Poll.Delivers.frame {pre : List RoundTrip} (hd : s.Delivers P pre)
    (h : Moves P category timeout s s') (hw : s'.worker.pc = s.worker.pc)
    (ho : s'.outcomes = s.outcomes)
    (hm : s'.matchLane.queue.accepted = s.matchLane.queue.accepted)
    (hn : s'.notificationLane.queue.accepted = s.notificationLane.queue.accepted)
    (he : s'.errorQueue.accepted = s.errorQueue.accepted) : s'.Delivers P pre where
  onMatch := hm ▸ hd.onMatch
  onNotification := hn ▸ hd.onNotification
  onError := he ▸ hd.onError
  phase := hw ▸ hd.phase.frame ho (h.shut_mono .setFlag) h.closers_ne_nil

/-- A queue that is closed before its event arrives was closed by a `close()`. -/
theorem Delivery.closers_of_shut (hs : Delivery P s) (stage : CloseStage)
    (hshut : s.shut stage = true) (herr : s.errorQueue.accepted = []) :
    s.closed = true ∧ s.closers ≠ [] := by
  refine ⟨?_, (hs.cause stage hshut).resolve_right (by simp [herr])⟩
  cases stage with
  | setFlag => exact hshut
  | closeMatches | closeNotifications | closeErrors =>
      exact hs.threads.order.order _ hshut .setFlag (by simp [CloseStage.next, CloseStage.passed])

/-- The push of an event extends the prefix, unless its queue is closed. -/
theorem Delivery.push_step (hs : Delivery P s) {ev : CallbackEvent} {body : Json}
    (hpc : s.worker.pc = .pushing ev body) (w : Worker) (hw : w.pc = .loopHead) :
    ∃ pre, Poll.Delivers P { s.pushEvent ev with worker := w } pre := by
  obtain ⟨pre, hd⟩ := hs.delivers
  have hphase := hd.phase
  simp only [hpc, Poll.Phase] at hphase
  obtain ⟨hnone, r, hout, hev, herr⟩ := hphase
  have hshut : ∀ stage, s.shut stage = true → s.closed = true :=
    fun stage h => (hs.closers_of_shut stage h (hd.onError.trans hnone)).1
  have hpre : pre <+: s.outcomes := hout ▸ List.prefix_append pre [r]
  have herrs : (pre ++ [r]).filterMap errorOf = [] := (filterMap_concat_of_none herr).trans hnone
  cases ev with
  | matchEvent m =>
      have hm : (pre ++ [r]).filterMap (matchOf P) = pre.filterMap (matchOf P) ++ [m] := by
        simp [matchOf, hev]
      have hn : (pre ++ [r]).filterMap (notificationOf P) = pre.filterMap (notificationOf P) :=
        filterMap_concat_of_none (by simp [notificationOf, hev])
      by_cases hc : s.matchLane.queue.queue.closed = true
      · refine ⟨pre, ?_, hd.onNotification, hd.onError, ?_⟩
        · simp [Poll.pushEvent, Lane.push, TracedQueue.push_accepted, hc, hd.onMatch]
        · simp only [hw]
          exact ⟨hnone, .inr ⟨hpre, hshut .closeMatches hc⟩⟩
      · refine ⟨pre ++ [r], ?_, hn ▸ hd.onNotification, ?_, ?_⟩
        · simp [Poll.pushEvent, Lane.push, TracedQueue.push_accepted, hc, hd.onMatch, hm]
        · exact hd.onError.trans (hnone.trans herrs.symm)
        · simp only [hw]
          exact ⟨herrs, .inl hout⟩
  | notificationEvent n =>
      have hm : (pre ++ [r]).filterMap (matchOf P) = pre.filterMap (matchOf P) :=
        filterMap_concat_of_none (by simp [matchOf, hev])
      have hn : (pre ++ [r]).filterMap (notificationOf P) =
          pre.filterMap (notificationOf P) ++ [n] := by simp [notificationOf, hev]
      by_cases hc : s.notificationLane.queue.queue.closed = true
      · refine ⟨pre, hd.onMatch, ?_, hd.onError, ?_⟩
        · simp [Poll.pushEvent, Lane.push, TracedQueue.push_accepted, hc, hd.onNotification]
        · simp only [hw]
          exact ⟨hnone, .inr ⟨hpre, hshut .closeNotifications hc⟩⟩
      · refine ⟨pre ++ [r], hm ▸ hd.onMatch, ?_, ?_, ?_⟩
        · simp [Poll.pushEvent, Lane.push, TracedQueue.push_accepted, hc, hd.onNotification, hn]
        · exact hd.onError.trans (hnone.trans herrs.symm)
        · simp only [hw]
          exact ⟨herrs, .inl hout⟩

/-- A response that carries nothing extends the prefix at once. -/
theorem Delivery.handle_step (hs : Delivery P s) {status : ℤ} {raw rid : String}
    (hpc : s.worker.pc = .received status raw rid) :
    ∃ pre, Poll.Delivers P { s with worker := handleResponse P s.worker status raw rid } pre := by
  obtain ⟨pre, hd⟩ := hs.delivers
  have hphase := hd.phase
  simp only [hpc, Poll.Phase] at hphase
  obtain ⟨hnone, hout⟩ := hphase
  have hnext := handleResponse_pc P s.worker status raw rid
  cases herr : errorOf (.response status raw rid) with
  | some e =>
      refine ⟨pre, hd.onMatch, hd.onNotification, hd.onError, ?_⟩
      have hev : eventOf P (.response status raw rid) = none := by
        by_cases hst : 400 ≤ status
        · simp [eventOf, hst]
        · simp [errorOf, hst] at herr
      simp only [hnext, herr]
      exact ⟨hnone, _, hout, hev, herr⟩
  | none =>
      cases hev : eventOf P (.response status raw rid) with
      | some ev =>
          refine ⟨pre, hd.onMatch, hd.onNotification, hd.onError, ?_⟩
          simp only [hnext, herr, hev]
          exact ⟨hnone, _, hout, hev, herr⟩
      | none =>
          refine ⟨pre ++ [.response status raw rid], ?_, ?_, ?_, ?_⟩
          · rw [filterMap_concat_of_none (by simp [matchOf, hev])]
            exact hd.onMatch
          · rw [filterMap_concat_of_none (by simp [notificationOf, hev])]
            exact hd.onNotification
          · rw [filterMap_concat_of_none herr]
            exact hd.onError
          · simp only [hnext, herr, hev]
            exact ⟨(filterMap_concat_of_none herr).trans hnone, .inl hout⟩

/-- A stopped worker has passed on all round trips, unless a `close()` came. -/
theorem Delivery.stop_step (hs : Delivery P s) (hc : s.closed = true) (w : Worker)
    (hw : w.pc = .stopped)
    (hpc : s.worker.pc = .loopHead ∨ s.worker.pc = .sleeping ∨
      ∃ status raw rid, s.worker.pc = .received status raw rid) :
    ∃ pre, Poll.Delivers P { s with worker := w } pre := by
  obtain ⟨pre, hd⟩ := hs.delivers
  have hphase : pre.filterMap errorOf = [] ∧ pre <+: s.outcomes := by
    have h := hd.phase
    rcases hpc with hpc | hpc | ⟨status, raw, rid, hpc⟩ <;> simp only [hpc, Poll.Phase] at h
    · exact ⟨h.1, h.2.elim (fun heq => heq ▸ List.prefix_refl _) And.left⟩
    · exact ⟨h.1, h.2 ▸ List.prefix_refl _⟩
    · exact ⟨h.1, h.2 ▸ List.prefix_append _ _⟩
  have hcl := (hs.closers_of_shut .setFlag hc (hd.onError.trans hphase.1)).2
  refine ⟨pre, hd.onMatch, hd.onNotification, hd.onError, ?_⟩
  simp only [hw]
  exact .inl ⟨hphase.1, hphase.2, hcl⟩

/-- The push of the error ends the prefix, unless the error queue is closed. -/
theorem Delivery.pushError_step (hs : Delivery P s) {e : Exn}
    (hpc : s.worker.pc = .pushingError e) (w : Worker) (hw : w.pc = .closing .setFlag) :
    ∃ pre, Poll.Delivers P { s with errorQueue := s.errorQueue.push e, worker := w } pre := by
  obtain ⟨pre, hd⟩ := hs.delivers
  have hphase := hd.phase
  simp only [hpc, Poll.Phase] at hphase
  obtain ⟨hnone, r, hout, hev, herr⟩ := hphase
  by_cases hc : s.errorQueue.queue.closed = true
  · have hcl := (hs.closers_of_shut .closeErrors hc (hd.onError.trans hnone)).2
    refine ⟨pre, hd.onMatch, hd.onNotification, ?_, ?_⟩
    · simp [TracedQueue.push_accepted, hc, hd.onError]
    · simp only [hw]
      exact .inl ⟨hnone, hout ▸ List.prefix_append _ _, hcl⟩
  · refine ⟨pre ++ [r], ?_, ?_, ?_, ?_⟩
    · simpa [matchOf, hev] using hd.onMatch
    · simpa [notificationOf, hev] using hd.onNotification
    · simp [TracedQueue.push_accepted, hc, hd.onError, herr]
    · simp only [hw]
      exact .inr ⟨pre, r, rfl, hout, hnone, by simp [herr]⟩

theorem Delivery.delivers_step (hs : Delivery P s) (h : Moves P category timeout s s') :
    ∃ pre, s'.Delivers P pre := by
  obtain ⟨pre, hd⟩ := hs.delivers
  have hphase := hd.phase
  have hmv := h
  cases h with
  | stop hc hpc => exact hs.stop_step hc _ rfl hpc
  | handle status raw rid hc hpc => exact hs.handle_step hpc
  | push ev body hpc => exact hs.push_step hpc _ rfl
  | pushError e hpc => exact hs.pushError_step hpc _ rfl
  | send hc hpc =>
      simp only [hpc, Poll.Phase, hc, Bool.false_eq_true, and_false, or_false] at hphase
      exact ⟨pre, hd.onMatch, hd.onNotification, hd.onError, hphase⟩
  | fail hpc =>
      simp only [hpc, Poll.Phase] at hphase
      refine ⟨pre ++ [.connectionError], ?_, ?_, ?_, ?_, ?_⟩
      · rw [filterMap_concat_of_none rfl, hd.onMatch]
      · rw [filterMap_concat_of_none rfl, hd.onNotification]
      · rw [filterMap_concat_of_none rfl, hd.onError]
      · rw [filterMap_concat_of_none rfl, hphase.1]
      · simp [hphase.2]
  | reply status raw rid hpc =>
      simp only [hpc, Poll.Phase] at hphase
      exact ⟨pre, hd.onMatch, hd.onNotification, hd.onError, hphase.1, by simp [hphase.2]⟩
  | wake hc hpc =>
      simp only [hpc, Poll.Phase] at hphase
      exact ⟨pre, hd.onMatch, hd.onNotification, hd.onError, hphase.1, .inl hphase.2⟩
  | workerClose stage pc hpc hnext =>
      simp only [hpc, Poll.Phase] at hphase
      subst hnext
      cases stage <;> exact ⟨pre, hd.onMatch, hd.onNotification, hd.onError, hphase⟩
  | matchPump l hl =>
      exact ⟨pre, hd.frame hmv rfl rfl (Lane.pumpStep_pumps hl).queue.2 rfl rfl⟩
  | notificationPump l hl =>
      exact ⟨pre, hd.frame hmv rfl rfl rfl (Lane.pumpStep_pumps hl).queue.2 rfl⟩
  | pullError e q hq | pullNoError q hq =>
      exact ⟨pre, hd.frame hmv rfl rfl rfl rfl (TracedQueue.pull_spec hq).1⟩
  | callerClose stage | closerClose _ stage =>
      cases stage <;> exact ⟨pre, hd.frame hmv rfl rfl rfl rfl rfl⟩
  | deliverError | join | beginClose => exact ⟨pre, hd.frame hmv rfl rfl rfl rfl rfl⟩

theorem Delivery.step (hs : Delivery P s) (h : Moves P category timeout s s') :
    Delivery P s' where
  threads := hs.threads.step h
  cause := hs.cause_step h
  delivers := hs.delivers_step h

/-- The invariant holds in every state of every run. -/
theorem delivery_of_reachable {opts : LongpollOptions}
    (h : (startLongpoll P category opts).Reachable s) : Delivery P s := by
  apply h.invariant
  · refine ⟨Threads.initial _ rfl, ?_, [], rfl, rfl, rfl, rfl, .inl rfl⟩
    intro stage hshut
    cases stage <;> simp [startLongpoll, Poll.shut] at hshut
  · intro a t t' ht hstep
    exact ht.step (pollStep_moves hstep)

/-- The prefix is one of the round trips, with an error only at its end. -/
theorem Poll.Phase.shape {pre : List RoundTrip} {pc : WorkerPc} (hp : s.Phase P pre pc) :
    pre <+: s.outcomes ∧ (∀ r ∈ pre.dropLast, errorOf r = none) ∧
      (pre.filterMap errorOf ≠ [] → s.outcomes = pre) := by
  have hquiet : pre.filterMap errorOf = [] → ∀ r ∈ pre.dropLast, errorOf r = none :=
    fun h r hr => List.filterMap_eq_nil_iff.mp h r (List.mem_of_mem_dropLast hr)
  cases pc with
  | loopHead =>
      refine ⟨hp.2.elim (fun h => h ▸ List.prefix_refl _) And.left, hquiet hp.1, ?_⟩
      exact fun h => absurd hp.1 h
  | requesting | sleeping =>
      exact ⟨hp.2 ▸ List.prefix_refl _, hquiet hp.1, fun h => absurd hp.1 h⟩
  | received =>
      exact ⟨hp.2 ▸ List.prefix_append _ _, hquiet hp.1, fun h => absurd hp.1 h⟩
  | pushing | pushingError =>
      obtain ⟨hnone, r, hout, -⟩ := hp
      exact ⟨hout ▸ List.prefix_append _ _, hquiet hnone, fun h => absurd hnone h⟩
  | closing | stopped =>
      rcases hp with ⟨hnone, hpre, -⟩ | ⟨before, r, rfl, hout, hnone, -⟩
      · exact ⟨hpre, hquiet hnone, fun h => absurd hnone h⟩
      · refine ⟨hout ▸ List.prefix_refl _, ?_, fun _ => hout⟩
        rw [List.dropLast_concat]
        exact fun r hr => List.filterMap_eq_nil_iff.mp hnone r hr

/-- A list with an error only at its end has the error of its end. -/
theorem filterMap_errorOf_eq {pre : List RoundTrip}
    (h : ∀ r ∈ pre.dropLast, errorOf r = none) :
    pre.filterMap errorOf = (pre.getLast?.bind errorOf).toList := by
  rcases List.eq_nil_or_concat pre with rfl | ⟨before, r, rfl⟩
  · rfl
  · rw [List.concat_eq_append] at h ⊢
    rw [List.dropLast_concat] at h
    rw [List.filterMap_append, List.filterMap_eq_nil_iff.mpr h, List.nil_append,
      List.getLast?_concat, Option.bind_some]
    cases he : errorOf r <;> simp [he]

/-- In every interleaving, when `run` returns it has delivered a prefix of the
round trips: the events of its responses below 400, each kind in order, and the
error of its last response if that is 400 or above. Without a `close()` the
prefix is all the round trips and it ends in an error. -/
theorem run_delivers_prefix (P : Platform) (category : String) (opts : LongpollOptions) (s : Poll)
    (h : (startLongpoll P category opts).Reachable s) (hreturned : s.caller = .returned) :
    ∃ pre, pre <+: s.outcomes ∧
      s.matchLane.calls = pre.filterMap (matchOf P) ∧
      s.notificationLane.calls = pre.filterMap (notificationOf P) ∧
      s.onError = (pre.getLast?.bind errorOf).toList ∧
      (∀ r ∈ pre.dropLast, errorOf r = none) ∧
      (s.closers = [] → pre = s.outcomes ∧ (pre.getLast?.bind errorOf).isSome) := by
  have hs := delivery_of_reachable h
  obtain ⟨pre, hd⟩ := hs.delivers
  obtain ⟨hm, hn, hon, hshut⟩ := hs.threads.returned hreturned
  obtain ⟨hpre, hquiet, hwhole⟩ := hd.phase.shape
  have herrs := hd.onError.trans (filterMap_errorOf_eq hquiet)
  refine ⟨pre, hpre, hm.trans hd.onMatch, hn.trans hd.onNotification, ?_, hquiet, ?_⟩
  · rw [hon, herrs]
    cases pre.getLast?.bind errorOf <;> rfl
  · intro hopen
    have hne := (hs.cause .setFlag (hshut _)).resolve_left (by simp [hopen])
    refine ⟨(hwhole (hd.onError ▸ hne)).symm, ?_⟩
    · cases he : pre.getLast?.bind errorOf with
      | none => simp [herrs, he] at hne
      | some e => rfl

/-- A connection error, a notification and a server error, in a run that returns. -/
theorem run_delivers_prefix_notification :
    let body := Json.object (.ofList [("notification",
      .object (.ofList [("notification_code", .numberUnsigned 650)]))])
    let text := "\x7b\"notification\":\x7b\"notification_code\":650\x7d\x7d"
    let P := Platform.ofTable [(text, body)]
    ∃ s, (startLongpoll P "0123abcde" {}).Reachable s ∧ s.caller = .returned ∧
      s.outcomes.length = 3 ∧ s.notificationLane.calls.length = 1 ∧
      ∃ pre, pre <+: s.outcomes ∧
        s.matchLane.calls = pre.filterMap (matchOf P) ∧
        s.notificationLane.calls = pre.filterMap (notificationOf P) ∧
        s.onError = (pre.getLast?.bind errorOf).toList ∧
        (∀ r ∈ pre.dropLast, errorOf r = none) ∧
        (s.closers = [] → pre = s.outcomes ∧ (pre.getLast?.bind errorOf).isSome) := by
  intro body text P
  let actions : List PollAction :=
    [.worker .connectionError, .worker .connectionError, .worker .connectionError,
      .worker .connectionError, .worker (.response 200 text "r1"), .worker .connectionError,
      .worker .connectionError, .worker .connectionError, .worker (.response 502 "" "r2"),
      .worker .connectionError, .worker .connectionError, .caller, .caller,
      .worker .connectionError, .worker .connectionError, .notificationPump, .notificationPump,
      .caller, .caller, .caller, .caller, .matchPump, .notificationPump, .caller]
  obtain ⟨s, hrun, hret, hlen, hcalls⟩ : ∃ s,
      (startLongpoll P "0123abcde" {}).runFrom actions (startLongpoll P "0123abcde" {}).start =
        some s ∧ s.caller = .returned ∧ s.outcomes.length = 3 ∧
        s.notificationLane.calls.length = 1 := ⟨_, rfl, rfl, rfl, rfl⟩
  have hs := Transition.Reachable.start.runFrom _ hrun
  exact ⟨s, hs, hret, hlen, hcalls, run_delivers_prefix P _ _ s hs hret⟩

end Audd
