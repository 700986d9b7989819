import Audd.LongpollDelivery

/-!
# Consumers of a poll

The other way to read a poll: instead of `run`, any threads call `next_match`,
`next_notification` and `next_error`, also several of one kind. What they are given is
compared with the round trips through the poll that nobody reads.

## Implementation notes

The values that the calls of one kind returned, in the order of their steps, are what its
queue has returned. A call that waits is no step.
-/

namespace Audd

namespace TracedQueue

variable {T : Type}

/-- The queue as if nothing had been pulled. -/
def unpulled (t : TracedQueue T) : TracedQueue T where
  queue := { t.queue with items := t.accepted }
  accepted := t.accepted
  returned := []
  fifo := rfl

theorem unpulled_push (t : TracedQueue T) (v : T) : (t.push v).unpulled = t.unpulled.push v := by
  by_cases hc : t.queue.closed = true <;> simp [unpulled, push, DemuxQueue.push, hc]

theorem unpulled_pull {t t' : TracedQueue T} {r : Option T} (h : t.pull = some (r, t')) :
    t'.unpulled = t.unpulled := by
  obtain ⟨haccepted, hclosed, -, -⟩ := pull_spec h
  simp only [unpulled, haccepted, hclosed]

/-- A pull returns no value. -/
def Exhausted (t : TracedQueue T) : Prop := ∃ t', t.pull = some (none, t')

theorem returned_prefix (t : TracedQueue T) : t.returned <+: t.accepted :=
  ⟨t.queue.items, t.fifo.symm⟩

theorem Exhausted.returned {t : TracedQueue T} (h : t.Exhausted) :
    t.returned = t.accepted ∧ t.queue.closed = true := by
  obtain ⟨t', hpull⟩ := h
  obtain ⟨-, -, -, hnone⟩ := pull_spec hpull
  obtain ⟨-, hitems, hclosed⟩ := hnone rfl
  exact ⟨t.returned_eq_of_items hitems, hclosed⟩

end TracedQueue

inductive ConsumerAction
  | worker (outcome : RoundTrip)
  | nextMatch
  | nextNotification
  | nextError
  | beginClose
  | closer (i : ℕ)

section
variable (P : Platform) (category : String)

def consumerStep (timeout : ℤ) : ConsumerAction → Poll → Option Poll
  | .worker outcome, s => workerStep P category timeout outcome s
  | .nextMatch, s => s.matchLane.queue.pull.map fun r =>
      { s with matchLane := { s.matchLane with queue := r.2 } }
  | .nextNotification, s => s.notificationLane.queue.pull.map fun r =>
      { s with notificationLane := { s.notificationLane with queue := r.2 } }
  | .nextError, s => s.errorQueue.pull.map fun r => { s with errorQueue := r.2 }
  | .beginClose, s => pollStep P category timeout .beginClose s
  | .closer i, s => pollStep P category timeout (.closer i) s

/-- The threads of a poll on which `run` is not called. -/
def consumers (opts : LongpollOptions) : Transition Poll ConsumerAction where
  start := (startLongpoll P category opts).start
  step := consumerStep P category
    (if opts.timeoutSeconds ≤ 0 then 50 else opts.timeoutSeconds)

end

variable {P : Platform} {category : String} {timeout : ℤ} {s s' : Poll}

/-! ## The poll that nobody reads -/

/-- The poll as if nothing had been pulled from its queues. -/
def Poll.unpulled (s : Poll) : Poll :=
  { s with
    matchLane := { s.matchLane with queue := s.matchLane.queue.unpulled }
    notificationLane := { s.notificationLane with queue := s.notificationLane.queue.unpulled }
    errorQueue := s.errorQueue.unpulled }

theorem Poll.unpulled_pushEvent (s : Poll) (ev : CallbackEvent) :
    (s.pushEvent ev).unpulled = s.unpulled.pushEvent ev := by
  cases ev with
  | matchEvent m =>
      simp only [Poll.unpulled, Poll.pushEvent, Lane.push, TracedQueue.unpulled_push]
  | notificationEvent n =>
      simp only [Poll.unpulled, Poll.pushEvent, Lane.push, TracedQueue.unpulled_push]

theorem Poll.unpulled_closeAt (s : Poll) (stage : CloseStage) :
    (s.closeAt stage).unpulled = s.unpulled.closeAt stage := by
  cases stage <;> rfl

/-- The worker does not see what was pulled. -/
theorem workerStep_unpulled (o : RoundTrip) (s : Poll) :
    workerStep P category timeout o s.unpulled =
      (workerStep P category timeout o s).map Poll.unpulled := by
  have hworker : s.unpulled.worker = s.worker := rfl
  have hclosed : s.unpulled.closed = s.closed := rfl
  unfold workerStep
  rw [hworker, hclosed]
  cases s.worker.pc with
  | loopHead | sleeping | received => cases s.closed <;> rfl
  | requesting => rfl
  | pushing ev body =>
      dsimp only
      rw [← Poll.unpulled_pushEvent]
      rfl
  | pushingError e =>
      have hqueue : s.unpulled.errorQueue = s.errorQueue.unpulled := rfl
      dsimp only
      rw [hqueue, ← TracedQueue.unpulled_push]
      rfl
  | closing stage => cases stage <;> rfl
  | stopped => rfl

theorem consumerStep_unpulled {a : ConsumerAction}
    (h : consumerStep P category timeout a s = some s') :
    s'.unpulled = s.unpulled ∨
      ∃ b, pollStep P category timeout b s.unpulled = some s'.unpulled := by
  cases a with
  | worker o =>
      refine .inr ⟨.worker o, ?_⟩
      change workerStep P category timeout o s.unpulled = _
      rw [workerStep_unpulled, show workerStep P category timeout o s = some s' from h,
        Option.map_some]
  | nextMatch =>
      obtain ⟨⟨r, q⟩, hpull, rfl⟩ := Option.map_eq_some_iff.mp h
      left
      simp only [Poll.unpulled, TracedQueue.unpulled_pull hpull]
  | nextNotification =>
      obtain ⟨⟨r, q⟩, hpull, rfl⟩ := Option.map_eq_some_iff.mp h
      left
      simp only [Poll.unpulled, TracedQueue.unpulled_pull hpull]
  | nextError =>
      obtain ⟨⟨r, q⟩, hpull, rfl⟩ := Option.map_eq_some_iff.mp h
      left
      simp only [Poll.unpulled, TracedQueue.unpulled_pull hpull]
  | beginClose =>
      cases h
      exact .inr ⟨.beginClose, rfl⟩
  | closer i =>
      refine .inr ⟨.closer i, ?_⟩
      have hclosers : s.unpulled.closers = s.closers := rfl
      simp only [consumerStep, pollStep] at h
      simp only [pollStep, hclosers]
      split at h
      · cases h
        rw [← Poll.unpulled_closeAt]
        rfl
      · cases h

theorem unpulled_reachable {opts : LongpollOptions} (h : (consumers P category opts).Reachable s) :
    (startLongpoll P category opts).Reachable s.unpulled := by
  refine Transition.Reachable.refines (f := Poll.unpulled) rfl ?_ h
  intro a s s' hstep
  exact consumerStep_unpulled hstep

/-- However the consumers call, they are given what a prefix of the round trips carries:
the matches and the notifications of its responses, each once and in order, and the error
of its last response. A call that returns no value has nothing left to return, and without
a `close()` the prefix is then all the round trips and ends in an error. -/
theorem consumers_are_given_prefix {opts : LongpollOptions}
    (h : (consumers P category opts).Reachable s) :
    ∃ pre, pre <+: s.outcomes ∧ (∀ r ∈ pre.dropLast, errorOf r = none) ∧
      s.matchLane.queue.returned <+: pre.filterMap (matchOf P) ∧
      s.notificationLane.queue.returned <+: pre.filterMap (notificationOf P) ∧
      s.errorQueue.returned <+: (pre.getLast?.bind errorOf).toList ∧
      (s.matchLane.queue.Exhausted →
        s.matchLane.queue.returned = pre.filterMap (matchOf P)) ∧
      (s.notificationLane.queue.Exhausted →
        s.notificationLane.queue.returned = pre.filterMap (notificationOf P)) ∧
      (s.errorQueue.Exhausted → s.errorQueue.returned = (pre.getLast?.bind errorOf).toList) ∧
      (s.matchLane.queue.Exhausted ∨ s.notificationLane.queue.Exhausted ∨
          s.errorQueue.Exhausted → s.closers = [] →
        pre = s.outcomes ∧ (pre.getLast?.bind errorOf).isSome) := by
  have hs := delivery_of_reachable (unpulled_reachable h)
  obtain ⟨pre, hd⟩ := hs.delivers
  obtain ⟨hpre, hquiet, hwhole⟩ := hd.phase.shape
  have hmatches : s.matchLane.queue.accepted = pre.filterMap (matchOf P) := hd.onMatch
  have hnotifications : s.notificationLane.queue.accepted = pre.filterMap (notificationOf P) :=
    hd.onNotification
  have herrors : s.errorQueue.accepted = (pre.getLast?.bind errorOf).toList :=
    hd.onError.trans (filterMap_errorOf_eq hquiet)
  have hended : ∀ stage, s.unpulled.shut stage = true → s.closers = [] →
      pre = s.outcomes ∧ (pre.getLast?.bind errorOf).isSome := by
    intro stage hshut hopen
    have hne : s.errorQueue.accepted ≠ [] := by
      rcases hs.cause stage hshut with hclosers | herror
      · exact absurd hopen hclosers
      · exact herror
    refine ⟨(hwhole (hd.onError ▸ hne)).symm, ?_⟩
    rw [herrors] at hne
    cases he : pre.getLast?.bind errorOf with
    | none => simp [he] at hne
    | some e => rfl
  refine ⟨pre, hpre, hquiet, ?_, ?_, ?_, ?_, ?_, ?_, ?_⟩
  · exact hmatches ▸ s.matchLane.queue.returned_prefix
  · exact hnotifications ▸ s.notificationLane.queue.returned_prefix
  · exact herrors ▸ s.errorQueue.returned_prefix
  · exact fun hall => hall.returned.1.trans hmatches
  · exact fun hall => hall.returned.1.trans hnotifications
  · exact fun hall => hall.returned.1.trans herrors
  · rintro (hall | hall | hall)
    · exact hended .closeMatches hall.returned.2
    · exact hended .closeNotifications hall.returned.2
    · exact hended .closeErrors hall.returned.2

/-- A notification is pulled before the error comes, and then all three kinds run dry. -/
theorem consumers_are_given_prefix_notification :
    let body := Json.object (.ofList [("notification",
      .object (.ofList [("notification_code", .numberUnsigned 650)]))])
    let text := "\x7b\"notification\":\x7b\"notification_code\":650\x7d\x7d"
    let P := Platform.ofTable [(text, body)]
    ∃ s, (consumers P "0123abcde" {}).Reachable s ∧
      s.notificationLane.queue.returned.length = 1 ∧ s.errorQueue.returned.length = 1 ∧
      s.matchLane.queue.returned = s.outcomes.filterMap (matchOf P) ∧
      s.notificationLane.queue.returned = s.outcomes.filterMap (notificationOf P) := by
  intro body text P
  obtain ⟨s, hrun, hn, he, hopen, hmatch, hnotification⟩ : ∃ s,
      (consumers P "0123abcde" {}).runFrom
        [.worker .connectionError, .worker (.response 200 text "r1"), .worker .connectionError,
          .worker .connectionError, .nextNotification, .worker .connectionError,
          .worker (.response 502 "" "r2"), .worker .connectionError, .worker .connectionError,
          .worker .connectionError, .worker .connectionError, .worker .connectionError,
          .worker .connectionError, .nextMatch, .nextError]
        (consumers P "0123abcde" {}).start = some s ∧
      s.notificationLane.queue.returned.length = 1 ∧ s.errorQueue.returned.length = 1 ∧
      s.closers = [] ∧ s.matchLane.queue.Exhausted ∧ s.notificationLane.queue.Exhausted :=
    ⟨_, rfl, rfl, rfl, rfl, ⟨_, rfl⟩, ⟨_, rfl⟩⟩
  have hs := Transition.Reachable.start.runFrom _ hrun
  obtain ⟨pre, -, -, -, -, -, hmatches, hnotifications, -, hended⟩ := consumers_are_given_prefix hs
  obtain ⟨rfl, -⟩ := hended (.inl hmatch) hopen
  exact ⟨s, hs, hn, he, hmatches hmatch, hnotifications hnotification⟩

end Audd
