import Audd.Lib.Ranking
import Audd.Lib.ThreadList
import Audd.LongpollDelivery

/-!
# The end of a poll

A poll is ending once its flag is set, or its worker is about to set it because of an
error. From there the threads have a bounded number of steps left, whatever their
order: what is left is counted by a rank that every step pays down, and a state in
which no thread can move is one in which all of them are done.
-/

namespace Audd

variable {P : Platform} {category : String} {timeout : ℤ} {s s' : Poll}

/-! ## What is left to do -/

/-- The actions of `close_all` from a stage on. -/
def CloseStage.left : CloseStage → ℕ
  | .setFlag => 4
  | .closeMatches => 3
  | .closeNotifications => 2
  | .closeErrors => 1

/-- The actions that a `close()` call has left. -/
def closerLeft (next : Option CloseStage) : ℕ := (next.map CloseStage.left).getD 0

/-- The steps of the worker of an ending poll. A push leaves an item for a pump, which
takes two more. -/
def WorkerPc.left : WorkerPc → ℕ
  | .loopHead | .sleeping | .received .. => 1
  | .requesting => 2
  | .pushing .. => 4
  | .pushingError _ => 5
  | .closing stage => stage.left
  | .stopped => 0

def Caller.left : Caller → ℕ
  | .pulling => 7
  | .delivering _ => 6
  | .closing stage => stage.left + 1
  | .joining => 1
  | .returned => 0

def Pump.left {T : Type} : Pump T → ℕ
  | .pulling => 1
  | .delivering _ => 2
  | .finished => 0

def Lane.left {T : Type} (l : Lane T) : ℕ := 2 * l.queue.queue.items.length + l.pump.left

/-- The steps that the threads of an ending poll have left. -/
def Poll.left (s : Poll) : ℕ :=
  s.worker.pc.left + s.caller.left + s.matchLane.left + s.notificationLane.left +
    (s.closers.map closerLeft).sum

/-- The flag is set, or the worker is past the error that makes it set the flag. -/
def Poll.Ending (s : Poll) : Prop :=
  s.closed = true ∨ (∃ e, s.worker.pc = .pushingError e) ∨ s.worker.pc = .closing .setFlag

/-- Every thread is done. -/
structure Poll.Finished (s : Poll) : Prop where
  worker : s.worker.pc = .stopped
  caller : s.caller = .returned
  matchPump : s.matchLane.pump = .finished
  notificationPump : s.notificationLane.pump = .finished
  closers : ∀ next ∈ s.closers, next = none

/-! ## One step -/

theorem CloseStage.left_next (stage : CloseStage) : closerLeft stage.next + 1 = stage.left := by
  cases stage <;> rfl

/-- A pull takes the first item. -/
theorem TracedQueue.items_of_pull {T : Type} {t q : TracedQueue T} {v : T}
    (h : t.pull = some (some v, q)) : t.queue.items = v :: q.queue.items := by
  obtain ⟨haccepted, -, hreturned, -⟩ := pull_spec h
  have hfifo := q.fifo
  rw [haccepted, t.fifo, hreturned, List.append_assoc] at hfifo
  exact List.append_cancel_left hfifo

namespace Lane

variable {T : Type} {l l' : Lane T}

theorem left_push (l : Lane T) (v : T) : (l.push v).left ≤ l.left + 2 := by
  by_cases hc : l.queue.queue.closed = true
  · simp [left, push, DemuxQueue.push, hc]
  · simp only [left, push, TracedQueue.push_queue, DemuxQueue.push, hc, Bool.false_eq_true,
      if_false, List.length_append, List.length_singleton]
    omega

theorem left_close (l : Lane T) : l.close.left = l.left := rfl

theorem Pumps.left (h : l.Pumps l') : l'.left + 1 ≤ l.left := by
  cases h with
  | take v q hp hq =>
      simp only [Lane.left, hp, Pump.left, TracedQueue.items_of_pull hq, List.length_cons]
      omega
  | drain q hp hq =>
      obtain ⟨rfl, -, -⟩ := (TracedQueue.pull_spec hq).2.2.2 rfl
      simp only [Lane.left, hp, Pump.left]
      omega
  | callBack v hp =>
      simp only [Lane.left, hp, Pump.left]
      omega

end Lane

theorem sum_set_next {closers : List (Option CloseStage)} {i : ℕ} {stage : CloseStage}
    (hi : closers[i]? = some (some stage)) :
    ((closers.set i stage.next).map closerLeft).sum + 1 = (closers.map closerLeft).sum := by
  have hsum := ThreadList.sum_map_set (f := closerLeft) hi stage.next
  have hnext : closerLeft stage.next + 1 = closerLeft (some stage) := stage.left_next
  omega

/-- An ending poll goes on ending. -/
theorem Moves.ending (h : Moves P category timeout s s') (hs : s.Ending) : s'.Ending := by
  cases h with
  | stop hc | send hc hpc | wake hc hpc | handle status raw rid hc hpc =>
      simp_all [Poll.Ending]
  | fail hpc | reply status raw rid hpc => simp_all [Poll.Ending]
  | push ev body hpc => cases ev <;> simp_all [Poll.Ending, Poll.pushEvent]
  | pushError e hpc => exact .inr (.inr rfl)
  | workerClose stage pc hpc hnext =>
      cases stage with
      | setFlag => exact .inl rfl
      | closeMatches | closeNotifications | closeErrors =>
          simp_all [Poll.Ending, Poll.closeAt]
  | callerClose stage | closerClose _ stage =>
      cases stage with
      | setFlag => exact .inl rfl
      | closeMatches | closeNotifications | closeErrors => exact hs
  | _ => exact hs

/-- A step of an ending poll is one of those that are left, or begins a `close()`. -/
theorem Moves.left (h : Moves P category timeout s s') (hs : s.Ending) :
    s'.left + 1 ≤ s.left ∨ s'.closers = s.closers ++ [some .setFlag] ∧ s'.left = s.left + 4 := by
  cases h with
  | stop hc hpc =>
      left
      rcases hpc with hpc | hpc | ⟨status, raw, rid, hpc⟩ <;>
        simp only [Poll.left, hpc, WorkerPc.left] <;> omega
  | send hc hpc | wake hc hpc | handle status raw rid hc hpc => simp_all [Poll.Ending]
  | fail hpc | reply status raw rid hpc =>
      left
      simp only [Poll.left, hpc, WorkerPc.left]
      omega
  | push ev body hpc =>
      left
      cases ev with
      | matchEvent m =>
          have hpush := s.matchLane.left_push m
          simp only [Poll.left, Poll.pushEvent, hpc, WorkerPc.left]
          omega
      | notificationEvent n =>
          have hpush := s.notificationLane.left_push n
          simp only [Poll.left, Poll.pushEvent, hpc, WorkerPc.left]
          omega
  | pushError e hpc =>
      left
      simp only [Poll.left, hpc, WorkerPc.left, CloseStage.left]
      omega
  | workerClose stage pc hpc hnext =>
      left
      subst hnext
      cases stage <;> simp only [Poll.left, Poll.closeAt, Lane.left_close, hpc, CloseStage.next,
        Option.map_some, Option.map_none, Option.getD_some, Option.getD_none, WorkerPc.left,
        CloseStage.left] <;> omega
  | matchPump l hl | notificationPump l hl =>
      left
      have hpump := (Lane.pumpStep_pumps hl).left
      simp only [Poll.left]
      omega
  | pullError e q hq hca | pullNoError q hq hca =>
      left
      simp only [Poll.left, hca, Caller.left]
      omega
  | deliverError e hca =>
      left
      simp only [Poll.left, hca, Caller.left, CloseStage.left]
      omega
  | callerClose stage caller hca hnext =>
      left
      subst hnext
      cases stage <;> simp only [Poll.left, Poll.closeAt, Lane.left_close, hca, CloseStage.next,
        Option.map_some, Option.map_none, Option.getD_some, Option.getD_none, Caller.left,
        CloseStage.left] <;> omega
  | join hm hn hca =>
      left
      simp only [Poll.left, hca, Caller.left]
      omega
  | beginClose =>
      right
      refine ⟨rfl, ?_⟩
      simp only [Poll.left, List.map_append, List.sum_append, List.map_singleton,
        List.sum_singleton]
      rfl
  | closerClose i stage hi =>
      left
      have hsum := sum_set_next hi
      cases stage <;> simp only [Poll.left, Poll.closeAt, Lane.left_close] <;> omega

/-! ## No thread waits for another one forever -/

/-- Whoever closed one thing is on its way to close the next. -/
def Poll.Continuing (s : Poll) : Prop :=
  ∀ stage next : CloseStage, s.shut stage = true → stage.next = some next →
    s.shut next = true ∨ s.AtStage (some next)

theorem mem_set_of_mem {closers : List (Option CloseStage)} {i : ℕ} {stage st : CloseStage}
    {next : Option CloseStage} (hi : closers[i]? = some (some stage)) (hmem : some st ∈ closers)
    (hne : st ≠ stage) : some st ∈ closers.set i next := by
  obtain ⟨j, hj⟩ := List.mem_iff_getElem?.mp hmem
  have hij : i ≠ j := by
    rintro rfl
    rw [hi] at hj
    exact hne (Option.some.inj (Option.some.inj hj)).symm
  exact List.mem_of_getElem? ((List.getElem?_set_ne hij).trans hj)

/-- A thread stays at its stage of `close_all` until it has closed what is next. -/
theorem Moves.atStage_or_shut (h : Moves P category timeout s s') {stage : CloseStage}
    (ha : s.AtStage (some stage)) : s'.AtStage (some stage) ∨ s'.shut stage = true := by
  cases ha with
  | worker hpc =>
      cases h with
      | stop hc hpc' => simp [hpc] at hpc'
      | send hc hpc' | fail hpc' | reply _ _ _ hpc' | wake hc hpc' | handle _ _ _ hc hpc'
      | push _ _ hpc' | pushError _ hpc' => simp [hpc] at hpc'
      | workerClose stage' pc hpc' =>
          obtain rfl : stage = stage' := WorkerPc.closing.inj (hpc.symm.trans hpc')
          right
          cases stage <;> rfl
      | callerClose stage' | closerClose _ stage' =>
          cases stage' <;> exact .inl (.worker hpc)
      | _ => exact .inl (.worker hpc)
  | caller hca =>
      cases h with
      | push ev => cases ev <;> exact .inl (.caller hca)
      | pullError _ _ _ hca' | pullNoError _ _ hca' | deliverError _ hca' | join _ _ hca' =>
          simp [hca] at hca'
      | callerClose stage' caller hca' =>
          obtain rfl : stage = stage' := Caller.closing.inj (hca.symm.trans hca')
          right
          cases stage <;> rfl
      | workerClose stage' | closerClose _ stage' =>
          cases stage' <;> exact .inl (.caller hca)
      | _ => exact .inl (.caller hca)
  | closer hmem =>
      cases h with
      | push ev => cases ev <;> exact .inl (.closer hmem)
      | beginClose => exact .inl (.closer (List.mem_append_left _ hmem))
      | closerClose i stage' hi =>
          by_cases hst : stage = stage'
          · subst hst
            right
            cases stage <;> rfl
          · exact .inl (.closer (mem_set_of_mem hi hmem hst))
      | workerClose stage' | callerClose stage' =>
          cases stage' <;> exact .inl (.closer hmem)
      | _ => exact .inl (.closer hmem)

theorem Poll.shut_of_closeAt {stage stage' : CloseStage} (hne : stage ≠ stage')
    (h : (s.closeAt stage').shut stage = true) : s.shut stage = true := by
  rwa [Poll.shut_closeAt, decide_eq_false hne, Bool.false_or] at h

/-- What a step closes was closed by a thread that has the next stage before it. -/
theorem Moves.shut_or_advance (h : Moves P category timeout s s') {stage next : CloseStage}
    (hshut : s'.shut stage = true) (hnext : stage.next = some next) :
    s.shut stage = true ∨ s'.AtStage (some next) := by
  cases h with
  | workerClose stage' pc hpc hpc' =>
      by_cases hst : stage = stage'
      · subst hst
        right
        apply Poll.AtStage.worker
        rw [hpc', hnext]
        rfl
      · exact .inl (Poll.shut_of_closeAt hst (by cases stage <;> exact hshut))
  | callerClose stage' caller hca hca' =>
      by_cases hst : stage = stage'
      · subst hst
        right
        apply Poll.AtStage.caller
        rw [hca', hnext]
        rfl
      · exact .inl (Poll.shut_of_closeAt hst (by cases stage <;> exact hshut))
  | closerClose i stage' hi =>
      by_cases hst : stage = stage'
      · subst hst
        right
        apply Poll.AtStage.closer
        rw [← hnext]
        exact List.mem_set (List.getElem?_eq_some_iff.mp hi).1 _
      · exact .inl (Poll.shut_of_closeAt hst (by cases stage <;> exact hshut))
  | push ev =>
      left
      cases ev <;> cases stage <;> simpa [Poll.shut, Poll.pushEvent, Lane.push] using hshut
  | matchPump l hl | notificationPump l hl =>
      have hqueue := (Lane.pumpStep_pumps hl).queue.1
      left
      cases stage <;> simpa [Poll.shut, hqueue] using hshut
  | pullError e q hq | pullNoError q hq =>
      have hqueue := (TracedQueue.pull_spec hq).2.1
      left
      cases stage <;> simpa [Poll.shut, hqueue] using hshut
  | _ =>
      left
      cases stage <;> simpa [Poll.shut] using hshut

theorem Poll.Continuing.step (hs : s.Continuing) (h : Moves P category timeout s s') :
    s'.Continuing := by
  intro stage next hshut hnext
  rcases h.shut_or_advance hshut hnext with hold | hadvance
  · rcases hs stage next hold hnext with hshut' | hat
    · exact .inl (h.shut_mono next hshut')
    · exact (h.atStage_or_shut hat).symm
  · exact .inr hadvance

/-- What holds of an ending poll in every run. -/
structure Poll.Ends (s : Poll) : Prop where
  ending : s.Ending
  continuing : s.Continuing

/-! ## Which thread can move -/

def PollAction.isBeginClose : PollAction → Bool
  | .beginClose => true
  | _ => false

/-- No thread can take a step; only a further `close()` could begin. -/
def Poll.Quiet (P : Platform) (category : String) (timeout : ℤ) (s : Poll) : Prop :=
  ∀ a : PollAction, a.isBeginClose = false → pollStep P category timeout a s = none

theorem Poll.Quiet.worker (h : s.Quiet P category timeout) : s.worker.pc = .stopped := by
  have hstep := h (.worker .connectionError) rfl
  simp only [pollStep, workerStep] at hstep
  cases hpc : s.worker.pc <;> simp_all
  · split at hstep <;> cases hstep
  · split at hstep <;> cases hstep
  · split at hstep <;> cases hstep

theorem Poll.Quiet.closers (h : s.Quiet P category timeout) : ∀ next ∈ s.closers, next = none := by
  intro next hmem
  obtain ⟨i, hi⟩ := List.mem_iff_getElem?.mp hmem
  have hstep := h (.closer i) rfl
  cases next with
  | none => rfl
  | some stage => simp [pollStep, hi] at hstep

/-- A thread that is closing can move. -/
theorem Poll.Quiet.not_atStage (h : s.Quiet P category timeout) (stage : CloseStage) :
    ¬s.AtStage (some stage) := by
  intro ha
  cases ha with
  | worker hpc =>
      rw [h.worker] at hpc
      cases hpc
  | caller hca =>
      have hstep := h .caller rfl
      simp [pollStep, callerStep, hca] at hstep
  | closer hmem => cases h.closers _ hmem

/-- Nobody waits for a closed queue. -/
theorem TracedQueue.pull_ne_none {T : Type} {t : TracedQueue T} (hc : t.queue.closed = true) :
    t.pull ≠ none := by
  unfold TracedQueue.pull
  split <;> simp [hc]

/-- A pump of a closed queue can move until it is finished. -/
theorem Lane.pumpStep_eq_none {T : Type} {l : Lane T} (hc : l.queue.queue.closed = true)
    (h : l.pumpStep = none) : l.pump = .finished := by
  unfold Lane.pumpStep at h
  cases hp : l.pump with
  | pulling =>
      simp only [hp] at h
      split at h
      · cases h
      · cases h
      · exact absurd ‹_› (TracedQueue.pull_ne_none hc)
  | delivering v => simp [hp] at h
  | finished => rfl

/-- In an ending poll that is quiet every thread is done. -/
theorem Poll.Quiet.finished (h : s.Quiet P category timeout) (hs : s.Ends) : s.Finished := by
  have hclosed : s.closed = true := by
    rcases hs.ending with hc | ⟨e, hpc⟩ | hpc
    · exact hc
    · simp [h.worker] at hpc
    · simp [h.worker] at hpc
  have hnext : ∀ stage next : CloseStage, s.shut stage = true → stage.next = some next →
      s.shut next = true := by
    intro stage next hshut hnext
    exact (hs.continuing stage next hshut hnext).resolve_right (h.not_atStage next)
  have hmatches := hnext .setFlag .closeMatches hclosed rfl
  have hnotifications := hnext .closeMatches .closeNotifications hmatches rfl
  have herrors := hnext .closeNotifications .closeErrors hnotifications rfl
  have hm : s.matchLane.pump = .finished :=
    Lane.pumpStep_eq_none hmatches (Option.map_eq_none_iff.mp (h .matchPump rfl))
  have hn : s.notificationLane.pump = .finished :=
    Lane.pumpStep_eq_none hnotifications (Option.map_eq_none_iff.mp (h .notificationPump rfl))
  refine ⟨h.worker, ?_, hm, hn, h.closers⟩
  have hstep : callerStep s = none := h .caller rfl
  unfold callerStep at hstep
  cases hca : s.caller with
  | pulling =>
      simp only [hca] at hstep
      split at hstep
      · cases hstep
      · cases hstep
      · exact absurd ‹_› (TracedQueue.pull_ne_none herrors)
  | delivering e | closing stage => simp [hca] at hstep
  | joining => simp [hca, hm, hn] at hstep
  | returned => rfl

/-! ## Runs of an ending poll -/

/-- A `close()` brings its four actions and the step that begins it. -/
def PollAction.cost (a : PollAction) : ℕ := if a.isBeginClose then 5 else 0

@[simp] theorem Poll.closeAt_closers (s : Poll) (stage : CloseStage) :
    (s.closeAt stage).closers = s.closers := by
  cases stage <;> rfl

@[simp] theorem Poll.pushEvent_closers (s : Poll) (ev : CallbackEvent) :
    (s.pushEvent ev).closers = s.closers := by
  cases ev <;> rfl

theorem workerStep_closers {o : RoundTrip} (h : workerStep P category timeout o s = some s') :
    s'.closers = s.closers := by
  unfold workerStep at h
  cases hpc : s.worker.pc with
  | loopHead | sleeping | received status raw rid =>
      simp only [hpc] at h
      split at h <;> obtain rfl := Option.some.inj h <;> rfl
  | requesting | pushingError e =>
      simp only [hpc] at h
      obtain rfl := Option.some.inj h
      rfl
  | pushing ev body =>
      simp only [hpc] at h
      obtain rfl := Option.some.inj h
      exact s.pushEvent_closers ev
  | closing stage =>
      simp only [hpc] at h
      obtain rfl := Option.some.inj h
      exact s.closeAt_closers stage
  | stopped => simp [hpc] at h

theorem callerStep_closers (h : callerStep s = some s') : s'.closers = s.closers := by
  unfold callerStep at h
  cases hca : s.caller with
  | pulling =>
      simp only [hca] at h
      split at h
      · obtain rfl := Option.some.inj h
        rfl
      · obtain rfl := Option.some.inj h
        rfl
      · cases h
  | delivering e =>
      simp only [hca] at h
      obtain rfl := Option.some.inj h
      rfl
  | closing stage =>
      simp only [hca] at h
      obtain rfl := Option.some.inj h
      exact s.closeAt_closers stage
  | joining =>
      simp only [hca] at h
      split at h
      · obtain rfl := Option.some.inj h
        rfl
      · cases h
  | returned => simp [hca] at h

theorem pollStep_closers {a : PollAction} (h : pollStep P category timeout a s = some s')
    (ha : a.isBeginClose = false) : s'.closers.length = s.closers.length := by
  cases a with
  | worker o => rw [workerStep_closers h]
  | matchPump | notificationPump =>
      obtain ⟨l, -, rfl⟩ := Option.map_eq_some_iff.mp h
      rfl
  | caller => rw [callerStep_closers h]
  | beginClose => cases ha
  | closer i =>
      simp only [pollStep] at h
      split at h
      · obtain rfl := Option.some.inj h
        exact List.length_set
      · cases h

/-- A step of an ending poll takes one from what is left, up to its cost. -/
theorem pollStep_left {a : PollAction} (h : pollStep P category timeout a s = some s')
    (hs : s.Ending) : s'.left + 1 ≤ s.left + a.cost := by
  rcases (pollStep_moves h).left hs with hle | ⟨hclosers, hleft⟩
  · exact hle.trans (Nat.le_add_right _ _)
  · cases ha : a.isBeginClose with
    | true => simp [PollAction.cost, ha, hleft]
    | false =>
        have hlen := pollStep_closers h ha
        simp [hclosers] at hlen

theorem Poll.Ends.step {opts : LongpollOptions} {a : PollAction} (hs : s.Ends)
    (h : (startLongpoll P category opts).step a s = some s') : s'.Ends where
  ending := (pollStep_moves h).ending hs.ending
  continuing := hs.continuing.step (pollStep_moves h)

theorem continuing_of_reachable {opts : LongpollOptions}
    (h : (startLongpoll P category opts).Reachable s) : s.Continuing := by
  apply h.invariant
  · intro stage next hshut
    cases stage <;> simp [startLongpoll, Poll.shut] at hshut
  · intro a t t' ht hstep
    exact ht.step (pollStep_moves hstep)

/-- In an ending poll that is not finished some thread can move. -/
theorem Poll.Ends.exists_step (hs : s.Ends) (hfin : ¬s.Finished) :
    ∃ a s', PollAction.cost a = 0 ∧ pollStep P category timeout a s = some s' := by
  by_contra hnone
  have hquiet : s.Quiet P category timeout := by
    intro a ha
    cases hstep : pollStep P category timeout a s with
    | none => rfl
    | some s' => exact absurd ⟨a, s', by simp [PollAction.cost, ha], hstep⟩ hnone
  exact hfin (hquiet.finished hs)

theorem Poll.Finished.quiet (h : s.Finished) : s.Quiet P category timeout := by
  intro a ha
  cases a with
  | worker o => simp [pollStep, workerStep, h.worker]
  | matchPump => simp [pollStep, Lane.pumpStep, h.matchPump]
  | notificationPump => simp [pollStep, Lane.pumpStep, h.notificationPump]
  | caller => simp [pollStep, callerStep, h.caller]
  | beginClose => cases ha
  | closer i =>
      cases hi : s.closers[i]? with
      | none => simp [pollStep, hi]
      | some next =>
          obtain rfl := h.closers next (List.mem_of_getElem? hi)
          simp [pollStep, hi]

/-- A poll that is closed, or whose worker met an error, winds down whatever the order
of the threads: every run is shorter than what was left plus five steps for each further
`close()`, the threads stop only when all of them are done, and they can always get
there without anybody's help. -/
theorem ending_poll_finishes {opts : LongpollOptions} {actions : List PollAction}
    (h : (startLongpoll P category opts).Reachable s) (hs : s.Ending)
    (hrun : (startLongpoll P category opts).runFrom actions s = some s') :
    actions.length + s'.left ≤ s.left + 5 * actions.countP PollAction.isBeginClose ∧
      ((∀ a, a.isBeginClose = false → (startLongpoll P category opts).step a s' = none) ↔
        s'.Finished) ∧
      ∃ rest s'', (∀ a ∈ rest, a.isBeginClose = false) ∧
        (startLongpoll P category opts).runFrom rest s' = some s'' ∧ s''.Finished := by
  have hends : s.Ends := ⟨hs, continuing_of_reachable h⟩
  have hstep : ∀ a t t', t.Ends → (startLongpoll P category opts).step a t = some t' → t'.Ends :=
    fun a t t' ht => ht.step
  have hrank : ∀ a t t', t.Ends → (startLongpoll P category opts).step a t = some t' →
      t'.left + 1 ≤ t.left + a.cost := fun a t t' ht hstep => pollStep_left hstep ht.ending
  have hends' : s'.Ends := Transition.runFrom_invariant hstep hends hrun
  refine ⟨?_, ⟨fun hquiet => Poll.Quiet.finished hquiet hends', Poll.Finished.quiet⟩, ?_⟩
  · rw [← Transition.sum_map_cost]
    exact Transition.length_add_rank_le hstep hrank hends hrun
  · obtain ⟨rest, s'', hfree, hrest, hfin⟩ := Transition.exists_runFrom_done hstep hrank
      (fun t ht hdone => ht.exists_step hdone) hends'
    refine ⟨rest, s'', fun a ha => ?_, hrest, hfin⟩
    have hcost := hfree a ha
    cases hbegin : a.isBeginClose with
    | false => rfl
    | true => simp [PollAction.cost, hbegin] at hcost

/-- A poll that is closed while its request is out has at most thirteen steps left
after the response. -/
theorem ending_poll_finishes_requesting :
    let poll := startLongpoll (Platform.ofTable []) "0123abcde" {}
    ∃ s s', poll.Reachable s ∧ s.worker.pc = .requesting ∧ s.closed = true ∧
      poll.runFrom [.worker (.response 200 "" "")] s = some s' ∧ s'.left = 13 ∧
      ∃ rest s'', (∀ a ∈ rest, a.isBeginClose = false) ∧ poll.runFrom rest s' = some s'' ∧
        s''.Finished := by
  intro poll
  obtain ⟨s, hstart, hpc, hclosed, s', hrun, hleft⟩ : ∃ s,
      poll.runFrom [.worker .connectionError, .beginClose, .closer 0] poll.start = some s ∧
        s.worker.pc = .requesting ∧ s.closed = true ∧
        ∃ s', poll.runFrom [.worker (.response 200 "" "")] s = some s' ∧ s'.left = 13 :=
    ⟨_, rfl, rfl, rfl, _, rfl, rfl⟩
  have hs := Transition.Reachable.start.runFrom _ hstart
  exact ⟨s, s', hs, hpc, hclosed, hrun, hleft,
    (ending_poll_finishes hs (.inl hclosed) hrun).2.2⟩

/-! ## What an ending poll still does -/

/-- The events of a kind that the worker has decoded and not yet pushed. -/
def WorkerPc.heldMatches : WorkerPc → List StreamCallbackMatch
  | .pushing (.matchEvent m) _ => [m]
  | _ => []

def WorkerPc.heldNotifications : WorkerPc → List StreamCallbackNotification
  | .pushing (.notificationEvent n) _ => [n]
  | _ => []

def WorkerPc.heldErrors : WorkerPc → List Exn
  | .pushingError e => [e]
  | _ => []

def WorkerPc.inFlight : WorkerPc → ℕ
  | .requesting => 1
  | _ => 0

/-- From `s` to `s'` nothing is asked, and nothing is queued that was not in hand. -/
structure Poll.WindsDown (s s' : Poll) : Prop where
  requests : s'.requests = s.requests
  outcomes : s'.outcomes.length + s'.worker.pc.inFlight ≤
    s.outcomes.length + s.worker.pc.inFlight
  matchEvents : s'.matchLane.queue.accepted ++ s'.worker.pc.heldMatches <+:
    s.matchLane.queue.accepted ++ s.worker.pc.heldMatches
  notifications : s'.notificationLane.queue.accepted ++ s'.worker.pc.heldNotifications <+:
    s.notificationLane.queue.accepted ++ s.worker.pc.heldNotifications
  errors : s'.errorQueue.accepted ++ s'.worker.pc.heldErrors <+:
    s.errorQueue.accepted ++ s.worker.pc.heldErrors

/-- A step that asks for nothing, queues nothing and lets nothing go. -/
theorem Poll.WindsDown.frame (hpc : s'.worker.pc = s.worker.pc) (hreq : s'.requests = s.requests)
    (hout : s'.outcomes = s.outcomes)
    (hm : s'.matchLane.queue.accepted = s.matchLane.queue.accepted)
    (hn : s'.notificationLane.queue.accepted = s.notificationLane.queue.accepted)
    (he : s'.errorQueue.accepted = s.errorQueue.accepted) : s.WindsDown s' where
  requests := hreq
  outcomes := by rw [hout, hpc]
  matchEvents := by rw [hm, hpc]
  notifications := by rw [hn, hpc]
  errors := by rw [he, hpc]

theorem Poll.WindsDown.trans {s'' : Poll} (h : s.WindsDown s') (h' : s'.WindsDown s'') :
    s.WindsDown s'' where
  requests := h'.requests.trans h.requests
  outcomes := h'.outcomes.trans h.outcomes
  matchEvents := h'.matchEvents.trans h.matchEvents
  notifications := h'.notifications.trans h.notifications
  errors := h'.errors.trans h.errors

/-- What a push leaves in the queue was in hand. -/
theorem TracedQueue.push_accepted_le {T : Type} (t : TracedQueue T) (v : T) :
    (t.push v).accepted <+: t.accepted ++ [v] := by
  rw [TracedQueue.push_accepted]
  split
  · exact List.prefix_append _ _
  · exact List.prefix_refl _

theorem Moves.windsDown (h : Moves P category timeout s s') (hs : s.Ending) : s.WindsDown s' := by
  cases h with
  | stop hc hpc =>
      refine ⟨rfl, ?_, ?_, ?_, ?_⟩
      · exact Nat.add_le_add_left (Nat.zero_le _) _
      all_goals
        exact (List.append_nil _).symm ▸ List.prefix_append _ _
  | send hc hpc | wake hc hpc | handle status raw rid hc hpc => simp_all [Poll.Ending]
  | fail hpc | reply status raw rid hpc =>
      refine ⟨rfl, ?_, ?_, ?_, ?_⟩
      · simp [hpc, WorkerPc.inFlight]
      all_goals
        rw [hpc]
        exact List.prefix_refl _
  | push ev body hpc =>
      cases ev with
      | matchEvent m =>
          refine ⟨rfl, by rw [hpc]; exact le_rfl, ?_, ?_, ?_⟩
          · rw [hpc]
            exact (List.append_nil _).symm ▸ s.matchLane.queue.push_accepted_le m
          all_goals
            rw [hpc]
            exact List.prefix_refl _
      | notificationEvent n =>
          refine ⟨rfl, by rw [hpc]; exact le_rfl, ?_, ?_, ?_⟩
          · rw [hpc]
            exact List.prefix_refl _
          · rw [hpc]
            exact (List.append_nil _).symm ▸ s.notificationLane.queue.push_accepted_le n
          · rw [hpc]
            exact List.prefix_refl _
  | pushError e hpc =>
      refine ⟨rfl, by rw [hpc]; exact le_rfl, ?_, ?_, ?_⟩
      · rw [hpc]
        exact List.prefix_refl _
      · rw [hpc]
        exact List.prefix_refl _
      · rw [hpc]
        exact (List.append_nil _).symm ▸ s.errorQueue.push_accepted_le e
  | workerClose stage pc hpc hnext =>
      subst hnext
      cases stage <;> refine ⟨rfl, ?_, ?_, ?_, ?_⟩ <;> rw [hpc] <;>
        first | exact le_rfl | exact List.prefix_refl _
  | matchPump l hl =>
      exact .frame rfl rfl rfl (Lane.pumpStep_pumps hl).queue.2 rfl rfl
  | notificationPump l hl =>
      exact .frame rfl rfl rfl rfl (Lane.pumpStep_pumps hl).queue.2 rfl
  | pullError e q hq | pullNoError q hq =>
      exact .frame rfl rfl rfl rfl rfl (TracedQueue.pull_spec hq).1
  | callerClose stage | closerClose _ stage =>
      cases stage <;> exact .frame rfl rfl rfl rfl rfl rfl
  | deliverError | join | beginClose => exact .frame rfl rfl rfl rfl rfl rfl

/-- The callbacks are a prefix of what the queue accepted. -/
theorem Lane.Exact.calls_le {T : Type} {l : Lane T} (h : l.Exact) :
    l.calls <+: l.queue.accepted := by
  have hreturned : l.calls <+: l.queue.returned := by
    unfold Lane.Exact at h
    cases hp : l.pump with
    | pulling =>
        simp only [hp] at h
        exact h ▸ List.prefix_refl _
    | delivering v =>
        simp only [hp] at h
        exact h ▸ List.prefix_append _ _
    | finished =>
        simp only [hp] at h
        exact h.1 ▸ List.prefix_refl _
  rw [l.queue.fifo]
  exact hreturned.trans (List.prefix_append _ _)

theorem Poll.CallerExact.onError_le (h : s.CallerExact) :
    s.onError <+: s.errorQueue.accepted := by
  have hreturned : s.onError <+: s.errorQueue.returned := by
    have hempty : s.onError = [] → s.onError <+: s.errorQueue.returned := fun hon =>
      hon ▸ List.nil_prefix
    have htold : (∃ e, s.errorQueue.returned = [e] ∧ s.onError = [e]) →
        s.onError <+: s.errorQueue.returned := by
      rintro ⟨e, hret, hon⟩
      rw [hret, hon]
    unfold Poll.CallerExact at h
    cases hca : s.caller with
    | pulling | delivering e =>
        simp only [hca] at h
        exact hempty h.2
    | closing stage =>
        simp only [hca] at h
        exact htold h
    | joining =>
        simp only [hca] at h
        exact h.elim htold fun hidle => hempty hidle.1.2
    | returned =>
        simp only [hca] at h
        exact h.1.elim htold fun hidle => hempty hidle.1.2
  rw [s.errorQueue.fifo]
  exact hreturned.trans (List.prefix_append _ _)

/-- Whatever the order of the threads, an ending poll makes no request beyond the one whose
test of the flag has passed, completes at most that round trip, and calls back only with
what its queues had accepted or its worker had in hand. -/
theorem ending_poll_asks_nothing {opts : LongpollOptions} {actions : List PollAction}
    (h : (startLongpoll P category opts).Reachable s) (hs : s.Ending)
    (hrun : (startLongpoll P category opts).runFrom actions s = some s') :
    s'.requests = s.requests ∧
      s'.outcomes.length ≤ s.outcomes.length + s.worker.pc.inFlight ∧
      s'.matchLane.calls <+: s.matchLane.queue.accepted ++ s.worker.pc.heldMatches ∧
      s'.notificationLane.calls <+:
        s.notificationLane.queue.accepted ++ s.worker.pc.heldNotifications ∧
      s'.onError <+: s.errorQueue.accepted ++ s.worker.pc.heldErrors := by
  have hstep : ∀ a t t', t.Ending ∧ s.WindsDown t →
      (startLongpoll P category opts).step a t = some t' → t'.Ending ∧ s.WindsDown t' := by
    intro a t t' ht hstep
    have hmoves := pollStep_moves hstep
    exact ⟨hmoves.ending ht.1, ht.2.trans (hmoves.windsDown ht.1)⟩
  have hdown : s.WindsDown s' :=
    (Transition.runFrom_invariant hstep ⟨hs, .frame rfl rfl rfl rfl rfl rfl⟩ hrun).2
  have hthreads := (delivery_of_reachable (h.runFrom actions hrun)).threads
  refine ⟨hdown.requests, (Nat.le_add_right _ _).trans hdown.outcomes, ?_, ?_, ?_⟩
  · exact hthreads.matchLane.calls_le.trans ((List.prefix_append _ _).trans hdown.matchEvents)
  · exact hthreads.notificationLane.calls_le.trans
      ((List.prefix_append _ _).trans hdown.notifications)
  · exact hthreads.caller.onError_le.trans ((List.prefix_append _ _).trans hdown.errors)

/-- A poll that is closed while its worker holds a notification, which is still delivered. -/
theorem ending_poll_asks_nothing_notification :
    let body := Json.object (.ofList [("notification",
      .object (.ofList [("notification_code", .numberUnsigned 650)]))])
    let text := "\x7b\"notification\":\x7b\"notification_code\":650\x7d\x7d"
    let poll := startLongpoll (Platform.ofTable [(text, body)]) "0123abcde" {}
    ∃ s s', poll.Reachable s ∧ s.closed = true ∧
      poll.runFrom [.worker .connectionError, .notificationPump, .notificationPump,
        .worker .connectionError] s = some s' ∧
      s'.notificationLane.calls.length = 1 ∧
      s'.requests = s.requests ∧
      s'.outcomes.length ≤ s.outcomes.length + s.worker.pc.inFlight ∧
      s'.matchLane.calls <+: s.matchLane.queue.accepted ++ s.worker.pc.heldMatches ∧
      s'.notificationLane.calls <+:
        s.notificationLane.queue.accepted ++ s.worker.pc.heldNotifications ∧
      s'.onError <+: s.errorQueue.accepted ++ s.worker.pc.heldErrors := by
  intro body text poll
  let start : List PollAction := [.worker .connectionError, .worker (.response 200 text "r1"),
    .worker .connectionError, .beginClose, .closer 0]
  obtain ⟨s, hstart, hclosed, s', hrun, hcalls⟩ : ∃ s,
      poll.runFrom start poll.start = some s ∧ s.closed = true ∧
        ∃ s', poll.runFrom [.worker .connectionError, .notificationPump, .notificationPump,
          .worker .connectionError] s = some s' ∧ s'.notificationLane.calls.length = 1 :=
    ⟨_, rfl, rfl, _, rfl, rfl⟩
  have hs := Transition.Reachable.start.runFrom _ hstart
  exact ⟨s, s', hs, hclosed, hrun, hcalls, ending_poll_asks_nothing hs (.inl hclosed) hrun⟩

end Audd
