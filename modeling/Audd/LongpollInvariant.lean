import Audd.Longpoll

/-!
# What one step of a poll can do

`Moves` lists the effects of all actions once, so an invariant is a case
analysis over it. The invariants here are about the threads alone: the order in
which the queues are closed, and what the pumps have handed to their callbacks.
-/

namespace Audd

variable {P : Platform} {category : String} {timeout : ℤ}

/-- The effect of one step, with the conditions under which it is taken. -/
inductive Moves (P : Platform) (category : String) (timeout : ℤ) (s : Poll) : Poll → Prop
  | stop (hc : s.closed = true)
      (hpc : s.worker.pc = .loopHead ∨ s.worker.pc = .sleeping ∨
        ∃ status raw rid, s.worker.pc = .received status raw rid) :
      Moves P category timeout s { s with worker := { s.worker with pc := .stopped } }
  | send (hc : s.closed = false) (hpc : s.worker.pc = .loopHead) :
      Moves P category timeout s { s with
        worker := { s.worker with pc := .requesting }
        requests := s.requests ++ [requestParams category timeout s.worker.curSince] }
  | fail (hpc : s.worker.pc = .requesting) :
      Moves P category timeout s { s with
        worker := { s.worker with pc := .sleeping }
        outcomes := s.outcomes ++ [.connectionError] }
  | reply (status : ℤ) (raw rid : String) (hpc : s.worker.pc = .requesting) :
      Moves P category timeout s { s with
        worker := { s.worker with pc := .received status raw rid }
        outcomes := s.outcomes ++ [.response status raw rid] }
  | wake (hc : s.closed = false) (hpc : s.worker.pc = .sleeping) :
      Moves P category timeout s { s with worker :=
        { s.worker with pc := .loopHead, backoff := min (s.worker.backoff * 2) 30000 } }
  | handle (status : ℤ) (raw rid : String) (hc : s.closed = false)
      (hpc : s.worker.pc = .received status raw rid) :
      Moves P category timeout s { s with worker := handleResponse P s.worker status raw rid }
  | push (ev : CallbackEvent) (body : Json) (hpc : s.worker.pc = .pushing ev body) :
      Moves P category timeout s { s.pushEvent ev with worker :=
        { s.worker with pc := .loopHead, curSince := advanceSince P body s.worker.curSince } }
  | pushError (e : Exn) (hpc : s.worker.pc = .pushingError e) :
      Moves P category timeout s { s with
        errorQueue := s.errorQueue.push e
        worker := { s.worker with pc := .closing .setFlag } }
  | workerClose (stage : CloseStage) (pc : WorkerPc) (hpc : s.worker.pc = .closing stage)
      (hnext : pc = (stage.next.map WorkerPc.closing).getD .stopped) :
      Moves P category timeout s { s.closeAt stage with worker := { s.worker with pc } }
  | matchPump (l : Lane StreamCallbackMatch) (hl : s.matchLane.pumpStep = some l) :
      Moves P category timeout s { s with matchLane := l }
  | notificationPump (l : Lane StreamCallbackNotification)
      (hl : s.notificationLane.pumpStep = some l) :
      Moves P category timeout s { s with notificationLane := l }
  | pullError (e : Exn) (q : TracedQueue Exn) (hq : s.errorQueue.pull = some (some e, q))
      (hca : s.caller = .pulling) :
      Moves P category timeout s { s with errorQueue := q, caller := .delivering e }
  | pullNoError (q : TracedQueue Exn) (hq : s.errorQueue.pull = some (none, q))
      (hca : s.caller = .pulling) :
      Moves P category timeout s { s with errorQueue := q, caller := .joining }
  | deliverError (e : Exn) (hca : s.caller = .delivering e) :
      Moves P category timeout s
        { s with onError := s.onError ++ [e], caller := .closing .setFlag }
  | callerClose (stage : CloseStage) (caller : Caller) (hca : s.caller = .closing stage)
      (hnext : caller = (stage.next.map Caller.closing).getD .joining) :
      Moves P category timeout s { s.closeAt stage with caller }
  | join (hm : s.matchLane.pump = .finished) (hn : s.notificationLane.pump = .finished)
      (hca : s.caller = .joining) :
      Moves P category timeout s { s with caller := .returned }
  | beginClose :
      Moves P category timeout s { s with closers := s.closers ++ [some .setFlag] }
  | closerClose (i : ℕ) (stage : CloseStage) (hi : s.closers[i]? = some (some stage)) :
      Moves P category timeout s
        { s.closeAt stage with closers := s.closers.set i stage.next }

theorem workerStep_moves {s s' : Poll} {o : RoundTrip}
    (h : workerStep P category timeout o s = some s') : Moves P category timeout s s' := by
  unfold workerStep at h
  cases hpc : s.worker.pc with
  | loopHead =>
      simp only [hpc] at h
      split at h
      · obtain rfl := Option.some.inj h
        exact .stop ‹_› (.inl hpc)
      · obtain rfl := Option.some.inj h
        exact .send (Bool.eq_false_of_not_eq_true ‹_›) hpc
  | requesting =>
      simp only [hpc] at h
      obtain rfl := Option.some.inj h
      cases o with
      | connectionError => exact .fail hpc
      | response status raw rid => exact .reply status raw rid hpc
  | sleeping =>
      simp only [hpc] at h
      split at h
      · obtain rfl := Option.some.inj h
        exact .stop ‹_› (.inr (.inl hpc))
      · obtain rfl := Option.some.inj h
        exact .wake (Bool.eq_false_of_not_eq_true ‹_›) hpc
  | received status raw rid =>
      simp only [hpc] at h
      split at h
      · obtain rfl := Option.some.inj h
        exact .stop ‹_› (.inr (.inr ⟨status, raw, rid, hpc⟩))
      · obtain rfl := Option.some.inj h
        exact .handle status raw rid (Bool.eq_false_of_not_eq_true ‹_›) hpc
  | pushing ev body =>
      simp only [hpc] at h
      obtain rfl := Option.some.inj h
      exact .push ev body hpc
  | pushingError e =>
      simp only [hpc] at h
      obtain rfl := Option.some.inj h
      exact .pushError e hpc
  | closing stage =>
      simp only [hpc] at h
      obtain rfl := Option.some.inj h
      exact .workerClose stage _ hpc (by cases stage <;> rfl)
  | stopped => simp [hpc] at h

theorem callerStep_moves {s s' : Poll} (h : callerStep s = some s') :
    Moves P category timeout s s' := by
  unfold callerStep at h
  cases hca : s.caller with
  | pulling =>
      cases hq : s.errorQueue.pull with
      | none => simp [hca, hq] at h
      | some r =>
          obtain ⟨r, q⟩ := r
          cases r with
          | none =>
              simp only [hca, hq] at h
              obtain rfl := Option.some.inj h
              exact .pullNoError q hq hca
          | some e =>
              simp only [hca, hq] at h
              obtain rfl := Option.some.inj h
              exact .pullError e q hq hca
  | delivering e =>
      simp only [hca] at h
      obtain rfl := Option.some.inj h
      exact .deliverError e hca
  | closing stage =>
      simp only [hca] at h
      obtain rfl := Option.some.inj h
      exact .callerClose stage _ hca (by cases stage <;> rfl)
  | joining =>
      cases hm : s.matchLane.pump <;> cases hn : s.notificationLane.pump <;>
        simp only [hca, hm, hn, reduceCtorEq, Option.some.injEq] at h
      subst h
      exact .join hm hn hca
  | returned => simp [hca] at h

theorem pollStep_moves {s s' : Poll} {a : PollAction}
    (h : pollStep P category timeout a s = some s') : Moves P category timeout s s' := by
  cases a with
  | worker o => exact workerStep_moves h
  | matchPump =>
      obtain ⟨l, hl, rfl⟩ := Option.map_eq_some_iff.mp h
      exact .matchPump l hl
  | notificationPump =>
      obtain ⟨l, hl, rfl⟩ := Option.map_eq_some_iff.mp h
      exact .notificationPump l hl
  | caller => exact callerStep_moves h
  | beginClose =>
      obtain rfl := Option.some.inj h
      exact .beginClose
  | closer i =>
      simp only [pollStep] at h
      split at h
      · obtain rfl := Option.some.inj h
        exact .closerClose i _ ‹_›
      · simp at h

/-! ## The order of the closes -/

/-- Whether the thing that a stage of `close_all` closes is closed. -/
def Poll.shut (s : Poll) : CloseStage → Bool
  | .setFlag => s.closed
  | .closeMatches => s.matchLane.queue.queue.closed
  | .closeNotifications => s.notificationLane.queue.queue.closed
  | .closeErrors => s.errorQueue.queue.closed

/-- The stages that a thread has behind it, by its next stage. -/
def CloseStage.passed : Option CloseStage → List CloseStage
  | some .setFlag => []
  | some .closeMatches => [.setFlag]
  | some .closeNotifications => [.setFlag, .closeMatches]
  | some .closeErrors => [.setFlag, .closeMatches, .closeNotifications]
  | none => [.setFlag, .closeMatches, .closeNotifications, .closeErrors]

/-- What a thread with this next stage has closed is closed. -/
def Poll.ClosedUpTo (s : Poll) (next : Option CloseStage) : Prop :=
  ∀ stage ∈ CloseStage.passed next, s.shut stage = true

theorem Poll.shut_closeAt (s : Poll) (stage stage' : CloseStage) :
    (s.closeAt stage).shut stage' = (decide (stage' = stage) || s.shut stage') := by
  cases stage <;> cases stage' <;> rfl

/-- `close_all` gets from each of its stages to the next. -/
theorem Poll.ClosedUpTo.closeAt {s : Poll} {stage : CloseStage} (h : s.ClosedUpTo (some stage)) :
    (s.closeAt stage).ClosedUpTo stage.next := by
  intro stage' hmem
  have hpassed : stage' = stage ∨ stage' ∈ CloseStage.passed (some stage) := by
    cases stage <;> simpa [CloseStage.next, CloseStage.passed, or_comm, or_assoc, or_left_comm]
      using hmem
  rw [Poll.shut_closeAt]
  rcases hpassed with rfl | hmem'
  · simp
  · simp [h stage' hmem']

theorem Poll.ClosedUpTo.mono {s s' : Poll} {next : Option CloseStage} (h : s.ClosedUpTo next)
    (hm : ∀ stage, s.shut stage = true → s'.shut stage = true) : s'.ClosedUpTo next :=
  fun stage hmem => hm stage (h stage hmem)

/-- Some thread has this next stage of `close_all`, or `none` after the last. The
thread in `run` joins the pumps only when the error queue has been closed. -/
inductive Poll.AtStage (s : Poll) : Option CloseStage → Prop
  | worker {stage} (h : s.worker.pc = .closing stage) : AtStage s (some stage)
  | caller {stage} (h : s.caller = .closing stage) : AtStage s (some stage)
  | joining (h : s.caller = .joining) : AtStage s none
  | returned (h : s.caller = .returned) : AtStage s none
  | closer {next} (h : next ∈ s.closers) : AtStage s next

theorem Poll.AtStage.congr {s s' : Poll} {next : Option CloseStage} (h : s'.AtStage next)
    (hw : ∀ stage, s'.worker.pc = .closing stage → s.worker.pc = .closing stage)
    (hca : s'.caller = s.caller) (hcl : s'.closers = s.closers) : s.AtStage next := by
  cases h with
  | worker h => exact .worker (hw _ h)
  | caller h => exact .caller (hca ▸ h)
  | joining h => exact .joining (hca ▸ h)
  | returned h => exact .returned (hca ▸ h)
  | closer h => exact .closer (hcl ▸ h)

/-- The effect of one turn of a pump. -/
inductive Lane.Pumps {T : Type} (l : Lane T) : Lane T → Prop
  | take (v : T) (q : TracedQueue T) (hp : l.pump = .pulling)
      (hq : l.queue.pull = some (some v, q)) :
      Pumps l { l with queue := q, pump := .delivering v }
  | drain (q : TracedQueue T) (hp : l.pump = .pulling) (hq : l.queue.pull = some (none, q)) :
      Pumps l { l with queue := q, pump := .finished }
  | callBack (v : T) (hp : l.pump = .delivering v) :
      Pumps l { l with pump := .pulling, calls := l.calls ++ [v] }

theorem Lane.pumpStep_pumps {T : Type} {l l' : Lane T} (h : l.pumpStep = some l') :
    l.Pumps l' := by
  unfold Lane.pumpStep at h
  cases hp : l.pump with
  | pulling =>
      simp only [hp] at h
      split at h
      · obtain rfl := Option.some.inj h
        exact .take _ _ hp ‹_›
      · obtain rfl := Option.some.inj h
        exact .drain _ hp ‹_›
      · simp at h
  | delivering v =>
      simp only [hp] at h
      obtain rfl := Option.some.inj h
      exact .callBack v hp
  | finished => simp [hp] at h

/-- A pump neither closes its queue nor adds to it. -/
theorem Lane.Pumps.queue {T : Type} {l l' : Lane T} (h : l.Pumps l') :
    l'.queue.queue.closed = l.queue.queue.closed ∧ l'.queue.accepted = l.queue.accepted := by
  cases h with
  | take v q hp hq | drain q hp hq =>
      obtain ⟨haccepted, hclosed, -⟩ := TracedQueue.pull_spec hq
      exact ⟨hclosed, haccepted⟩
  | callBack v hp => exact ⟨rfl, rfl⟩

theorem Lane.Pumps.ne_finished {T : Type} {l l' : Lane T} (h : l.Pumps l') :
    l.pump ≠ .finished := by
  cases h with
  | take v q hp | drain q hp | callBack v hp => simp [hp]

/-- A step closes nothing, or what its thread had to close next. -/
theorem Moves.shut {s s' : Poll} (h : Moves P category timeout s s') :
    (∀ stage, s'.shut stage = s.shut stage) ∨
      ∃ next, s.AtStage (some next) ∧ ∀ stage, s'.shut stage = (s.closeAt next).shut stage := by
  cases h with
  | stop | send | fail | reply | wake | handle | deliverError | join | beginClose =>
      exact .inl fun stage => by cases stage <;> rfl
  | push ev body hpc =>
      exact .inl fun stage => by
        cases ev <;> cases stage <;> simp [Poll.shut, Poll.pushEvent, Lane.push]
  | pushError => exact .inl fun stage => by cases stage <;> simp [Poll.shut]
  | workerClose next pc hpc =>
      exact .inr ⟨next, .worker hpc, fun stage => by cases stage <;> rfl⟩
  | matchPump l hl | notificationPump l hl =>
      have hqueue := (Lane.pumpStep_pumps hl).queue.1
      exact .inl fun stage => by cases stage <;> simp [Poll.shut, hqueue]
  | pullError e q hq | pullNoError q hq =>
      have hqueue := (TracedQueue.pull_spec hq).2.1
      exact .inl fun stage => by cases stage <;> simp [Poll.shut, hqueue]
  | callerClose next caller hca =>
      exact .inr ⟨next, .caller hca, fun stage => by cases stage <;> rfl⟩
  | closerClose i next hi =>
      exact .inr ⟨next, .closer (List.mem_of_getElem? hi), fun stage => by
        cases stage <;> rfl⟩

/-- Nothing is reopened. -/
theorem Moves.shut_mono {s s' : Poll} (h : Moves P category timeout s s') (stage : CloseStage)
    (hs : s.shut stage = true) : s'.shut stage = true := by
  rcases h.shut with heq | ⟨next, -, heq⟩
  · rw [heq, hs]
  · rw [heq, Poll.shut_closeAt, hs, Bool.or_true]

theorem handleResponse_pc_ne_closing (w : Worker) (status : ℤ) (raw rid : String)
    (stage : CloseStage) : (handleResponse P w status raw rid).pc ≠ .closing stage := by
  unfold handleResponse
  cases disposition P status raw with
  | terminal => simp
  | skip => simp
  | keepAlive => simp
  | event => cases parseCallback P raw <;> simp

/-- A stage comes after the one before it, except for the first. -/
theorem Moves.atStage {s s' : Poll} (h : Moves P category timeout s s')
    {next : Option CloseStage} (ha : s'.AtStage next) :
    s.AtStage next ∨ next = some .setFlag ∨
      (∃ prev : CloseStage, s.AtStage (some prev) ∧ prev.next = next ∧
        ∀ stage, s'.shut stage = (s.closeAt prev).shut stage) ∨
      (next = none ∧ s.shut .closeErrors = true) := by
  cases h with
  | stop | send | fail | reply | wake =>
      exact .inl (ha.congr (fun _ h => by simp at h) rfl rfl)
  | push ev =>
      exact .inl (ha.congr (fun _ h => by simp at h) (by cases ev <;> rfl) (by cases ev <;> rfl))
  | handle status raw rid =>
      exact .inl (ha.congr (fun stage h => absurd h
        (handleResponse_pc_ne_closing s.worker status raw rid stage)) rfl rfl)
  | matchPump | notificationPump => exact .inl (ha.congr (fun _ h => h) rfl rfl)
  | pushError e hpc =>
      cases ha with
      | worker h => exact .inr (.inl (by simpa using h.symm))
      | caller h => exact .inl (.caller h)
      | joining h => exact .inl (.joining h)
      | returned h => exact .inl (.returned h)
      | closer h => exact .inl (.closer h)
  | workerClose prev pc hpc hnext =>
      cases ha with
      | worker h =>
          refine .inr (.inr (.inl ⟨prev, .worker hpc, ?_, fun stage => by cases stage <;> rfl⟩))
          subst hnext
          cases prev <;> simp_all [CloseStage.next]
      | caller h => exact .inl (.caller (by cases prev <;> exact h))
      | joining h => exact .inl (.joining (by cases prev <;> exact h))
      | returned h => exact .inl (.returned (by cases prev <;> exact h))
      | closer h => exact .inl (.closer (by cases prev <;> exact h))
  | pullError e q hq hca =>
      cases ha with
      | worker h => exact .inl (.worker h)
      | caller h => simp at h
      | joining h => simp at h
      | returned h => simp at h
      | closer h => exact .inl (.closer h)
  | pullNoError q hq hca =>
      cases ha with
      | worker h => exact .inl (.worker h)
      | caller h => simp at h
      | joining h =>
          exact .inr (.inr (.inr ⟨rfl, ((TracedQueue.pull_spec hq).2.2.2 rfl).2.2⟩))
      | returned h => simp at h
      | closer h => exact .inl (.closer h)
  | deliverError e hca =>
      cases ha with
      | worker h => exact .inl (.worker h)
      | caller h => exact .inr (.inl (by simpa using h.symm))
      | joining h => simp at h
      | returned h => simp at h
      | closer h => exact .inl (.closer h)
  | callerClose prev caller hca hnext =>
      have hshut : ∀ stage, (Poll.shut { s.closeAt prev with caller } stage) =
          (s.closeAt prev).shut stage := fun stage => by cases stage <;> rfl
      cases ha with
      | worker h => exact .inl (.worker (by cases prev <;> exact h))
      | caller h =>
          refine .inr (.inr (.inl ⟨prev, .caller hca, ?_, hshut⟩))
          subst hnext
          cases prev <;> simp_all [CloseStage.next]
      | joining h =>
          refine .inr (.inr (.inl ⟨prev, .caller hca, ?_, hshut⟩))
          subst hnext
          cases prev <;> simp_all [CloseStage.next]
      | returned h =>
          subst hnext
          cases prev <;> simp [CloseStage.next] at h
      | closer h => exact .inl (.closer (by cases prev <;> exact h))
  | join hm hn hca =>
      cases ha with
      | worker h => exact .inl (.worker h)
      | caller h => simp at h
      | joining h => simp at h
      | returned h => exact .inl (.joining hca)
      | closer h => exact .inl (.closer h)
  | beginClose =>
      cases ha with
      | worker h => exact .inl (.worker h)
      | caller h => exact .inl (.caller h)
      | joining h => exact .inl (.joining h)
      | returned h => exact .inl (.returned h)
      | closer h =>
          rcases List.mem_append.mp h with h | h
          · exact .inl (.closer h)
          · exact .inr (.inl (by simpa using h))
  | closerClose i prev hi =>
      cases ha with
      | worker h => exact .inl (.worker (by cases prev <;> exact h))
      | caller h => exact .inl (.caller (by cases prev <;> exact h))
      | joining h => exact .inl (.joining (by cases prev <;> exact h))
      | returned h => exact .inl (.returned (by cases prev <;> exact h))
      | closer h =>
          rcases List.mem_or_eq_of_mem_set h with h | rfl
          · exact .inl (.closer h)
          · exact .inr (.inr (.inl ⟨prev, .closer (List.mem_of_getElem? hi), rfl,
              fun stage => by cases stage <;> rfl⟩))

/-- Whatever is closed was closed in the order of the stages, and every thread
has closed what its place in `close_all` says. -/
structure CloseOrder (s : Poll) : Prop where
  order : ∀ stage, s.shut stage = true → s.ClosedUpTo stage.next
  threads : ∀ next, s.AtStage next → s.ClosedUpTo next

theorem CloseOrder.step {s s' : Poll} (hs : CloseOrder s)
    (h : Moves P category timeout s s') : CloseOrder s' where
  order := by
    intro stage hshut
    rcases h.shut with heq | ⟨next, ha, heq⟩
    · exact (hs.order stage (heq stage ▸ hshut)).mono h.shut_mono
    · rw [heq, Poll.shut_closeAt] at hshut
      rcases Bool.or_eq_true_iff.mp hshut with hd | hshut
      · obtain rfl := of_decide_eq_true hd
        exact (hs.threads _ ha).closeAt.mono fun st hst => heq st ▸ hst
      · exact (hs.order stage hshut).mono h.shut_mono
  threads := by
    intro next ha
    rcases h.atStage ha with hat | rfl | ⟨prev, hat, rfl, heq⟩ | ⟨rfl, hshut⟩
    · exact (hs.threads next hat).mono h.shut_mono
    · simp [Poll.ClosedUpTo, CloseStage.passed]
    · exact (hs.threads _ hat).closeAt.mono fun st hst => heq st ▸ hst
    · exact (hs.order _ hshut).mono h.shut_mono

/-! ## The pumps -/

/-- A pump has called back with all that it pulled, except the value it holds, and
it finishes only when its queue is closed and empty. -/
def Lane.Exact {T : Type} (l : Lane T) : Prop :=
  match l.pump with
  | .pulling => l.queue.returned = l.calls
  | .delivering v => l.queue.returned = l.calls ++ [v]
  | .finished => l.queue.returned = l.calls ∧ l.queue.queue.items = [] ∧
      l.queue.queue.closed = true

namespace Lane

variable {T : Type} {l l' : Lane T}

theorem Exact.push (h : l.Exact) (v : T) : (l.push v).Exact := by
  unfold Exact at h ⊢
  cases hp : l.pump with
  | pulling => simpa [Lane.push, hp] using h
  | delivering w => simpa [Lane.push, hp] using h
  | finished =>
      obtain ⟨hr, hi, hc⟩ : l.queue.returned = l.calls ∧ l.queue.queue.items = [] ∧
          l.queue.queue.closed = true := by simpa [hp] using h
      simp [Lane.push, hp, hr, DemuxQueue.push, hi, hc]

theorem Exact.close (h : l.Exact) : l.close.Exact := by
  unfold Exact at h ⊢
  cases hp : l.pump with
  | pulling => simpa [Lane.close, hp] using h
  | delivering w => simpa [Lane.close, hp] using h
  | finished =>
      simp only [hp] at h
      simpa [Lane.close, hp] using ⟨h.1, h.2.1⟩

theorem Exact.pumps (h : l.Exact) (hl : l.Pumps l') : l'.Exact := by
  unfold Exact at h
  cases hl with
  | take v q hp hq =>
      have hreturned := (TracedQueue.pull_spec hq).2.2.1
      simp only [hp] at h
      simpa [Exact, h] using hreturned
  | drain q hp hq =>
      obtain ⟨rfl, hitems, hclosed⟩ := (TracedQueue.pull_spec hq).2.2.2 rfl
      simp only [hp] at h
      exact ⟨h, hitems, hclosed⟩
  | callBack v hp =>
      simp only [hp] at h
      exact h

/-- A pump that has finished called back with all that its queue accepted. -/
theorem Exact.calls_eq (h : l.Exact) (hp : l.pump = .finished) : l.calls = l.queue.accepted := by
  unfold Exact at h
  simp only [hp] at h
  rw [← h.1, l.queue.returned_eq_of_items h.2.1]

/-- What a step can do to a lane. -/
inductive Changes (l : Lane T) : Lane T → Prop
  | keep : Changes l l
  | push (v : T) : Changes l (l.push v)
  | close : Changes l l.close
  | pump {l' : Lane T} (h : l.Pumps l') : Changes l l'

theorem Exact.changes (h : l.Exact) (hl : l.Changes l') : l'.Exact := by
  cases hl with
  | keep => exact h
  | push v => exact h.push v
  | close => exact h.close
  | pump hp => exact h.pumps hp

theorem Changes.finished (hl : l.Changes l') (hp : l.pump = .finished) : l'.pump = .finished := by
  cases hl with
  | keep | push | close => exact hp
  | pump h => exact absurd hp h.ne_finished

end Lane

theorem Moves.matchLane {s s' : Poll} (h : Moves P category timeout s s') :
    s.matchLane.Changes s'.matchLane := by
  cases h with
  | push ev =>
      cases ev with
      | matchEvent m => exact .push m
      | notificationEvent n => exact .keep
  | workerClose stage | callerClose stage | closerClose _ stage =>
      cases stage with
      | closeMatches => exact .close
      | setFlag | closeNotifications | closeErrors => exact .keep
  | matchPump l hl => exact .pump (Lane.pumpStep_pumps hl)
  | _ => exact .keep

theorem Moves.notificationLane {s s' : Poll} (h : Moves P category timeout s s') :
    s.notificationLane.Changes s'.notificationLane := by
  cases h with
  | push ev =>
      cases ev with
      | matchEvent m => exact .keep
      | notificationEvent n => exact .push n
  | workerClose stage | callerClose stage | closerClose _ stage =>
      cases stage with
      | closeNotifications => exact .close
      | setFlag | closeMatches | closeErrors => exact .keep
  | notificationPump l hl => exact .pump (Lane.pumpStep_pumps hl)
  | _ => exact .keep

/-- The same for the thread in `run`, which pulls at most one error. It returns
after both pumps. -/
def Poll.CallerExact (s : Poll) : Prop :=
  let idle := s.errorQueue.returned = [] ∧ s.onError = []
  let told := ∃ e, s.errorQueue.returned = [e] ∧ s.onError = [e]
  let drained := s.errorQueue.queue.items = [] ∧ s.errorQueue.queue.closed = true
  match s.caller with
  | .pulling => idle
  | .delivering e => s.errorQueue.returned = [e] ∧ s.onError = []
  | .closing _ => told
  | .joining => told ∨ idle ∧ drained
  | .returned => (told ∨ idle ∧ drained) ∧
      s.matchLane.pump = .finished ∧ s.notificationLane.pump = .finished

/-- A step of another thread keeps what `run` has done. -/
theorem Poll.CallerExact.frame {s s' : Poll} (hs : s.CallerExact)
    (hca : s'.caller = s.caller) (hon : s'.onError = s.onError)
    (hq : s'.errorQueue = s.errorQueue ∨ (∃ e, s'.errorQueue = s.errorQueue.push e) ∨
      s'.errorQueue = s.errorQueue.close)
    (hm : s.matchLane.pump = .finished → s'.matchLane.pump = .finished)
    (hn : s.notificationLane.pump = .finished → s'.notificationLane.pump = .finished) :
    s'.CallerExact := by
  have hret : s'.errorQueue.returned = s.errorQueue.returned := by
    rcases hq with h | ⟨e, h⟩ | h <;> rw [h] <;> rfl
  have hdrained : s.errorQueue.queue.items = [] ∧ s.errorQueue.queue.closed = true →
      s'.errorQueue.queue.items = [] ∧ s'.errorQueue.queue.closed = true := by
    rintro ⟨hi, hc⟩
    rcases hq with h | ⟨e, h⟩ | h <;> rw [h]
    · exact ⟨hi, hc⟩
    · simp [DemuxQueue.push, hi, hc]
    · simp [hi]
  unfold Poll.CallerExact at hs ⊢
  rw [hca, hon, hret]
  cases hcaller : s.caller with
  | pulling | delivering | closing => simpa only [hcaller] using hs
  | joining =>
      simp only [hcaller] at hs ⊢
      exact hs.imp_right fun h => ⟨h.1, hdrained h.2⟩
  | returned =>
      simp only [hcaller] at hs ⊢
      exact ⟨hs.1.imp_right fun h => ⟨h.1, hdrained h.2⟩, hm hs.2.1, hn hs.2.2⟩

theorem Poll.CallerExact.step {s s' : Poll} (hs : s.CallerExact)
    (h : Moves P category timeout s s') : s'.CallerExact := by
  have hm := h.matchLane.finished
  have hn := h.notificationLane.finished
  cases h with
  | stop | send | fail | reply | wake | handle | matchPump | notificationPump | beginClose =>
      exact hs.frame rfl rfl (.inl rfl) hm hn
  | push ev =>
      cases ev <;> exact hs.frame rfl rfl (.inl rfl) hm hn
  | pushError e => exact hs.frame rfl rfl (.inr (.inl ⟨e, rfl⟩)) hm hn
  | workerClose stage | closerClose _ stage =>
      cases stage with
      | closeErrors => exact hs.frame rfl rfl (.inr (.inr rfl)) hm hn
      | setFlag | closeMatches | closeNotifications =>
          exact hs.frame rfl rfl (.inl rfl) hm hn
  | pullError e q hq hca =>
      obtain ⟨-, -, hret, -⟩ := TracedQueue.pull_spec hq
      simp only [Poll.CallerExact, hca] at hs
      exact ⟨by simpa [hs.1] using hret, hs.2⟩
  | pullNoError q hq hca =>
      obtain ⟨-, -, -, hnone⟩ := TracedQueue.pull_spec hq
      obtain ⟨rfl, hi, hc⟩ := hnone rfl
      simp only [Poll.CallerExact, hca] at hs
      exact .inr ⟨hs, hi, hc⟩
  | deliverError e hca =>
      simp only [Poll.CallerExact, hca] at hs
      exact ⟨e, hs.1, by simp [hs.2]⟩
  | callerClose stage caller hca hnext =>
      simp only [Poll.CallerExact, hca] at hs
      subst hnext
      cases stage with
      | setFlag | closeMatches | closeNotifications => exact hs
      | closeErrors => exact .inl hs
  | join hmf hnf hca =>
      simp only [Poll.CallerExact, hca] at hs
      exact ⟨hs, hmf, hnf⟩

/-- What holds of the threads in every state of a poll. -/
structure Threads (s : Poll) : Prop where
  order : CloseOrder s
  matchLane : s.matchLane.Exact
  notificationLane : s.notificationLane.Exact
  caller : s.CallerExact

theorem Threads.step {s s' : Poll} (hs : Threads s) (h : Moves P category timeout s s') :
    Threads s' where
  order := hs.order.step h
  matchLane := hs.matchLane.changes h.matchLane
  notificationLane := hs.notificationLane.changes h.notificationLane
  caller := hs.caller.step h

theorem Threads.initial (w : Worker) (hpc : w.pc = .loopHead) : Threads { worker := w } where
  order := by
    constructor
    · intro stage hshut
      cases stage <;> simp [Poll.shut] at hshut
    · intro next ha
      cases ha with
      | worker h => simp [hpc] at h
      | caller h | joining h | returned h | closer h => simp at h
  matchLane := rfl
  notificationLane := rfl
  caller := ⟨rfl, rfl⟩

/-- When `run` has returned, each callback has had what its queue accepted, and
the error callback the only error it pulled. -/
theorem Threads.returned {s : Poll} (hs : Threads s) (hca : s.caller = .returned) :
    s.matchLane.calls = s.matchLane.queue.accepted ∧
      s.notificationLane.calls = s.notificationLane.queue.accepted ∧
      s.onError = s.errorQueue.accepted.take 1 ∧ ∀ stage, s.shut stage = true := by
  have hcaller := hs.caller
  simp only [Poll.CallerExact, hca] at hcaller
  obtain ⟨herr, hm, hn⟩ := hcaller
  have hall := hs.order.threads none (.returned hca)
  refine ⟨hs.matchLane.calls_eq hm, hs.notificationLane.calls_eq hn, ?_, ?_⟩
  · rcases herr with ⟨e, hret, hon⟩ | ⟨⟨hret, hon⟩, hi, -⟩
    · rw [hon, s.errorQueue.fifo, hret, List.singleton_append, List.take_succ_cons,
        List.take_zero]
    · rw [hon, s.errorQueue.fifo, hret, hi, List.append_nil, List.take_nil]
  · intro stage
    exact hall stage (by cases stage <;> simp [CloseStage.passed])

end Audd
