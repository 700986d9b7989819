import Audd.LongpollConsumers
import Audd.LongpollCursor
import Audd.LongpollShutdown

/-!
# The owners of a poll and of its client

The owner of a poll destroys it, or assigns another poll over it: the poll is closed and
its worker joined before its `Impl` is freed. The worker borrows the client, whose owner
destroys it at any moment.

## Implementation notes

Nobody calls into a poll while it is destroyed, so its destruction begins when the calls of
`close()` have returned. The worker reads the client after it has tested the flag and before
the transfer; the transfer itself needs nothing of the client, and the reads are one step.
-/

namespace Audd

/-- What the thread that ends a poll does next. `~LongpollPoll` closes everything and
leaves the rest to `~Impl`, which closes everything again, and joins the worker. -/
inductive Teardown
  | alive
  | closing (again : Bool) (stage : CloseStage)
  | joining
  | freed
deriving DecidableEq

structure OwnedPoll where
  poll : Poll
  teardown : Teardown := .alive
  /-- The worker has passed the test of the flag and has not read the client yet. -/
  reading : Bool := false
  clientAlive : Bool := true
  /-- The worker has read a client that was destroyed. -/
  dangled : Bool := false

inductive OwnerAction
  | consumer (a : ConsumerAction)
  | readClient
  | destroyPoll
  | assignPoll
  | teardown
  | destroyClient

def WorkerPc.isRequesting : WorkerPc → Bool
  | .requesting => true
  | _ => false

/-- The end of a poll begins when no call is in progress. -/
def OwnedPoll.beginTeardown (again : Bool) (s : OwnedPoll) : Option OwnedPoll :=
  if s.teardown = .alive ∧ ∀ next ∈ s.poll.closers, next = none then
    some { s with teardown := .closing again .setFlag }
  else none

def teardownStep (s : OwnedPoll) : Option OwnedPoll :=
  match s.teardown with
  | .alive => none
  | .closing again stage =>
      let teardown := match stage.next with
        | some next => .closing again next
        | none => if again then .closing false .setFlag else .joining
      some { s with poll := s.poll.closeAt stage, teardown }
  | .joining =>
      match s.poll.worker.pc with
      | .stopped => some { s with teardown := .freed }
      | _ => none
  | .freed => none

section
variable (P : Platform) (category : String)

/-- The worker goes on whatever its owners do; the consumers only use a poll that lives. -/
def ownerStep (timeout : ℤ) : OwnerAction → OwnedPoll → Option OwnedPoll
  | .consumer (.worker o), s =>
      if s.reading then none
      else (workerStep P category timeout o s.poll).map fun p =>
        { s with poll := p, reading := p.worker.pc.isRequesting }
  | .consumer a, s =>
      if s.teardown = .alive then
        (consumerStep P category timeout a s.poll).map fun p => { s with poll := p }
      else none
  | .readClient, s =>
      if s.reading then some { s with reading := false, dangled := s.dangled || !s.clientAlive }
      else none
  | .destroyPoll, s => s.beginTeardown true
  | .assignPoll, s => s.beginTeardown false
  | .teardown, s => teardownStep s
  | .destroyClient, s => if s.clientAlive then some { s with clientAlive := false } else none

/-- A poll with its worker, its consumers and its owners. -/
def ownedPoll (opts : LongpollOptions) : Transition OwnedPoll OwnerAction where
  start := { poll := (startLongpoll P category opts).start }
  step := ownerStep P category
    (if opts.timeoutSeconds ≤ 0 then 50 else opts.timeoutSeconds)

end

variable {P : Platform} {category : String} {timeout : ℤ} {p p' : Poll} {s s' : OwnedPoll}

/-! ## One step -/

theorem workerStep_closed {o : RoundTrip} (h : workerStep P category timeout o p = some p')
    (hc : p.closed = true) : p'.closed = true :=
  (workerStep_moves h).shut_mono .setFlag hc

/-- Once the flag is set the worker only does what it had begun. -/
theorem workerStep_left {o : RoundTrip} (h : workerStep P category timeout o p = some p')
    (hc : p.closed = true) :
    p'.worker.pc.left + 1 ≤ p.worker.pc.left ∧ p'.worker.pc.isRequesting = false := by
  unfold workerStep at h
  cases hpc : p.worker.pc with
  | loopHead | sleeping | received status raw rid =>
      simp only [hpc, hc, if_true] at h
      cases h
      exact ⟨le_rfl, rfl⟩
  | requesting =>
      simp only [hpc] at h
      cases h
      cases o <;> exact ⟨le_rfl, rfl⟩
  | pushing ev body =>
      simp only [hpc] at h
      cases h
      exact ⟨by simp [WorkerPc.left], rfl⟩
  | pushingError e =>
      simp only [hpc] at h
      cases h
      exact ⟨le_rfl, rfl⟩
  | closing stage =>
      simp only [hpc] at h
      cases h
      cases stage <;> exact ⟨le_rfl, rfl⟩
  | stopped => simp [hpc] at h

/-- Only a worker that has stopped has no step. -/
theorem workerStep_eq_none (o : RoundTrip) :
    workerStep P category timeout o p = none ↔ p.worker.pc = .stopped := by
  unfold workerStep
  cases hpc : p.worker.pc with
  | loopHead | sleeping | received => cases p.closed <;> simp
  | _ => simp

/-- Every `close()` that is past its first action has set the flag. -/
def Poll.CloseBegun (p : Poll) : Prop :=
  ∀ next ∈ p.closers, next ≠ some .setFlag → p.closed = true

theorem Poll.CloseBegun.frame (h : p.CloseBegun) (hclosers : p'.closers = p.closers)
    (hclosed : p.closed = true → p'.closed = true) : p'.CloseBegun := by
  intro next hmem hne
  rw [hclosers] at hmem
  exact hclosed (h next hmem hne)

theorem Poll.closed_closeAt (p : Poll) (stage : CloseStage) (h : p.closed = true) :
    (p.closeAt stage).closed = true := by
  cases stage with
  | setFlag => rfl
  | closeMatches | closeNotifications | closeErrors => exact h

def ConsumerAction.isWorker : ConsumerAction → Bool
  | .worker _ => true
  | _ => false

/-- What the consumers do leaves the worker alone and takes no flag back. -/
theorem consumerStep_frame {a : ConsumerAction} (ha : a.isWorker = false)
    (h : consumerStep P category timeout a p = some p') :
    p'.worker = p.worker ∧ (p.closed = true → p'.closed = true) ∧
      (p.CloseBegun → p'.CloseBegun) := by
  cases a with
  | worker o => cases ha
  | nextMatch | nextNotification | nextError =>
      obtain ⟨r, -, rfl⟩ := Option.map_eq_some_iff.mp h
      exact ⟨rfl, id, id⟩
  | beginClose =>
      cases h
      refine ⟨rfl, id, ?_⟩
      intro hbegun next hmem hne
      rcases List.mem_append.mp hmem with hold | hnew
      · exact hbegun next hold hne
      · exact absurd (List.mem_singleton.mp hnew) hne
  | closer i =>
      simp only [consumerStep, pollStep] at h
      split at h
      · rename_i stage hi
        cases h
        refine ⟨p.closeAt_worker stage, p.closed_closeAt stage, ?_⟩
        intro hbegun next hmem hne
        by_cases hstage : stage = .setFlag
        · subst hstage
          rfl
        · have hclosed := hbegun _ (List.mem_of_getElem? hi) fun h => hstage (Option.some.inj h)
          exact p.closed_closeAt stage hclosed
      · cases h

/-- The actions that the end of a poll has left. -/
def Teardown.left : Teardown → ℕ
  | .alive => 0
  | .closing again stage => stage.left + if again then 5 else 1
  | .joining => 1
  | .freed => 0

/-- What a step of the worker, of the consumers or of an owner does. -/
inductive OwnerMoves (P : Platform) (category : String) (timeout : ℤ) (s : OwnedPoll) :
    OwnedPoll → Prop
  | work (o : RoundTrip) (p : Poll) (hreading : s.reading = false)
      (h : workerStep P category timeout o s.poll = some p) :
      OwnerMoves P category timeout s { s with poll := p, reading := p.worker.pc.isRequesting }
  | call (p : Poll) (halive : s.teardown = .alive) (hworker : p.worker = s.poll.worker)
      (hclosed : s.poll.closed = true → p.closed = true)
      (hbegun : s.poll.CloseBegun → p.CloseBegun) :
      OwnerMoves P category timeout s { s with poll := p }
  | read (hreading : s.reading = true) :
      OwnerMoves P category timeout s
        { s with reading := false, dangled := s.dangled || !s.clientAlive }
  | begin (again : Bool) (halive : s.teardown = .alive) :
      OwnerMoves P category timeout s { s with teardown := .closing again .setFlag }
  | close (again : Bool) (stage : CloseStage) (next : Teardown)
      (hclosing : s.teardown = .closing again stage)
      (hleft : next.left + 1 = s.teardown.left) (halive : next ≠ .alive) (hfreed : next ≠ .freed) :
      OwnerMoves P category timeout s { s with poll := s.poll.closeAt stage, teardown := next }
  | join (hjoining : s.teardown = .joining) (hpc : s.poll.worker.pc = .stopped) :
      OwnerMoves P category timeout s { s with teardown := .freed }
  | destroyClient (hclient : s.clientAlive = true) :
      OwnerMoves P category timeout s { s with clientAlive := false }

theorem teardownStep_moves (h : teardownStep s = some s') :
    OwnerMoves P category timeout s s' := by
  unfold teardownStep at h
  cases ht : s.teardown with
  | alive | freed => simp [ht] at h
  | closing again stage =>
      simp only [ht] at h
      cases h
      apply OwnerMoves.close again stage _ ht
      · rw [ht]
        cases again <;> cases stage <;> rfl
      · cases again <;> cases stage <;> simp [CloseStage.next]
      · cases again <;> cases stage <;> simp [CloseStage.next]
  | joining =>
      simp only [ht] at h
      split at h
      · cases h
        exact .join ht ‹_›
      · cases h

theorem beginTeardown_moves {again : Bool} (h : s.beginTeardown again = some s') :
    OwnerMoves P category timeout s s' := by
  unfold OwnedPoll.beginTeardown at h
  split at h
  · rename_i hidle
    cases h
    exact .begin again hidle.1
  · cases h

theorem ownerStep_moves {a : OwnerAction} (h : ownerStep P category timeout a s = some s') :
    OwnerMoves P category timeout s s' := by
  cases a with
  | consumer a =>
      cases ha : a.isWorker with
      | true =>
          cases a with
          | worker o =>
              simp only [ownerStep] at h
              split at h
              · cases h
              · obtain ⟨p, hp, rfl⟩ := Option.map_eq_some_iff.mp h
                exact .work o p (Bool.eq_false_of_not_eq_true ‹_›) hp
          | _ => cases ha
      | false =>
          have hcall : (if s.teardown = .alive then
              (consumerStep P category timeout a s.poll).map fun p => { s with poll := p }
              else none) = some s' := by
            cases a with
            | worker o => cases ha
            | _ => exact h
          split at hcall
          · obtain ⟨p, hp, rfl⟩ := Option.map_eq_some_iff.mp hcall
            obtain ⟨hworker, hclosed, hbegun⟩ := consumerStep_frame ha hp
            exact .call p ‹_› hworker hclosed hbegun
          · cases hcall
  | readClient =>
      simp only [ownerStep] at h
      split at h
      · cases h
        exact .read ‹_›
      · cases h
  | destroyPoll | assignPoll => exact beginTeardown_moves h
  | teardown => exact teardownStep_moves h
  | destroyClient =>
      simp only [ownerStep] at h
      split at h
      · cases h
        exact .destroyClient ‹_›
      · cases h

/-- What holds of a poll and its owners in every run. -/
structure OwnedPoll.Sound (s : OwnedPoll) : Prop where
  reading : s.reading = true → s.poll.worker.pc = .requesting
  begun : s.poll.CloseBegun
  freed : s.teardown = .freed → s.poll.worker.pc = .stopped
  dangled : s.dangled = true → s.clientAlive = false

theorem WorkerPc.eq_of_isRequesting {pc : WorkerPc} (h : pc.isRequesting = true) :
    pc = .requesting := by
  cases pc with
  | requesting => rfl
  | _ => cases h

theorem workerStep_ne_stopped {o : RoundTrip} (h : workerStep P category timeout o p = some p') :
    p.worker.pc ≠ .stopped := by
  intro hpc
  rw [(workerStep_eq_none o).mpr hpc] at h
  cases h

theorem OwnerMoves.sound (h : OwnerMoves P category timeout s s') (hs : s.Sound) : s'.Sound := by
  cases h with
  | work o p hreading h =>
      refine ⟨WorkerPc.eq_of_isRequesting, ?_, ?_, hs.dangled⟩
      · exact hs.begun.frame (workerStep_closers h) (workerStep_closed h)
      · exact fun hfreed => absurd (hs.freed hfreed) (workerStep_ne_stopped h)
  | call p halive hworker hclosed hbegun =>
      refine ⟨?_, hbegun hs.begun, ?_, hs.dangled⟩
      · exact hworker ▸ hs.reading
      · exact hworker ▸ hs.freed
  | read hreading =>
      refine ⟨?_, hs.begun, hs.freed, ?_⟩
      · intro h
        cases h
      · intro h
        cases hclient : s.clientAlive with
        | true =>
            rw [hclient, Bool.not_true, Bool.or_false] at h
            exact hclient ▸ hs.dangled h
        | false => rfl
  | begin again halive => exact ⟨hs.reading, hs.begun, nofun, hs.dangled⟩
  | close again stage next hclosing hleft halive hfreed =>
      refine ⟨?_, ?_, fun h => absurd h hfreed, hs.dangled⟩
      · exact (s.poll.closeAt_worker stage).symm ▸ hs.reading
      · exact hs.begun.frame (s.poll.closeAt_closers stage) (s.poll.closed_closeAt stage)
  | join hjoining hpc => exact ⟨hs.reading, hs.begun, fun _ => hpc, hs.dangled⟩
  | destroyClient hclient => exact ⟨hs.reading, hs.begun, hs.freed, fun _ => rfl⟩

theorem sound_of_reachable {opts : LongpollOptions}
    (h : (ownedPoll P category opts).Reachable s) : s.Sound := by
  apply h.invariant
  · refine ⟨nofun, ?_, nofun, nofun⟩
    intro next hmem
    cases hmem
  · intro a t t' ht hstep
    exact (ownerStep_moves hstep).sound ht

/-! ## The end of a poll -/

/-- The steps that are left of a poll that is ended, once its flag is set. -/
def OwnedPoll.left (s : OwnedPoll) : ℕ :=
  s.poll.worker.pc.left + s.reading.toNat + s.teardown.left + s.clientAlive.toNat

/-- The poll is being ended and its flag is set. -/
structure OwnedPoll.Ending (s : OwnedPoll) : Prop where
  sound : s.Sound
  begun : s.teardown ≠ .alive
  closed : s.poll.closed = true

theorem OwnerMoves.ending (h : OwnerMoves P category timeout s s') (hs : s.Ending) :
    s'.Ending ∧ s'.left + 1 ≤ s.left := by
  have hsound := h.sound hs.sound
  cases h with
  | work o p hreading h =>
      obtain ⟨hleft, hasks⟩ := workerStep_left h hs.closed
      refine ⟨⟨hsound, hs.begun, workerStep_closed h hs.closed⟩, ?_⟩
      simp only [OwnedPoll.left, hasks, hreading]
      omega
  | call p halive => exact absurd halive hs.begun
  | read hreading =>
      refine ⟨⟨hsound, hs.begun, hs.closed⟩, ?_⟩
      simp only [OwnedPoll.left, hreading, Bool.toNat_true, Bool.toNat_false]
      omega
  | begin again halive => exact absurd halive hs.begun
  | close again stage next hclosing hleft halive hfreed =>
      refine ⟨⟨hsound, halive, s.poll.closed_closeAt stage hs.closed⟩, ?_⟩
      simp only [OwnedPoll.left, Poll.closeAt_worker]
      omega
  | join hjoining hpc =>
      refine ⟨⟨hsound, nofun, hs.closed⟩, ?_⟩
      simp only [OwnedPoll.left, hjoining, Teardown.left]
      omega
  | destroyClient hclient =>
      refine ⟨⟨hsound, hs.begun, hs.closed⟩, ?_⟩
      simp only [OwnedPoll.left, hclient, Bool.toNat_true, Bool.toNat_false]
      omega

theorem OwnedPoll.Ending.left_le (hs : s.Ending) : s.left ≤ 15 := by
  have hworker : s.poll.worker.pc.left + s.reading.toNat ≤ 5 := by
    cases hreading : s.reading with
    | true =>
        rw [hs.sound.reading hreading]
        decide
    | false => cases hpc : s.poll.worker.pc with
      | closing stage => cases stage <;> decide
      | _ => simp [WorkerPc.left]
  have hteardown : s.teardown.left ≤ 9 := by
    cases ht : s.teardown with
    | closing again stage => cases again <;> cases stage <;> decide
    | _ => simp [Teardown.left]
  have hclient := s.clientAlive.toNat_le
  unfold OwnedPoll.left
  omega

/-- The worker and the thread that ends the poll do not wait for each other forever. -/
theorem OwnedPoll.Ending.exists_step (hs : s.Ending) (hfreed : s.teardown ≠ .freed) :
    ∃ a s', a ≠ .destroyClient ∧ ownerStep P category timeout a s = some s' := by
  cases ht : s.teardown with
  | alive => exact absurd ht hs.begun
  | closing again stage =>
      exact ⟨.teardown, _, nofun, by simp only [ownerStep, teardownStep, ht]; rfl⟩
  | joining =>
      cases hreading : s.reading with
      | true => exact ⟨.readClient, _, nofun, by simp only [ownerStep, hreading, if_true]; rfl⟩
      | false =>
          cases hstep : workerStep P category timeout .connectionError s.poll with
          | some p =>
              exact ⟨.consumer (.worker .connectionError), _, nofun, by
                simp only [ownerStep, hreading, Bool.false_eq_true, if_false, hstep,
                  Option.map_some]
                rfl⟩
          | none =>
              have hpc := (workerStep_eq_none _).mp hstep
              exact ⟨.teardown, _, nofun, by simp only [ownerStep, teardownStep, ht, hpc]; rfl⟩
  | freed => exact absurd ht hfreed

/-- Nothing uses a poll that is freed. -/
theorem OwnedPoll.Sound.quiet (hs : s.Sound) (hfreed : s.teardown = .freed) {a : OwnerAction}
    (ha : a ≠ .destroyClient) : ownerStep P category timeout a s = none := by
  have hpc := hs.freed hfreed
  cases a with
  | consumer a =>
      cases a with
      | worker o =>
          simp only [ownerStep, (workerStep_eq_none o).mpr hpc, Option.map_none, ite_self]
      | _ => simp [ownerStep, hfreed]
  | readClient =>
      cases hreading : s.reading with
      | true =>
          rw [hs.reading hreading] at hpc
          cases hpc
      | false => simp [ownerStep, hreading]
  | destroyPoll | assignPoll => simp [ownerStep, beginTeardown, hfreed]
  | teardown => simp [ownerStep, teardownStep, hfreed]
  | destroyClient => exact absurd rfl ha

/-- Whoever destroys a poll, or assigns over it, comes to the end: once the flag is set,
all the threads take at most fifteen steps in whatever order, they stop only when the poll
is freed, they can always get there, and then nothing uses the poll. -/
theorem teardown_finishes {opts : LongpollOptions} {actions : List OwnerAction}
    (h : (ownedPoll P category opts).Reachable s) (hbegun : s.teardown ≠ .alive)
    (hclosed : s.poll.closed = true)
    (hrun : (ownedPoll P category opts).runFrom actions s = some s') :
    actions.length ≤ 15 ∧
      ((∀ a, a ≠ .destroyClient → (ownedPoll P category opts).step a s' = none) ↔
        s'.teardown = .freed) ∧
      ∃ rest s'', (ownedPoll P category opts).runFrom rest s' = some s'' ∧
        s''.teardown = .freed := by
  have hs : s.Ending := ⟨sound_of_reachable h, hbegun, hclosed⟩
  have hstep : ∀ a t t', OwnedPoll.Ending t → (ownedPoll P category opts).step a t = some t' →
      t'.Ending := fun a t t' ht h => ((ownerStep_moves h).ending ht).1
  have hrank : ∀ a t t', OwnedPoll.Ending t → (ownedPoll P category opts).step a t = some t' →
      t'.left + 1 ≤ t.left + 0 := fun a t t' ht h => ((ownerStep_moves h).ending ht).2
  have hs' : s'.Ending := Transition.runFrom_invariant hstep hs hrun
  refine ⟨?_, ⟨?_, fun hfreed a ha => hs'.sound.quiet hfreed ha⟩, ?_⟩
  · have hlength := Transition.length_add_rank_le hstep hrank hs hrun
    have hleft := hs.left_le
    rw [List.sum_map_zero] at hlength
    omega
  · intro hquiet
    by_contra hfreed
    obtain ⟨a, t, ha, hmoves⟩ := hs'.exists_step hfreed
    rw [show ownerStep P category _ a s' = none from hquiet a ha] at hmoves
    cases hmoves
  · have hfree : ∀ t, OwnedPoll.Ending t → ¬t.teardown = .freed →
        ∃ a t', 0 = 0 ∧ (ownedPoll P category opts).step a t = some t' := by
      intro t ht hdone
      obtain ⟨a, t', -, hmoves⟩ := ht.exists_step hdone
      exact ⟨a, t', rfl, hmoves⟩
    obtain ⟨rest, s'', -, hrest, hfreed⟩ := Transition.exists_runFrom_done hstep hrank hfree hs'
    exact ⟨rest, s'', hrest, hfreed⟩

/-- A poll is destroyed while its worker is in a request. -/
theorem teardown_finishes_requesting :
    let P := Platform.ofTable []
    ∃ s s', (ownedPoll P "0123abcde" {}).Reachable s ∧ s.poll.worker.pc = .requesting ∧
      s.teardown = .closing true .closeMatches ∧
      (ownedPoll P "0123abcde" {}).runFrom [.readClient, .teardown] s = some s' ∧
      ∃ rest s'', (ownedPoll P "0123abcde" {}).runFrom rest s' = some s'' ∧
        s''.teardown = .freed := by
  intro P
  obtain ⟨s, hstart, hpc, hteardown, hclosed, s', hrun⟩ : ∃ s,
      (ownedPoll P "0123abcde" {}).runFrom
        [.consumer (.worker .connectionError), .destroyPoll, .teardown]
        (ownedPoll P "0123abcde" {}).start = some s ∧ s.poll.worker.pc = .requesting ∧
      s.teardown = .closing true .closeMatches ∧ s.poll.closed = true ∧
      ∃ s', (ownedPoll P "0123abcde" {}).runFrom [.readClient, .teardown] s = some s' :=
    ⟨_, rfl, rfl, rfl, rfl, _, rfl⟩
  have hs := Transition.Reachable.start.runFrom _ hstart
  have hbegun : s.teardown ≠ .alive := by simp [hteardown]
  exact ⟨s, s', hs, hpc, hteardown, hrun, (teardown_finishes hs hbegun hclosed hrun).2.2⟩

/-! ## The client -/

/-- If the client were destroyed now, the worker could read it afterwards. -/
def OwnedPoll.NeedsClient (T : Transition OwnedPoll OwnerAction) (s : OwnedPoll) : Prop :=
  ∃ mid, T.step .destroyClient s = some mid ∧ T.Possible (fun t => t.dangled = true) mid

/-- The flag is not set, and the worker is not on its way out because of an error. -/
def Poll.AsksAgain (p : Poll) : Prop :=
  p.closed = false ∧
    match p.worker.pc with
    | .received status _ _ => status < 400
    | .pushingError _ | .closing _ | .stopped => False
    | _ => True

theorem Poll.not_asksAgain (h : p.closed = true) : ¬p.AsksAgain := by
  rintro ⟨hopen, -⟩
  rw [h] at hopen
  cases hopen

/-- The worker reads the client no more. -/
structure OwnedPoll.Released (s : OwnedPoll) : Prop where
  reading : s.reading = false
  poll : ¬s.poll.AsksAgain
  dangled : s.dangled = false

theorem workerStep_released {o : RoundTrip} (h : workerStep P category timeout o p = some p')
    (hp : ¬p.AsksAgain) : ¬p'.AsksAgain ∧ p'.worker.pc.isRequesting = false := by
  cases hc : p.closed with
  | true => exact ⟨Poll.not_asksAgain (workerStep_closed h hc), (workerStep_left h hc).2⟩
  | false =>
      unfold workerStep at h
      cases hpc : p.worker.pc with
      | loopHead | requesting | sleeping | pushing =>
          exact absurd ⟨hc, by simp [hpc]⟩ hp
      | received status raw rid =>
          have hstatus : 400 ≤ status := by
            by_contra hlt
            exact hp ⟨hc, by simpa [hpc] using hlt⟩
          simp only [hpc, hc, Bool.false_eq_true, if_false] at h
          cases h
          simp [Poll.AsksAgain, handleResponse_pc, errorOf, hstatus, WorkerPc.isRequesting]
      | pushingError e =>
          simp only [hpc] at h
          cases h
          simp [Poll.AsksAgain, WorkerPc.isRequesting]
      | closing stage =>
          simp only [hpc] at h
          cases h
          cases stage <;> simp [Poll.AsksAgain, CloseStage.next, WorkerPc.isRequesting]
      | stopped => simp [hpc] at h

theorem Poll.AsksAgain.frame (h : p'.AsksAgain) (hworker : p'.worker = p.worker)
    (hclosed : p.closed = true → p'.closed = true) : p.AsksAgain := by
  obtain ⟨hopen, hpc⟩ := h
  refine ⟨?_, hworker ▸ hpc⟩
  cases hc : p.closed with
  | true => exact absurd (hclosed hc) (by simp [hopen])
  | false => rfl

theorem OwnerMoves.released (h : OwnerMoves P category timeout s s') (hs : s.Released) :
    s'.Released := by
  cases h with
  | work o p hreading h =>
      obtain ⟨hpoll, hasks⟩ := workerStep_released h hs.poll
      exact ⟨hasks, hpoll, hs.dangled⟩
  | call p halive hworker hclosed =>
      exact ⟨hs.reading, fun h => hs.poll (h.frame hworker hclosed), hs.dangled⟩
  | read hreading =>
      rw [hs.reading] at hreading
      cases hreading
  | close again stage next =>
      refine ⟨hs.reading, fun h => hs.poll (h.frame ?_ ?_), hs.dangled⟩
      · exact s.poll.closeAt_worker stage
      · exact s.poll.closed_closeAt stage
  | begin | join | destroyClient => exact ⟨hs.reading, hs.poll, hs.dangled⟩

/-- What the worker can come to do when it goes on by itself. -/
theorem possible_of_workerStep {opts : LongpollOptions} {Q : OwnedPoll → Prop} (o : RoundTrip)
    (hreading : s.reading = false)
    (hp : (startLongpoll P category opts).step (.worker o) s.poll = some p)
    (h : (ownedPoll P category opts).Possible Q
      { s with poll := p, reading := p.worker.pc.isRequesting }) :
    (ownedPoll P category opts).Possible Q s := by
  refine .after (.consumer (.worker o)) ?_ h
  have hstep : workerStep P category _ o s.poll = some p := hp
  simp only [ownedPoll, ownerStep, hreading, Bool.false_eq_true, if_false, hstep, Option.map_some]

theorem possible_of_reading {opts : LongpollOptions} (hreading : s.reading = true)
    (hclient : s.clientAlive = false) :
    (ownedPoll P category opts).Possible (fun t => t.dangled = true) s := by
  have hread : (ownedPoll P category opts).step .readClient s =
      some { s with reading := false, dangled := true } := by
    simp [ownedPoll, ownerStep, hreading, hclient]
  exact .after .readClient hread (.here rfl)

/-- The steps of the worker before it tests the flag, when a request fails. -/
def WorkerPc.untilTest : WorkerPc → ℕ
  | .requesting | .received .. => 2
  | .sleeping | .pushing .. => 1
  | _ => 0

/-- A worker that asks again begins a request or comes nearer to the test of the flag. -/
theorem Poll.AsksAgain.exists_step (h : p.AsksAgain) :
    ∃ o p', workerStep P category timeout o p = some p' ∧
      (p'.worker.pc.isRequesting = true ∨ p'.worker.pc.isRequesting = false ∧ p'.AsksAgain ∧
        p'.worker.pc.untilTest < p.worker.pc.untilTest) := by
  obtain ⟨hc, hasks⟩ := h
  refine ⟨.connectionError, ?_⟩
  unfold workerStep
  cases hpc : p.worker.pc with
  | loopHead =>
      simp only [hc, Bool.false_eq_true, if_false]
      exact ⟨_, rfl, .inl rfl⟩
  | requesting => exact ⟨_, rfl, .inr ⟨rfl, ⟨hc, trivial⟩, Nat.one_lt_two⟩⟩
  | sleeping =>
      simp only [hc, Bool.false_eq_true, if_false]
      exact ⟨_, rfl, .inr ⟨rfl, ⟨rfl, trivial⟩, Nat.zero_lt_one⟩⟩
  | received status raw rid =>
      have hlt : status < 400 := by simpa [hpc] using hasks
      have hpc' := handleResponse_pc (P := P) p.worker status raw rid
      simp only [errorOf, Int.not_le.mpr hlt, if_false] at hpc'
      simp only [hc, Bool.false_eq_true, if_false]
      refine ⟨_, rfl, .inr ?_⟩
      cases hev : eventOf P (.response status raw rid) with
      | none => simp [Poll.AsksAgain, hpc', hev, WorkerPc.isRequesting, WorkerPc.untilTest]
      | some ev => simp [Poll.AsksAgain, hpc', hev, WorkerPc.isRequesting, WorkerPc.untilTest]
  | pushing ev body =>
      refine ⟨_, rfl, .inr ⟨rfl, ⟨?_, trivial⟩, Nat.zero_lt_one⟩⟩
      cases ev <;> exact hc
  | pushingError | closing | stopped => simp [hpc] at hasks

/-- A worker that asks again reads the client first. -/
theorem possible_of_asksAgain {opts : LongpollOptions} (h : s.poll.AsksAgain)
    (hreading : s.reading = false) (hclient : s.clientAlive = false) :
    (ownedPoll P category opts).Possible (fun t => t.dangled = true) s := by
  induction hn : s.poll.worker.pc.untilTest using Nat.strong_induction_on generalizing s with
  | _ n ih =>
      obtain ⟨o, p, hstep, hnext⟩ := h.exists_step
      apply possible_of_workerStep o hreading hstep
      rcases hnext with hasks | ⟨hasks, hp, hlt⟩
      · exact possible_of_reading hasks hclient
      · exact ih _ (hn ▸ hlt) hp hasks hclient rfl

/-- When the owner of the client still has to keep it: while the worker reads it, or will
ask again. After a `close()` has returned it is needed exactly if the worker had tested
the flag before and has not read the client yet; when the poll is freed, never. -/
theorem client_needed_iff {opts : LongpollOptions}
    (h : (ownedPoll P category opts).Reachable s) (hclient : s.clientAlive = true) :
    (s.NeedsClient (ownedPoll P category opts) ↔ s.reading = true ∨ s.poll.AsksAgain) ∧
      (none ∈ s.poll.closers →
        (s.NeedsClient (ownedPoll P category opts) ↔ s.reading = true)) ∧
      (s.teardown = .freed → ¬s.NeedsClient (ownedPoll P category opts)) := by
  have hs := sound_of_reachable h
  have hstep : (ownedPoll P category opts).step .destroyClient s =
      some { s with clientAlive := false } := if_pos hclient
  have hneeds : s.NeedsClient (ownedPoll P category opts) ↔
      s.reading = true ∨ s.poll.AsksAgain := by
    constructor
    · rintro ⟨mid, hmid, hdangles⟩
      rw [hstep] at hmid
      cases hmid
      by_contra hnot
      obtain ⟨hreading, hpoll⟩ := not_or.mp hnot
      have hdangled : s.dangled = false := by
        cases hd : s.dangled with
        | true =>
            rw [hs.dangled hd] at hclient
            cases hclient
        | false => rfl
      refine Transition.not_possible (I := OwnedPoll.Released) ?_ ?_ ?_ hdangles
      · exact fun a t t' ht hmoves => (ownerStep_moves hmoves).released ht
      · intro t ht
        simp [ht.dangled]
      · exact ⟨Bool.eq_false_of_not_eq_true hreading, hpoll, hdangled⟩
    · intro huse
      refine ⟨_, hstep, ?_⟩
      by_cases hreading : s.reading = true
      · exact possible_of_reading hreading rfl
      · exact possible_of_asksAgain (huse.resolve_left hreading)
          (Bool.eq_false_of_not_eq_true hreading) rfl
  refine ⟨hneeds, ?_, ?_⟩
  · intro hreturned
    have hclosed : s.poll.closed = true := hs.begun none hreturned nofun
    rw [hneeds, or_iff_left (Poll.not_asksAgain hclosed)]
  · intro hfreed
    have hpc := hs.freed hfreed
    rw [hneeds]
    rintro (hreading | ⟨-, hasks⟩)
    · rw [hs.reading hreading] at hpc
      cases hpc
    · simp [hpc] at hasks

/-- A `close()` has returned, and the worker still reads the client. -/
theorem client_needed_iff_closed :
    let P := Platform.ofTable []
    ∃ s, (ownedPoll P "0123abcde" {}).Reachable s ∧ none ∈ s.poll.closers ∧
      s.NeedsClient (ownedPoll P "0123abcde" {}) := by
  intro P
  obtain ⟨s, hrun, hclosers, hreading, hclient⟩ : ∃ s,
      (ownedPoll P "0123abcde" {}).runFrom
        [.consumer (.worker .connectionError), .consumer .beginClose, .consumer (.closer 0),
          .consumer (.closer 0), .consumer (.closer 0), .consumer (.closer 0)]
        (ownedPoll P "0123abcde" {}).start = some s ∧ s.poll.closers = [none] ∧
      s.reading = true ∧ s.clientAlive = true := ⟨_, rfl, rfl, rfl, rfl⟩
  have hs := Transition.Reachable.start.runFrom _ hrun
  have hreturned : none ∈ s.poll.closers := by simp [hclosers]
  exact ⟨s, hs, hreturned, ((client_needed_iff hs hclient).2.1 hreturned).mpr hreading⟩

end Audd
