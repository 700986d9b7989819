import Audd.Lib.Ranking
import Audd.LongpollBackoff
import Audd.LongpollCursor

/-!
# The clock of a poll

`sleep_or_stop` of the worker step by step: a loop of short naps that reads a steady
clock and the flag. The other threads go on in between and the clock advances by any
amount. With the loop the poll is a refinement of the one whose worker waits in a
single step, so what is proved of that one holds of this one too.

## Implementation notes

Times are in nanoseconds, durations of the source in milliseconds. A nap lasts at least
as long as it was asked to, and one of no or negative length ends at once.
-/

namespace Audd

/-- A millisecond in nanoseconds. -/
def millisecond : ℤ := 1000000

/-- The worker's place in `sleep_or_stop`. -/
inductive SleepPc
  | starting
  | testing
  | checking
  | measuring
  | asleep (wakeAt : ℤ)
  | returning
deriving DecidableEq

structure Sleep where
  pc : SleepPc := .starting
  deadline : ℤ := 0
  /-- How many naps of this wait were asked to last. -/
  naps : ℕ := 0

/-- A poll, the clock, and when each request was sent and each round trip completed. -/
structure ClockedPoll where
  poll : Poll
  now : ℤ := 0
  sleep : Sleep := {}
  sentAt : List ℤ := []
  completedAt : List ℤ := []

inductive ClockAction
  | tick (elapsed : ℕ)
  | poll (a : PollAction)

/-- The nap, in milliseconds, that is asked for with some time remaining. -/
def napFor (remaining : ℤ) : ℤ := min 100 (remaining.tdiv millisecond)

section
variable (P : Platform) (category : String) (timeout : ℤ)

/-- One access of `sleep_or_stop` to the clock or the flag, or the end of a nap. -/
def sleepStep (outcome : RoundTrip) (t : ClockedPoll) : Option ClockedPoll :=
  -- the worker's own step reads the flag and stops, or doubles the back-off
  let leave := (workerStep P category timeout outcome t.poll).map fun s => { t with poll := s }
  match t.sleep.pc with
  | .starting => some { t with sleep :=
      { pc := .testing, deadline := t.now + t.poll.worker.backoff * millisecond } }
  | .testing => some { t with sleep := { t.sleep with
      pc := if t.now < t.sleep.deadline then .checking else .returning } }
  | .checking =>
      if t.poll.closed then leave
      else some { t with sleep := { t.sleep with pc := .measuring } }
  | .measuring =>
      let nap := napFor (t.sleep.deadline - t.now)
      some { t with sleep := { t.sleep with
        pc := .asleep (t.now + nap * millisecond)
        naps := if 0 < nap then t.sleep.naps + 1 else t.sleep.naps } }
  | .asleep wakeAt =>
      if wakeAt ≤ t.now then some { t with sleep := { t.sleep with pc := .testing } } else none
  | .returning => leave

def clockStep : ClockAction → ClockedPoll → Option ClockedPoll
  | .tick elapsed, t => some { t with now := t.now + elapsed }
  | .poll (.worker outcome), t =>
      match t.poll.worker.pc with
      | .sleeping => sleepStep P category timeout outcome t
      | .loopHead => (workerStep P category timeout outcome t.poll).map fun s =>
          { t with
            poll := s
            sentAt := if t.poll.closed then t.sentAt else t.sentAt ++ [t.now] }
      | .requesting => (workerStep P category timeout outcome t.poll).map fun s =>
          { t with poll := s, sleep := {}, completedAt := t.completedAt ++ [t.now] }
      | _ => (workerStep P category timeout outcome t.poll).map fun s =>
          { t with poll := s, sleep := {} }
  | .poll a, t => (pollStep P category timeout a t.poll).map fun s => { t with poll := s }

/-- `start_longpoll_` with a clock. -/
def clockedLongpoll (opts : LongpollOptions) : Transition ClockedPoll ClockAction where
  start := { poll := (startLongpoll P category opts).start }
  step := clockStep P category (if opts.timeoutSeconds ≤ 0 then 50 else opts.timeoutSeconds)

end

variable {P : Platform} {category : String} {timeout : ℤ} {t t' : ClockedPoll} {s s' : Poll}

/-! ## What a step can do -/

/-- The effect of one step with a clock. -/
inductive ClockMoves (P : Platform) (category : String) (timeout : ℤ) (t : ClockedPoll) :
    ClockedPoll → Prop
  | tick (elapsed : ℕ) : ClockMoves P category timeout t { t with now := t.now + elapsed }
  | begin (hpc : t.poll.worker.pc = .sleeping) (h : t.sleep.pc = .starting) :
      ClockMoves P category timeout t { t with sleep :=
        { pc := .testing, deadline := t.now + t.poll.worker.backoff * millisecond } }
  | test (hpc : t.poll.worker.pc = .sleeping) (h : t.sleep.pc = .testing) :
      ClockMoves P category timeout t { t with sleep := { t.sleep with
        pc := if t.now < t.sleep.deadline then .checking else .returning } }
  | check (hpc : t.poll.worker.pc = .sleeping) (h : t.sleep.pc = .checking)
      (hc : t.poll.closed = false) :
      ClockMoves P category timeout t { t with sleep := { t.sleep with pc := .measuring } }
  | nap (hpc : t.poll.worker.pc = .sleeping) (h : t.sleep.pc = .measuring) :
      ClockMoves P category timeout t { t with sleep := { t.sleep with
        pc := .asleep (t.now + napFor (t.sleep.deadline - t.now) * millisecond)
        naps := if 0 < napFor (t.sleep.deadline - t.now) then t.sleep.naps + 1
          else t.sleep.naps } }
  | rise (wakeAt : ℤ) (hpc : t.poll.worker.pc = .sleeping) (h : t.sleep.pc = .asleep wakeAt)
      (hle : wakeAt ≤ t.now) :
      ClockMoves P category timeout t { t with sleep := { t.sleep with pc := .testing } }
  | stop (hpc : t.poll.worker.pc = .sleeping) (hc : t.poll.closed = true)
      (h : t.sleep.pc = .checking ∨ t.sleep.pc = .returning) :
      ClockMoves P category timeout t { t with poll :=
        { t.poll with worker := { t.poll.worker with pc := .stopped } } }
  | wake (hpc : t.poll.worker.pc = .sleeping) (hc : t.poll.closed = false)
      (h : t.sleep.pc = .returning) :
      ClockMoves P category timeout t { t with poll := { t.poll with worker :=
        { t.poll.worker with
          pc := .loopHead, backoff := min (t.poll.worker.backoff * 2) 30000 } } }
  | send (hpc : t.poll.worker.pc = .loopHead) (hc : t.poll.closed = false) :
      ClockMoves P category timeout t { t with
        poll := { t.poll with
          worker := { t.poll.worker with pc := .requesting }
          requests := t.poll.requests ++
            [requestParams category timeout t.poll.worker.curSince] }
        sentAt := t.sentAt ++ [t.now] }
  | complete (o : RoundTrip) (s : Poll) (hpc : t.poll.worker.pc = .requesting)
      (h : workerStep P category timeout o t.poll = some s) :
      ClockMoves P category timeout t
        { t with poll := s, sleep := {}, completedAt := t.completedAt ++ [t.now] }
  | work (s : Poll) (sleep : Sleep) (o : RoundTrip)
      (hpc : t.poll.worker.pc ≠ .sleeping ∧ t.poll.worker.pc ≠ .requesting)
      (hreq : s.requests = t.poll.requests)
      (hsleep : s.worker.pc = .sleeping → sleep = {})
      (h : workerStep P category timeout o t.poll = some s) :
      ClockMoves P category timeout t { t with poll := s, sleep }
  | frame (s : Poll) (a : PollAction) (h : pollStep P category timeout a t.poll = some s)
      (hworker : s.worker = t.poll.worker) (hout : s.outcomes = t.poll.outcomes)
      (hreq : s.requests = t.poll.requests) :
      ClockMoves P category timeout t { t with poll := s }

theorem Poll.closeAt_history (s : Poll) (stage : CloseStage) :
    (s.closeAt stage).outcomes = s.outcomes ∧ (s.closeAt stage).requests = s.requests := by
  cases stage <;> exact ⟨rfl, rfl⟩

theorem callerStep_history (h : callerStep s = some s') :
    s'.outcomes = s.outcomes ∧ s'.requests = s.requests := by
  unfold callerStep at h
  cases hca : s.caller with
  | pulling =>
      simp only [hca] at h
      split at h
      · cases h
        exact ⟨rfl, rfl⟩
      · cases h
        exact ⟨rfl, rfl⟩
      · cases h
  | delivering | returned =>
      simp only [hca] at h
      cases h
      try exact ⟨rfl, rfl⟩
  | closing stage =>
      simp only [hca] at h
      cases h
      exact s.closeAt_history stage
  | joining =>
      simp only [hca] at h
      split at h
      · cases h
        exact ⟨rfl, rfl⟩
      · cases h

/-- The worker sends a request only where it tests the flag. -/
theorem workerStep_requests {o : RoundTrip} (h : workerStep P category timeout o s = some s')
    (hpc : s.worker.pc ≠ .loopHead) : s'.requests = s.requests := by
  cases workerStep_moves h with
  | send hc hpc' => exact absurd hpc' hpc
  | push ev body => cases ev <;> rfl
  | workerClose stage | callerClose stage | closerClose _ stage => cases stage <;> rfl
  | _ => rfl

theorem sleepStep_moves {o : RoundTrip} (hpc : t.poll.worker.pc = .sleeping)
    (h : sleepStep P category timeout o t = some t') : ClockMoves P category timeout t t' := by
  unfold sleepStep at h
  cases hsleep : t.sleep.pc with
  | starting =>
      simp only [hsleep] at h
      cases h
      exact .begin hpc hsleep
  | testing =>
      simp only [hsleep] at h
      cases h
      exact .test hpc hsleep
  | checking =>
      simp only [hsleep, workerStep, hpc] at h
      split at h
      · simp only [Option.map_some] at h
        cases h
        exact .stop hpc ‹_› (.inl hsleep)
      · cases h
        exact .check hpc hsleep (Bool.eq_false_of_not_eq_true ‹_›)
  | measuring =>
      simp only [hsleep] at h
      cases h
      exact .nap hpc hsleep
  | asleep wakeAt =>
      simp only [hsleep] at h
      split at h
      · cases h
        exact .rise wakeAt hpc hsleep ‹_›
      · cases h
  | returning =>
      simp only [hsleep, workerStep, hpc] at h
      split at h
      · cases h
        exact .stop hpc ‹_› (.inr hsleep)
      · cases h
        exact .wake hpc (Bool.eq_false_of_not_eq_true ‹_›) hsleep

def PollAction.isWorker : PollAction → Bool
  | .worker _ => true
  | _ => false

/-- The other threads leave the worker and its history alone. -/
theorem pollStep_frame {a : PollAction} (ha : a.isWorker = false)
    (h : pollStep P category timeout a s = some s') :
    s'.worker = s.worker ∧ s'.outcomes = s.outcomes ∧ s'.requests = s.requests := by
  cases a with
  | worker o => cases ha
  | matchPump | notificationPump =>
      obtain ⟨l, -, rfl⟩ := Option.map_eq_some_iff.mp h
      exact ⟨rfl, rfl, rfl⟩
  | caller => exact ⟨callerStep_worker h, callerStep_history h⟩
  | beginClose =>
      cases h
      exact ⟨rfl, rfl, rfl⟩
  | closer i =>
      simp only [pollStep] at h
      split at h
      · cases h
        exact ⟨s.closeAt_worker _, s.closeAt_history _⟩
      · cases h

theorem clockStep_other {a : PollAction} (ha : a.isWorker = false) (t : ClockedPoll) :
    clockStep P category timeout (.poll a) t =
      (pollStep P category timeout a t.poll).map fun s => { t with poll := s } := by
  cases a with
  | worker o => cases ha
  | _ => rfl

theorem clockStep_moves {a : ClockAction} (h : clockStep P category timeout a t = some t') :
    ClockMoves P category timeout t t' := by
  cases a with
  | tick elapsed =>
      cases h
      exact .tick elapsed
  | poll a =>
      cases a with
      | worker o =>
          cases hpc : t.poll.worker.pc with
          | sleeping =>
              simp only [clockStep, hpc] at h
              exact sleepStep_moves hpc h
          | loopHead =>
              simp only [clockStep, hpc] at h
              obtain ⟨s, hs, rfl⟩ := Option.map_eq_some_iff.mp h
              have hstep := hs
              simp only [workerStep, hpc] at hs
              split at hs
              · rw [if_pos ‹_›]
                cases hs
                exact .work _ _ o (by simp [hpc]) rfl (by simp) hstep
              · rw [if_neg ‹_›]
                cases hs
                exact .send hpc (Bool.eq_false_of_not_eq_true ‹_›)
          | requesting =>
              simp only [clockStep, hpc] at h
              obtain ⟨s, hs, rfl⟩ := Option.map_eq_some_iff.mp h
              exact .complete o s hpc hs
          | _ =>
              simp only [clockStep, hpc] at h
              obtain ⟨s, hs, rfl⟩ := Option.map_eq_some_iff.mp h
              exact .work s {} o (by simp [hpc]) (workerStep_requests hs (by simp [hpc]))
                (fun _ => rfl) hs
      | _ =>
          rw [clockStep_other rfl] at h
          obtain ⟨s, hs, rfl⟩ := Option.map_eq_some_iff.mp h
          obtain ⟨hworker, hout, hreq⟩ := pollStep_frame rfl hs
          exact .frame s _ hs hworker hout hreq

/-- Each step with a clock is a step of the poll or leaves it as it is. -/
theorem ClockMoves.refines (h : ClockMoves P category timeout t t') :
    t'.poll = t.poll ∨ ∃ a, pollStep P category timeout a t.poll = some t'.poll := by
  cases h with
  | tick | begin | test | check | nap | rise => exact .inl rfl
  | stop hpc hc => exact .inr ⟨.worker .connectionError, by simp [pollStep, workerStep, hpc, hc]⟩
  | wake hpc hc => exact .inr ⟨.worker .connectionError, by simp [pollStep, workerStep, hpc, hc]⟩
  | send hpc hc => exact .inr ⟨.worker .connectionError, by simp [pollStep, workerStep, hpc, hc]⟩
  | complete o s hpc hs => exact .inr ⟨.worker o, hs⟩
  | work s sleep o hpc hreq hsleep hs => exact .inr ⟨.worker o, hs⟩
  | frame s a hs => exact .inr ⟨a, hs⟩

theorem poll_reachable {opts : LongpollOptions}
    (h : (clockedLongpoll P category opts).Reachable t) :
    (startLongpoll P category opts).Reachable t.poll :=
  h.refines (f := ClockedPoll.poll) rfl fun _ _ _ hstep => (clockStep_moves hstep).refines

/-! ## A wait -/

/-- A nap of at least a millisecond ends by the deadline, less than a millisecond before
it unless it is a whole one. -/
theorem napFor_spec (r : ℤ) : napFor r ≤ 100 ∧ (0 < napFor r →
    millisecond ≤ r ∧ napFor r * millisecond ≤ r ∧
      (napFor r = 100 ∨ r < napFor r * millisecond + millisecond)) := by
  unfold napFor millisecond
  by_cases hr : 0 ≤ r
  · rw [Int.tdiv_eq_ediv_of_nonneg hr]
    omega
  · have hneg : r.tdiv 1000000 ≤ 0 := by
      have hopp : 0 ≤ (-r).tdiv 1000000 := Int.tdiv_nonneg (by omega) (by omega)
      rw [Int.neg_tdiv] at hopp
      omega
    omega

/-- When a worker that naps goes on at the earliest. -/
def Sleep.goesOn (sleep : Sleep) (now : ℤ) : ℤ :=
  match sleep.pc with
  | .asleep wakeAt => max wakeAt now
  | _ => now

/-- How a wait of some milliseconds stands at a time. -/
structure Sleep.Keeps (sleep : Sleep) (wait : ℕ) (now : ℤ) : Prop where
  fresh : sleep.pc = .starting → sleep.naps = 0
  began : sleep.pc ≠ .starting → sleep.deadline ≤ now + wait * millisecond
  rested : sleep.pc ≠ .starting → millisecond ≤ sleep.deadline - sleep.goesOn now →
    sleep.naps * (100 * millisecond) ≤
      sleep.goesOn now - (sleep.deadline - wait * millisecond)
  few : sleep.naps * 100 ≤ wait + 100
  short : ∀ wakeAt, sleep.pc = .asleep wakeAt → wakeAt ≤ now + 100 * millisecond
  inTime : ∀ wakeAt, sleep.pc = .asleep wakeAt → wakeAt ≤ max now sleep.deadline
  ended : sleep.pc = .returning → sleep.deadline ≤ now

namespace Sleep.Keeps

variable {sleep : Sleep} {wait : ℕ} {now : ℤ}

theorem tick (h : sleep.Keeps wait now) (elapsed : ℕ) : sleep.Keeps wait (now + elapsed) := by
  have hgoesOn : sleep.goesOn now ≤ sleep.goesOn (now + elapsed) := by
    unfold goesOn
    split <;> omega
  constructor
  · exact h.fresh
  · intro hpc
    have hbegan := h.began hpc
    omega
  · intro hpc hleft
    have hrested := h.rested hpc (by omega)
    omega
  · exact h.few
  · intro wakeAt hpc
    have hshort := h.short wakeAt hpc
    omega
  · intro wakeAt hpc
    have hinTime := h.inTime wakeAt hpc
    omega
  · intro hpc
    have hended := h.ended hpc
    omega

/-- Places of the loop in which no nap is under way. -/
theorem goto {pc : SleepPc} (h : sleep.Keeps wait now) (hpc : sleep.pc ≠ .starting)
    (hnow : sleep.goesOn now = now) (hpc' : pc ≠ .starting ∧ ∀ wakeAt, pc ≠ .asleep wakeAt)
    (hended : pc = .returning → sleep.deadline ≤ now) :
    ({ sleep with pc } : Sleep).Keeps wait now where
  fresh h := absurd h hpc'.1
  began _ := h.began hpc
  rested _ := by
    have hgoesOn : ({ sleep with pc } : Sleep).goesOn now = sleep.goesOn now := by
      rw [hnow]
      unfold goesOn
      split
      · exact absurd ‹_› (hpc'.2 _)
      · rfl
    rw [hgoesOn]
    exact h.rested hpc
  few := h.few
  short wakeAt h := absurd h (hpc'.2 wakeAt)
  inTime wakeAt h := absurd h (hpc'.2 wakeAt)
  ended := hended

theorem nap (h : sleep.Keeps wait now) (hpc : sleep.pc = .measuring) :
    ({ sleep with
        pc := .asleep (now + napFor (sleep.deadline - now) * millisecond)
        naps := if 0 < napFor (sleep.deadline - now) then sleep.naps + 1 else sleep.naps } :
      Sleep).Keeps wait now := by
  obtain ⟨hmax, hnap⟩ := napFor_spec (sleep.deadline - now)
  have hbegan := h.began (by simp [hpc])
  have hrested := h.rested (by simp [hpc])
  have hfew := h.few
  simp only [goesOn, hpc] at hrested
  generalize napFor (sleep.deadline - now) = nap at hmax hnap
  by_cases hpos : 0 < nap
  · obtain ⟨hlong, hends, hwhole⟩ := hnap hpos
    rw [if_pos hpos]
    constructor
    · intro hstart
      cases hstart
    · exact fun _ => hbegan
    · intro _
      simp only [goesOn, millisecond] at *
      push_cast
      omega
    · have hrested := hrested hlong
      simp only [millisecond] at *
      omega
    · rintro wakeAt ⟨rfl⟩
      simp only [millisecond] at *
      omega
    · rintro wakeAt ⟨rfl⟩
      change now + nap * millisecond ≤ max now sleep.deadline
      omega
    · intro hreturn
      cases hreturn
  · rw [if_neg hpos]
    have hback : now + nap * millisecond ≤ now := by
      simp only [millisecond]
      omega
    constructor
    · intro hstart
      cases hstart
    · exact fun _ => hbegan
    · intro _
      simp only [goesOn, max_eq_right hback]
      exact hrested
    · exact hfew
    · rintro wakeAt ⟨rfl⟩
      simp only [millisecond] at *
      omega
    · rintro wakeAt ⟨rfl⟩
      omega
    · intro hreturn
      cases hreturn

end Sleep.Keeps

/-- A waiting worker keeps to its back-off. -/
def ClockedPoll.Waits (t : ClockedPoll) : Prop :=
  t.poll.worker.pc = .sleeping → t.sleep.Keeps t.poll.worker.backoff t.now

theorem Sleep.keeps_start (wait : ℕ) (now : ℤ) : ({} : Sleep).Keeps wait now where
  fresh _ := rfl
  began h := absurd rfl h
  rested h := absurd rfl h
  few := by simp
  short _ h := by cases h
  inTime _ h := by cases h
  ended h := by cases h

theorem ClockMoves.waits (h : ClockMoves P category timeout t t') (ht : t.Waits) : t'.Waits := by
  cases h with
  | tick elapsed => exact fun hpc => (ht hpc).tick elapsed
  | begin hpc h =>
      intro _
      constructor <;> simp [Sleep.goesOn, millisecond]
  | test hpc h =>
      intro _
      refine (ht hpc).goto (by simp [h]) (by simp [Sleep.goesOn, h]) ?_ ?_
      · split <;> simp
      · split <;> simp_all
  | check hpc h hc =>
      exact fun _ => (ht hpc).goto (by simp [h]) (by simp [Sleep.goesOn, h]) (by simp) (by simp)
  | nap hpc h => exact fun _ => (ht hpc).nap h
  | rise wakeAt hpc h hle =>
      intro _
      refine (ht hpc).goto (by simp [h]) ?_ (by simp) (by simp)
      simp [Sleep.goesOn, h, hle]
  | stop hpc => exact fun hpc => by cases hpc
  | wake hpc => exact fun hpc => by cases hpc
  | send hpc => exact fun hpc => by cases hpc
  | complete => exact fun _ => Sleep.keeps_start _ _
  | work s sleep o hpc hreq hsleep hs =>
      intro hpc'
      obtain rfl := hsleep hpc'
      exact Sleep.keeps_start _ _
  | frame s a hs hworker =>
      intro hpc
      rw [hworker] at hpc ⊢
      exact ht hpc

theorem waits_of_reachable {opts : LongpollOptions}
    (h : (clockedLongpoll P category opts).Reachable t) : t.Waits := by
  apply h.invariant
  · exact fun hpc => by cases hpc
  · exact fun a t t' ht hstep => (clockStep_moves hstep).waits ht

/-! ## The pace of the requests -/

/-- Until when the worker holds back its next request. -/
def ClockedPoll.Holds (t : ClockedPoll) : WorkerPc → Prop
  | .loopHead => ∀ k, trailingErrors t.poll.outcomes = k + 1 →
      ∀ a ∈ t.completedAt.getLast?, a + backoffAfter k * millisecond ≤ t.now
  | .sleeping => t.sleep.pc ≠ .starting →
      ∀ a ∈ t.completedAt.getLast?, a + t.poll.worker.backoff * millisecond ≤ t.sleep.deadline
  | _ => True

/-- The requests keep the pace of the back-off. -/
structure ClockedPoll.Paced (t : ClockedPoll) : Prop where
  logged : t.sentAt.length = t.poll.requests.length ∧
    t.completedAt.length = t.poll.outcomes.length
  past : ∀ a ∈ t.completedAt, a ≤ t.now
  holds : t.Holds t.poll.worker.pc
  gaps : ∀ (i k : ℕ) (a b : ℤ), trailingErrors (t.poll.outcomes.take (i + 1)) = k + 1 →
    t.completedAt[i]? = some a → t.sentAt[i + 1]? = some b →
      a + backoffAfter k * millisecond ≤ b

theorem trailingErrors_of_response {outcomes : List RoundTrip} {status : ℤ} {raw rid : String}
    (h : outcomes.getLast? = some (.response status raw rid)) : trailingErrors outcomes = 0 := by
  obtain ⟨before, rfl⟩ := List.getLast?_eq_some_iff.mp h
  rw [trailingErrors_concat]
  rfl

namespace ClockedPoll.Paced

theorem tick (ht : t.Paced) (elapsed : ℕ) :
    ({ t with now := t.now + elapsed } : ClockedPoll).Paced where
  logged := ht.logged
  past a ha := (ht.past a ha).trans (Int.le_add_of_nonneg_right (Int.natCast_nonneg elapsed))
  holds := by
    have hholds := ht.holds
    cases hpc : t.poll.worker.pc with
    | loopHead =>
        simp only [hpc, Holds] at hholds ⊢
        intro k hk a ha
        have hdue := hholds k hk a ha
        omega
    | sleeping =>
        simp only [hpc, Holds] at hholds ⊢
        exact hholds
    | _ => trivial
  gaps := ht.gaps

/-- A step that sends nothing and completes nothing. -/
theorem frame {s : Poll} {sleep : Sleep} (ht : t.Paced) (hout : s.outcomes = t.poll.outcomes)
    (hreq : s.requests = t.poll.requests)
    (hholds : ({ t with poll := s, sleep } : ClockedPoll).Holds s.worker.pc) :
    ({ t with poll := s, sleep } : ClockedPoll).Paced where
  logged := by
    simp only [hreq, hout]
    exact ht.logged
  past := ht.past
  holds := hholds
  gaps := by
    simp only [hout]
    exact ht.gaps

/-- A completed round trip comes after the requests that have been answered. -/
theorem complete {s : Poll} {o : RoundTrip} (ht : t.Paced)
    (hlen : t.poll.requests.length = t.poll.outcomes.length + 1)
    (hout : s.outcomes = t.poll.outcomes ++ [o]) (hreq : s.requests = t.poll.requests)
    (hpc : s.worker.pc ≠ .loopHead) :
    ({ t with
        poll := s
        sleep := {}
        completedAt := t.completedAt ++ [t.now] } : ClockedPoll).Paced where
  logged := by simp [hreq, hout, ht.logged]
  past := by simpa [or_imp, forall_and] using ht.past
  holds := by
    cases hpc' : s.worker.pc with
    | loopHead => exact absurd hpc' hpc
    | sleeping => simp [Holds]
    | _ => simp [Holds]
  gaps := by
    intro i k a b hk ha hb
    have hlt : i + 1 < t.sentAt.length := (List.getElem?_eq_some_iff.mp hb).1
    have hle : i + 1 ≤ t.poll.outcomes.length := by
      rw [ht.logged.1, hlen] at hlt
      omega
    simp only [hout] at hk
    rw [List.take_append_of_le_length hle] at hk
    rw [List.getElem?_append_left (by rw [ht.logged.2]; exact hle)] at ha
    exact ht.gaps i k a b hk ha hb

theorem send (ht : t.Paced) (hpc : t.poll.worker.pc = .loopHead)
    (hlen : t.poll.requests.length = t.poll.outcomes.length) {s : Poll}
    (hout : s.outcomes = t.poll.outcomes) {request : OrderedMap String String}
    (hreq : s.requests = t.poll.requests ++ [request]) (hpc' : s.worker.pc = .requesting) :
    ({ t with poll := s, sentAt := t.sentAt ++ [t.now] } : ClockedPoll).Paced where
  logged := by simp [hreq, hout, ht.logged]
  past := ht.past
  holds := by
    simp only [hpc']
    trivial
  gaps := by
    intro i k a b hk ha hb
    simp only [hout] at hk
    by_cases hlast : i + 1 < t.sentAt.length
    · rw [List.getElem?_append_left hlast] at hb
      exact ht.gaps i k a b hk ha hb
    · -- the new request answers to the last round trip
      obtain ⟨hlt, rfl⟩ := List.getElem?_eq_some_iff.mp hb
      have hi : i + 1 = t.sentAt.length := by
        simp only [List.length_append, List.length_singleton] at hlt
        omega
      obtain ⟨hsent, hcompleted⟩ := ht.logged
      have hholds := ht.holds
      simp only [hpc, Holds] at hholds
      rw [List.take_of_length_le (by omega)] at hk
      have hlength : t.completedAt.length - 1 = i := by omega
      have ha' : a ∈ t.completedAt.getLast? := by
        rw [List.getLast?_eq_getElem?, hlength]
        exact ha
      simpa [← hi] using hholds k hk a ha'

end ClockedPoll.Paced

theorem ClockMoves.paced {sinceTime : Int64} (h : ClockMoves P category timeout t t')
    (hlog : RequestLog P category timeout sinceTime t.poll)
    (hbackoff : t.poll.BackoffAt t.poll.worker.pc) (hlast : t.poll.HoldsLast P)
    (hwaits : t.Waits) (ht : t.Paced) : t'.Paced := by
  have hasked := hlog.asked
  have hholds := ht.holds
  cases h with
  | tick elapsed => exact ht.tick elapsed
  | begin hpc h =>
      refine ht.frame rfl rfl ?_
      simp only [hpc, ClockedPoll.Holds]
      intro _ a ha
      have hpast := ht.past a (List.mem_of_getLast? ha)
      omega
  | test hpc h | check hpc h | nap hpc h | rise _ hpc h =>
      refine ht.frame rfl rfl ?_
      simp only [hpc, ClockedPoll.Holds, h] at hholds ⊢
      exact fun _ => hholds (by simp)
  | stop hpc => exact ht.frame rfl rfl trivial
  | wake hpc hc h =>
      refine ht.frame rfl rfl ?_
      simp only [hpc, ClockedPoll.Holds, h, Poll.BackoffAt] at hholds hbackoff ⊢
      obtain ⟨k, hk, hwait⟩ := hbackoff
      intro k' hk' a ha
      obtain rfl : k' = k := by omega
      have hdue := hholds (by simp) a ha
      have hended := (hwaits hpc).ended h
      rw [hwait] at hdue
      omega
  | send hpc hc =>
      simp only [hpc, Poll.AskedAt] at hasked
      exact ht.send hpc hasked.1 rfl rfl rfl
  | frame s a hs hworker hout hreq =>
      refine ht.frame hout hreq ?_
      rw [hworker]
      cases hpc : t.poll.worker.pc with
      | loopHead =>
          simp only [hpc, ClockedPoll.Holds, hout] at hholds ⊢
          exact hholds
      | sleeping =>
          simp only [hpc, ClockedPoll.Holds, hworker] at hholds ⊢
          exact hholds
      | _ => trivial
  | complete o s hpc hs =>
      simp only [workerStep, hpc] at hs
      simp only [hpc, Poll.AskedAt] at hasked
      cases hs
      refine ht.complete hasked.1 rfl rfl ?_
      cases o <;> simp
  | work s sleep o hpc hreq hsleep hs =>
      unfold workerStep at hs
      cases hpc' : t.poll.worker.pc with
      | sleeping => exact absurd hpc' hpc.1
      | loopHead =>
          simp only [hpc'] at hs
          split at hs
          · cases hs
            exact ht.frame rfl rfl trivial
          · cases hs
            simp at hreq
      | requesting => exact absurd hpc' hpc.2
      | received status raw rid =>
          simp only [hpc', Poll.HoldsLast] at hs hlast
          split at hs
          · cases hs
            exact ht.frame rfl rfl trivial
          · cases hs
            refine ht.frame rfl rfl ?_
            have hnone := trailingErrors_of_response hlast
            simp only [handleResponse]
            cases disposition P status raw with
            | terminal => trivial
            | skip | keepAlive =>
                intro k hk
                change trailingErrors t.poll.outcomes = k + 1 at hk
                omega
            | event =>
                cases parseCallback P raw with
                | ok ev => trivial
                | error e =>
                    intro k hk
                    change trailingErrors t.poll.outcomes = k + 1 at hk
                    omega
      | pushing ev body =>
          simp only [hpc', Poll.HoldsLast] at hs hlast
          obtain ⟨status, raw, rid, hresponse, -⟩ := hlast
          have hnone := trailingErrors_of_response hresponse
          cases hs
          cases ev <;> refine ht.frame rfl rfl fun k hk => ?_ <;>
            (change trailingErrors t.poll.outcomes = k + 1 at hk; omega)
      | pushingError e =>
          simp only [hpc'] at hs
          cases hs
          exact ht.frame rfl rfl trivial
      | closing stage =>
          simp only [hpc'] at hs
          cases hs
          cases stage <;> exact ht.frame rfl rfl trivial
      | stopped => simp [hpc'] at hs

theorem paced_of_reachable {opts : LongpollOptions}
    (h : (clockedLongpoll P category opts).Reachable t) : t.Paced := by
  induction h with
  | start =>
      refine ⟨⟨rfl, rfl⟩, by simp [clockedLongpoll], ?_, ?_⟩
      · intro k hk
        cases hk
      · intro i k a b hk
        cases hk
  | next a ht hstep ih =>
      have hpoll := poll_reachable ht
      exact (clockStep_moves hstep).paced (requestLog_of_reachable hpoll)
        (backoffAt_of_reachable hpoll) (holdsLast_of_reachable hpoll) (waits_of_reachable ht) ih

theorem le_trailingErrors {outcomes : List RoundTrip} {i k : ℕ}
    (h : ∀ j ≤ k, outcomes[i + j]? = some .connectionError) :
    k + 1 ≤ trailingErrors (outcomes.take (i + k + 1)) := by
  induction k with
  | zero =>
      have hi := h 0 le_rfl
      rw [Nat.add_zero] at hi ⊢
      rw [List.take_add_one, hi, Option.toList_some, trailingErrors_concat]
      simp [RoundTrip.isConnectionError]
  | succ k ih =>
      have hprevious := ih fun j hj => h j (by omega)
      have hlast : outcomes[i + k + 1]? = some .connectionError := h (k + 1) le_rfl
      rw [List.take_add_one, ← Nat.add_assoc, hlast, Option.toList_some, trailingErrors_concat]
      simp only [RoundTrip.isConnectionError, if_true]
      omega

theorem backoffAfter_mono : Monotone backoffAfter := by
  intro k k' hk
  have hpow : 2 ^ k ≤ 2 ^ k' := Nat.pow_le_pow_right (by omega) hk
  unfold backoffAfter
  omega

/-- The poll with a clock refines the one without, and it does not hurry: after `k + 1`
connection errors in a row the next request comes at least the back-off after the last
of them, whatever the clock and the other threads do. -/
theorem reconnects_are_paced {opts : LongpollOptions}
    (h : (clockedLongpoll P category opts).Reachable t) :
    (startLongpoll P category opts).Reachable t.poll ∧
      (t.sentAt.length = t.poll.requests.length ∧
        t.completedAt.length = t.poll.outcomes.length) ∧
      ∀ (i k : ℕ) (a b : ℤ), (∀ j ≤ k, t.poll.outcomes[i + j]? = some .connectionError) →
        t.completedAt[i + k]? = some a → t.sentAt[i + k + 1]? = some b →
          a + min (500 * 2 ^ k) 30000 * millisecond ≤ b := by
  have hpaced := paced_of_reachable h
  refine ⟨poll_reachable h, hpaced.logged, ?_⟩
  intro i k a b herrors ha hb
  have hle := le_trailingErrors herrors
  obtain ⟨k', hk'⟩ := Nat.exists_eq_add_of_le' hle
  have hgap := hpaced.gaps (i + k) (k' + k) a b (by omega) ha hb
  have hmono : backoffAfter k ≤ backoffAfter (k' + k) := backoffAfter_mono (by omega)
  have hdef : (backoffAfter k : ℤ) = min (500 * 2 ^ k) 30000 := by
    unfold backoffAfter
    push_cast
    rfl
  rw [← hdef]
  simp only [millisecond] at hgap ⊢
  omega

/-- After a connection error the next request comes half a second later. -/
theorem reconnects_are_paced_second :
    ∃ t, (clockedLongpoll (Platform.ofTable []) "0123abcde" {}).Reachable t ∧
      t.sentAt.length = 2 ∧ ∀ a b, t.completedAt[0]? = some a → t.sentAt[1]? = some b →
        a + 500 * millisecond ≤ b := by
  obtain ⟨t, hrun, hlen, hfailed⟩ : ∃ t,
      (clockedLongpoll (Platform.ofTable []) "0123abcde" {}).runFrom
        (List.replicate 6 (.poll (.worker .connectionError)) ++ .tick 600000000 ::
          List.replicate 4 (.poll (.worker .connectionError)))
        (clockedLongpoll (Platform.ofTable []) "0123abcde" {}).start = some t ∧
        t.sentAt.length = 2 ∧ t.poll.outcomes[0]? = some .connectionError := ⟨_, rfl, rfl, rfl⟩
  have ht := Transition.Reachable.start.runFrom _ hrun
  refine ⟨t, ht, hlen, ?_⟩
  intro a b ha hb
  refine (reconnects_are_paced ht).2.2 0 0 a b ?_ ha hb
  intro j hj
  obtain rfl := Nat.le_zero.mp hj
  exact hfailed

/-! ## The end of a wait -/

/-- The steps that a wait has left once the flag is set. -/
def SleepPc.left : SleepPc → ℕ
  | .starting => 3
  | .testing => 2
  | .checking => 1
  | .measuring => 4
  | .asleep _ => 3
  | .returning => 1

/-- A closed poll whose worker waits or has stopped. -/
def ClockedPoll.Interrupted (t : ClockedPoll) : Prop :=
  t.poll.closed = true ∧ (t.poll.worker.pc = .sleeping ∨ t.poll.worker.pc = .stopped)

def ClockedPoll.left (t : ClockedPoll) : ℕ :=
  match t.poll.worker.pc with
  | .sleeping => t.sleep.pc.left
  | _ => 0

def ClockAction.isWorker : ClockAction → Bool
  | .poll a => a.isWorker
  | .tick _ => false

theorem sleepStep_interrupted {o : RoundTrip} (hc : t.poll.closed = true)
    (hpc : t.poll.worker.pc = .sleeping) (h : sleepStep P category timeout o t = some t') :
    t'.Interrupted ∧ t'.left + 1 ≤ t.left := by
  unfold sleepStep at h
  cases hsleep : t.sleep.pc with
  | starting | measuring =>
      simp only [hsleep] at h
      cases h
      refine ⟨⟨hc, .inl hpc⟩, ?_⟩
      simp only [ClockedPoll.left, hpc, hsleep, SleepPc.left, le_refl]
  | testing =>
      simp only [hsleep] at h
      cases h
      refine ⟨⟨hc, .inl hpc⟩, ?_⟩
      simp only [ClockedPoll.left, hpc, hsleep]
      split <;> exact le_rfl
  | checking | returning =>
      simp only [hsleep, hc, if_true, workerStep, hpc, Option.map_some] at h
      cases h
      refine ⟨⟨rfl, .inr rfl⟩, ?_⟩
      simp [ClockedPoll.left, hpc, hsleep, SleepPc.left]
  | asleep wakeAt =>
      simp only [hsleep] at h
      split at h
      · cases h
        refine ⟨⟨hc, .inl hpc⟩, ?_⟩
        simp [ClockedPoll.left, hpc, hsleep, SleepPc.left]
      · cases h

theorem clockStep_interrupted {a : ClockAction} (ht : t.Interrupted)
    (h : clockStep P category timeout a t = some t') :
    t'.Interrupted ∧ t'.left + 1 ≤ t.left + if !a.isWorker then 1 else 0 := by
  obtain ⟨hc, hpc⟩ := ht
  cases a with
  | tick elapsed =>
      cases h
      exact ⟨⟨hc, hpc⟩, le_rfl⟩
  | poll a =>
      cases ha : a.isWorker with
      | true =>
          cases a with
          | worker o =>
              rcases hpc with hpc | hpc
              · simp only [clockStep, hpc] at h
                simpa [ClockAction.isWorker, ha] using sleepStep_interrupted hc hpc h
              · simp [clockStep, workerStep, hpc] at h
          | _ => cases ha
      | false =>
          rw [clockStep_other ha] at h
          obtain ⟨s, hs, rfl⟩ := Option.map_eq_some_iff.mp h
          obtain ⟨hworker, -, -⟩ := pollStep_frame ha hs
          refine ⟨⟨(pollStep_moves hs).shut_mono .setFlag hc, ?_⟩, ?_⟩
          · simpa only [hworker] using hpc
          · simp [ClockedPoll.left, hworker, ClockAction.isWorker, ha]

end Audd
