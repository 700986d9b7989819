import Audd.LongpollInvariant
import Mathlib.Data.List.DropRight

/-!
# The back-off of the worker

A connection error is followed by a wait that doubles up to a cap, and a response
starts it again. The worker keeps the next wait in a variable; in every run that
variable is a function of the round trips so far.
-/

namespace Audd

variable {P : Platform} {category : String} {timeout : ℤ} {s s' : Poll}

def RoundTrip.isConnectionError : RoundTrip → Bool
  | .connectionError => true
  | .response .. => false

/-- The connection errors since the last response. -/
def trailingErrors (outcomes : List RoundTrip) : ℕ :=
  (outcomes.rtakeWhile RoundTrip.isConnectionError).length

theorem trailingErrors_concat (outcomes : List RoundTrip) (r : RoundTrip) :
    trailingErrors (outcomes ++ [r]) =
      if r.isConnectionError then trailingErrors outcomes + 1 else 0 := by
  unfold trailingErrors
  rw [List.rtakeWhile_concat]
  split <;> simp

/-- The back-off in milliseconds after `k` failures in a row. -/
def backoffAfter (k : ℕ) : ℕ := min (500 * 2 ^ k) 30000

theorem backoffAfter_succ (k : ℕ) : backoffAfter (k + 1) = min (backoffAfter k * 2) 30000 := by
  unfold backoffAfter
  rw [pow_succ]
  omega

/-- What the worker's back-off is at each of its places. A response that has not been
handled yet has not reset it. -/
def Poll.BackoffAt (s : Poll) : WorkerPc → Prop
  | .loopHead | .requesting | .pushing .. =>
      s.worker.backoff = backoffAfter (trailingErrors s.outcomes)
  | .sleeping => ∃ k, trailingErrors s.outcomes = k + 1 ∧ s.worker.backoff = backoffAfter k
  | .received .. => trailingErrors s.outcomes = 0
  | .pushingError _ | .closing _ | .stopped => True

/-- A handled response leaves the worker asking, pushing or ending. -/
theorem handleResponse_backoffAt (status : ℤ) (raw rid : String)
    (htrailing : trailingErrors s.outcomes = 0) :
    let w := handleResponse P s.worker status raw rid
    ({ s with worker := w } : Poll).BackoffAt w.pc := by
  have hreset : 500 = backoffAfter (trailingErrors s.outcomes) := by
    rw [htrailing]
    rfl
  unfold handleResponse
  cases disposition P status raw with
  | terminal => trivial
  | skip | keepAlive => exact hreset
  | event =>
      cases parseCallback P raw with
      | ok ev => exact hreset
      | error e => exact hreset

theorem Moves.backoff (h : Moves P category timeout s s') (hs : s.BackoffAt s.worker.pc) :
    s'.BackoffAt s'.worker.pc := by
  cases h with
  | stop | pushError => trivial
  | send hc hpc =>
      rw [hpc] at hs
      exact hs
  | fail hpc =>
      rw [hpc] at hs
      exact ⟨_, trailingErrors_concat _ _, hs⟩
  | reply status raw rid hpc => exact trailingErrors_concat _ _
  | wake hc hpc =>
      rw [hpc] at hs
      obtain ⟨k, hk, hbackoff⟩ := hs
      change min (s.worker.backoff * 2) 30000 = backoffAfter (trailingErrors s.outcomes)
      rw [hk, hbackoff, backoffAfter_succ]
  | handle status raw rid hc hpc =>
      rw [hpc] at hs
      exact handleResponse_backoffAt status raw rid hs
  | push ev body hpc =>
      rw [hpc] at hs
      cases ev <;> exact hs
  | workerClose stage pc hpc hnext =>
      subst hnext
      cases stage <;> trivial
  | callerClose stage | closerClose _ stage => cases stage <;> exact hs
  | _ => exact hs

theorem backoffAt_of_reachable {opts : LongpollOptions}
    (h : (startLongpoll P category opts).Reachable s) : s.BackoffAt s.worker.pc := by
  apply h.invariant
  · rfl
  · intro a t t' ht hstep
    exact (pollStep_moves hstep).backoff ht

/-- In every run a worker that waits does so after `k ≥ 1` connection errors in a row, for
500 ms doubled `k - 1` times and never more than 30 s: each response starts the
doubling again, and no other thread changes it. -/
theorem backoff_of_sleeping {opts : LongpollOptions}
    (h : (startLongpoll P category opts).Reachable s) (hpc : s.worker.pc = .sleeping) :
    ∃ before k, s.outcomes = before ++ List.replicate (k + 1) .connectionError ∧
      (∀ r ∈ before.getLast?, r.isConnectionError = false) ∧
      s.worker.backoff = min (500 * 2 ^ k) 30000 := by
  have hs := backoffAt_of_reachable h
  rw [hpc] at hs
  obtain ⟨k, hk, hbackoff⟩ := hs
  refine ⟨s.outcomes.rdropWhile RoundTrip.isConnectionError, k, ?_, ?_, hbackoff⟩
  · have htail : s.outcomes.rtakeWhile RoundTrip.isConnectionError =
        List.replicate (k + 1) .connectionError := by
      refine List.eq_replicate_iff.mpr ⟨hk, ?_⟩
      intro r hr
      have herror := List.mem_rtakeWhile_imp hr
      cases r with
      | connectionError => rfl
      | response status raw rid => cases herror
    rw [← htail, List.rdropWhile_append_rtakeWhile]
  · intro r hr
    obtain ⟨hne, rfl⟩ := List.mem_getLast?_eq_getLast hr
    exact Bool.eq_false_of_not_eq_true (List.rdropWhile_last_not _ _ hne)

/-- After a response and three connection errors in a row the worker waits for two seconds. -/
theorem backoff_of_sleeping_third :
    let poll := startLongpoll (Platform.ofTable []) "0123abcde" {}
    ∃ s, poll.Reachable s ∧ s.outcomes.length = 4 ∧ s.worker.backoff = 2000 ∧
      ∃ before k, s.outcomes = before ++ List.replicate (k + 1) .connectionError ∧
        (∀ r ∈ before.getLast?, r.isConnectionError = false) ∧
        s.worker.backoff = min (500 * 2 ^ k) 30000 := by
  intro poll
  obtain ⟨s, hrun, hpc, hlen, hbackoff⟩ : ∃ s,
      poll.runFrom ([.worker .connectionError, .worker (.response 200 "" ""),
        .worker .connectionError, .worker .connectionError, .worker .connectionError,
        .worker .connectionError, .worker .connectionError, .worker .connectionError,
        .worker .connectionError, .worker .connectionError, .worker .connectionError])
        poll.start = some s ∧ s.worker.pc = .sleeping ∧ s.outcomes.length = 4 ∧
        s.worker.backoff = 2000 := ⟨_, rfl, rfl, rfl, by decide⟩
  have hs := Transition.Reachable.start.runFrom _ hrun
  exact ⟨s, hs, hlen, hbackoff, backoff_of_sleeping hs hpc⟩

end Audd
