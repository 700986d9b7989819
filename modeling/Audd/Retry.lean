import Audd.Error
import Mathlib.Order.Bounds.Basic

/-!
# Retrying failed requests

`retry_on_connection_error` calls a function until an outcome is final or the
attempts are used up.

## Implementation notes

The function is the sequence of its outcomes, one for each call. The loop counts
the attempts left after the current one, so `attempt >= max_attempts` of the
source is that nothing is left.
-/

namespace Audd

/-- Which connection errors may be retried. -/
inductive RetryGate
  | allConnectionErrors
  | preUploadOnly
deriving DecidableEq

/-- How often the function was called, the waits in between and the final outcome. -/
structure Retried (α : Type) where
  calls : ℕ
  waits : List ℤ
  result : Except Exn α

variable {α : Type}

/-- Whether an outcome is a connection error that the gate lets through. -/
def retryable (gate : RetryGate) : Except Exn α → Bool
  | .error (.connection _ failedBeforeUpload) =>
      gate = .allConnectionErrors || failedBeforeUpload
  | _ => false

/-- The loop, at the call with number `attempt` and `left` attempts after it. -/
def retryLoop (gate : RetryGate) (f : ℕ → Except Exn α) : ℕ → ℕ → ℤ → Retried α
  | 0, attempt, _ => ⟨attempt + 1, [], f attempt⟩
  | left + 1, attempt, wait =>
      if retryable gate (f attempt) then
        let rest := retryLoop gate f left (attempt + 1) (wait * 2)
        { rest with waits := wait :: rest.waits }
      else ⟨attempt + 1, [], f attempt⟩

/-- The attempts allowed after the first one; at least one attempt is made. -/
def attemptsLeft (maxAttempts : ℤ) : ℕ := (max maxAttempts 1).toNat - 1

def retryOnConnectionError (maxAttempts backoff : ℤ) (f : ℕ → Except Exn α)
    (gate : RetryGate := .allConnectionErrors) : Retried α :=
  retryLoop gate f (attemptsLeft maxAttempts) 0 backoff

/-- What a run of the loop does, from call `start` on with `left` calls after it. -/
structure Retried.Follows (r : Retried α) (gate : RetryGate) (f : ℕ → Except Exn α)
    (left start : ℕ) (wait : ℤ) : Prop where
  start_lt : start < r.calls
  calls_le : r.calls ≤ start + left + 1
  retried : ∀ i, start ≤ i → i + 1 < r.calls → retryable gate (f i) = true
  final : r.calls ≤ start + left → retryable gate (f (r.calls - 1)) = false
  result_eq : r.result = f (r.calls - 1)
  waits_eq : r.waits = (List.range (r.calls - 1 - start)).map fun i => wait * 2 ^ i

/-- The loop retries every earlier call and stops at the first final one. -/
theorem retryLoop_follows (gate : RetryGate) (f : ℕ → Except Exn α) (left start : ℕ)
    (wait : ℤ) : (retryLoop gate f left start wait).Follows gate f left start wait := by
  induction left generalizing start wait with
  | zero =>
      simp only [retryLoop]
      exact ⟨by simp, by simp, fun i h₁ h₂ => by simp at h₂; omega, fun h => by simp at h,
        by simp, by simp⟩
  | succ left ih =>
      simp only [retryLoop]
      by_cases hr : retryable gate (f start) = true
      · have hrest := ih (start + 1) (wait * 2)
        simp only [hr, if_true]
        generalize retryLoop gate f left (start + 1) (wait * 2) = rest at hrest ⊢
        have hlt := hrest.start_lt
        refine ⟨by simp; omega, by have := hrest.calls_le; simp; omega, ?_, ?_,
          hrest.result_eq, ?_⟩
        · intro i hi hc
          rcases hi.eq_or_lt with rfl | hi
          · exact hr
          · exact hrest.retried i hi hc
        · intro hc
          exact hrest.final (by simp at hc; omega)
        · have hn : rest.calls - 1 - start = (rest.calls - 1 - (start + 1)) + 1 := by omega
          simp only [hrest.waits_eq, hn, List.range_succ_eq_map, List.map_cons, List.map_map]
          simp [Function.comp_def, pow_succ', mul_assoc]
      · simp only [hr]
        exact ⟨by simp, by simp, fun i h₁ h₂ => by simp at h₂; omega,
          fun _ => by simpa using hr, by simp, by simp⟩

theorem retryOnConnectionError_follows (maxAttempts backoff : ℤ) (f : ℕ → Except Exn α)
    (gate : RetryGate) : (retryOnConnectionError maxAttempts backoff f gate).Follows gate f
      (attemptsLeft maxAttempts) 0 backoff :=
  retryLoop_follows gate f _ 0 backoff

/-! ## The call at which it stops -/

/-- An outcome that ends the calls: a value, an exception of another class, or a
connection error that the gate forbids to retry. -/
def EndsCalls (gate : RetryGate) : Except Exn α → Prop
  | .ok _ => True
  | .error (.connection _ failedBeforeUpload) =>
      gate = .preUploadOnly ∧ failedBeforeUpload = false
  | .error _ => True

theorem endsCalls_iff (gate : RetryGate) (outcome : Except Exn α) :
    EndsCalls gate outcome ↔ retryable gate outcome = false := by
  rcases outcome with ⟨_ | _ | _ | _ | _⟩ | _ <;> cases gate <;> simp [EndsCalls, retryable]

theorem succ_attemptsLeft (maxAttempts : ℤ) :
    ((attemptsLeft maxAttempts + 1 : ℕ) : ℤ) = max 1 maxAttempts := by
  simp only [attemptsLeft]
  omega

/-- The function is called up to the first outcome that ends the calls, and at
most `max 1 maxAttempts` times; the waits double. -/
theorem retryOnConnectionError_stops (maxAttempts backoff : ℤ) (gate : RetryGate)
    (f : ℕ → Except Exn α) :
    IsLeast {k : ℕ | 1 ≤ k ∧ (EndsCalls gate (f (k - 1)) ∨ (k : ℤ) = max 1 maxAttempts)}
        (retryOnConnectionError maxAttempts backoff f gate).calls ∧
      (retryOnConnectionError maxAttempts backoff f gate).result =
        f ((retryOnConnectionError maxAttempts backoff f gate).calls - 1) ∧
      (retryOnConnectionError maxAttempts backoff f gate).waits =
        (List.range ((retryOnConnectionError maxAttempts backoff f gate).calls - 1)).map
          fun i => backoff * 2 ^ i := by
  have hfollows := retryOnConnectionError_follows maxAttempts backoff f gate
  generalize retryOnConnectionError maxAttempts backoff f gate = r at hfollows
  have hN := succ_attemptsLeft maxAttempts
  have hle := hfollows.calls_le
  refine ⟨⟨⟨hfollows.start_lt, ?_⟩, ?_⟩, hfollows.result_eq, hfollows.waits_eq⟩
  · by_cases hlast : r.calls ≤ 0 + attemptsLeft maxAttempts
    · left
      exact (endsCalls_iff gate _).mpr (hfollows.final hlast)
    · right
      omega
  -- a smaller index is a call that was retried, so it neither ends nor is the last
  · rintro k ⟨hk, hends | hlast⟩
    · by_contra hlt
      have hretried := hfollows.retried (k - 1) (Nat.zero_le _) (by omega)
      rw [(endsCalls_iff gate _).mp hends] at hretried
      exact Bool.false_ne_true hretried
    · omega

end Audd
