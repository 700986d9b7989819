import Mathlib.Data.Nat.Notation
import Mathlib.Logic.Basic

/-!
# Transition systems

A start state and a partial step function for each action. An invariant is
proved once for the start and once for a step.
-/

/-- A start state and what each action does, if it is enabled. -/
structure Transition (σ : Type*) (α : Type*) where
  start : σ
  step : α → σ → Option σ

namespace Transition

variable {σ α : Type*} {T : Transition σ α}

/-- The states of all runs. -/
inductive Reachable (T : Transition σ α) : σ → Prop
  | start : Reachable T T.start
  | next {s s' : σ} (a : α) (h : Reachable T s) (hs : T.step a s = some s') : Reachable T s'

/-- A property of the start that every step preserves holds in every run. -/
theorem Reachable.invariant {I : σ → Prop} (h₀ : I T.start)
    (hstep : ∀ a s s', I s → T.step a s = some s' → I s') {s : σ}
    (h : Reachable T s) : I s := by
  induction h with
  | start => exact h₀
  | next a _ hs ih => exact hstep a _ _ ih hs

/-- A map under which every step is a step of another system or changes nothing takes
reachable states to reachable states. -/
theorem Reachable.refines {τ β : Type*} {U : Transition τ β} {f : σ → τ}
    (hstart : f T.start = U.start)
    (hstep : ∀ a s s', T.step a s = some s' →
      f s' = f s ∨ ∃ b, U.step b (f s) = some (f s')) {s : σ} (h : T.Reachable s) :
    U.Reachable (f s) := by
  induction h with
  | start =>
      rw [hstart]
      exact .start
  | next a _ hs ih =>
      rcases hstep a _ _ hs with heq | ⟨b, hb⟩
      · rw [heq]
        exact ih
      · exact ih.next b hb

/-- The actions of a list one after the other. -/
def runFrom (T : Transition σ α) : List α → σ → Option σ
  | [], s => some s
  | a :: rest, s => (T.step a s).bind (runFrom T rest)

theorem runFrom_append (l l' : List α) (s : σ) :
    T.runFrom (l ++ l') s = (T.runFrom l s).bind (T.runFrom l') := by
  induction l generalizing s with
  | nil => rfl
  | cons a rest ih =>
      simp only [List.cons_append, runFrom]
      cases T.step a s with
      | none => rfl
      | some mid => exact ih mid

/-- A run can be left at any point. -/
theorem exists_runFrom_take {l : List α} {s s' : σ} (h : T.runFrom l s = some s') (n : ℕ) :
    ∃ mid, T.runFrom (l.take n) s = some mid ∧ T.runFrom (l.drop n) mid = some s' := by
  rw [← List.take_append_drop n l, runFrom_append] at h
  exact Option.bind_eq_some_iff.mp h

/-- Runs that come back to their start can be strung together. -/
theorem runFrom_flatMap_self {β : Type*} {f : β → List α} {l : List β} {s : σ}
    (h : ∀ b ∈ l, T.runFrom (f b) s = some s) : T.runFrom (l.flatMap f) s = some s := by
  induction l with
  | nil => rfl
  | cons b rest ih =>
      rw [List.flatMap_cons, runFrom_append, h b List.mem_cons_self, Option.bind_some]
      exact ih fun b hb => h b (List.mem_cons_of_mem _ hb)

/-- Running a list of actions from a reachable state ends in a reachable state. -/
theorem Reachable.runFrom {s s' : σ} (h : Reachable T s) (actions : List α)
    (hr : T.runFrom actions s = some s') : Reachable T s' := by
  induction actions generalizing s with
  | nil =>
      obtain rfl : s = s' := by simpa [Transition.runFrom] using hr
      exact h
  | cons a rest ih =>
      obtain ⟨mid, hmid, hrest⟩ : ∃ mid, T.step a s = some mid ∧
          T.runFrom rest mid = some s' := by
        simpa [Transition.runFrom, Option.bind_eq_some_iff] using hr
      exact ih (h.next a hmid) hrest

/-- A property that every step preserves is preserved by a run. -/
theorem runFrom_invariant {I : σ → Prop} (hI : ∀ a s s', I s → T.step a s = some s' → I s')
    {actions : List α} {s s' : σ} (hs : I s) (hr : T.runFrom actions s = some s') : I s' := by
  induction actions generalizing s with
  | nil =>
      cases hr
      exact hs
  | cons a rest ih =>
      obtain ⟨mid, hmid, hrest⟩ := Option.bind_eq_some_iff.mp hr
      exact ih (hI a s mid hs hmid) hrest

/-- Some run from a state ends in a state with a property. -/
def Possible (T : Transition σ α) (Q : σ → Prop) (s : σ) : Prop :=
  ∃ actions s', T.runFrom actions s = some s' ∧ Q s'

theorem Possible.here {Q : σ → Prop} {s : σ} (h : Q s) : T.Possible Q s := ⟨[], s, rfl, h⟩

theorem Possible.after {Q : σ → Prop} {s mid : σ} (a : α) (hs : T.step a s = some mid)
    (h : T.Possible Q mid) : T.Possible Q s := by
  obtain ⟨actions, s', hrun, hQ⟩ := h
  exact ⟨a :: actions, s', Option.bind_eq_some_iff.mpr ⟨mid, hs, hrun⟩, hQ⟩

/-- An invariant that rules a property out makes it impossible. -/
theorem not_possible {I Q : σ → Prop} (hI : ∀ a s s', I s → T.step a s = some s' → I s')
    (hQ : ∀ s, I s → ¬Q s) {s : σ} (hs : I s) : ¬T.Possible Q s := by
  rintro ⟨actions, s', hrun, hQ'⟩
  exact hQ s' (runFrom_invariant hI hs hrun) hQ'

/-- Every step of a run has a property of its action and of the states around it. -/
def EveryStep (T : Transition σ α) (Q : α → σ → σ → Prop) : List α → σ → Prop
  | [], _ => True
  | a :: rest, s => ∀ s', T.step a s = some s' → Q a s s' ∧ T.EveryStep Q rest s'

/-- Properties that agree on the steps of the reachable states agree on every run. -/
theorem Reachable.everyStep_congr {Q Q' : α → σ → σ → Prop}
    (hQ : ∀ a s s', T.Reachable s → T.step a s = some s' → (Q a s s' ↔ Q' a s s')) {s : σ}
    (h : T.Reachable s) (actions : List α) :
    T.EveryStep Q actions s ↔ T.EveryStep Q' actions s := by
  induction actions generalizing s with
  | nil => exact Iff.rfl
  | cons a rest ih =>
      apply forall_congr'
      intro s'
      apply imp_congr_right
      intro hs
      exact and_congr (hQ a s s' h hs) (ih (h.next a hs))

theorem everyStep_cons {Q : α → σ → σ → Prop} {a : α} {rest : List α} {s mid : σ}
    (h : T.step a s = some mid) :
    T.EveryStep Q (a :: rest) s ↔ Q a s mid ∧ T.EveryStep Q rest mid := by
  constructor
  · intro hevery
    exact hevery mid h
  · intro hmid s' hs'
    rw [h] at hs'
    cases hs'
    exact hmid

/-- A property of states that each step keeps exactly under a condition is kept by
a run exactly when every step meets it. `I` holds from the start of the run on,
`J` up to its end. -/
theorem runFrom_iff_everyStep {I J G : σ → Prop} {Q : α → σ → σ → Prop}
    (hI : ∀ a s s', I s → T.step a s = some s' → I s')
    (hJ : ∀ a s s', T.step a s = some s' → J s' → J s)
    (hG : ∀ a s s', I s → J s' → T.step a s = some s' → (G s' ↔ G s ∧ Q a s s')) {s s' : σ}
    (hs : I s) (hs' : J s') (actions : List α) (hr : T.runFrom actions s = some s') :
    J s ∧ (G s' ↔ G s ∧ T.EveryStep Q actions s) := by
  induction actions generalizing s with
  | nil =>
      obtain rfl : s = s' := by simpa [runFrom] using hr
      exact ⟨hs', (and_iff_left trivial).symm⟩
  | cons a rest ih =>
      obtain ⟨mid, hmid, hrest⟩ : ∃ mid, T.step a s = some mid ∧
          T.runFrom rest mid = some s' := by
        simpa [runFrom, Option.bind_eq_some_iff] using hr
      obtain ⟨hJmid, hend⟩ := ih (hI a s mid hs hmid) hrest
      refine ⟨hJ a s mid hmid hJmid, ?_⟩
      rw [hend, hG a s mid hs hJmid hmid, everyStep_cons hmid, and_assoc]

end Transition
