import Audd.Lib.Transition
import Mathlib.Algebra.BigOperators.Group.List.Basic
import Mathlib.Algebra.Order.Ring.Nat

/-!
# Ranking functions

A rank that pays for each step bounds the length of every run: an action may add to
the rank what it costs, and every step takes one from it. A system that is not yet
done and whose rank is paid down by every step can always be brought to its end.
-/

namespace Transition

variable {σ α : Type*} {T : Transition σ α} {I : σ → Prop} {s s' : σ}

/-- What a run costs when the actions of one kind cost the same each time. -/
theorem sum_map_cost (p : α → Bool) (c : ℕ) (actions : List α) :
    (actions.map fun a => if p a then c else 0).sum = c * actions.countP p := by
  induction actions with
  | nil => rfl
  | cons a rest ih =>
      rw [List.map_cons, List.sum_cons, ih, List.countP_cons, Nat.mul_add, Nat.add_comm]
      split <;> simp

/-- The steps of a run are paid for by its rank at the start and the costs of its actions. -/
theorem length_add_rank_le {rank : σ → ℕ} {cost : α → ℕ}
    (hI : ∀ a s s', I s → T.step a s = some s' → I s')
    (hrank : ∀ a s s', I s → T.step a s = some s' → rank s' + 1 ≤ rank s + cost a)
    {actions : List α} (hs : I s) (hr : T.runFrom actions s = some s') :
    actions.length + rank s' ≤ rank s + (actions.map cost).sum := by
  induction actions generalizing s with
  | nil =>
      cases hr
      simp
  | cons a rest ih =>
      obtain ⟨mid, hmid, hrest⟩ := Option.bind_eq_some_iff.mp hr
      have hstep := hrank a s mid hs hmid
      have htail := ih (hI a s mid hs hmid) hrest
      rw [List.length_cons, List.map_cons, List.sum_cons]
      omega

/-- Where every state that is not done has a free action, free actions lead to one that is. -/
theorem exists_runFrom_done {rank : σ → ℕ} {cost : α → ℕ} {Done : σ → Prop}
    (hI : ∀ a s s', I s → T.step a s = some s' → I s')
    (hrank : ∀ a s s', I s → T.step a s = some s' → rank s' + 1 ≤ rank s + cost a)
    (hfree : ∀ s, I s → ¬Done s → ∃ a s', cost a = 0 ∧ T.step a s = some s') (hs : I s) :
    ∃ actions s', (∀ a ∈ actions, cost a = 0) ∧ T.runFrom actions s = some s' ∧ Done s' := by
  induction hn : rank s using Nat.strong_induction_on generalizing s with
  | _ n ih =>
      by_cases hdone : Done s
      · exact ⟨[], s, by simp, rfl, hdone⟩
      · obtain ⟨a, mid, hcost, hmid⟩ := hfree s hs hdone
        have hlt := hrank a s mid hs hmid
        obtain ⟨rest, s', hrest, hrun, hdone'⟩ := ih (rank mid) (by omega) (hI a s mid hs hmid) rfl
        refine ⟨a :: rest, s', ?_, Option.bind_eq_some_iff.mpr ⟨mid, hmid, hrun⟩, hdone'⟩
        exact List.forall_mem_cons.mpr ⟨hcost, hrest⟩

end Transition
