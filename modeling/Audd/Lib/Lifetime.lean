import Audd.Lib.Transition
import Mathlib.Data.List.Nodup

/-!
# Lifetimes of the objects of a scope

A scope creates objects, uses them and lets a holder keep references to them, which the
holder follows later. However the scope is left, it releases the objects that its guards
own and that are live. A run is a safe use: no step creates a live object, none uses,
keeps or releases a dead one, and no reference that is followed dangles.
-/

namespace Lifetime

variable {O : Type*} [DecidableEq O]

inductive Event (O : Type*)
  | acquire (o : O)
  | use (o : O)
  | keep (o : O)
  | follow
  | release (o : O)
deriving DecidableEq

structure State (O : Type*) where
  live : List O := []
  kept : List O := []

def step : Event O → State O → Option (State O)
  | .acquire o, s => if o ∈ s.live then none else some { s with live := o :: s.live }
  | .use o, s => if o ∈ s.live then some s else none
  | .keep o, s => if o ∈ s.live then some { s with kept := o :: s.kept } else none
  | .follow, s => if ∀ o ∈ s.kept, o ∈ s.live then some s else none
  | .release o, s => if o ∈ s.live then some { s with live := s.live.erase o } else none

def lifetimes (O : Type*) [DecidableEq O] : Transition (State O) (Event O) where
  start := {}
  step := step

/-- What leaving the scope releases, in the order in which its guards are destroyed. -/
def State.unwind (s : State O) (guards : List O) : List (Event O) :=
  (guards.filter (· ∈ s.live)).map .release

variable {s s' : State O} {e : Event O} {l : List (Event O)}

theorem nodup_step (h : step e s = some s') (hs : s.live.Nodup) : s'.live.Nodup := by
  cases e with
  | acquire o =>
      simp only [step] at h
      split at h
      · cases h
      · cases h
        exact List.nodup_cons.mpr ⟨‹_›, hs⟩
  | release o =>
      simp only [step] at h
      split at h
      · cases h
        exact hs.erase o
      · cases h
  | _ =>
      simp only [step] at h
      split at h
      · cases h
        exact hs
      · cases h

theorem nodup_runFrom (h : (lifetimes O).runFrom l s = some s') (hs : s.live.Nodup) :
    s'.live.Nodup := by
  induction l generalizing s with
  | nil =>
      cases h
      exact hs
  | cons e rest ih =>
      obtain ⟨mid, hmid, hrest⟩ := Option.bind_eq_some_iff.mp h
      exact ih hrest (nodup_step hmid hs)

/-- An object is acquired once more than it is released exactly while it is live. -/
theorem count_step (h : step e s = some s') (o : O) :
    [e].count (.acquire o) + s.live.count o = [e].count (.release o) + s'.live.count o := by
  cases e with
  | acquire o' =>
      simp only [step] at h
      split at h
      · cases h
      · cases h
        by_cases ho : o' = o <;> simp [ho, Nat.add_comm]
  | release o' =>
      simp only [step] at h
      split at h
      · rename_i hmem
        cases h
        by_cases ho : o' = o
        · subst ho
          have hpos := List.count_pos_iff.mpr hmem
          simp only [List.count_cons, List.count_nil, List.count_erase_self, beq_iff_eq,
            reduceCtorEq, if_false, if_true]
          omega
        · simp [List.count_erase_of_ne (Ne.symm ho), ho]
      · cases h
  | _ =>
      simp only [step] at h
      split at h
      · cases h
        simp
      · cases h

theorem count_runFrom (h : (lifetimes O).runFrom l s = some s') (o : O) :
    l.count (.acquire o) + s.live.count o = l.count (.release o) + s'.live.count o := by
  induction l generalizing s with
  | nil =>
      cases h
      rfl
  | cons e rest ih =>
      obtain ⟨mid, hmid, hrest⟩ := Option.bind_eq_some_iff.mp h
      have hstep := count_step hmid o
      have htail := ih hrest
      rw [← List.singleton_append, List.count_append, List.count_append]
      omega

/-- Releasing live objects, each once, leaves the others. -/
theorem runFrom_release {dead : List O} (hs : s.live.Nodup) (hdead : dead.Nodup)
    (hlive : ∀ o ∈ dead, o ∈ s.live) :
    (lifetimes O).runFrom (dead.map .release) s =
      some { s with live := s.live.filter (· ∉ dead) } := by
  induction dead generalizing s with
  | nil => simp [Transition.runFrom]
  | cons o rest ih =>
      obtain ⟨ho, hrest⟩ := List.nodup_cons.mp hdead
      have hstep : (lifetimes O).step (.release o) s =
          some { s with live := s.live.erase o } := if_pos (hlive o List.mem_cons_self)
      have hremain : ∀ o' ∈ rest, o' ∈ s.live.erase o := by
        intro o' ho'
        refine (List.mem_erase_of_ne ?_).mpr (hlive o' (List.mem_cons_of_mem _ ho'))
        rintro rfl
        exact ho ho'
      rw [List.map_cons, Transition.runFrom, hstep, Option.bind_some,
        ih (hs.erase o) hrest hremain]
      simp only [hs.erase_eq_filter, List.filter_filter]
      congr 2
      apply List.filter_congr
      intro o' _
      by_cases heq : o' = o <;> simp [heq]

/-- However a safe scope is left, the rest of it is safe: its guards release what they
own, each object as often as it was acquired, and only unguarded objects stay. -/
theorem unwind_safe {guards : List O} (hguards : guards.Nodup)
    (h : (lifetimes O).runFrom l (lifetimes O).start = some s) (n : ℕ) :
    ∃ mid left, (lifetimes O).runFrom (l.take n) (lifetimes O).start = some mid ∧
      (lifetimes O).runFrom (mid.unwind guards) mid = some left ∧
      (∀ o, o ∈ left.live ↔ o ∈ mid.live ∧ o ∉ guards) ∧
      ∀ o ∈ guards, (l.take n ++ mid.unwind guards).count (.release o) =
        (l.take n ++ mid.unwind guards).count (.acquire o) := by
  obtain ⟨mid, hmid, -⟩ := Transition.exists_runFrom_take h n
  have hnodup : mid.live.Nodup := nodup_runFrom hmid List.nodup_nil
  have hlive : ∀ o ∈ guards.filter (· ∈ mid.live), o ∈ mid.live := by
    intro o ho
    simpa using (List.mem_filter.mp ho).2
  have hrun := runFrom_release hnodup (hguards.filter _) hlive
  refine ⟨mid, _, hmid, hrun, ?_, ?_⟩
  · intro o
    simp only [List.mem_filter, decide_eq_true_eq]
    tauto
  · intro o ho
    have hwhole : (lifetimes O).runFrom (l.take n ++ mid.unwind guards) (lifetimes O).start =
        some { mid with live := mid.live.filter (· ∉ guards.filter (· ∈ mid.live)) } := by
      rw [Transition.runFrom_append, hmid]
      exact hrun
    have hnone : (mid.live.filter (· ∉ guards.filter (· ∈ mid.live))).count o = 0 := by
      apply List.count_eq_zero_of_not_mem
      simp only [List.mem_filter, decide_eq_true_eq]
      tauto
    have hstart : (lifetimes O).start.live.count o = 0 := rfl
    have hcount := count_runFrom hwhole o
    rw [hstart, hnone] at hcount
    exact hcount.symm

end Lifetime
