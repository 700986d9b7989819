import Mathlib.Algebra.BigOperators.Group.List.Basic
import Mathlib.Algebra.Order.Ring.Nat
import Mathlib.Data.List.Basic

/-!
# Lists of threads

A system of threads keeps the places of its threads in a list: a step replaces the place
of one of them, and a new thread comes at the end. The lemmas say what that changes for
a property of all the threads and for a sum over them.
-/

namespace ThreadList

variable {α : Type*} {l : List α} {i j : ℕ} {a b : α}

theorem getElem?_set (h : l[i]? = some a) (b : α) (j : ℕ) :
    (l.set i b)[j]? = if j = i then some b else l[j]? := by
  by_cases hj : j = i
  · subst hj
    rw [if_pos rfl]
    exact List.getElem?_set_self (List.getElem?_eq_some_iff.mp h).1
  · rw [if_neg hj]
    exact List.getElem?_set_ne (fun h => hj h.symm)

/-- A thread after a new one came is an old one or the new one. -/
theorem getElem?_append_cases (h : (l ++ [a])[j]? = some b) :
    l[j]? = some b ∨ j = l.length ∧ b = a := by
  by_cases hlt : j < l.length
  · left
    rwa [List.getElem?_append_left hlt] at h
  · right
    have hj := (List.getElem?_eq_some_iff.mp h).1
    rw [List.length_append, List.length_singleton] at hj
    obtain rfl : j = l.length := by omega
    exact ⟨rfl, by simpa using h.symm⟩

theorem getElem?_append (h : l[j]? = some b) (a : α) : (l ++ [a])[j]? = some b := by
  rwa [List.getElem?_append_left (List.getElem?_eq_some_iff.mp h).1]

/-- What holds of every thread after one went on. -/
theorem forall_set (h : l[i]? = some a) {Q : ℕ → α → Prop}
    (hold : ∀ j b, j ≠ i → l[j]? = some b → Q j b) (hnew : Q i b) :
    ∀ j c, (l.set i b)[j]? = some c → Q j c := by
  intro j c hj
  rw [getElem?_set h] at hj
  by_cases hji : j = i
  · subst hji
    rw [if_pos rfl] at hj
    cases hj
    exact hnew
  · rw [if_neg hji] at hj
    exact hold j c hji hj

theorem forall_append {Q : ℕ → α → Prop} (hold : ∀ j b, l[j]? = some b → Q j b)
    (hnew : Q l.length a) : ∀ j b, (l ++ [a])[j]? = some b → Q j b := by
  intro j b hj
  rcases getElem?_append_cases hj with hj | ⟨hlen, hb⟩
  · exact hold j b hj
  · rw [hlen, hb]
    exact hnew

/-- A thread that goes on replaces its part of a sum. -/
theorem sum_map_set {f : α → ℕ} (h : l[i]? = some a) (b : α) :
    ((l.set i b).map f).sum + f a = (l.map f).sum + f b := by
  induction l generalizing i with
  | nil => simp at h
  | cons c rest ih =>
      cases i with
      | zero =>
          obtain rfl : c = a := by simpa using h
          simp only [List.set_cons_zero, List.map_cons, List.sum_cons]
          omega
      | succ i =>
          have hrest := ih (i := i) (by simpa using h)
          simp only [List.set_cons_succ, List.map_cons, List.sum_cons]
          omega

/-- A thread that goes on with the value it had. -/
theorem filterMap_set_of_eq {β : Type*} {f : α → Option β} (h : l[i]? = some a)
    (hb : f b = f a) : (l.set i b).filterMap f = l.filterMap f := by
  induction l generalizing i with
  | nil => simp at h
  | cons c rest ih =>
      cases i with
      | zero =>
          obtain rfl : c = a := by simpa using h
          rw [List.set_cons_zero, List.filterMap_cons, List.filterMap_cons, hb]
      | succ i =>
          have hrest := ih (i := i) (by simpa using h)
          rw [List.set_cons_succ, List.filterMap_cons, List.filterMap_cons, hrest]

/-- A thread that had no value adds the one that it has now. -/
theorem filterMap_set_perm {β : Type*} {f : α → Option β} (h : l[i]? = some a)
    (ha : f a = none) (b : α) : ((l.set i b).filterMap f).Perm (l.filterMap f ++ (f b).toList) := by
  induction l generalizing i with
  | nil => simp at h
  | cons c rest ih =>
      cases i with
      | zero =>
          obtain rfl : c = a := by simpa using h
          rw [List.set_cons_zero, List.filterMap_cons_none ha]
          cases hb : f b with
          | none => simp [hb]
          | some v =>
              rw [List.filterMap_cons_some hb]
              exact (List.perm_append_singleton v _).symm
      | succ i =>
          have hrest := ih (i := i) (by simpa using h)
          rw [List.set_cons_succ]
          cases hc : f c with
          | none => rwa [List.filterMap_cons_none hc, List.filterMap_cons_none hc]
          | some v =>
              rw [List.filterMap_cons_some hc, List.filterMap_cons_some hc]
              exact hrest.cons v

end ThreadList
