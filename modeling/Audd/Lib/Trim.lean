import Mathlib.Data.List.DropRight
import Mathlib.Data.List.TakeWhile

/-!
# Cutting and trimming lists

A list is cut at the first occurrence of an element. It is trimmed by removing the
elements of one class in front and of another class at its end; what is left is the only
middle part that does not begin in the first or end in the second.
-/

namespace Trim

universe u

variable {α : Type u} {p q : α → Bool}

theorem forall_of_all {p : α → Prop} [DecidablePred p] {l : List α} (h : l.all fun a => p a) :
    ∀ a ∈ l, p a :=
  fun a ha => of_decide_eq_true (List.all_eq_true.mp h a ha)

/-! ## The first occurrence of an element -/

section
variable [DecidableEq α]

theorem forall_ne {c : α} {l : List α} (h : c ∉ l) : ∀ d ∈ l, decide (d ≠ c) = true :=
  fun _ hd => decide_eq_true fun heq => h (heq ▸ hd)

theorem takeWhile_ne_eq_self {c : α} {l : List α} (h : c ∉ l) : l.takeWhile (· ≠ c) = l :=
  List.takeWhile_eq_self_iff.mpr (forall_ne h)

theorem takeWhile_ne_append {c : α} {before after : List α} (h : c ∉ before) :
    (before ++ c :: after).takeWhile (· ≠ c) = before := by
  rw [List.takeWhile_append_of_pos (forall_ne h), List.takeWhile_cons_of_neg (by simp),
    List.append_nil]

theorem dropWhile_ne_append {c : α} {before after : List α} (h : c ∉ before) :
    (before ++ c :: after).dropWhile (· ≠ c) = c :: after := by
  rw [List.dropWhile_append_of_pos (forall_ne h), List.dropWhile_cons_of_neg (by simp)]

end

/-! ## Trimming -/

/-- Remove the elements of `p` in front and those of `q` at the end. -/
def trim (p q : α → Bool) (l : List α) : List α := (l.dropWhile p).rdropWhile q

/-- The first element is not in `p` and the last one not in `q`. -/
def Trimmed (p q : α → Bool) (l : List α) : Prop :=
  (∀ a ∈ l.head?, p a = false) ∧ ∀ a ∈ l.getLast?, q a = false

theorem dropWhile_append_of_head {body post : List α} (h : ∀ a ∈ body.head?, p a = false)
    (hne : body ≠ []) : (body ++ post).dropWhile p = body ++ post := by
  cases body with
  | nil => exact absurd rfl hne
  | cons a rest => exact List.dropWhile_cons_of_neg (by simp [h a rfl])

theorem rdropWhile_append_of_last {body post : List α} (h : ∀ a ∈ body.getLast?, q a = false)
    (hpost : ∀ a ∈ post, q a = true) : (body ++ post).rdropWhile q = body := by
  have hrev : ∀ a ∈ post.reverse, q a = true := fun a ha => hpost a (List.mem_reverse.mp ha)
  rw [List.rdropWhile, List.reverse_append, List.dropWhile_append_of_pos hrev]
  change body.rdropWhile q = body
  apply List.rdropWhile_eq_self_iff.mpr
  intro hne
  rw [h _ (List.getLast?_eq_some_getLast hne)]
  exact Bool.false_ne_true

/-- A trimmed part between elements of the classes is what trimming leaves. -/
theorem trim_append {pre body post : List α} (hpre : ∀ a ∈ pre, p a = true)
    (hbody : Trimmed p q body) (hpost : ∀ a ∈ post, q a = true) :
    trim p q (pre ++ body ++ post) = body := by
  rw [trim, List.append_assoc, List.dropWhile_append_of_pos hpre]
  by_cases hne : body = []
  · subst hne
    rw [List.nil_append, List.rdropWhile_eq_nil_iff]
    exact fun a ha => hpost a ((List.dropWhile_sublist p).subset ha)
  · rw [dropWhile_append_of_head hbody.1 hne, rdropWhile_append_of_last hbody.2 hpost]

/-- Every list is its trimmed part between elements of the classes. -/
theorem exists_eq_append_trim (p q : α → Bool) (l : List α) :
    ∃ pre post, l = pre ++ trim p q l ++ post ∧ (∀ a ∈ pre, p a = true) ∧
      ∀ a ∈ post, q a = true := by
  refine ⟨l.takeWhile p, (l.dropWhile p).rtakeWhile q, ?_, ?_, ?_⟩
  · rw [trim, List.append_assoc, List.rdropWhile_append_rtakeWhile, List.takeWhile_append_dropWhile]
  · exact fun a ha => List.mem_takeWhile_imp ha
  · exact fun a ha => List.mem_rtakeWhile_imp ha

theorem head?_trim {l : List α} (h : trim p q l ≠ []) :
    (trim p q l).head? = (l.dropWhile p).head? := by
  obtain ⟨rest, hrest⟩ := List.rdropWhile_prefix q (l := l.dropWhile p)
  conv_rhs => rw [← hrest]
  exact (List.head?_append_of_ne_nil _ h).symm

theorem eq_false_of_mem_head?_dropWhile {a : α} {l : List α} (h : a ∈ (l.dropWhile p).head?) :
    p a = false := by
  have hnot := List.head?_dropWhile_not p l
  rw [Option.mem_def.mp h] at hnot
  simpa using hnot

theorem trimmed_trim (p q : α → Bool) (l : List α) : Trimmed p q (trim p q l) := by
  constructor
  · intro a ha
    have hne : trim p q l ≠ [] := by
      intro hnil
      rw [hnil] at ha
      cases ha
    rw [head?_trim hne] at ha
    exact eq_false_of_mem_head?_dropWhile ha
  · intro a ha
    obtain ⟨hne, rfl⟩ := List.mem_getLast?_eq_getLast ha
    exact Bool.eq_false_iff.mpr (List.rdropWhile_last_not q (l.dropWhile p) hne)

/-! ## The ends of the trimmed part -/

theorem findIdx?_append_of_head {pre body : List α} (hpre : ∀ a ∈ pre, p a = true)
    (hne : body ≠ []) (hbody : ∀ a ∈ body.head?, p a = false) :
    (pre ++ body).findIdx? (fun a => !p a) = some pre.length := by
  have hnone : pre.findIdx? (fun a => !p a) = none := by
    rw [List.findIdx?_eq_none_iff]
    intro a ha
    rw [hpre a ha, Bool.not_true]
  cases body with
  | nil => exact absurd rfl hne
  | cons a rest =>
      have ha : (!p a) = true := by rw [hbody a rfl, Bool.not_false]
      rw [List.findIdx?_append, hnone, List.findIdx?_cons, if_pos ha, Option.none_or,
        Option.map_some, Nat.zero_add]

/-- The first element outside `p` and the last one outside `q` enclose the trimmed part. -/
theorem exists_findIdx?_of_trim_ne_nil {l : List α} (h : trim p q l ≠ []) :
    ∃ b e, l.findIdx? (fun a => !p a) = some b ∧
      l.reverse.findIdx? (fun a => !q a) = some e ∧ b ≤ l.length - 1 - e ∧
      (l.drop b).take (l.length - 1 - e - b + 1) = trim p q l := by
  obtain ⟨hhead, hlast⟩ := trimmed_trim p q l
  obtain ⟨pre, post, hl, hpre, hpost⟩ := exists_eq_append_trim p q l
  have hpos := List.length_pos_of_ne_nil h
  have hlength : l.length = pre.length + (trim p q l).length + post.length := by
    conv_lhs => rw [hl, List.length_append, List.length_append]
  refine ⟨pre.length, post.length, ?_, ?_, by omega, ?_⟩
  · conv_lhs => rw [hl, List.append_assoc]
    apply findIdx?_append_of_head hpre (List.append_ne_nil_of_left_ne_nil h _)
    rwa [List.head?_append_of_ne_nil _ h]
  · conv_lhs => rw [hl, List.reverse_append, List.reverse_append]
    rw [← List.length_reverse]
    apply findIdx?_append_of_head
    · exact fun a ha => hpost a (List.mem_reverse.mp ha)
    · exact List.append_ne_nil_of_left_ne_nil (mt List.reverse_eq_nil_iff.mp h) _
    · rwa [List.head?_append_of_ne_nil _ (mt List.reverse_eq_nil_iff.mp h), List.head?_reverse]
  · have hcount : l.length - 1 - post.length - pre.length + 1 = (trim p q l).length := by omega
    have hdrop : l.drop pre.length = trim p q l ++ post := by
      conv_lhs => rw [hl, List.append_assoc, List.drop_left]
    rw [hcount, hdrop, List.take_left]

/-- Nothing is left exactly when every element is in `q`. -/
theorem trim_eq_nil_iff {l : List α} (hpq : ∀ a, p a = true → q a = true) :
    trim p q l = [] ↔ ∀ a ∈ l, q a = true := by
  rw [trim, List.rdropWhile_eq_nil_iff]
  constructor
  · intro h a ha
    rw [← List.takeWhile_append_dropWhile (p := p) (l := l), List.mem_append] at ha
    rcases ha with ha | ha
    · exact hpq a (List.mem_takeWhile_imp ha)
    · exact h a ha
  · exact fun h a ha => h a ((List.dropWhile_sublist p).subset ha)

theorem reverse_findIdx?_of_trim_eq_nil {l : List α} (hpq : ∀ a, p a = true → q a = true)
    (h : trim p q l = []) : l.reverse.findIdx? (fun a => !q a) = none := by
  rw [List.findIdx?_eq_none_iff]
  intro a ha
  rw [(trim_eq_nil_iff hpq).mp h a (List.mem_reverse.mp ha), Bool.not_true]

/-- Trimming only `p` in front is enough exactly when what is left begins outside `q`. -/
theorem trim_eq_trim_iff {l : List α} (hpq : ∀ a, p a = true → q a = true)
    (hne : trim p q l ≠ []) :
    trim p q l = trim q q l ↔ ∀ a ∈ (l.dropWhile p).head?, q a = false := by
  constructor
  · intro heq a ha
    apply (trimmed_trim q q l).1 a
    rwa [← heq, head?_trim hne]
  · intro hhead
    have hdrop : l.dropWhile q = l.dropWhile p := by
      conv_lhs => rw [← List.takeWhile_append_dropWhile (p := p) (l := l)]
      rw [List.dropWhile_append_of_pos fun a ha => hpq a (List.mem_takeWhile_imp ha)]
      cases hleft : l.dropWhile p with
      | nil => rfl
      | cons a rest =>
          rw [hleft] at hhead
          exact List.dropWhile_cons_of_neg (by simp [hhead a rfl])
    rw [trim, trim, hdrop]

end Trim
