import Audd.Lib.Decimal
import Audd.Lib.Trim

/-!
# Decimal texts of integers

Numerals, numerals with one sign, and texts with white space around them. The
usual decimal text of an integer is one of these, and a text writes one integer
at most.
-/

namespace Decimal

open Trim

/-- Digits, at least one, and the number they write. -/
def IsNumeral (digits : List Char) (n : ℕ) : Prop :=
  digits ≠ [] ∧ (∀ c ∈ digits, isDigit c = true) ∧ digitsValue digits = n

/-- A numeral after at most one sign. -/
inductive SignedNumeral : List Char → ℤ → Prop
  | plain {digits : List Char} {n : ℕ} (h : IsNumeral digits n) : SignedNumeral digits n
  | plus {digits : List Char} {n : ℕ} (h : IsNumeral digits n) : SignedNumeral ('+' :: digits) n
  | minus {digits : List Char} {n : ℕ} (h : IsNumeral digits n) :
      SignedNumeral ('-' :: digits) (-n)

/-- White space, a numeral after at most one sign, white space. -/
def IntegerText (text : List Char) (n : ℤ) : Prop :=
  ∃ pre body post, text = pre ++ body ++ post ∧ (∀ c ∈ pre, isWs c = true) ∧
    (∀ c ∈ post, isWs c = true) ∧ SignedNumeral body n

/-! ## The text of a number -/

theorem digitsValue_concat (digits : List Char) (d : Char) :
    digitsValue (digits ++ [d]) = 10 * digitsValue digits + (d.toNat - 48) := by
  rw [digitsValue, List.foldl_append]
  rfl

theorem digitChar_spec : ∀ d < 10,
    isDigit (Nat.digitChar d) = true ∧ (Nat.digitChar d).toNat - 48 = d := by
  decide

/-- The decimal digits of a number. -/
theorem toDigits_spec (n : ℕ) :
    (∀ c ∈ Nat.toDigits 10 n, isDigit c = true) ∧ digitsValue (Nat.toDigits 10 n) = n := by
  induction n using Nat.strong_induction_on with
  | _ n ih =>
      by_cases hsmall : n < 10
      · obtain ⟨hdigit, hvalue⟩ := digitChar_spec n hsmall
        rw [Nat.toDigits_of_lt_base hsmall]
        refine ⟨fun c hc => ?_, ?_⟩
        · rw [List.mem_singleton.mp hc]
          exact hdigit
        · have hone := digitsValue_concat [] (Nat.digitChar n)
          have hnil : digitsValue [] = 0 := rfl
          rw [List.nil_append] at hone
          omega
      · obtain ⟨hdigits, hvalue⟩ := ih (n / 10) (by omega)
        obtain ⟨hdigit, hlast⟩ := digitChar_spec (n % 10) (by omega)
        rw [Nat.toDigits_of_base_le (by decide) (by omega), digitsValue_concat, hvalue, hlast]
        refine ⟨fun c hc => ?_, by omega⟩
        rcases List.mem_append.mp hc with hc | hc
        · exact hdigits c hc
        · rw [List.mem_singleton.mp hc]
          exact hdigit

theorem toList_toString_nat (n : ℕ) : (toString n).toList = Nat.toDigits 10 n := by
  rw [Nat.toString_eq_ofList_toDigits, String.toList_ofList]

theorem isNumeral_toString (n : ℕ) : IsNumeral (toString n).toList n := by
  obtain ⟨hdigits, hvalue⟩ := toDigits_spec n
  rw [toList_toString_nat]
  exact ⟨Nat.toDigits_ne_nil, hdigits, hvalue⟩

/-- The usual text of an integer has a sign only when it is negative. -/
theorem signedNumeral_toString (n : ℤ) : SignedNumeral (toString n).toList n := by
  cases n with
  | ofNat n => exact .plain (isNumeral_toString n)
  | negSucc n =>
      have htext : (toString (Int.negSucc n)).toList = '-' :: (toString (n + 1)).toList := by
        change ("-" ++ toString (n + 1)).toList = _
        rw [String.toList_append]
        rfl
      rw [htext]
      exact .minus (isNumeral_toString (n + 1))

/-! ## One integer at most -/

theorem not_isNumeral_sign {sign : Char} {digits : List Char} {n : ℕ}
    (hsign : isDigit sign = false) : ¬IsNumeral (sign :: digits) n := by
  rintro ⟨-, hdigits, -⟩
  rw [hdigits sign List.mem_cons_self] at hsign
  cases hsign

theorem SignedNumeral.unique {text : List Char} {n n' : ℤ} (h : SignedNumeral text n)
    (h' : SignedNumeral text n') : n = n' := by
  cases h with
  | plain h =>
      cases h' with
      | plain h' => rw [← h.2.2, ← h'.2.2]
      | plus _ => exact absurd h (not_isNumeral_sign rfl)
      | minus _ => exact absurd h (not_isNumeral_sign rfl)
  | plus h =>
      cases h' with
      | plain h' => exact absurd h' (not_isNumeral_sign rfl)
      | plus h' => rw [← h.2.2, ← h'.2.2]
  | minus h =>
      cases h' with
      | plain h' => exact absurd h' (not_isNumeral_sign rfl)
      | minus h' => rw [← h.2.2, ← h'.2.2]

/-- Different integers have different texts. -/
theorem toString_injective {n n' : ℤ} (h : toString n = toString n') : n = n' := by
  have hn := signedNumeral_toString n
  rw [h] at hn
  exact hn.unique (signedNumeral_toString n')

/-! ## White space around a numeral -/

theorem isWs_of_isDigit {c : Char} (h : isDigit c = true) : isWs c = false := by
  by_contra hne
  have hws := Bool.not_eq_false _ ▸ hne
  simp only [isWs, Bool.or_eq_true, decide_eq_true_eq, or_assoc] at hws
  rcases hws with rfl | rfl | rfl | rfl | rfl | rfl
  all_goals cases h

theorem IsNumeral.trimmed {digits : List Char} {n : ℕ} (h : IsNumeral digits n) :
    Trimmed isWs isWs digits := by
  constructor
  · exact fun c hc => isWs_of_isDigit (h.2.1 c (List.mem_of_mem_head? hc))
  · exact fun c hc => isWs_of_isDigit (h.2.1 c (List.mem_of_mem_getLast? hc))

/-- A character in front of a trimmed list. -/
theorem trimmed_cons {c : Char} {text : List Char} (hc : isWs c = false)
    (h : Trimmed isWs isWs text) : Trimmed isWs isWs (c :: text) := by
  constructor
  · rintro d hd
    rwa [← Option.some.inj hd]
  · intro d hd
    cases text with
    | nil => rwa [← Option.some.inj hd]
    | cons e rest => exact h.2 d (by rwa [List.getLast?_cons_cons] at hd)

theorem SignedNumeral.trimmed {text : List Char} {n : ℤ} (h : SignedNumeral text n) :
    Trimmed isWs isWs text := by
  cases h with
  | plain h => exact h.trimmed
  | plus h => exact trimmed_cons rfl h.trimmed
  | minus h => exact trimmed_cons rfl h.trimmed

/-- A text writes an integer exactly when its trimmed part is a signed numeral. -/
theorem integerText_iff {text : List Char} {n : ℤ} :
    IntegerText text n ↔ SignedNumeral (trim isWs isWs text) n := by
  constructor
  · rintro ⟨pre, body, post, rfl, hpre, hpost, h⟩
    rwa [trim_append hpre h.trimmed hpost]
  · intro h
    obtain ⟨pre, post, htext, hpre, hpost⟩ := exists_eq_append_trim isWs isWs text
    exact ⟨pre, _, post, htext, hpre, hpost, h⟩

end Decimal
