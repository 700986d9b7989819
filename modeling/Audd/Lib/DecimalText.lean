import Audd.Lib.NumberGrammar
import Audd.Lib.Numeral

/-!
# Decimal texts of numbers

The decimal forms among the numbers of the C library. A letter other than that of an
exponent tells all other forms apart, and a numeral is a decimal form of the same value.
-/

namespace Decimal

open Trim

/-- Decimal digits with an optional point and an optional exponent, and their value. -/
inductive IsDecimal : List Char → ℚ → Prop
  | mk {whole part m x : List Char} {e : ℤ} (hm : IsMantissa isDigit whole part m)
      (hx : IsExponent (fun c => c = 'e' || c = 'E') e x) :
      IsDecimal (m ++ x) (digitsValue (whole ++ part) * 10 ^ (e - part.length))

/-- White space, a decimal form after at most one sign, white space. -/
def DecimalText (text : List Char) (negative : Bool) (q : ℚ) : Prop :=
  ∃ pre sign body post, text = pre ++ (sign ++ body) ++ post ∧ (∀ c ∈ pre, isWs c = true) ∧
    (∀ c ∈ post, isWs c = true) ∧ IsSign negative sign ∧ IsDecimal body q

/-- A letter that no decimal form has. -/
def foreignLetter (c : Char) : Bool := c.isAlpha && c ≠ 'e' && c ≠ 'E'

/-! ## Characters -/

/-- The letters come after the digits. -/
theorem le_of_isAlpha {c : Char} (h : c.isAlpha = true) : 'A'.val ≤ c.val := by
  have hcases : (c.isUpper || c.isLower) = true := h
  rcases Bool.or_eq_true _ _ ▸ hcases with hupper | hlower
  · exact (of_decide_eq_true hupper).1
  · have hle : 'a'.val ≤ c.val := of_decide_eq_true (Bool.and_eq_true _ _ ▸ hlower).1
    exact UInt32.le_trans (by decide) hle

theorem isAlpha_of_isDigit {c : Char} (h : isDigit c = true) : c.isAlpha = false := by
  simp only [isDigit, Bool.and_eq_true, decide_eq_true_eq] at h
  have hle : c.val ≤ '9'.val := h.2
  refine Bool.eq_false_iff.mpr fun halpha => ?_
  exact absurd (UInt32.le_trans (le_of_isAlpha halpha) hle) (by decide)

theorem decimalChar_spec {c : Char} (h : decimalChar c = true) :
    isWs c = false ∧ foreignLetter c = false := by
  simp only [decimalChar, Bool.or_eq_true, beq_iff_eq] at h
  rcases h with ((((h | rfl) | rfl) | rfl) | rfl) | rfl
  · refine ⟨isWs_of_isDigit h, ?_⟩
    rw [foreignLetter, isAlpha_of_isDigit h]
    rfl
  all_goals decide

theorem IsDecimal.decimalChar {body : List Char} {q : ℚ} (h : IsDecimal body q) :
    ∀ c ∈ body, decimalChar c = true := by
  have hdigit : ∀ c, isDigit c = true → Decimal.decimalChar c = true := by
    intro c hc
    simp only [Decimal.decimalChar, hc, Bool.true_or]
  cases h with
  | mk hm hx =>
      intro c hc
      rcases List.mem_append.mp hc with hc | hc
      · exact mem_mantissa hdigit rfl hm c hc
      · exact mem_exponent (fun c hc => (marker_decimal hc).2) hdigit ⟨rfl, rfl⟩ hx c hc

theorem IsSign.decimalChar {negative : Bool} {sign : List Char} (h : IsSign negative sign) :
    ∀ c ∈ sign, decimalChar c = true := by
  intro c hc
  cases h with
  | absent => cases hc
  | plus =>
      rw [List.mem_singleton.mp hc]
      rfl
  | minus =>
      rw [List.mem_singleton.mp hc]
      rfl

theorem decimalChar_signed {negative : Bool} {sign body : List Char} {q : ℚ}
    (hsign : IsSign negative sign) (hbody : IsDecimal body q) :
    ∀ c ∈ sign ++ body, decimalChar c = true := by
  intro c hc
  rcases List.mem_append.mp hc with hc | hc
  · exact hsign.decimalChar c hc
  · exact hbody.decimalChar c hc

/-- A letter of a word in either case. -/
theorem exists_foreignLetter {text : List Char} (lower upper : Char)
    (hcase : upper.toNat + 32 = lower.toNat) (hlower : foreignLetter lower = true)
    (hupper : foreignLetter upper = true) (h : lower ∈ text.map toLowerAscii) :
    ∃ c ∈ text, foreignLetter c = true := by
  obtain ⟨c, hc, hlow⟩ := List.mem_map.mp h
  refine ⟨c, hc, ?_⟩
  by_contra hforeign
  refine toLowerAscii_ne (p := fun c => !foreignLetter c) upper hcase ?_ ?_ ?_ hlow
  · simpa using hforeign
  · simp [hlower]
  · simp [hupper]

/-! ## The decimal forms -/

/-- A magnitude has a letter that no decimal form has, or it is one. -/
theorem IsMagnitude.decimal_or_foreign {body : List Char} {m : ExactDouble}
    (h : IsMagnitude body m) :
    (∃ c ∈ body, foreignLetter c = true) ∨ ∃ q, m = .finite q ∧ IsDecimal body q := by
  cases h with
  | infinity h =>
      left
      apply exists_foreignLetter 'i' 'I' rfl (by decide) (by decide)
      rcases h with h | h
      · rw [h]
        decide
      · rw [h]
        decide
  | nan h =>
      left
      apply exists_foreignLetter 'n' 'N' rfl (by decide) (by decide)
      rw [h]
      decide
  | taggedNan h htag =>
      left
      obtain ⟨c, hc, hforeign⟩ := exists_foreignLetter 'n' 'N' rfl (by decide) (by decide)
        (by rw [h]; decide)
      exact ⟨c, List.mem_append_left _ hc, hforeign⟩
  | hexadecimal h hm hx =>
      left
      obtain ⟨c, hc, hforeign⟩ := exists_foreignLetter 'x' 'X' rfl (by decide) (by decide)
        (by rw [h]; decide)
      exact ⟨c, List.mem_append_left _ hc, hforeign⟩
  | decimal hm hx => exact .inr ⟨_, rfl, .mk hm hx⟩

theorem IsDecimal.isMagnitude {body : List Char} {q : ℚ} (h : IsDecimal body q) :
    IsMagnitude body (.finite q) := by
  cases h with
  | mk hm hx => exact .decimal hm hx

/-- A text is decimal exactly when its trimmed part is. -/
theorem decimalText_iff {text : List Char} {negative : Bool} {q : ℚ} :
    DecimalText text negative q ↔ ∃ sign body, trim isWs isWs text = sign ++ body ∧
      IsSign negative sign ∧ IsDecimal body q := by
  constructor
  · rintro ⟨pre, sign, body, post, rfl, hpre, hpost, hsign, hbody⟩
    refine ⟨sign, body, trim_append hpre ?_ hpost, hsign, hbody⟩
    have hws := fun c hc => (decimalChar_spec (decimalChar_signed hsign hbody c hc)).1
    exact ⟨fun c hc => hws c (List.mem_of_mem_head? hc),
      fun c hc => hws c (List.mem_of_mem_getLast? hc)⟩
  · rintro ⟨sign, body, htrim, hsign, hbody⟩
    obtain ⟨pre, post, htext, hpre, hpost⟩ := exists_eq_append_trim isWs isWs text
    rw [htrim] at htext
    exact ⟨pre, sign, body, post, htext, hpre, hpost, hsign, hbody⟩

/-- A trimmed text without foreign letters that the C library reads is a decimal form. -/
theorem exists_decimal_of_isNumber {text : List Char} {negative : Bool} {m : ExactDouble}
    (h : IsNumber text negative m) (htrim : ∀ c ∈ text.head?, isWs c = false)
    (hletters : ∀ c ∈ text, foreignLetter c = false) :
    ∃ sign body q, text = sign ++ body ∧ IsSign negative sign ∧ IsDecimal body q ∧
      m = .finite q := by
  obtain ⟨ws, sign, body, rfl, hws, hsign, hbody⟩ := h
  have hnil : ws = [] := by
    cases ws with
    | nil => rfl
    | cons c rest =>
        have hc := hws c List.mem_cons_self
        rw [htrim c rfl] at hc
        cases hc
  subst hnil
  rcases hbody.decimal_or_foreign with ⟨c, hc, hforeign⟩ | ⟨q, rfl, hdecimal⟩
  · have hmem : c ∈ [] ++ (sign ++ body) := List.mem_append_right _ (List.mem_append_right _ hc)
    rw [hletters c hmem] at hforeign
    cases hforeign
  · exact ⟨sign, body, q, rfl, hsign, hdecimal, rfl⟩

/-! ## Numerals -/

theorem IsNumeral.isDecimal {digits : List Char} {n : ℕ} (h : IsNumeral digits n) :
    IsDecimal digits n := by
  obtain ⟨hne, hdigits, rfl⟩ := h
  have hmantissa : IsMantissa isDigit digits [] digits :=
    ⟨hdigits, by simp, fun hnil => hne hnil.1, .inr ⟨rfl, rfl⟩⟩
  have hdecimal := IsDecimal.mk hmantissa .absent
  simpa using hdecimal

/-- An integer between white space is a decimal text of the same value. -/
theorem IntegerText.decimalText {text : List Char} {n : ℤ} (h : IntegerText text n) :
    ∃ negative, DecimalText text negative n.natAbs ∧
      (if negative then -(n.natAbs : ℚ) else n.natAbs) = n := by
  obtain ⟨pre, body, post, rfl, hpre, hpost, hbody⟩ := h
  cases hbody with
  | plain h =>
      exact ⟨false, ⟨pre, [], body, post, rfl, hpre, hpost, .absent, h.isDecimal⟩, by simp⟩
  | plus h =>
      exact ⟨false, ⟨pre, ['+'], _, post, rfl, hpre, hpost, .plus, h.isDecimal⟩, by simp⟩
  | minus h =>
      refine ⟨true, ⟨pre, ['-'], _, post, rfl, hpre, hpost, .minus, ?_⟩, by simp⟩
      simpa using h.isDecimal

end Decimal
