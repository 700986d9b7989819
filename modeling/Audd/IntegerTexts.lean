import Audd.IntegerFields
import Audd.Lib.Numeral

/-!
# Integer texts

Which texts the parser of integer fields accepts, and that a number and its text
are read as the same integer.
-/

namespace Audd

open Decimal FixedWidth Trim

theorem toList_trimAscii (s : String) : (trimAscii s).toList = trim isWs isWs s.toList := by
  rw [trimAscii, String.toList_ofList]
  rfl

theorem numeral?_eq_some_iff {digits : List Char} {n : ℕ} :
    numeral? digits = some n ↔ IsNumeral digits n := by
  simp [numeral?, IsNumeral, and_assoc]

/-! ## The accepted texts -/

/-- A whole text that `std::from_chars` reads as an integer: it knows no plus sign. -/
def ReadsAs (t : List Char) (n : ℤ) : Prop :=
  (∃ k : ℕ, IsNumeral t k ∧ n = k) ∨
    ∃ digits, ∃ k : ℕ, t = '-' :: digits ∧ IsNumeral digits k ∧ n = -(k : ℤ)

/-- The text that the parser hands on. -/
def dropPlus (t : List Char) : List Char := if t.head? = some '+' then t.tail else t

theorem fromChars_eq_some {t : List Char} {v : Int64} (h : fromChars t = some (v, [])) :
    ∃ n, Fits 63 n ∧ v = Int64.ofInt n ∧ ReadsAs t n := by
  have hwhole : ∀ {body : List Char}, body.dropWhile isDigit = [] → body.takeWhile isDigit ≠ [] →
      IsNumeral body (digitsValue (body.takeWhile isDigit)) := by
    intro body hdrop hne
    have hdigits := List.dropWhile_eq_nil_iff.mp hdrop
    rw [List.takeWhile_eq_self_iff.mpr hdigits] at hne ⊢
    exact ⟨hne, hdigits, rfl⟩
  by_cases hminus : t.head? = some '-'
  · obtain ⟨digits, rfl⟩ : ∃ digits, t = '-' :: digits := List.head?_eq_some_iff.mp hminus
    simp only [fromChars, List.head?_cons, if_true, List.tail_cons] at h
    split at h
    · cases h
    · rename_i hne
      split at h
      · rename_i hfits
        obtain ⟨rfl, hdrop⟩ := Prod.mk.inj (Option.some.inj h)
        exact ⟨_, hfits, rfl, .inr ⟨digits, _, rfl, hwhole hdrop hne, rfl⟩⟩
      · cases h
  · simp only [fromChars, hminus, if_false] at h
    split at h
    · cases h
    · rename_i hne
      split at h
      · rename_i hfits
        obtain ⟨rfl, hdrop⟩ := Prod.mk.inj (Option.some.inj h)
        exact ⟨_, hfits, rfl, .inl ⟨_, hwhole hdrop hne, rfl⟩⟩
      · cases h

/-- A signed numeral between white space is read when it fits 64 bits. -/
theorem parseFullInt_of_integerText {s : String} {n : ℤ} (h : IntegerText s.toList n) :
    parseFullInt s = if Fits 63 n then some (Int64.ofInt n) else none := by
  have hnumeral := integerText_iff.mp h
  rw [← toList_trimAscii] at hnumeral
  apply parseFullInt_of_decimalInteger
  unfold decimalInteger?
  generalize (trimAscii s).toList = t at hnumeral ⊢
  cases hnumeral with
  | plain hdigits =>
      have hhead := head?_of_numeral (numeral?_eq_some_iff.mpr hdigits)
      split
      · exact absurd rfl hhead.1
      · exact absurd rfl hhead.2
      · rw [numeral?_eq_some_iff.mpr hdigits]
        rfl
  | @plus digits k hdigits =>
      change (numeral? digits).map _ = _
      rw [numeral?_eq_some_iff.mpr hdigits]
      rfl
  | @minus digits k hdigits =>
      change (numeral? digits).map _ = _
      rw [numeral?_eq_some_iff.mpr hdigits]
      rfl

/-- A plus sign in front of a negative number that fits 64 bits. -/
def DoubleSigned (s : String) : Prop :=
  ∃ pre digits post, ∃ k : ℕ, s.toList = pre ++ '+' :: '-' :: digits ++ post ∧
    (∀ c ∈ pre, isWs c = true) ∧ (∀ c ∈ post, isWs c = true) ∧ IsNumeral digits k ∧
    Fits 63 (-(k : ℤ))

/-- A doubly signed text after trimming. -/
theorem trim_of_doubleSigned {s : String} (h : DoubleSigned s) : ∃ digits, ∃ k : ℕ,
    trim isWs isWs s.toList = '+' :: '-' :: digits ∧ IsNumeral digits k ∧ Fits 63 (-(k : ℤ)) := by
  obtain ⟨pre, digits, post, k, htext, hpre, hpost, hnumeral, hfits⟩ := h
  have htrimmed : Trimmed isWs isWs ('+' :: '-' :: digits) :=
    trimmed_cons rfl (trimmed_cons rfl hnumeral.trimmed)
  exact ⟨digits, k, by rw [htext, trim_append hpre htrimmed hpost], hnumeral, hfits⟩

/-- Everything the parser accepts: the signed numerals that fit 64 bits, and the
doubly signed texts. -/
theorem parseFullInt_eq_some {s : String} {v : Int64} (h : parseFullInt s = some v) :
    (∃ n, IntegerText s.toList n ∧ Fits 63 n ∧ v = Int64.ofInt n) ∨ DoubleSigned s := by
  obtain ⟨n, hfits, rfl, hcases⟩ : ∃ n, Fits 63 n ∧ v = Int64.ofInt n ∧
      ReadsAs (dropPlus (trim isWs isWs s.toList)) n := by
    have hread : fromChars (dropPlus (trim isWs isWs s.toList)) = some (v, []) := by
      simp only [parseFullInt, toList_trimAscii] at h
      change (if dropPlus (trim isWs isWs s.toList) = [] then none else _) = _ at h
      by_cases hnil : dropPlus (trim isWs isWs s.toList) = []
      · rw [if_pos hnil] at h
        cases h
      · rw [if_neg hnil] at h
        split at h
        · rename_i hread
          rwa [Option.some.inj h] at hread
        · cases h
    exact fromChars_eq_some hread
  by_cases hplus : (trim isWs isWs s.toList).head? = some '+'
  · obtain ⟨rest, htrim⟩ : ∃ rest, trim isWs isWs s.toList = '+' :: rest :=
      List.head?_eq_some_iff.mp hplus
    have hrest : dropPlus (trim isWs isWs s.toList) = rest := by
      rw [htrim]
      rfl
    rw [hrest] at hcases
    rcases hcases with ⟨k, hnumeral, rfl⟩ | ⟨digits, k, rfl, hnumeral, rfl⟩
    · refine .inl ⟨k, integerText_iff.mpr ?_, hfits, rfl⟩
      rw [htrim]
      exact .plus hnumeral
    · obtain ⟨pre, post, htext, hpre, hpost⟩ := exists_eq_append_trim isWs isWs s.toList
      exact .inr ⟨pre, digits, post, k, by rw [← htrim, ← htext], hpre, hpost, hnumeral, hfits⟩
  · rw [dropPlus, if_neg hplus] at hcases
    refine .inl ⟨n, integerText_iff.mpr ?_, hfits, rfl⟩
    rcases hcases with ⟨k, hnumeral, rfl⟩ | ⟨digits, k, htrim, hnumeral, rfl⟩
    · exact .plain hnumeral
    · rw [htrim]
      exact .minus hnumeral

/-- A doubly signed text is read as the negative number. -/
theorem parseFullInt_of_doubleSigned {s : String} (h : DoubleSigned s) :
    ∃ v, parseFullInt s = some v := by
  obtain ⟨digits, k, htrim, hnumeral, hfits⟩ := trim_of_doubleSigned h
  refine ⟨Int64.ofInt (-k), ?_⟩
  rw [parseFullInt_of_fromChars (t := '-' :: digits) _ (List.cons_ne_nil _ _)
    (fromChars_neg_numeral (numeral?_eq_some_iff.mpr hnumeral)), if_pos hfits]
  rw [toList_trimAscii, htrim]
  rfl

theorem not_integerText_of_doubleSigned {s : String} (h : DoubleSigned s) (n : ℤ) :
    ¬IntegerText s.toList n := by
  obtain ⟨digits, k, htrim, -, -⟩ := trim_of_doubleSigned h
  intro htext
  have hnumeral := integerText_iff.mp htext
  rw [htrim] at hnumeral
  cases hnumeral with
  | plain h => exact not_isNumeral_sign rfl h
  | plus h => exact not_isNumeral_sign rfl h

/-- A value is returned exactly for a signed numeral between white space that fits
64 bits, and it is the integer that the numeral denotes. -/
def AcceptsGrammar (result : Option Int64) (s : String) : Prop :=
  ∀ v : Int64, result = some v ↔ ∃ n, IntegerText s.toList n ∧ Fits 63 n ∧ v.toInt = n

/-- The parser accepts exactly its grammar on the texts that are not doubly signed, and
so do the two coercions of a JSON string. -/
theorem parseFullInt_grammar_iff (P : Platform) (s : String) :
    (AcceptsGrammar (parseFullInt s) s ∧ AcceptsGrammar (coerceInt P (.string s)) s ∧
      AcceptsGrammar (coerceId P (.string s)) s) ↔ ¬DoubleSigned s := by
  constructor
  · rintro ⟨hparse, -, -⟩ hdouble
    obtain ⟨v, hv⟩ := parseFullInt_of_doubleSigned hdouble
    obtain ⟨n, htext, -, -⟩ := (hparse v).mp hv
    exact not_integerText_of_doubleSigned hdouble n htext
  · intro hsingle
    have hparse : AcceptsGrammar (parseFullInt s) s := by
      intro v
      constructor
      · intro hv
        obtain ⟨n, htext, hfits, rfl⟩ := (parseFullInt_eq_some hv).resolve_right hsingle
        exact ⟨n, htext, hfits, ofInt64_eq_self hfits⟩
      · rintro ⟨n, htext, hfits, rfl⟩
        rw [parseFullInt_of_integerText htext, if_pos hfits, Int64.ofInt_toInt]
    exact ⟨hparse, hparse, hparse⟩

/-- A plus sign in front of `-5` is removed and the rest is accepted. -/
theorem double_sign_accepted :
    parseFullInt "+-5" = some (-5) ∧ ¬AcceptsGrammar (parseFullInt "+-5") "+-5" := by
  have haccepted : parseFullInt "+-5" = some (-5) := by decide +kernel
  have hdouble : DoubleSigned "+-5" := by
    refine ⟨[], ['5'], [], 5, rfl, ?_, ?_, ⟨List.cons_ne_nil _ _, ?_, rfl⟩, by decide⟩
    · rintro c ⟨⟩
    · rintro c ⟨⟩
    · intro c hc
      rw [List.mem_singleton.mp hc]
      rfl
  refine ⟨haccepted, fun h => ?_⟩
  obtain ⟨n, htext, -, -⟩ := (h _).mp haccepted
  exact not_integerText_of_doubleSigned hdouble n htext

/-! ## Numbers and their texts -/

/-- The integers that a JSON number stands for exactly: an integer of the parser, and a
double with an integral value within 64 signed bits. -/
inductive IntegerValue : Json → ℤ → Prop
  | signed (i : Int64) : IntegerValue (.numberInteger i) i.toInt
  | unsigned (u : UInt64) : IntegerValue (.numberUnsigned u) u.toNat
  | double {d : Binary64} (h : d.isIntegral = true) (hfits : Fits 63 d.trunc) :
      IntegerValue (.numberFloat d) d.trunc

/-- The conversion of a double that is an integer in range. -/
theorem toInt64_of_isIntegral (P : Platform) {d : Binary64} (h : d.isIntegral = true)
    (hfits : Fits 63 d.trunc) : P.toInt64 d = Int64.ofInt d.trunc := by
  have hfinite : d.isFinite = true := (Bool.and_eq_true_iff.mp h).1
  exact if_pos ⟨hfinite, hfits⟩

/-- The text of a number is the text of the 64 bits that it is read as. -/
theorem coerceString_of_integerValue (P : Platform) {v : Json} {n : ℤ} (h : IntegerValue v n) :
    ∃ i, coerceInt P v = some i ∧ coerceString P v = some (toString i.toInt) ∧
      i = Int64.ofInt n := by
  cases h with
  | signed i => exact ⟨i, rfl, rfl, (Int64.ofInt_toInt i).symm⟩
  | unsigned u => exact ⟨u.toInt64, rfl, rfl, toInt64_eq_ofInt u⟩
  | double h hfits =>
      refine ⟨_, rfl, ?_, toInt64_of_isIntegral P h hfits⟩
      simp only [coerceString, numToString]
      rw [if_pos ⟨h, hfits⟩]

/-- A number and its text are interchangeable: the text, with any white space around it,
is read as the integer that the number is read as. -/
theorem coerceInt_coerceString (P : Platform) {v : Json} {n : ℤ} (h : IntegerValue v n) :
    ∃ text i, coerceString P v = some text ∧ coerceInt P v = some i ∧
      ∀ pre post : String, (∀ c ∈ pre.toList, isWs c = true) →
        (∀ c ∈ post.toList, isWs c = true) →
        coerceInt P (.string (pre ++ text ++ post)) = some i := by
  obtain ⟨i, hint, hstring, -⟩ := coerceString_of_integerValue P h
  refine ⟨toString i.toInt, i, hstring, hint, fun pre post hpre hpost => ?_⟩
  have htext : IntegerText (pre ++ toString i.toInt ++ post).toList i.toInt := by
    refine ⟨pre.toList, _, post.toList, ?_, hpre, hpost, signedNumeral_toString i.toInt⟩
    rw [String.toList_append, String.toList_append]
  have hfits : Fits 63 i.toInt := ⟨i.le_toInt, i.toInt_lt⟩
  rw [coerceInt, parseFullInt_of_integerText htext, if_pos hfits, Int64.ofInt_toInt]

/-- The largest unsigned integer and its text, which is that of minus one. -/
theorem coerceInt_coerceString_max :
    ∃ text i, coerceString (Platform.ofTable []) (.numberUnsigned (-1)) = some text ∧
      coerceInt (Platform.ofTable []) (.numberUnsigned (-1)) = some i ∧
      ∀ pre post : String, (∀ c ∈ pre.toList, isWs c = true) →
        (∀ c ∈ post.toList, isWs c = true) →
        coerceInt (Platform.ofTable []) (.string (pre ++ text ++ post)) = some i :=
  coerceInt_coerceString (Platform.ofTable []) (.unsigned (-1))

end Audd
