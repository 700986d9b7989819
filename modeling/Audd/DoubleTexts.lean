import Audd.IntegerTexts
import Audd.Lib.DecimalText
import Mathlib.Data.Rat.Floor

/-!
# Double texts

`parse_full_double` and the coercion to a double, which texts they accept, and where they
agree with the readers of integers.

## Implementation notes

A value is the exact number of its text. The rounding to the nearest double is left out,
so the values are compared with integers only where a double holds every integer.
-/

namespace Audd

open Decimal FixedWidth Trim

section
variable (P : Platform)

/-- Parse a whole text as a decimal double: no letter but the exponent's, and
`std::stod` has to consume all of it. -/
def parseFullDouble (s : String) : Option ExactDouble :=
  let t := (trimAscii s).toList
  if t = [] then none
  else if t.any foreignLetter then none
  else
    match stod P.stodRangeError t with
    | some (v, []) => if v.isFinite then some v else none
    | _ => none

/-- The value of a word. -/
def exactDouble (d : Binary64) : ExactDouble :=
  if d.isFinite then .finite (d.scaled / 2 ^ 1074)
  else if d.fraction = 0 then .infinite d.negative
  else .nan

def coerceDouble : Json → Option ExactDouble
  | .numberInteger i => some (.finite i.toInt)
  | .numberUnsigned u => some (.finite u.toNat)
  | .numberFloat d => some (exactDouble d)
  | .boolean b => some (.finite (if b then 1 else 0))
  | .string s => parseFullDouble P s
  | .null | .array _ | .object _ => none

end

variable {P : Platform}

/-! ## The accepted texts -/

/-- What `std::stod` reads of a trimmed text without foreign letters. -/
theorem decimal_of_stod {t : List Char} {v : ExactDouble} (htrim : ∀ c ∈ t.head?, isWs c = false)
    (hletters : t.any foreignLetter = false) (h : stod P.stodRangeError t = some (v, [])) :
    ∃ negative sign body q, t = sign ++ body ∧ IsSign negative sign ∧ IsDecimal body q ∧
      P.stodRangeError q = false ∧ v = .finite (if negative then -q else q) := by
  obtain ⟨negative, m, hnumber, hrange, hv⟩ := stod_iff.mp h
  obtain ⟨sign, body, q, ht, hsign, hbody, rfl⟩ := exists_decimal_of_isNumber hnumber htrim
    fun c hc => Bool.eq_false_iff.mpr (List.any_eq_false.mp hletters c hc)
  exact ⟨negative, sign, body, q, ht, hsign, hbody, hrange, hv⟩

theorem stod_of_decimal {negative : Bool} {sign body : List Char} {q : ℚ}
    (hsign : IsSign negative sign) (hbody : IsDecimal body q)
    (hrange : P.stodRangeError q = false) :
    stod P.stodRangeError (sign ++ body) = some (.finite (if negative then -q else q), []) :=
  stod_iff.mpr ⟨negative, .finite q, ⟨[], sign, body, rfl, by simp, hsign, hbody.isMagnitude⟩,
    hrange, rfl⟩

theorem parseFullDouble_eq_some {s : String} {v : ExactDouble} :
    parseFullDouble P s = some v ↔ ∃ negative q, DecimalText s.toList negative q ∧
      P.stodRangeError q = false ∧ v = .finite (if negative then -q else q) := by
  simp only [parseFullDouble, toList_trimAscii, decimalText_iff]
  have htrim := (trimmed_trim isWs isWs s.toList).1
  generalize trim isWs isWs s.toList = t at htrim
  constructor
  · intro h
    split at h
    · cases h
    · split at h
      · cases h
      · rename_i hletters
        split at h
        · rename_i w hread
          split at h
          · obtain rfl := Option.some.inj h
            obtain ⟨negative, sign, body, q, ht, hsign, hbody, hv⟩ :=
              decimal_of_stod htrim (Bool.eq_false_iff.mpr hletters) hread
            exact ⟨negative, q, ⟨sign, body, ht, hsign, hbody⟩, hv⟩
          · cases h
        · cases h
  · rintro ⟨negative, q, ⟨sign, body, rfl, hsign, hbody⟩, hrange, rfl⟩
    have hchars := decimalChar_signed hsign hbody
    have hne : sign ++ body ≠ [] := by
      obtain ⟨c, tail, rfl, -⟩ := head_isMagnitude hbody.isMagnitude
      exact List.append_ne_nil_of_right_ne_nil _ (List.cons_ne_nil _ _)
    have hletters : (sign ++ body).any foreignLetter = false := by
      rw [List.any_eq_false]
      intro c hc
      simp [(decimalChar_spec (hchars c hc)).2]
    rw [if_neg hne, hletters, if_neg Bool.false_ne_true, stod_of_decimal hsign hbody hrange]
    rfl

/-- The double reader accepts exactly the decimal texts for which the library reports no
range error, whatever else `std::stod` knows, and the value is that of the text. The test
for infinities and NaN after `std::stod` rejects nothing that the letters have not. -/
theorem coerceDouble_grammar (P : Platform) (s : String) :
    (∀ v, coerceDouble P (.string s) = some v ↔ ∃ negative q, DecimalText s.toList negative q ∧
      P.stodRangeError q = false ∧ v = .finite (if negative then -q else q)) ∧
    ∀ v, (trimAscii s).toList.any foreignLetter = false →
      stod P.stodRangeError (trimAscii s).toList = some (v, []) → v.isFinite = true := by
  refine ⟨fun v => ?_, fun v hletters hread => ?_⟩
  · rw [coerceDouble]
    exact parseFullDouble_eq_some
  · rw [toList_trimAscii] at hletters hread
    obtain ⟨negative, sign, body, q, -, -, -, -, rfl⟩ :=
      decimal_of_stod (trimmed_trim isWs isWs s.toList).1 hletters hread
    rfl

/-- The same number with a decimal point and with an exponent, and what is refused. -/
example : [" 8.50 ", "+85e-1", "0x1A", "inf", "nan", "8.5abc", ""].map
    (parseFullDouble (Platform.ofTable [])) =
      [some (.finite (17 / 2)), some (.finite (17 / 2)), none, none, none, none, none] := by
  decide +kernel

/-! ## The readers of integers -/

/-- The number without its fraction, toward zero. -/
def truncate (q : ℚ) : ℤ := if 0 ≤ q then ⌊q⌋ else -⌊-q⌋

theorem truncate_intCast (n : ℤ) : truncate n = n := by
  unfold truncate
  split
  · exact Int.floor_intCast n
  · rw [← Int.cast_neg, Int.floor_intCast, neg_neg]

theorem truncate_div_two_pow (n : ℤ) (k : ℕ) : truncate (n / 2 ^ k) = n.tdiv (2 ^ k) := by
  have hcast : (2 ^ k : ℚ) = (2 ^ k : ℕ) := by push_cast; rfl
  have hpow : (2 ^ k : ℤ) = (2 ^ k : ℕ) := by push_cast; rfl
  have hsign : 0 ≤ (n / 2 ^ k : ℚ) ↔ 0 ≤ n := by
    rw [le_div_iff₀ (by positivity), zero_mul, Int.cast_nonneg_iff]
  unfold truncate
  split
  · rename_i hq
    rw [hcast, hpow, Rat.floor_intCast_div_natCast, Int.tdiv_eq_ediv_of_nonneg (hsign.mp hq)]
  · rename_i hq
    have hn : 0 ≤ -n := by
      have hneg := mt hsign.mpr hq
      omega
    rw [← neg_div, ← Int.cast_neg, hcast, hpow, Rat.floor_intCast_div_natCast,
      ← Int.tdiv_eq_ediv_of_nonneg hn, Int.neg_tdiv, neg_neg]

/-- The scalars whose two readings mean the same number. -/
def ReadAlike : Json → Prop
  | .numberUnsigned u => u.toNat < 2 ^ 63
  | .numberFloat d => d.isFinite = true ∧ Fits 63 d.trunc
  | .string s => ¬DoubleSigned s
  | _ => True

theorem toInt_ofInt64_iff {n : ℤ} : (Int64.ofInt n).toInt = n ↔ Fits 63 n := by
  constructor
  · intro h
    rw [← h]
    exact ⟨(Int64.ofInt n).le_toInt, (Int64.ofInt n).toInt_lt⟩
  · exact ofInt64_eq_self

theorem exactDouble_of_isFinite {d : Binary64} (h : d.isFinite = true) :
    ∃ q, exactDouble d = .finite q ∧ truncate q = d.trunc :=
  ⟨_, if_pos h, truncate_div_two_pow d.scaled 1074⟩

theorem isFinite_exactDouble (d : Binary64) : (exactDouble d).isFinite = d.isFinite := by
  cases hfinite : d.isFinite with
  | true => rw [exactDouble, if_pos hfinite]; rfl
  | false =>
      rw [exactDouble, hfinite, if_neg Bool.false_ne_true]
      split <;> rfl

/-- A doubly signed text is no decimal text. -/
theorem not_decimalText_of_doubleSigned {s : String} (h : DoubleSigned s) (negative : Bool)
    (q : ℚ) : ¬DecimalText s.toList negative q := by
  obtain ⟨digits, k, htrim, -, -⟩ := trim_of_doubleSigned h
  intro htext
  obtain ⟨sign, body, hsplit, hsign, hbody⟩ := decimalText_iff.mp htext
  obtain ⟨c, tail, rfl, hc⟩ := head_isMagnitude hbody.isMagnitude
  rw [htrim] at hsplit
  cases hsign with
  | absent =>
      cases hsplit
      cases hc
  | plus =>
      cases hsplit
      cases hc
  | minus => cases hsplit

/-- Where a double holds every integer, the two readers of a scalar agree, up to the
fraction, exactly on the values that are neither an unsigned number beyond 63 bits, nor a
double beyond them, nor a text with two signs. -/
theorem coerceDouble_truncates_iff
    (hrange : ∀ k : ℕ, k ≤ 2 ^ 53 → P.stodRangeError k = false) {v : Json} {n : Int64}
    (h : coerceInt P v = some n) (hsmall : n.toInt.natAbs ≤ 2 ^ 53) :
    (∃ q, coerceDouble P v = some (.finite q) ∧ truncate q = n.toInt) ↔ ReadAlike v := by
  cases v with
  | null => cases h
  | array l => cases h
  | object members => cases h
  | boolean b =>
      refine iff_of_true ⟨_, rfl, ?_⟩ trivial
      cases h
      cases b
      · exact truncate_intCast 0
      · exact truncate_intCast 1
  | numberInteger i =>
      cases h
      exact iff_of_true ⟨_, rfl, truncate_intCast _⟩ trivial
  | numberUnsigned u =>
      cases h
      have hvalue : truncate (u.toNat : ℚ) = u.toNat := by
        exact_mod_cast truncate_intCast u.toNat
      rw [toInt64_eq_ofInt]
      constructor
      · rintro ⟨q, hq, htruncate⟩
        cases hq
        rw [hvalue] at htruncate
        exact_mod_cast (toInt_ofInt64_iff.mp htruncate.symm).2
      · intro hlt
        refine ⟨_, rfl, ?_⟩
        rw [hvalue, ofInt64_eq_self ⟨by omega, by exact_mod_cast hlt⟩]
  | numberFloat d =>
      cases h
      constructor
      · rintro ⟨q, hq, htruncate⟩
        have hexact : exactDouble d = .finite q := Option.some.inj hq
        have hfinite : d.isFinite = true := by
          rw [← isFinite_exactDouble, hexact]
          rfl
        obtain ⟨q', hq', hvalue⟩ := exactDouble_of_isFinite hfinite
        obtain rfl := ExactDouble.finite.inj (hexact.symm.trans hq')
        refine ⟨hfinite, ?_⟩
        rw [← hvalue, htruncate]
        exact ⟨(P.toInt64 d).le_toInt, (P.toInt64 d).toInt_lt⟩
      · rintro ⟨hfinite, hfits⟩
        obtain ⟨q, hq, hvalue⟩ := exactDouble_of_isFinite hfinite
        refine ⟨q, congrArg some hq, ?_⟩
        rw [hvalue, Platform.toInt64, if_pos ⟨hfinite, hfits⟩, ofInt64_eq_self hfits]
  | string s =>
      constructor
      · rintro ⟨q, hq, -⟩ hdouble
        rw [coerceDouble] at hq
        obtain ⟨negative, q, htext, -, -⟩ := parseFullDouble_eq_some.mp hq
        exact not_decimalText_of_doubleSigned hdouble negative q htext
      · intro hsingle
        rw [ReadAlike] at hsingle
        rw [coerceInt] at h
        obtain ⟨k, htext, hfits, rfl⟩ := (parseFullInt_eq_some h).resolve_right hsingle
        rw [ofInt64_eq_self hfits] at hsmall ⊢
        obtain ⟨negative, hdecimal, hvalue⟩ := htext.decimalText
        have hread : parseFullDouble P s = some (.finite k) :=
          parseFullDouble_eq_some.mpr
            ⟨negative, _, hdecimal, hrange k.natAbs hsmall, by rw [hvalue]⟩
        exact ⟨_, hread, truncate_intCast k⟩

/-- Both readers know a plus sign; only that of integers knows another sign behind it. -/
theorem coerceDouble_truncates_iff_signs :
    let P := Platform.ofTable []
    (∃ q, coerceDouble P (.string " +42 ") = some (.finite q) ∧ truncate q = 42) ∧
      ¬∃ q, coerceDouble P (.string "+-5") = some (.finite q) ∧ truncate q = -5 := by
  intro P
  have hrange : ∀ k : ℕ, k ≤ 2 ^ 53 → P.stodRangeError k = false := by
    intro k hk
    exact decide_eq_false (not_le.mpr (ExactDouble.natCast_lt_overflow (by omega)))
  have hread : coerceInt P (.string " +42 ") = some 42 := by decide +kernel
  have hread' : coerceInt P (.string "+-5") = some (-5) := by decide +kernel
  constructor
  · refine (coerceDouble_truncates_iff hrange hread (by decide)).mpr ?_
    intro hdouble
    obtain ⟨digits, k, htrim, -, -⟩ := trim_of_doubleSigned hdouble
    have htext : trim isWs isWs " +42 ".toList = ['+', '4', '2'] := by decide +kernel
    rw [htext] at htrim
    cases htrim
  · intro h
    refine (coerceDouble_truncates_iff hrange hread' (by decide)).mp h ?_
    refine ⟨[], ['5'], [], 5, rfl, by simp, by simp, ⟨List.cons_ne_nil _ _, ?_, rfl⟩, by decide⟩
    exact forall_of_all (by decide)

end Audd
