import Audd.JsonParse
import Audd.Lib.NumberGrammar
import Audd.Lib.Numeral
import Mathlib.Data.List.Forall2
import Mathlib.Tactic.Positivity
import Mathlib.Tactic.Ring

/-!
# Chunk offsets

The documented offsets are one to three plain decimals between colons. The parser
accepts whatever the C library reads as a number in their place, and it does not look
at what becomes of their sum.
-/

namespace Audd

open Decimal

/-- The components of an offset. -/
def components (offset : String) : List (List Char) := offset.toList.splitOn ':'

/-- Digits with an optional fractional part, and the number they write. -/
def IsPlain (text : List Char) (q : ℚ) : Prop :=
  ∃ whole part, (∀ c ∈ whole, isDigit c = true) ∧ (∀ c ∈ part, isDigit c = true) ∧ whole ≠ [] ∧
    ((part = [] ∧ text = whole) ∨ (part ≠ [] ∧ text = whole ++ '.' :: part)) ∧
    q = digitsValue (whole ++ part) / 10 ^ part.length

/-- Seconds from one to three components. -/
def seconds : List ℚ → Option ℚ
  | [s] => some s
  | [m, s] => some (m * 60 + s)
  | [h, m, s] => some (h * 3600 + m * 60 + s)
  | _ => none

/-- A documented offset and the seconds it stands for. -/
def IsDocumented (offset : String) (q : ℚ) : Prop :=
  ∃ qs, List.Forall₂ IsPlain (components offset) qs ∧ seconds qs = some q

/-! ## The parser -/

theorem splitColons_eq_splitOn (text : List Char) : splitColons text [] = text.splitOn ':' := by
  have hloop : ∀ cur, splitColons text cur =
      List.splitOnPPrepend (· == ':') text cur.reverse := by
    induction text with
    | nil =>
        intro cur
        rw [splitColons, List.splitOnPPrepend_nil, List.reverse_reverse]
    | cons ch rest ih =>
        intro cur
        by_cases hch : ch = ':'
        · subst hch
          rw [splitColons, ih, List.splitOnPPrepend_cons_pos rfl, List.reverse_reverse]
          rfl
        · have hnext : splitColons (ch :: rest) cur = splitColons rest (cur ++ [ch]) := by
            rw [splitColons]
            exact fun h => hch h
          have hcolon : (ch == ':') = false := beq_false_of_ne hch
          rw [hnext, ih, List.splitOnPPrepend_cons_neg (p := (· == ':')) hcolon,
            List.reverse_append]
          rfl
  exact hloop []

section
variable {P : Platform}

theorem parseComponent_eq_some_iff {text : List Char} {v : ExactDouble} :
    parseComponent P text = some v ↔ stod P.stodRangeError text = some (v, []) := by
  unfold parseComponent
  split
  · rename_i hnil
    rw [hnil]
    constructor
    · intro h
      cases h
    · intro h
      cases h
  · split
    · rename_i w hread
      rw [hread]
      constructor
      · intro h
        cases h
        rfl
      · intro h
        cases h
        rfl
    · rename_i hread
      constructor
      · intro h
        cases h
      · intro h
        exact absurd h (hread v)

theorem sumComponents_eq_some_iff {total v : ExactDouble} {parts : List (List Char)} :
    sumComponents P total parts = some v ↔
      ∃ vs, List.Forall₂ (fun part w => parseComponent P part = some w) parts vs ∧
        v = vs.foldl (fun t w => t.scale 60 + w) total := by
  induction parts generalizing total with
  | nil =>
      constructor
      · intro h
        cases h
        exact ⟨[], .nil, rfl⟩
      · rintro ⟨vs, hvs, rfl⟩
        cases hvs
        rfl
  | cons part rest ih =>
      constructor
      · intro h
        rw [sumComponents] at h
        split at h
        · rename_i w hw
          obtain ⟨vs, hvs, hv⟩ := ih.mp h
          exact ⟨w :: vs, .cons hw hvs, hv⟩
        · cases h
      · rintro ⟨_, hvs, hv⟩
        cases hvs with
        | cons hw hvs =>
            rw [sumComponents, hw]
            exact ih.mpr ⟨_, hvs, hv⟩

/-- An offset is accepted when each of at most three components is read. -/
theorem offsetToSeconds_eq_some_iff {offset : String} {v : ExactDouble} :
    offsetToSeconds P offset = some v ↔
      (components offset).length ≤ 3 ∧
        ∃ vs, List.Forall₂ (fun part w => parseComponent P part = some w) (components offset) vs ∧
          v = vs.foldl (fun t w => t.scale 60 + w) (.finite 0) := by
  have hparts : offsetToSeconds P offset = if offset = "" then none
      else if 3 < (components offset).length then none
      else sumComponents P (.finite 0) (components offset) := by
    rw [offsetToSeconds, splitColons_eq_splitOn]
    rfl
  rw [hparts]
  by_cases hempty : offset = ""
  · rw [if_pos hempty]
    constructor
    · intro h
      cases h
    · rintro ⟨-, vs, hvs, -⟩
      rw [hempty] at hvs
      cases hvs with
      | cons hw _ => cases hw
  · rw [if_neg hempty]
    by_cases hlong : 3 < (components offset).length
    · rw [if_pos hlong]
      constructor
      · intro h
        cases h
      · rintro ⟨hle, -⟩
        omega
    · rw [if_neg hlong, sumComponents_eq_some_iff]
      constructor
      · intro h
        exact ⟨Nat.not_lt.mp hlong, h⟩
      · exact And.right

/-! ## Plain decimals -/

theorem isMagnitude_of_isPlain {text : List Char} {q : ℚ} (h : IsPlain text q) :
    IsMagnitude text (.finite q) := by
  obtain ⟨whole, part, hwhole, hpart, hne, htext, rfl⟩ := h
  have hm : IsMantissa isDigit whole part text := by
    refine ⟨hwhole, hpart, fun hnil => hne hnil.1, ?_⟩
    rcases htext with ⟨hnil, rfl⟩ | ⟨-, rfl⟩
    · exact .inr ⟨hnil, rfl⟩
    · exact .inl rfl
  have hform := IsMagnitude.decimal hm .absent
  rwa [List.append_nil, zero_sub, zpow_neg, zpow_natCast, ← div_eq_mul_inv] at hform

theorem isPlain_nonneg {text : List Char} {q : ℚ} (h : IsPlain text q) : 0 ≤ q := by
  obtain ⟨whole, part, -, -, -, -, rfl⟩ := h
  positivity

/-- The characters of a plain decimal. -/
theorem mem_isPlain {text : List Char} {q : ℚ} (h : IsPlain text q) :
    ∀ c ∈ text, isDigit c = true ∨ c = '.' := by
  obtain ⟨whole, part, hwhole, hpart, -, htext, -⟩ := h
  intro c hc
  rcases htext with ⟨-, rfl⟩ | ⟨-, rfl⟩
  · exact .inl (hwhole c hc)
  · rcases List.mem_append.mp hc with hc | hc
    · exact .inl (hwhole c hc)
    · rcases List.mem_cons.mp hc with hc | hc
      · exact .inr hc
      · exact .inl (hpart c hc)

/-- A plain decimal is read as its number unless the library reports a range error. -/
theorem parseComponent_of_isPlain {text : List Char} {q : ℚ} (h : IsPlain text q)
    (v : ExactDouble) :
    parseComponent P text = some v ↔ P.stodRangeError q = false ∧ v = .finite q := by
  rw [parseComponent_eq_some_iff, stod_of_isMagnitude (isMagnitude_of_isPlain h)]
  rfl

/-- Seconds are a sum in base sixty. -/
theorem foldl_seconds {qs : List ℚ} {q : ℚ} (h : seconds qs = some q) :
    qs.foldl (fun t b => t * 60 + b) 0 = q := by
  match qs, h with
  | [s], h =>
      cases h
      simp only [List.foldl_cons, List.foldl_nil]
      ring
  | [m, s], h =>
      cases h
      simp only [List.foldl_cons, List.foldl_nil]
      ring
  | [h', m, s], h =>
      cases h
      simp only [List.foldl_cons, List.foldl_nil]
      ring

theorem seconds_nonneg {qs : List ℚ} {q : ℚ} (hqs : ∀ r ∈ qs, 0 ≤ r) (h : seconds qs = some q) :
    0 ≤ q := by
  match qs, h with
  | [s], h =>
      cases h
      exact hqs _ (by simp)
  | [m, s], h =>
      cases h
      have hm : 0 ≤ m := hqs m (by simp)
      have hs : 0 ≤ s := hqs s (by simp)
      positivity
  | [h', m, s], h =>
      cases h
      have hh : 0 ≤ h' := hqs h' (by simp)
      have hm : 0 ≤ m := hqs m (by simp)
      have hs : 0 ≤ s := hqs s (by simp)
      positivity

/-! ## The accepted texts -/

theorem exists_forall₂ {α β : Type} {R : α → β → Prop} {l : List α} (h : ∀ a ∈ l, ∃ b, R a b) :
    ∃ bs, List.Forall₂ R l bs := by
  induction l with
  | nil => exact ⟨[], .nil⟩
  | cons a rest ih =>
      obtain ⟨b, hb⟩ := h a List.mem_cons_self
      obtain ⟨bs, hbs⟩ := ih fun c hc => h c (List.mem_cons_of_mem _ hc)
      exact ⟨b :: bs, .cons hb hbs⟩

theorem of_forall₂ {α β : Type} {R : α → β → Prop} {l : List α} {bs : List β}
    (h : List.Forall₂ R l bs) : ∀ a ∈ l, ∃ b ∈ bs, R a b := by
  induction h with
  | nil =>
      intro a ha
      cases ha
  | cons hR _ ih =>
      intro a ha
      rcases List.mem_cons.mp ha with rfl | ha
      · exact ⟨_, List.mem_cons_self, hR⟩
      · obtain ⟨b, hb, hab⟩ := ih a ha
        exact ⟨b, List.mem_cons_of_mem _ hb, hab⟩

variable (P) in
/-- A text that the library reads as one number in its range. -/
def IsLibraryNumber (text : List Char) : Prop :=
  ∃ negative m, IsNumber text negative m ∧ InRange P.stodRangeError m

theorem exists_offsetToSeconds_iff {offset : String} :
    (∃ v, offsetToSeconds P offset = some v) ↔
      (components offset).length ≤ 3 ∧ ∀ c ∈ components offset, IsLibraryNumber P c := by
  constructor
  · rintro ⟨v, hv⟩
    obtain ⟨hlen, vs, hvs, -⟩ := offsetToSeconds_eq_some_iff.mp hv
    refine ⟨hlen, fun c hc => ?_⟩
    obtain ⟨w, -, hw⟩ := of_forall₂ hvs c hc
    obtain ⟨negative, m, hnumber, hrange, -⟩ := stod_iff.mp (parseComponent_eq_some_iff.mp hw)
    exact ⟨negative, m, hnumber, hrange⟩
  · rintro ⟨hlen, hall⟩
    have hread : ∀ c ∈ components offset, ∃ w, parseComponent P c = some w := by
      intro c hc
      obtain ⟨negative, m, hnumber, hrange⟩ := hall c hc
      exact ⟨_, parseComponent_eq_some_iff.mpr (stod_iff.mpr ⟨negative, m, hnumber, hrange, rfl⟩)⟩
    obtain ⟨vs, hvs⟩ := exists_forall₂ hread
    exact ⟨_, offsetToSeconds_eq_some_iff.mpr ⟨hlen, vs, hvs, rfl⟩⟩

/-- One to three plain decimals are documented. -/
theorem exists_isDocumented_iff {offset : String} :
    (∃ q, IsDocumented offset q) ↔
      (components offset).length ≤ 3 ∧ ∀ c ∈ components offset, ∃ q, IsPlain c q := by
  constructor
  · rintro ⟨q, qs, hqs, hq⟩
    constructor
    · rw [hqs.length_eq]
      match qs, hq with
      | [_], _ => simp
      | [_, _], _ => simp
      | [_, _, _], _ => simp
    · intro c hc
      obtain ⟨r, -, hr⟩ := of_forall₂ hqs c hc
      exact ⟨r, hr⟩
  · rintro ⟨hlen, hall⟩
    obtain ⟨qs, hqs⟩ := exists_forall₂ hall
    have hne : components offset ≠ [] := List.splitOn_ne_nil _ _
    rw [hqs.length_eq] at hlen
    match qs, hlen with
    | [], _ =>
        cases hcomponents : components offset with
        | nil => exact absurd hcomponents hne
        | cons c rest =>
            rw [hcomponents] at hqs
            cases hqs
    | [s], _ => exact ⟨_, _, hqs, rfl⟩
    | [m, s], _ => exact ⟨_, _, hqs, rfl⟩
    | [h, m, s], _ => exact ⟨_, _, hqs, rfl⟩

/-- The numbers of a documented offset are in the range of the doubles when their sum is. -/
theorem fits_of_isDocumented {offset : String} {qs : List ℚ} {q : ℚ}
    (hqs : List.Forall₂ IsPlain (components offset) qs) (hq : seconds qs = some q) :
    0 ≤ q ∧ (ExactDouble.Fits 60 0 qs ↔ q < ExactDouble.overflow) := by
  have hnonneg : ∀ r ∈ qs, 0 ≤ r := by
    intro r hr
    obtain ⟨c, -, hc⟩ := of_forall₂ hqs.flip r hr
    exact isPlain_nonneg hc
  refine ⟨seconds_nonneg hnonneg hq, ?_⟩
  rw [← foldl_seconds hq, ← ExactDouble.fits_iff (by norm_num) hnonneg le_rfl]
  exact (and_iff_right ExactDouble.overflow_pos).symm

/-- A documented offset in range gives its seconds. -/
theorem offsetToSeconds_of_isDocumented {offset : String} {q : ℚ} (h : IsDocumented offset q)
    (hrange : ∀ c ∈ components offset, ∀ r, IsPlain c r → P.stodRangeError r = false)
    (hlt : q < ExactDouble.overflow) :
    0 ≤ q ∧ offsetToSeconds P offset = some (.finite q) := by
  have hlen := (exists_isDocumented_iff.mp ⟨q, h⟩).1
  obtain ⟨qs, hqs, hq⟩ := h
  have hread : List.Forall₂ (fun part w => parseComponent P part = some w) (components offset)
      (qs.map ExactDouble.finite) := by
    rw [List.forall₂_map_right_iff]
    have hmem : List.Forall₂ (fun c r => c ∈ components offset ∧ IsPlain c r)
        (components offset) qs := (List.forall₂_and_left _ _).mpr ⟨fun c hc => hc, hqs⟩
    exact hmem.imp fun c r hc => (parseComponent_of_isPlain hc.2 _).mpr ⟨hrange c hc.1 r hc.2, rfl⟩
  obtain ⟨hnonneg, hfits⟩ := fits_of_isDocumented hqs hq
  have hsum := ExactDouble.foldl_eq_finite_iff.mpr ⟨0, qs, rfl, rfl, hfits.mpr hlt,
    foldl_seconds hq⟩
  exact ⟨hnonneg, offsetToSeconds_eq_some_iff.mpr ⟨hlen, _, hread, hsum.symm⟩⟩

/-- A finite value that is returned is in the range of the doubles. -/
theorem abs_lt_of_offsetToSeconds {offset : String} {q : ℚ}
    (h : offsetToSeconds P offset = some (.finite q)) : |q| < ExactDouble.overflow := by
  obtain ⟨-, vs, hvs, hsum⟩ := offsetToSeconds_eq_some_iff.mp h
  apply ExactDouble.abs_foldl_lt _ hsum.symm
  rintro rfl
  exact List.splitOn_ne_nil _ _ (List.forall₂_nil_right_iff.mp hvs)

end

/-! ## Offsets that are not finite -/

section
variable (P : Platform)

/-- One to three numbers of the library, one of them an infinity or a NaN. -/
def HasNonFiniteNumber (offset : String) : Prop :=
  (components offset).length ≤ 3 ∧ (∀ c ∈ components offset, IsLibraryNumber P c) ∧
    ∃ c ∈ components offset, ∃ negative m, IsNumber c negative m ∧ m.isFinite = false

/-- A text that the library reads as a finite number. -/
def IsFiniteNumber (text : List Char) (q : ℚ) : Prop :=
  ∃ negative m, IsNumber text negative (.finite m) ∧ P.stodRangeError m = false ∧
    q = if negative then -m else m

/-- One to three finite numbers whose sum in base sixty, from the left, overflows in one of
its products or sums. -/
def HasOverflowingSum (offset : String) : Prop :=
  (components offset).length ≤ 3 ∧
    ∃ qs, List.Forall₂ (IsFiniteNumber P) (components offset) qs ∧ ¬ExactDouble.Fits 60 0 qs

/-- One to three finite numbers whose sum in base sixty is `q`, without an overflow. -/
def WritesSeconds (offset : String) (q : ℚ) : Prop :=
  (components offset).length ≤ 3 ∧ ∃ qs, List.Forall₂ (IsFiniteNumber P) (components offset) qs ∧
    ExactDouble.Fits 60 0 qs ∧ qs.foldl (fun t b => t * 60 + b) 0 = q

theorem parseComponent_eq_finite_iff {text : List Char} {q : ℚ} :
    parseComponent P text = some (.finite q) ↔ IsFiniteNumber P text q := by
  rw [parseComponent_eq_some_iff, stod_iff]
  constructor
  · rintro ⟨negative, m, hnumber, hrange, hm⟩
    cases m with
    | finite m => exact ⟨negative, m, hnumber, hrange, ExactDouble.finite.inj hm⟩
    | infinite s => cases hm
    | nan => cases hm
  · rintro ⟨negative, m, hnumber, hrange, rfl⟩
    exact ⟨negative, .finite m, hnumber, hrange, rfl⟩

theorem IsFiniteNumber.unique : Relator.RightUnique (IsFiniteNumber P) := by
  intro text q q' h h'
  rw [← parseComponent_eq_finite_iff] at h h'
  exact ExactDouble.finite.inj (Option.some.inj (h.symm.trans h'))

/-- The texts that are read as a finite value. -/
theorem offsetToSeconds_eq_finite_iff {offset : String} {q : ℚ} :
    offsetToSeconds P offset = some (.finite q) ↔ WritesSeconds P offset q := by
  have hread : ∀ qs : List ℚ,
      List.Forall₂ (fun c w => parseComponent P c = some w) (components offset)
          (qs.map ExactDouble.finite) ↔
        List.Forall₂ (IsFiniteNumber P) (components offset) qs := by
    intro qs
    rw [List.forall₂_map_right_iff]
    simp only [parseComponent_eq_finite_iff]
  rw [offsetToSeconds_eq_some_iff, WritesSeconds]
  apply and_congr_right
  intro _
  constructor
  · rintro ⟨vs, hvs, hsum⟩
    obtain ⟨t, qs, ht, rfl, hfits, hq⟩ := ExactDouble.foldl_eq_finite_iff.mp hsum.symm
    obtain rfl := ExactDouble.finite.inj ht
    exact ⟨qs, (hread qs).mp hvs, hfits, hq⟩
  · rintro ⟨qs, hqs, hfits, hq⟩
    exact ⟨_, (hread qs).mpr hqs,
      (ExactDouble.foldl_eq_finite_iff.mpr ⟨0, qs, rfl, rfl, hfits, hq⟩).symm⟩

/-- A text that is read as a number is read as a finite one or as an infinity or a NaN. -/
theorem IsLibraryNumber.finite_or {text : List Char} (h : IsLibraryNumber P text) :
    (∃ q, IsFiniteNumber P text q) ∨
      ∃ negative m, IsNumber text negative m ∧ m.isFinite = false := by
  obtain ⟨negative, m, hnumber, hrange⟩ := h
  cases m with
  | finite m => exact .inl ⟨_, negative, m, hnumber, hrange, rfl⟩
  | infinite s => exact .inr ⟨negative, _, hnumber, rfl⟩
  | nan => exact .inr ⟨negative, _, hnumber, rfl⟩

/-- An infinity or a NaN is not read as a finite number. -/
theorem IsFiniteNumber.isFinite {text : List Char} {q : ℚ} (h : IsFiniteNumber P text q)
    {negative : Bool} {m : ExactDouble} (hm : IsNumber text negative m) : m.isFinite = true := by
  by_contra hno
  have hrange : InRange P.stodRangeError m := by
    cases m with
    | finite m => exact absurd rfl hno
    | infinite s => trivial
    | nan => trivial
  have hread : parseComponent P text = some (signed negative m) :=
    parseComponent_eq_some_iff.mpr (stod_iff.mpr ⟨negative, m, hm, hrange, rfl⟩)
  rw [(parseComponent_eq_finite_iff P).mpr h] at hread
  have hfinite : (signed negative m).isFinite = true := by
    rw [← Option.some.inj hread]
    rfl
  rw [isFinite_signed] at hfinite
  exact hno hfinite

theorem IsFiniteNumber.isLibraryNumber {text : List Char} {q : ℚ}
    (h : IsFiniteNumber P text q) : IsLibraryNumber P text := by
  obtain ⟨negative, m, hnumber, hrange, -⟩ := h
  exact ⟨negative, _, hnumber, hrange⟩

/-- An offset that writes a number of seconds is of neither kind. -/
theorem WritesSeconds.not_kind {offset : String} {q : ℚ} (h : WritesSeconds P offset q) :
    ¬HasNonFiniteNumber P offset ∧ ¬HasOverflowingSum P offset := by
  obtain ⟨-, qs, hqs, hfits, -⟩ := h
  constructor
  · rintro ⟨-, -, c, hc, negative, m, hm, hnonfinite⟩
    obtain ⟨q, -, hq⟩ := of_forall₂ hqs c hc
    rw [hq.isFinite P hm] at hnonfinite
    cases hnonfinite
  · rintro ⟨-, qs', hqs', hover⟩
    obtain rfl := List.right_unique_forall₂' (IsFiniteNumber.unique P) hqs hqs'
    exact hover hfits

/-- Up to three numbers write a number of seconds or are of one of the two kinds. -/
theorem writesSeconds_or {offset : String} (hlen : (components offset).length ≤ 3)
    (hnumbers : ∀ c ∈ components offset, IsLibraryNumber P c) :
    (∃ q, WritesSeconds P offset q) ∨
      HasNonFiniteNumber P offset ∨ HasOverflowingSum P offset := by
  by_cases hall : ∀ c ∈ components offset, ∃ q, IsFiniteNumber P c q
  · obtain ⟨qs, hqs⟩ := exists_forall₂ hall
    by_cases hfits : ExactDouble.Fits 60 0 qs
    · exact .inl ⟨_, hlen, qs, hqs, hfits, rfl⟩
    · exact .inr (.inr ⟨hlen, qs, hqs, hfits⟩)
  · push Not at hall
    obtain ⟨c, hc, hno⟩ := hall
    rcases (hnumbers c hc).finite_or P with ⟨q, hq⟩ | hkind
    · exact absurd hq (hno q)
    · exact .inr (.inl ⟨hlen, hnumbers, c, hc, hkind⟩)

/-- The offsets of the two kinds are those with a value that is not finite. -/
theorem nonFinite_iff (offset : String) :
    HasNonFiniteNumber P offset ∨ HasOverflowingSum P offset ↔
      ∃ v, offsetToSeconds P offset = some v ∧ v.isFinite = false := by
  constructor
  · intro hkind
    have hnumbers : (components offset).length ≤ 3 ∧
        ∀ c ∈ components offset, IsLibraryNumber P c := by
      rcases hkind with ⟨hlen, hall, -⟩ | ⟨hlen, qs, hqs, -⟩
      · exact ⟨hlen, hall⟩
      · refine ⟨hlen, fun c hc => ?_⟩
        obtain ⟨q, -, hq⟩ := of_forall₂ hqs c hc
        exact hq.isLibraryNumber P
    obtain ⟨v, hv⟩ := exists_offsetToSeconds_iff.mpr hnumbers
    refine ⟨v, hv, Bool.eq_false_iff.mpr fun hfinite => ?_⟩
    obtain ⟨q, rfl⟩ := (ExactDouble.isFinite_eq_true_iff v).mp hfinite
    have hnot := ((offsetToSeconds_eq_finite_iff P).mp hv).not_kind
    exact hkind.elim hnot.1 hnot.2
  · rintro ⟨v, hv, hfinite⟩
    obtain ⟨hlen, hnumbers⟩ := exists_offsetToSeconds_iff.mp ⟨v, hv⟩
    refine (writesSeconds_or P hlen hnumbers).resolve_left ?_
    rintro ⟨q, hq⟩
    rw [(offsetToSeconds_eq_finite_iff P).mpr hq] at hv
    obtain rfl := Option.some.inj hv
    cases hfinite

end

/-! ## Whole numbers of seconds -/

/-- A number without a point is plain. -/
theorem isPlain_toString (n : ℕ) : IsPlain (toString n).toList n := by
  obtain ⟨hdigits, hvalue⟩ := toDigits_spec n
  refine ⟨Nat.toDigits 10 n, [], hdigits, ?_, Nat.toDigits_ne_nil, .inl ⟨rfl, ?_⟩, ?_⟩
  · intro c hc
    cases hc
  · rw [Nat.toString_eq_ofList_toDigits, String.toList_ofList]
  · rw [List.append_nil, hvalue, List.length_nil, pow_zero, div_one]

theorem components_toString (n : ℕ) : components (toString n) = [(toString n).toList] := by
  apply List.splitOn_eq_singleton
  intro hcolon
  rcases mem_isPlain (isPlain_toString n) ':' hcolon with h | h
  · exact absurd h (by decide)
  · exact absurd h (by decide)

/-- The offset that a whole number writes. -/
theorem offsetToSeconds_toString {P : Platform} {n : ℕ} (hrange : P.stodRangeError n = false)
    (hlt : (n : ℚ) < ExactDouble.overflow) :
    offsetToSeconds P (toString n) = some (.finite n) := by
  have hplain := isPlain_toString n
  have hread := (parseComponent_of_isPlain (P := P) hplain (.finite n)).mpr ⟨hrange, rfl⟩
  have hqs : List.Forall₂ IsPlain (components (toString n)) [(n : ℚ)] := by
    rw [components_toString]
    exact .cons hplain .nil
  have hsum := ExactDouble.foldl_eq_finite_iff.mpr
    ⟨0, [(n : ℚ)], rfl, rfl, (fits_of_isDocumented hqs rfl).2.mpr hlt, foldl_seconds rfl⟩
  apply offsetToSeconds_eq_some_iff.mpr
  rw [components_toString]
  exact ⟨Nat.le_of_ble_eq_true rfl, [.finite n], .cons hread .nil, hsum.symm⟩

/-! ## The documented offsets -/

section
variable (P : Platform)

/-- A documented offset gives its seconds, which are finite and not negative, and
every other string gives nothing. -/
def MeetsDocumentation (offset : String) : Prop :=
  (∀ q, IsDocumented offset q → 0 ≤ q ∧ offsetToSeconds P offset = some (.finite q)) ∧
    ((∀ q, ¬IsDocumented offset q) → offsetToSeconds P offset = none)

/-- One to three numbers of the library, one of them no plain decimal: it has white
space or a sign in front, an exponent, a point without digits on both sides, or it is
a hexadecimal, infinity or NaN form. -/
def HasLenientNumber (offset : String) : Prop :=
  (components offset).length ≤ 3 ∧ (∀ c ∈ components offset, IsLibraryNumber P c) ∧
    ∃ c ∈ components offset, ∀ q, ¬IsPlain c q

/-- One to three plain decimals, one of them outside the range of the library. -/
def HasUnrepresentableNumber (offset : String) : Prop :=
  (components offset).length ≤ 3 ∧ (∀ c ∈ components offset, ∃ q, IsPlain c q) ∧
    ∃ c ∈ components offset, ∃ q, IsPlain c q ∧ P.stodRangeError q = true

/-- A documented offset whose seconds are outside the range of the doubles. -/
def HasUnrepresentableSeconds (offset : String) : Prop :=
  ∃ q, IsDocumented offset q ∧ ExactDouble.overflow ≤ q

end

/-- Minutes in the range of the doubles whose seconds are not. -/
example : sumComponents (Platform.ofTable []) (.finite 0) [List.replicate 308 '8', ['0']] =
    some (.infinite false) := by
  decide +kernel

theorem offsetToSeconds_nan (P : Platform) : offsetToSeconds P "nan" = some .nan := by
  have hread : parseComponent P "nan".toList = some .nan := rfl
  have hparts : components "nan" = ["nan".toList] := by decide
  apply offsetToSeconds_eq_some_iff.mpr
  rw [hparts]
  exact ⟨by decide, [.nan], .cons hread .nil, (ExactDouble.add_nan _).symm⟩

end Audd
