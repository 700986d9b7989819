import Mathlib.Algebra.Order.Ring.Rat
import Mathlib.Algebra.Order.Ring.Abs

/-!
# Doubles with exact finite values

Floating-point arithmetic without rounding: a finite value is a rational number, and the
infinities and the NaN follow the usual rules. The range is that of the doubles: a sum or a
product is infinite from the magnitude on at which rounding to nearest makes it so.
-/

/-- A double whose finite values are kept exact. -/
inductive ExactDouble
  | finite (q : ℚ)
  | infinite (negative : Bool)
  | nan
deriving DecidableEq

namespace ExactDouble

/-- The largest double and half a unit in its last place. -/
def overflow : ℚ := 2 ^ 1024 - 2 ^ 970

/-- A result of an operation on finite values. -/
def ofRat (q : ℚ) : ExactDouble := if |q| < overflow then finite q else infinite (q < 0)

/-- Addition: infinities of opposite signs give a NaN. -/
def add : ExactDouble → ExactDouble → ExactDouble
  | finite a, finite b => ofRat (a + b)
  | finite _, infinite s => infinite s
  | infinite s, finite _ => infinite s
  | infinite s, infinite t => if s = t then infinite s else nan
  | nan, _ => nan
  | _, nan => nan

/-- Multiplication by a positive finite number. -/
def scale (c : ℚ) : ExactDouble → ExactDouble
  | finite a => ofRat (a * c)
  | infinite s => infinite s
  | nan => nan

instance : Add ExactDouble := ⟨add⟩

/-- The comparison `<=`: false when a side is a NaN. -/
def le : ExactDouble → ExactDouble → Bool
  | finite a, finite b => a ≤ b
  | nan, _ => false
  | _, nan => false
  | infinite true, _ => true
  | _, infinite false => true
  | _, _ => false

def isFinite : ExactDouble → Bool
  | finite _ => true
  | infinite _ => false
  | nan => false

theorem isFinite_eq_true_iff (v : ExactDouble) : v.isFinite = true ↔ ∃ q, v = finite q := by
  cases v <;> simp [isFinite]

theorem two_pow_le_overflow : 2 ^ 1023 ≤ overflow := by
  have hdouble : (2 : ℚ) ^ 1024 = 2 ^ 1023 + 2 ^ 1023 := by rw [pow_succ, mul_two]
  have hunit : (2 : ℚ) ^ 970 ≤ 2 ^ 1023 := pow_le_pow_right₀ one_le_two (by decide)
  rw [overflow, hdouble]
  exact le_sub_iff_add_le.mpr (by gcongr)

theorem overflow_pos : 0 < overflow := (pow_pos two_pos _).trans_le two_pow_le_overflow

/-- The doubles hold the 64-bit integers, and more. -/
theorem natCast_lt_overflow {n : ℕ} (hn : n < 2 ^ 64) : (n : ℚ) < overflow := by
  have hsmall : (n : ℚ) < 2 ^ 64 := by exact_mod_cast hn
  have hlarge : (2 : ℚ) ^ 64 ≤ 2 ^ 1023 := pow_le_pow_right₀ one_le_two (by decide)
  exact hsmall.trans_le (hlarge.trans two_pow_le_overflow)

theorem ofRat_of_lt {q : ℚ} (h : |q| < overflow) : ofRat q = finite q := if_pos h

theorem ofRat_eq_finite_iff {q r : ℚ} : ofRat q = finite r ↔ |q| < overflow ∧ q = r := by
  unfold ofRat
  split
  · simp [*]
  · simp [*]

@[simp] theorem add_nan (v : ExactDouble) : v + nan = nan := by
  cases v <;> rfl

theorem add_eq_finite_iff {v w : ExactDouble} {r : ℚ} :
    v + w = finite r ↔ ∃ a b, v = finite a ∧ w = finite b ∧ |a + b| < overflow ∧ a + b = r := by
  change v.add w = finite r ↔ _
  cases v with
  | finite a => cases w <;> simp [add, ofRat_eq_finite_iff]
  | infinite s =>
      cases w with
      | infinite t => by_cases h : s = t <;> simp [add, h]
      | _ => simp [add]
  | nan => simp [add]

theorem scale_eq_finite_iff {c : ℚ} {v : ExactDouble} {r : ℚ} :
    v.scale c = finite r ↔ ∃ a, v = finite a ∧ |a * c| < overflow ∧ a * c = r := by
  cases v <;> simp [scale, ofRat_eq_finite_iff]

/-! ## Sums in a base -/

/-- No product and no sum overflows when numbers are read as digits after `t`. -/
def Fits (c : ℚ) : ℚ → List ℚ → Prop
  | _, [] => True
  | t, b :: rest => |t * c| < overflow ∧ |t * c + b| < overflow ∧ Fits c (t * c + b) rest

/-- A sum in base `c` is finite exactly when its terms are and nothing overflows. -/
theorem foldl_eq_finite_iff {c : ℚ} {ws : List ExactDouble} {v : ExactDouble} {r : ℚ} :
    ws.foldl (fun t w => t.scale c + w) v = finite r ↔
      ∃ t bs, v = finite t ∧ ws = bs.map finite ∧ Fits c t bs ∧
        bs.foldl (fun t b => t * c + b) t = r := by
  induction ws generalizing v with
  | nil =>
      constructor
      · intro h
        exact ⟨r, [], h, rfl, trivial, rfl⟩
      · rintro ⟨t, bs, rfl, hbs, -, rfl⟩
        obtain rfl := List.map_eq_nil_iff.mp hbs.symm
        rfl
  | cons w ws ih =>
      rw [List.foldl_cons, ih]
      constructor
      · rintro ⟨t', bs, hstep, rfl, hfits, hr⟩
        obtain ⟨a, b, hscale, rfl, hadd, rfl⟩ := add_eq_finite_iff.mp hstep
        obtain ⟨t, rfl, hmul, rfl⟩ := scale_eq_finite_iff.mp hscale
        exact ⟨t, b :: bs, rfl, rfl, ⟨hmul, hadd, hfits⟩, hr⟩
      · rintro ⟨t, _ | ⟨b, bs⟩, rfl, hws, hfits, hr⟩
        · cases hws
        · obtain ⟨rfl, rfl⟩ := List.cons.inj hws
          obtain ⟨hmul, hadd, hfits⟩ := hfits
          refine ⟨t * c + b, bs, ?_, rfl, hfits, hr⟩
          rw [scale, ofRat_of_lt hmul]
          exact ofRat_of_lt hadd

theorem abs_foldl_lt {c : ℚ} {ws : List ExactDouble} (hws : ws ≠ []) {v : ExactDouble} {r : ℚ}
    (h : ws.foldl (fun t w => t.scale c + w) v = finite r) : |r| < overflow := by
  obtain ⟨init, last, rfl⟩ := (ws.eq_nil_or_concat).resolve_left hws
  rw [List.concat_eq_append, List.foldl_append, List.foldl_cons, List.foldl_nil] at h
  obtain ⟨a, b, -, -, hlt, rfl⟩ := add_eq_finite_iff.mp h
  exact hlt

/-- Without negative numbers it is enough that the whole sum is in the range. -/
theorem fits_iff {c : ℚ} (hc : 1 ≤ c) {bs : List ℚ} (hbs : ∀ b ∈ bs, 0 ≤ b) {t : ℚ}
    (ht : 0 ≤ t) : t < overflow ∧ Fits c t bs ↔ bs.foldl (fun t b => t * c + b) t < overflow := by
  induction bs generalizing t with
  | nil => exact and_iff_left trivial
  | cons b rest ih =>
      have hb := hbs b List.mem_cons_self
      have hrest : ∀ b ∈ rest, 0 ≤ b := fun b hb => hbs b (List.mem_cons_of_mem _ hb)
      have hmul : t ≤ t * c := le_mul_of_one_le_right ht hc
      have hadd : t * c ≤ t * c + b := le_add_of_nonneg_right hb
      have hmul0 : 0 ≤ t * c := ht.trans hmul
      have hadd0 : 0 ≤ t * c + b := hmul0.trans hadd
      rw [List.foldl_cons, ← ih hrest hadd0, Fits, abs_of_nonneg hmul0, abs_of_nonneg hadd0]
      constructor
      · rintro ⟨-, -, hlt, hfits⟩
        exact ⟨hlt, hfits⟩
      · rintro ⟨hlt, hfits⟩
        exact ⟨hmul.trans_lt (hadd.trans_lt hlt), hadd.trans_lt hlt, hlt, hfits⟩

end ExactDouble
