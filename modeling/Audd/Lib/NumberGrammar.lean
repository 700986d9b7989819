import Audd.Lib.Decimal
import Mathlib.Data.List.TakeWhile

/-!
# The grammar of numbers

What the reader of the C library consumes completely, as a grammar: white space,
a sign and a decimal, hexadecimal, infinity or NaN form. The reader and the
grammar agree on every text.
-/

namespace Decimal

/-- Digits with an optional point; the two digit lists are on its sides. -/
structure IsMantissa (digit : Char → Bool) (whole part text : List Char) : Prop where
  whole_digits : ∀ c ∈ whole, digit c = true
  part_digits : ∀ c ∈ part, digit c = true
  ne_nil : ¬(whole = [] ∧ part = [])
  text_eq : text = whole ++ '.' :: part ∨ (part = [] ∧ text = whole)

/-- Nothing, or a marker, a sign and digits. -/
inductive IsExponent (marker : Char → Bool) : ℤ → List Char → Prop
  | absent : IsExponent marker 0 []
  | unsigned {c : Char} {digits : List Char} (hc : marker c = true)
      (hdigits : ∀ d ∈ digits, isDigit d = true) (hne : digits ≠ []) :
      IsExponent marker (digitsValue digits) (c :: digits)
  | plus {c : Char} {digits : List Char} (hc : marker c = true)
      (hdigits : ∀ d ∈ digits, isDigit d = true) (hne : digits ≠ []) :
      IsExponent marker (digitsValue digits) (c :: '+' :: digits)
  | minus {c : Char} {digits : List Char} (hc : marker c = true)
      (hdigits : ∀ d ∈ digits, isDigit d = true) (hne : digits ≠ []) :
      IsExponent marker (-digitsValue digits) (c :: '-' :: digits)

/-- The forms of a number without its sign. -/
inductive IsMagnitude : List Char → ExactDouble → Prop
  | infinity {text : List Char}
      (h : text.map toLowerAscii = "infinity".toList ∨ text.map toLowerAscii = "inf".toList) :
      IsMagnitude text (.infinite false)
  | nan {text : List Char} (h : text.map toLowerAscii = "nan".toList) : IsMagnitude text .nan
  | taggedNan {word tag : List Char} (h : word.map toLowerAscii = "nan".toList)
      (htag : ∀ c ∈ tag, (c.isAlphanum || c = '_') = true) :
      IsMagnitude (word ++ '(' :: (tag ++ [')'])) .nan
  | hexadecimal {start whole part m x : List Char} {e : ℤ}
      (h : start.map toLowerAscii = "0x".toList) (hm : IsMantissa isHexDigit whole part m)
      (hx : IsExponent (fun c => c = 'p' || c = 'P') e x) :
      IsMagnitude (start ++ (m ++ x)) (.finite (hexValue (whole ++ part) * 2 ^ (e - 4 * part.length)))
  | decimal {whole part m x : List Char} {e : ℤ} (hm : IsMantissa isDigit whole part m)
      (hx : IsExponent (fun c => c = 'e' || c = 'E') e x) :
      IsMagnitude (m ++ x) (.finite (digitsValue (whole ++ part) * 10 ^ (e - part.length)))

inductive IsSign : Bool → List Char → Prop
  | absent : IsSign false []
  | plus : IsSign false ['+']
  | minus : IsSign true ['-']

/-- A text that is one number, with its sign and its magnitude. -/
def IsNumber (text : List Char) (negative : Bool) (m : ExactDouble) : Prop :=
  ∃ ws sign body, text = ws ++ (sign ++ body) ∧ (∀ c ∈ ws, isWs c = true) ∧
    IsSign negative sign ∧ IsMagnitude body m

/-- The value of a magnitude with a sign. -/
def signed (negative : Bool) : ExactDouble → ExactDouble
  | .finite q => .finite (if negative then -q else q)
  | .infinite _ => .infinite negative
  | .nan => .nan

theorem isFinite_signed (negative : Bool) (m : ExactDouble) :
    (signed negative m).isFinite = m.isFinite := by
  cases m <;> rfl

/-- The library reports no range error for the magnitude. -/
def InRange (rangeError : ℚ → Bool) : ExactDouble → Prop
  | .finite q => rangeError q = false
  | .infinite _ => True
  | .nan => True

/-! ## Runs of characters -/

theorem span_append {p : Char → Bool} {run rest : List Char} (hrun : ∀ c ∈ run, p c = true)
    (hrest : ∀ c, rest.head? = some c → p c = false) :
    (run ++ rest).takeWhile p = run ∧ (run ++ rest).dropWhile p = rest := by
  rw [List.takeWhile_append_of_pos hrun, List.dropWhile_append_of_pos hrun]
  cases rest with
  | nil => exact ⟨List.append_nil _, rfl⟩
  | cons c rest =>
      have hc := hrest c rfl
      rw [List.takeWhile_cons_of_neg (by simp [hc]), List.dropWhile_cons_of_neg (by simp [hc])]
      exact ⟨List.append_nil _, rfl⟩

theorem span_self {p : Char → Bool} {run : List Char} (hrun : ∀ c ∈ run, p c = true) :
    run.takeWhile p = run ∧ run.dropWhile p = [] :=
  ⟨List.takeWhile_eq_self_iff.mpr hrun, List.dropWhile_eq_nil_iff.mpr hrun⟩

theorem of_mem_takeWhile {p : Char → Bool} {s : List Char} :
    ∀ c ∈ s.takeWhile p, p c = true :=
  fun _ hc => List.mem_takeWhile_imp hc

/-! ## Mantissa and exponent -/

theorem mantissa_append {digit : Char → Bool} {whole part text rest : List Char}
    (hpoint : digit '.' = false) (h : IsMantissa digit whole part text)
    (hrest : ∀ c, rest.head? = some c → digit c = false ∧ c ≠ '.') :
    mantissa digit (text ++ rest) = some (whole, part, rest) := by
  obtain ⟨hpart, hpartRest⟩ := span_append h.part_digits fun c hc => (hrest c hc).1
  rcases h.text_eq with rfl | ⟨rfl, rfl⟩
  · have hhead : ∀ c, ('.' :: (part ++ rest)).head? = some c → digit c = false := by
      intro c hc
      cases hc
      exact hpoint
    obtain ⟨hwhole, hwholeRest⟩ := span_append h.whole_digits hhead
    simp only [mantissa, List.append_assoc, List.cons_append, hwhole, hwholeRest, hpart,
      hpartRest, if_neg h.ne_nil]
  · obtain ⟨hwhole, hwholeRest⟩ := span_append h.whole_digits fun c hc => (hrest c hc).1
    have hne : text ≠ [] := fun hnil => h.ne_nil ⟨hnil, rfl⟩
    simp only [mantissa, hwhole, hwholeRest]
    split
    · exact absurd rfl (hrest '.' rfl).2
    · rw [if_neg hne]

theorem mantissa_sound {digit : Char → Bool} {s whole part rest : List Char}
    (h : mantissa digit s = some (whole, part, rest)) :
    ∃ text, IsMantissa digit whole part text ∧ s = text ++ rest := by
  have hs := List.takeWhile_append_dropWhile (p := digit) (l := s)
  unfold mantissa at h
  dsimp only at h
  split at h
  · rename_i tail htail
    have ht := List.takeWhile_append_dropWhile (p := digit) (l := tail)
    split at h
    · cases h
    · rename_i hne
      cases h
      refine ⟨_, ⟨of_mem_takeWhile, of_mem_takeWhile, hne, .inl rfl⟩, ?_⟩
      rw [List.append_assoc, List.cons_append, ht, ← htail, hs]
  · split at h
    · cases h
    · rename_i hne
      cases h
      refine ⟨_, ⟨of_mem_takeWhile, fun _ hc => absurd hc List.not_mem_nil,
        fun hnil => hne hnil.1, .inr ⟨rfl, rfl⟩⟩, ?_⟩
      rw [hs]

theorem exponent_of_isExponent {marker : Char → Bool} {e : ℤ} {text : List Char}
    (h : IsExponent marker e text) : exponent marker text = (e, []) := by
  have hsign : ∀ {digits : List Char}, (∀ d ∈ digits, isDigit d = true) →
      digits.head? ≠ some '-' ∧ digits.head? ≠ some '+' := by
    intro digits hdigits
    constructor
    · intro hhead
      exact absurd (hdigits _ (List.mem_of_mem_head? hhead)) (by decide)
    · intro hhead
      exact absurd (hdigits _ (List.mem_of_mem_head? hhead)) (by decide)
  cases h with
  | absent => rfl
  | unsigned hc hdigits hne =>
      obtain ⟨htake, hdrop⟩ := span_self hdigits
      obtain ⟨hminus, hplus⟩ := hsign hdigits
      simp [exponent, hminus, hplus, htake, hdrop, hc, hne]
  | plus hc hdigits hne =>
      obtain ⟨htake, hdrop⟩ := span_self hdigits
      simp [exponent, htake, hdrop, hc, hne]
  | minus hc hdigits hne =>
      obtain ⟨htake, hdrop⟩ := span_self hdigits
      simp [exponent, htake, hdrop, hc, hne]

theorem isExponent_of_exponent {marker : Char → Bool} {e : ℤ} {text : List Char}
    (h : exponent marker text = (e, [])) : IsExponent marker e text := by
  have hall : ∀ {body : List Char}, body.dropWhile isDigit = [] →
      body.takeWhile isDigit = body ∧ ∀ d ∈ body, isDigit d = true := by
    intro body hend
    have hdigits := List.dropWhile_eq_nil_iff.mp hend
    exact ⟨(span_self hdigits).1, hdigits⟩
  cases text with
  | nil =>
      cases h
      exact .absent
  | cons c rest =>
      by_cases hminus : rest.head? = some '-'
      · obtain ⟨body, rfl⟩ := List.head?_eq_some_iff.mp hminus
        simp only [exponent, List.head?_cons, true_or, if_true, List.tail_cons] at h
        split at h
        · rename_i hmarker
          obtain ⟨he, hend⟩ := Prod.mk.inj h
          obtain ⟨htake, hdigits⟩ := hall hend
          rw [htake] at he hmarker
          exact he ▸ .minus hmarker.1 hdigits hmarker.2
        · cases h
      · by_cases hplus : rest.head? = some '+'
        · obtain ⟨body, rfl⟩ := List.head?_eq_some_iff.mp hplus
          simp only [exponent, hplus, or_true, if_true, List.tail_cons] at h
          split at h
          · rename_i hmarker
            obtain ⟨he, hend⟩ := Prod.mk.inj h
            obtain ⟨htake, hdigits⟩ := hall hend
            rw [htake] at he hmarker
            exact he ▸ .plus hmarker.1 hdigits hmarker.2
          · cases h
        · simp only [exponent, hminus, hplus, or_self, if_false] at h
          split at h
          · rename_i hmarker
            obtain ⟨he, hend⟩ := Prod.mk.inj h
            obtain ⟨htake, hdigits⟩ := hall hend
            rw [htake] at he hmarker
            exact he ▸ .unsigned hmarker.1 hdigits hmarker.2
          · cases h

/-! ## Words -/

/-- A letter with neither of its cases in a class of characters is no lower case of
a member of the class. -/
theorem toLowerAscii_ne {p : Char → Bool} {c lower : Char} (upper : Char)
    (hcase : upper.toNat + 32 = lower.toNat) (hc : p c = true) (hlower : p lower = false)
    (hupper : p upper = false) : toLowerAscii c ≠ lower := by
  unfold toLowerAscii
  split
  · rename_i hrange
    intro heq
    have hbound : c.toNat ≤ 90 := hrange.2
    have hvalid : (c.toNat + 32).isValidChar := .inl (by omega)
    have hnat : c.toNat + 32 = lower.toNat := by
      rw [← heq, Char.ofNat, dif_pos hvalid]
      rfl
    have hsame : c = upper := Char.toNat_inj.mp (by omega)
    rw [hsame, hupper] at hc
    cases hc
  · rintro rfl
    rw [hlower] at hc
    cases hc

theorem dropWord_eq_some_iff {word : String} {s rest : List Char} :
    dropWord word s = some rest ↔
      ∃ start, start.map toLowerAscii = word.toList ∧ s = start ++ rest := by
  unfold dropWord
  constructor
  · intro h
    split at h
    · rename_i hword
      cases h
      exact ⟨_, hword, (List.take_append_drop _ _).symm⟩
    · cases h
  · rintro ⟨start, hword, rfl⟩
    have hlen : start.length = word.length := by
      rw [← String.length_toList, ← hword, List.length_map]
    rw [List.take_left' hlen, List.drop_left' hlen, if_pos hword]

/-- A text without one of the letters of the word does not start with it. -/
theorem dropWord_none {word : String} {s : List Char} {c : Char} (hc : c ∈ word.toList)
    (hs : ∀ d ∈ s, toLowerAscii d ≠ c) : dropWord word s = none := by
  apply Option.eq_none_iff_forall_ne_some.mpr
  intro rest h
  obtain ⟨start, hword, rfl⟩ := dropWord_eq_some_iff.mp h
  rw [← hword] at hc
  obtain ⟨d, hd, hdc⟩ := List.mem_map.mp hc
  exact hs d (List.mem_append_left _ hd) hdc

/-- A text that starts with another letter does not start with the word. -/
theorem dropWord_none_of_head {word : String} {s start rest : List Char} {c d : Char}
    {cs ds : List Char} (hs : s = start ++ rest) (hstart : start.map toLowerAscii = d :: ds)
    (hword : word.toList = c :: cs) (hne : d ≠ c) : dropWord word s = none := by
  apply Option.eq_none_iff_forall_ne_some.mpr
  intro rest' h
  obtain ⟨start', hword', hs'⟩ := dropWord_eq_some_iff.mp h
  rw [hword] at hword'
  obtain ⟨x, xs, rfl, hx, -⟩ := List.map_eq_cons_iff.mp hstart
  obtain ⟨y, ys, rfl, hy, -⟩ := List.map_eq_cons_iff.mp hword'
  rw [hs] at hs'
  have hxy : x = y := (List.cons.inj hs').1
  exact hne (hx.symm.trans (hxy ▸ hy))

/-! ## Magnitudes -/

/-- The characters of decimal forms. -/
def decimalChar (c : Char) : Bool :=
  isDigit c || c == '.' || c == 'e' || c == 'E' || c == '+' || c == '-'

theorem mem_mantissa {digit p : Char → Bool} {whole part text : List Char}
    (hdigit : ∀ c, digit c = true → p c = true) (hpoint : p '.' = true)
    (h : IsMantissa digit whole part text) : ∀ c ∈ text, p c = true := by
  intro c hc
  rcases h.text_eq with rfl | ⟨-, rfl⟩
  · rcases List.mem_append.mp hc with hc | hc
    · exact hdigit c (h.whole_digits c hc)
    · rcases List.mem_cons.mp hc with rfl | hc
      · exact hpoint
      · exact hdigit c (h.part_digits c hc)
  · exact hdigit c (h.whole_digits c hc)

theorem mem_exponent {marker p : Char → Bool} {e : ℤ} {text : List Char}
    (hmarker : ∀ c, marker c = true → p c = true) (hdigit : ∀ c, isDigit c = true → p c = true)
    (hsign : p '+' = true ∧ p '-' = true) (h : IsExponent marker e text) :
    ∀ c ∈ text, p c = true := by
  intro d hd
  cases h with
  | absent => cases hd
  | unsigned hc hdigits hne =>
      rcases List.mem_cons.mp hd with rfl | hd
      · exact hmarker d hc
      · exact hdigit d (hdigits d hd)
  | plus hc hdigits hne =>
      rcases List.mem_cons.mp hd with rfl | hd
      · exact hmarker d hc
      · rcases List.mem_cons.mp hd with rfl | hd
        · exact hsign.1
        · exact hdigit d (hdigits d hd)
  | minus hc hdigits hne =>
      rcases List.mem_cons.mp hd with rfl | hd
      · exact hmarker d hc
      · rcases List.mem_cons.mp hd with rfl | hd
        · exact hsign.2
        · exact hdigit d (hdigits d hd)

/-- What follows a mantissa cannot lengthen it. -/
theorem head_exponent {marker digit : Char → Bool} {e : ℤ} {text : List Char}
    (hmarker : ∀ c, marker c = true → digit c = false ∧ c ≠ '.') (h : IsExponent marker e text) :
    ∀ c, text.head? = some c → digit c = false ∧ c ≠ '.' := by
  intro c hc
  cases h with
  | absent => cases hc
  | unsigned hm hdigits hne => cases hc; exact hmarker c hm
  | plus hm hdigits hne => cases hc; exact hmarker c hm
  | minus hm hdigits hne => cases hc; exact hmarker c hm

/-- A marker is one of two letters. -/
theorem of_marker {p : Char → Prop} {c lower upper : Char} (hlower : p lower) (hupper : p upper)
    (h : (c = lower || c = upper) = true) : p c := by
  rcases Bool.or_eq_true_iff.mp h with h | h
  · rw [of_decide_eq_true h]
    exact hlower
  · rw [of_decide_eq_true h]
    exact hupper

theorem marker_hexadecimal {c : Char} (h : (c = 'p' || c = 'P') = true) :
    isHexDigit c = false ∧ c ≠ '.' :=
  of_marker (p := fun c => isHexDigit c = false ∧ c ≠ '.') (by decide) (by decide) h

theorem marker_decimal {c : Char} (h : (c = 'e' || c = 'E') = true) :
    (isDigit c = false ∧ c ≠ '.') ∧ decimalChar c = true :=
  of_marker (p := fun c => (isDigit c = false ∧ c ≠ '.') ∧ decimalChar c = true) (by decide)
    (by decide) h

theorem magnitude_decimal {whole part m x : List Char} {e : ℤ}
    (hm : IsMantissa isDigit whole part m) (hx : IsExponent (fun c => c = 'e' || c = 'E') e x) :
    magnitude (m ++ x) =
      some (.finite (digitsValue (whole ++ part) * 10 ^ (e - part.length)), []) := by
  have hchars : ∀ c ∈ m ++ x, decimalChar c = true := by
    have hdigit : ∀ c, isDigit c = true → decimalChar c = true := by
      intro c hc
      simp only [decimalChar, hc, Bool.true_or]
    intro c hc
    rcases List.mem_append.mp hc with hc | hc
    · exact mem_mantissa hdigit rfl hm c hc
    · exact mem_exponent (fun c hc => (marker_decimal hc).2) hdigit ⟨rfl, rfl⟩ hx c hc
  have hinfinity : dropWord "infinity" (m ++ x) = none :=
    dropWord_none (c := 'i') (by decide) fun d hd =>
      toLowerAscii_ne 'I' rfl (hchars d hd) rfl rfl
  have hinf : dropWord "inf" (m ++ x) = none :=
    dropWord_none (c := 'i') (by decide) fun d hd =>
      toLowerAscii_ne 'I' rfl (hchars d hd) rfl rfl
  have hnan : dropWord "nan" (m ++ x) = none :=
    dropWord_none (c := 'n') (by decide) fun d hd =>
      toLowerAscii_ne 'N' rfl (hchars d hd) rfl rfl
  have hhex : dropWord "0x" (m ++ x) = none :=
    dropWord_none (c := 'x') (by decide) fun d hd =>
      toLowerAscii_ne 'X' rfl (hchars d hd) rfl rfl
  have hmantissa := mantissa_append rfl hm (head_exponent (fun c hc => (marker_decimal hc).1) hx)
  simp only [magnitude, hinfinity, hinf, hnan, hhex, Option.bind_none, hmantissa,
    exponent_of_isExponent hx]

theorem magnitude_hexadecimal {start whole part m x : List Char} {e : ℤ}
    (hstart : start.map toLowerAscii = "0x".toList) (hm : IsMantissa isHexDigit whole part m)
    (hx : IsExponent (fun c => c = 'p' || c = 'P') e x) :
    magnitude (start ++ (m ++ x)) =
      some (.finite (hexValue (whole ++ part) * 2 ^ (e - 4 * part.length)), []) := by
  have hinfinity : dropWord "infinity" (start ++ (m ++ x)) = none :=
    dropWord_none_of_head rfl hstart rfl (by decide)
  have hinf : dropWord "inf" (start ++ (m ++ x)) = none :=
    dropWord_none_of_head rfl hstart rfl (by decide)
  have hnan : dropWord "nan" (start ++ (m ++ x)) = none :=
    dropWord_none_of_head rfl hstart rfl (by decide)
  have hhex : dropWord "0x" (start ++ (m ++ x)) = some (m ++ x) :=
    dropWord_eq_some_iff.mpr ⟨start, hstart, rfl⟩
  have hmantissa := mantissa_append rfl hm (head_exponent (fun c hc => marker_hexadecimal hc) hx)
  simp only [magnitude, hinfinity, hinf, hnan, hhex, Option.bind_some, hmantissa,
    exponent_of_isExponent hx]

theorem magnitude_infinity {text : List Char}
    (h : text.map toLowerAscii = "infinity".toList ∨ text.map toLowerAscii = "inf".toList) :
    magnitude text = some (.infinite false, []) := by
  have htext : text = text ++ [] := (List.append_nil text).symm
  rcases h with h | h
  · have hword : dropWord "infinity" text = some [] := dropWord_eq_some_iff.mpr ⟨text, h, htext⟩
    simp only [magnitude, hword]
  · have hlong : dropWord "infinity" text = none := by
      apply Option.eq_none_iff_forall_ne_some.mpr
      intro rest hrest
      obtain ⟨start, hstart, rfl⟩ := dropWord_eq_some_iff.mp hrest
      have hlen := congrArg List.length h
      rw [List.map_append, hstart, List.length_append] at hlen
      have himpossible : 8 + rest.length = 3 := by simpa using hlen
      omega
    have hword : dropWord "inf" text = some [] := dropWord_eq_some_iff.mpr ⟨text, h, htext⟩
    simp only [magnitude, hlong, hword]

/-- The three tests of a text that starts with `nan`. -/
theorem dropWord_nan {word : List Char} (h : word.map toLowerAscii = "nan".toList)
    (rest : List Char) :
    dropWord "infinity" (word ++ rest) = none ∧ dropWord "inf" (word ++ rest) = none ∧
      dropWord "nan" (word ++ rest) = some rest :=
  ⟨dropWord_none_of_head rfl h rfl (by decide), dropWord_none_of_head rfl h rfl (by decide),
    dropWord_eq_some_iff.mpr ⟨word, h, rfl⟩⟩

theorem magnitude_nan {text : List Char} (h : text.map toLowerAscii = "nan".toList) :
    magnitude text = some (.nan, []) := by
  obtain ⟨hinfinity, hinf, hnan⟩ := dropWord_nan h []
  rw [List.append_nil] at hinfinity hinf hnan
  simp [magnitude, hinfinity, hinf, hnan]

theorem magnitude_taggedNan {word tag : List Char} (h : word.map toLowerAscii = "nan".toList)
    (htag : ∀ c ∈ tag, (c.isAlphanum || c = '_') = true) :
    magnitude (word ++ '(' :: (tag ++ [')'])) = some (.nan, []) := by
  obtain ⟨hinfinity, hinf, hnan⟩ := dropWord_nan h ('(' :: (tag ++ [')']))
  have hclose : (tag ++ [')']).dropWhile (fun c => c.isAlphanum || c = '_') = [')'] :=
    (span_append htag fun c hc => by cases hc; rfl).2
  simp [magnitude, hinfinity, hinf, hnan, hclose]

/-- Every form is read to its end. -/
theorem magnitude_of_isMagnitude {text : List Char} {v : ExactDouble} (h : IsMagnitude text v) :
    magnitude text = some (v, []) := by
  cases h with
  | infinity h => exact magnitude_infinity h
  | nan h => exact magnitude_nan h
  | taggedNan h htag => exact magnitude_taggedNan h htag
  | hexadecimal h hm hx => exact magnitude_hexadecimal h hm hx
  | decimal hm hx => exact magnitude_decimal hm hx

/-- A tag that is read to the end of the text. -/
theorem taggedNan_of_tail {word rest : List Char} (h : word.map toLowerAscii = "nan".toList)
    (hopen : rest.head? = some '(')
    (hclose : ((rest.drop 1).dropWhile fun c => c.isAlphanum || c = '_').head? = some ')')
    (hend : ((rest.drop 1).dropWhile fun c => c.isAlphanum || c = '_').tail = []) :
    IsMagnitude (word ++ rest) .nan := by
  obtain ⟨body, rfl⟩ := List.head?_eq_some_iff.mp hopen
  have hbody := List.takeWhile_append_dropWhile (p := fun c : Char => c.isAlphanum || c = '_')
    (l := body)
  rw [List.drop_one, List.tail_cons] at hclose hend
  obtain ⟨last, hlast⟩ := List.head?_eq_some_iff.mp hclose
  rw [hlast, List.tail_cons] at hend
  rw [hlast, hend] at hbody
  rw [← hbody]
  exact .taggedNan h of_mem_takeWhile

/-- A text that is read to its end has one of the forms. -/
theorem isMagnitude_of_magnitude {text : List Char} {v : ExactDouble}
    (h : magnitude text = some (v, [])) : IsMagnitude text v := by
  cases hinfinity : dropWord "infinity" text with
  | some rest =>
      simp only [magnitude, hinfinity, Option.some.injEq, Prod.mk.injEq] at h
      obtain ⟨rfl, rfl⟩ := h
      obtain ⟨start, hstart, rfl⟩ := dropWord_eq_some_iff.mp hinfinity
      rw [List.append_nil]
      exact .infinity (.inl hstart)
  | none =>
      cases hinf : dropWord "inf" text with
      | some rest =>
          simp only [magnitude, hinfinity, hinf, Option.some.injEq, Prod.mk.injEq] at h
          obtain ⟨rfl, rfl⟩ := h
          obtain ⟨start, hstart, rfl⟩ := dropWord_eq_some_iff.mp hinf
          rw [List.append_nil]
          exact .infinity (.inr hstart)
      | none =>
          cases hnan : dropWord "nan" text with
          | some rest =>
              obtain ⟨start, hstart, rfl⟩ := dropWord_eq_some_iff.mp hnan
              simp only [magnitude, hinfinity, hinf, hnan] at h
              split at h
              · rename_i htag
                obtain ⟨hv, hend⟩ := Prod.mk.inj (Option.some.inj h)
                exact hv ▸ taggedNan_of_tail hstart htag.1 htag.2 hend
              · cases h
                rw [List.append_nil]
                exact .nan hstart
          | none =>
              simp only [magnitude, hinfinity, hinf, hnan] at h
              split at h
              · rename_i whole part rest hmantissa
                obtain ⟨tail, hword, hdigits⟩ := Option.bind_eq_some_iff.mp hmantissa
                obtain ⟨start, hstart, rfl⟩ := dropWord_eq_some_iff.mp hword
                obtain ⟨m, hm, rfl⟩ := mantissa_sound hdigits
                cases hx : exponent (fun c => c = 'p' || c = 'P') rest with
                | mk e rest' =>
                    rw [hx] at h
                    cases h
                    exact .hexadecimal hstart hm (isExponent_of_exponent hx)
              · split at h
                · rename_i whole part rest hmantissa
                  obtain ⟨m, hm, rfl⟩ := mantissa_sound hmantissa
                  cases hx : exponent (fun c => c = 'e' || c = 'E') rest with
                  | mk e rest' =>
                      rw [hx] at h
                      cases h
                      exact .decimal hm (isExponent_of_exponent hx)
                · cases h

/-! ## Signs and white space -/

theorem toLowerAscii_head {text : List Char} {word : List Char} {c : Char}
    (h : text.map toLowerAscii = c :: word) : ∃ d rest, text = d :: rest ∧ toLowerAscii d = c := by
  obtain ⟨d, rest, htext, hd, -⟩ := List.map_eq_cons_iff.mp h
  exact ⟨d, rest, htext, hd⟩

/-- The characters that may stand before a magnitude. -/
def leadChar (c : Char) : Bool := isWs c || c == '+' || c == '-'

theorem isDigit_of_leadChar {c : Char} (h : leadChar c = true) : isDigit c = false := by
  simp only [leadChar, isWs, Bool.or_eq_true, decide_eq_true_eq, beq_iff_eq] at h
  rcases h with ((((((rfl | rfl) | rfl) | rfl) | rfl) | rfl) | rfl) | rfl <;> rfl

theorem head_mantissa {whole part text rest : List Char} (h : IsMantissa isDigit whole part text) :
    ∃ c tail, text ++ rest = c :: tail ∧ leadChar c = false := by
  cases whole with
  | nil =>
      rcases h.text_eq with rfl | ⟨rfl, rfl⟩
      · exact ⟨'.', _, rfl, rfl⟩
      · exact absurd ⟨rfl, rfl⟩ h.ne_nil
  | cons c whole =>
      have hc : leadChar c = false := by
        apply Bool.eq_false_iff.mpr
        intro hlead
        have hdigit := h.whole_digits c List.mem_cons_self
        rw [isDigit_of_leadChar hlead] at hdigit
        cases hdigit
      rcases h.text_eq with rfl | ⟨rfl, rfl⟩
      · exact ⟨c, _, rfl, hc⟩
      · exact ⟨c, _, rfl, hc⟩

/-- A form starts with none of the characters before it. -/
theorem head_isMagnitude {body : List Char} {m : ExactDouble} (h : IsMagnitude body m) :
    ∃ c tail, body = c :: tail ∧ leadChar c = false := by
  have hletter : ∀ {text rest word : List Char} {lower : Char} (upper : Char),
      text.map toLowerAscii = lower :: word → upper.toNat + 32 = lower.toNat →
      leadChar lower = false → leadChar upper = false →
        ∃ c tail, text ++ rest = c :: tail ∧ leadChar c = false := by
    intro text rest word lower upper htext hcase hlower hupper
    obtain ⟨c, tail, rfl, hc⟩ := toLowerAscii_head htext
    refine ⟨c, _, rfl, Bool.eq_false_iff.mpr fun hlead => ?_⟩
    exact toLowerAscii_ne upper hcase hlead hlower hupper hc
  cases h with
  | infinity h =>
      rw [← List.append_nil body]
      rcases h with h | h
      · exact hletter 'I' h rfl rfl rfl
      · exact hletter 'I' h rfl rfl rfl
  | nan h =>
      rw [← List.append_nil body]
      exact hletter 'N' h rfl rfl rfl
  | taggedNan h htag => exact hletter 'N' h rfl rfl rfl
  | hexadecimal h hm hx => exact hletter '\x10' h rfl rfl rfl
  | decimal hm hx => exact head_mantissa hm

/-- The reader on a text whose white space and sign are known. -/
theorem stod_of_sign {rangeError : ℚ → Bool} {s sign body : List Char} {negative : Bool}
    (hs : s.dropWhile isWs = sign ++ body) (hsign : IsSign negative sign)
    (hbody : sign = [] → body.head? ≠ some '-' ∧ body.head? ≠ some '+') (v : ExactDouble) :
    stod rangeError s = some (v, []) ↔
      ∃ m, magnitude body = some (m, []) ∧ InRange rangeError m ∧ v = signed negative m := by
  have hneg : ((sign ++ body).head? = some '-') = (negative = true) := by
    cases hsign with
    | absent => simpa using (hbody rfl).1
    | plus => simp
    | minus => simp
  have hrest : (if negative = true ∨ (sign ++ body).head? = some '+' then (sign ++ body).tail
      else sign ++ body) = body := by
    cases hsign with
    | absent => simp [(hbody rfl).2]
    | plus => simp
    | minus => simp
  simp only [stod, hs, hneg, hrest, Bool.decide_eq_true]
  cases magnitude body with
  | none => simp
  | some read =>
      obtain ⟨m, rest⟩ := read
      cases m with
      | finite q =>
          cases hr : rangeError q with
          | true => simp [InRange, hr]
          | false =>
              simp only [hr, Bool.false_eq_true, if_false]
              constructor
              · intro h
                cases h
                exact ⟨_, rfl, hr, rfl⟩
              · rintro ⟨m, hm, -, rfl⟩
                cases hm
                rfl
      | infinite b =>
          constructor
          · intro h
            cases h
            exact ⟨_, rfl, trivial, rfl⟩
          · rintro ⟨m, hm, -, rfl⟩
            cases hm
            rfl
      | nan =>
          constructor
          · intro h
            cases h
            exact ⟨_, rfl, trivial, rfl⟩
          · rintro ⟨m, hm, -, rfl⟩
            cases hm
            rfl

/-- The sign at the head of a text. -/
theorem exists_sign (t : List Char) :
    ∃ negative sign body, t = sign ++ body ∧ IsSign negative sign ∧
      (sign = [] → body.head? ≠ some '-' ∧ body.head? ≠ some '+') := by
  by_cases hminus : t.head? = some '-'
  · obtain ⟨body, rfl⟩ := List.head?_eq_some_iff.mp hminus
    exact ⟨true, ['-'], body, rfl, .minus, fun h => by cases h⟩
  · by_cases hplus : t.head? = some '+'
    · obtain ⟨body, rfl⟩ := List.head?_eq_some_iff.mp hplus
      exact ⟨false, ['+'], body, rfl, .plus, fun h => by cases h⟩
    · exact ⟨false, [], t, rfl, .absent, fun _ => ⟨hminus, hplus⟩⟩

/-- A form without white space and a sign. -/
theorem stod_of_isMagnitude {rangeError : ℚ → Bool} {body : List Char} {m : ExactDouble}
    (h : IsMagnitude body m) (v : ExactDouble) :
    stod rangeError body = some (v, []) ↔ InRange rangeError m ∧ v = signed false m := by
  obtain ⟨c, tail, hbody, hc⟩ := head_isMagnitude h
  have hlead : isWs c = false ∧ c ≠ '+' ∧ c ≠ '-' := by
    simpa [leadChar, and_assoc] using hc
  have hdrop : body.dropWhile isWs = [] ++ body := by
    rw [hbody, List.dropWhile_cons_of_neg (by simp [hlead.1]), List.nil_append]
  have hunsigned : ([] : List Char) = [] → body.head? ≠ some '-' ∧ body.head? ≠ some '+' := by
    intro _
    rw [hbody, List.head?_cons]
    exact ⟨fun h => hlead.2.2 (Option.some.inj h), fun h => hlead.2.1 (Option.some.inj h)⟩
  rw [stod_of_sign hdrop .absent hunsigned, magnitude_of_isMagnitude h]
  constructor
  · rintro ⟨m', hm', hrange, hv⟩
    cases hm'
    exact ⟨hrange, hv⟩
  · rintro ⟨hrange, hv⟩
    exact ⟨m, rfl, hrange, hv⟩

/-- The texts that `std::stod` consumes completely, with their values. -/
theorem stod_iff {rangeError : ℚ → Bool} {s : List Char} {v : ExactDouble} :
    stod rangeError s = some (v, []) ↔
      ∃ negative m, IsNumber s negative m ∧ InRange rangeError m ∧ v = signed negative m := by
  constructor
  · intro h
    obtain ⟨negative, sign, body, ht, hsign, hbody⟩ := exists_sign (s.dropWhile isWs)
    obtain ⟨m, hm, hrange, hv⟩ := (stod_of_sign ht hsign hbody v).mp h
    refine ⟨negative, m, ⟨s.takeWhile isWs, sign, body, ?_, of_mem_takeWhile, hsign,
      isMagnitude_of_magnitude hm⟩, hrange, hv⟩
    rw [← ht, List.takeWhile_append_dropWhile]
  · rintro ⟨negative, m, ⟨ws, sign, body, rfl, hws, hsign, hm⟩, hrange, hv⟩
    obtain ⟨c, tail, hbody, hc⟩ := head_isMagnitude hm
    have hlead : isWs c = false ∧ c ≠ '+' ∧ c ≠ '-' := by
      simpa [leadChar, and_assoc] using hc
    have hfirst : ∀ d, (sign ++ body).head? = some d → isWs d = false := by
      intro d hd
      cases hsign with
      | absent =>
          rw [List.nil_append, hbody] at hd
          cases hd
          exact hlead.1
      | plus =>
          cases hd
          rfl
      | minus =>
          cases hd
          rfl
    have hdrop := (span_append hws hfirst).2
    refine (stod_of_sign hdrop hsign ?_ v).mpr ⟨m, magnitude_of_isMagnitude hm, hrange, hv⟩
    intro _
    rw [hbody, List.head?_cons]
    exact ⟨fun h => hlead.2.2 (Option.some.inj h), fun h => hlead.2.1 (Option.some.inj h)⟩

end Decimal
