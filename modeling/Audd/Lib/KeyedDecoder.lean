import Audd.Lib.OrderedMap

/-!
# Decoders of keyed values

A decoder reads a map into a record: each known key into one field, by a reader
that sees nothing but that key, and the remaining entries into a map of extras.
From the description of its fields follows what a change of one entry can change.
-/

universe u

namespace KeyedDecoder

variable {K V : Type} [LinearOrder K]

/-- A way to read one key, with two values that it tells apart. -/
structure Reader (K V : Type) [LinearOrder K] (Value : Type) where
  run : OrderedMap K V → K → Value
  congr : ∀ {m m' : OrderedMap K V} {k : K}, m.find? k = m'.find? k → run m k = run m' k
  first : V
  second : V
  separates : ∀ (m : OrderedMap K V) (k : K),
    run (m.insert k first) k ≠ run (m.insert k second) k

/-- A field of a record, the key it is bound to and how it is read. -/
structure Field (K V R : Type) [LinearOrder K] where
  key : K
  Value : Type
  reader : Reader K V Value
  get : R → Value

/-- A decoder with the description of its record. `decode` is `none` where it throws. -/
structure Decoder (K V R : Type) [LinearOrder K] where
  decode : OrderedMap K V → Option R
  /-- The keys that are kept out of the extras. -/
  known : List K
  fields : List (Field K V R)
  extras : R → OrderedMap K V
  raw : R → String

variable {R : Type}

/-- The description is right. -/
structure Decoder.Lawful (D : Decoder K V R) : Prop where
  reads : ∀ m r, D.decode m = some r → ∀ f ∈ D.fields, f.get r = f.reader.run m f.key
  rest : ∀ m r, D.decode m = some r → D.extras r = m.filterKeys fun k => k ∉ D.known
  keys : D.fields.map Field.key = D.known
  nodup : D.known.Nodup
  complete : ∀ m m' r r', D.decode m = some r → D.decode m' = some r' →
    (∀ f ∈ D.fields, f.get r = f.get r') → D.extras r = D.extras r' → D.raw r = D.raw r' → r = r'
  total : ∃ base : OrderedMap K V, ∀ f ∈ D.fields,
    (D.decode (base.insert f.key f.reader.first)).isSome ∧
      (D.decode (base.insert f.key f.reader.second)).isSome

/-- The maps agree on every key but one. -/
def AgreeOff (k : K) (m m' : OrderedMap K V) : Prop := ∀ k', k' ≠ k → m.find? k' = m'.find? k'

theorem agreeOff_insert (m : OrderedMap K V) (k : K) (v : V) : AgreeOff k m (m.insert k v) :=
  fun _ h => (OrderedMap.find?_insert_of_ne m v h).symm

theorem agreeOff_erase (m : OrderedMap K V) (k : K) : AgreeOff k m (m.erase k) :=
  fun _ h => (OrderedMap.find?_erase_of_ne m h).symm

/-- One entry was removed or replaced. -/
theorem agreeOff_iff (k : K) (m m' : OrderedMap K V) :
    AgreeOff k m m' ↔ m' = m.erase k ∨ ∃ v, m' = m.insert k v := by
  constructor
  · intro h
    cases hk : m'.find? k with
    | none =>
        left
        apply OrderedMap.ext_find?
        intro x
        by_cases hx : x = k
        · rw [hx, hk, OrderedMap.find?_erase_self]
        · rw [OrderedMap.find?_erase_of_ne m hx, h x hx]
    | some v =>
        right
        refine ⟨v, OrderedMap.ext_find? ?_⟩
        intro x
        by_cases hx : x = k
        · rw [hx, hk, OrderedMap.find?_insert_self]
        · rw [OrderedMap.find?_insert_of_ne m v hx, h x hx]
  · rintro (rfl | ⟨v, rfl⟩)
    · exact agreeOff_erase m k
    · exact agreeOff_insert m k v

/-- Every key has exactly one home: a field of its own when it is known, and the
extras when it is not. A change of one entry stays in the home of its key, and
fields, extras and raw text make up the record. -/
structure Decoder.OneHome (D : Decoder K V R) : Prop where
  extras : ∀ m r, D.decode m = some r → ∀ k,
    (D.extras r).find? k = if k ∈ D.known then none else m.find? k
  known_frame : ∀ m m' r r' k, D.decode m = some r → D.decode m' = some r' → AgreeOff k m m' →
    k ∈ D.known → D.extras r = D.extras r' ∧ ∀ f ∈ D.fields, f.key ≠ k → f.get r = f.get r'
  unknown_frame : ∀ m m' r r' k, D.decode m = some r → D.decode m' = some r' →
    AgreeOff k m m' → k ∉ D.known →
    AgreeOff k (D.extras r) (D.extras r') ∧ ∀ f ∈ D.fields, f.get r = f.get r'
  complete : ∀ m m' r r', D.decode m = some r → D.decode m' = some r' →
    (∀ f ∈ D.fields, f.get r = f.get r') → D.extras r = D.extras r' → D.raw r = D.raw r' → r = r'
  bound : ∀ k ∈ D.known, ∃ f ∈ D.fields, f.key = k ∧ (∀ g ∈ D.fields, g.key = k → g = f) ∧
    ∃ m m' r r', AgreeOff k m m' ∧ D.decode m = some r ∧ D.decode m' = some r' ∧
      f.get r ≠ f.get r'

namespace Decoder.Lawful

variable {D : Decoder K V R} (h : D.Lawful)

include h

/-- A field sees only its own key. -/
theorem get_congr {m m' : OrderedMap K V} {r r' : R} (hr : D.decode m = some r)
    (hr' : D.decode m' = some r') {f : Field K V R} (hf : f ∈ D.fields)
    (hkey : m.find? f.key = m'.find? f.key) : f.get r = f.get r' := by
  rw [h.reads m r hr f hf, h.reads m' r' hr' f hf]
  exact f.reader.congr hkey

theorem find?_extras {m : OrderedMap K V} {r : R} (hr : D.decode m = some r) (k : K) :
    (D.extras r).find? k = if k ∈ D.known then none else m.find? k := by
  rw [h.rest m r hr, OrderedMap.find?_filterKeys]
  by_cases hk : k ∈ D.known <;> simp [hk]

/-- The fields with one key are one field. -/
theorem field_unique {f g : Field K V R} (hf : f ∈ D.fields) (hg : g ∈ D.fields)
    (hkey : g.key = f.key) : g = f :=
  List.inj_on_of_nodup_map (h.keys ▸ h.nodup) hg hf hkey

theorem oneHome : D.OneHome where
  extras m r hr k := h.find?_extras hr k
  known_frame := by
    intro m m' r r' k hr hr' hagree hk
    constructor
    · apply OrderedMap.ext_find?
      intro k'
      rw [h.find?_extras hr, h.find?_extras hr']
      by_cases hk' : k' ∈ D.known
      · rw [if_pos hk', if_pos hk']
      · rw [if_neg hk', if_neg hk']
        apply hagree
        rintro rfl
        exact hk' hk
    · intro f hf hne
      exact h.get_congr hr hr' hf (hagree _ hne)
  unknown_frame := by
    intro m m' r r' k hr hr' hagree hk
    constructor
    · intro k' hne
      rw [h.find?_extras hr, h.find?_extras hr', hagree k' hne]
    · intro f hf
      apply h.get_congr hr hr' hf
      apply hagree
      rintro rfl
      exact hk (h.keys ▸ List.mem_map_of_mem hf)
  complete := h.complete
  bound := by
    intro k hk
    obtain ⟨f, hf, rfl⟩ := List.mem_map.mp (h.keys ▸ hk)
    obtain ⟨base, htotal⟩ := h.total
    obtain ⟨hfirst, hsecond⟩ := htotal f hf
    obtain ⟨r, hr⟩ := Option.isSome_iff_exists.mp hfirst
    obtain ⟨r', hr'⟩ := Option.isSome_iff_exists.mp hsecond
    refine ⟨f, hf, rfl, fun g hg hkey => h.field_unique hf hg hkey, _, _, r, r', ?_, hr, hr', ?_⟩
    · intro k' hne
      rw [OrderedMap.find?_insert_of_ne _ _ hne, OrderedMap.find?_insert_of_ne _ _ hne]
    · rw [h.reads _ r hr f hf, h.reads _ r' hr' f hf]
      exact f.reader.separates base f.key

end Decoder.Lawful

end KeyedDecoder
