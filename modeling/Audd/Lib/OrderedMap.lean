import Mathlib.Data.List.Sort
import Mathlib.Order.Basic

/-!
# Finite maps with strictly increasing keys

A map holds its keys as a strictly increasing list and a value for each listed
key, so two maps with the same lookups are equal. Every operation is described
by one lookup lemma, and later proofs use only those.

## Implementation notes

Values are a function on the members of the key list instead of a list of pairs.
The invariant then mentions no value, and an inductive type may occur in the
value position of a map stored in one of its own constructors.
-/

universe u v w

/-- A finite map whose key list is strictly increasing. -/
structure OrderedMap (K : Type u) (V : Type v) [LinearOrder K] where
  keys : List K
  sorted : keys.Pairwise (· < ·)
  value : (k : K) → k ∈ keys → V

namespace OrderedMap

variable {K : Type u} {V : Type v} {W : Type w} [LinearOrder K]

/-- The value at a key, when the key is present. -/
def find? (m : OrderedMap K V) (k : K) : Option V :=
  if h : k ∈ m.keys then some (m.value k h) else none

/-- Whether a key is present. -/
def contains (m : OrderedMap K V) (k : K) : Bool := decide (k ∈ m.keys)

/-- The map without keys. -/
def empty : OrderedMap K V where
  keys := []
  sorted := .nil
  value _ h := absurd h List.not_mem_nil

instance : EmptyCollection (OrderedMap K V) := ⟨empty⟩
instance : Inhabited (OrderedMap K V) := ⟨empty⟩

/-- Write a key, replacing any value it had. -/
def insert (m : OrderedMap K V) (k : K) (v : V) : OrderedMap K V where
  keys := m.keys.filter (· < k) ++ k :: m.keys.filter (k < ·)
  sorted := by
    have hs := m.sorted
    refine List.pairwise_append.mpr ⟨hs.filter _, ?_, ?_⟩
    · exact List.pairwise_cons.mpr ⟨fun a ha => by simpa using (List.mem_filter.mp ha).2,
        hs.filter _⟩
    · intro a ha b hb
      have hak : a < k := by simpa using (List.mem_filter.mp ha).2
      rcases List.mem_cons.mp hb with rfl | hb
      · exact hak
      · exact hak.trans (by simpa using (List.mem_filter.mp hb).2)
  value x hx := if h : x = k then v else m.value x (by
    simp only [List.mem_append, List.mem_filter, List.mem_cons, h, false_or] at hx
    exact hx.elim And.left And.left)

/-- Keep the entries whose key satisfies a test. -/
def filterKeys (m : OrderedMap K V) (p : K → Bool) : OrderedMap K V where
  keys := m.keys.filter p
  sorted := m.sorted.filter _
  value x hx := m.value x (List.mem_filter.mp hx).1

/-- Remove a key. -/
def erase (m : OrderedMap K V) (k : K) : OrderedMap K V := m.filterKeys (· ≠ k)

/-- Change every value, reading the key it is stored under. -/
def mapValues (m : OrderedMap K V) (f : K → V → W) : OrderedMap K W where
  keys := m.keys
  sorted := m.sorted
  value x hx := f x (m.value x hx)

/-- The pairs of the map in key order. -/
def entries (m : OrderedMap K V) : List (K × V) :=
  m.keys.attach.map fun k => (k.1, m.value k.1 k.2)

/-- Write every pair of a list in order, so a later pair wins. -/
def insertMany (m : OrderedMap K V) (l : List (K × V)) : OrderedMap K V :=
  l.foldl (fun acc p => acc.insert p.1 p.2) m

/-- Write every entry of `n` over `m`. -/
def insertAll (m n : OrderedMap K V) : OrderedMap K V := m.insertMany n.entries

/-- The map of a list of pairs. -/
def ofList (l : List (K × V)) : OrderedMap K V := empty.insertMany l

theorem find?_eq_none_iff (m : OrderedMap K V) (k : K) :
    m.find? k = none ↔ k ∉ m.keys := by
  by_cases h : k ∈ m.keys <;> simp [find?, h]

@[simp] theorem find?_empty (k : K) : (∅ : OrderedMap K V).find? k = none :=
  (find?_eq_none_iff _ _).mpr List.not_mem_nil

theorem contains_eq_isSome (m : OrderedMap K V) (k : K) :
    m.contains k = (m.find? k).isSome := by
  by_cases h : k ∈ m.keys <;> simp [contains, find?, h]

/-- Maps with the same lookups are equal. -/
theorem ext_find? {m n : OrderedMap K V} (h : ∀ k, m.find? k = n.find? k) : m = n := by
  obtain ⟨ks, hs, f⟩ := m
  obtain ⟨ls, hl, g⟩ := n
  have hmem : ∀ k, k ∈ ks ↔ k ∈ ls := by
    intro k
    have hk := congrArg Option.isSome (h k)
    by_cases h₁ : k ∈ ks <;> by_cases h₂ : k ∈ ls <;> simp_all [find?]
  have hkeys : ks = ls := List.Pairwise.eq_of_mem_iff hs hl (by simpa using hmem)
  subst hkeys
  congr
  funext k hk
  simpa [find?, hk] using h k

theorem find?_insert (m : OrderedMap K V) (k x : K) (v : V) :
    (m.insert k v).find? x = if x = k then some v else m.find? x := by
  by_cases hx : x = k
  · subst hx
    simp [find?, insert]
  · have hlt : x < k ∨ k < x := lt_or_gt_of_ne hx
    by_cases hm : x ∈ m.keys <;> simp [find?, insert, hx, hm, hlt]

@[simp] theorem find?_insert_self (m : OrderedMap K V) (k : K) (v : V) :
    (m.insert k v).find? k = some v := by simp [find?_insert]

theorem find?_insert_of_ne (m : OrderedMap K V) {k x : K} (v : V) (h : x ≠ k) :
    (m.insert k v).find? x = m.find? x := by simp [find?_insert, h]

@[simp] theorem find?_filterKeys (m : OrderedMap K V) (p : K → Bool) (x : K) :
    (m.filterKeys p).find? x = if p x then m.find? x else none := by
  by_cases hm : x ∈ m.keys <;> by_cases hp : p x <;> simp [find?, filterKeys, hm, hp]

theorem find?_erase (m : OrderedMap K V) (k x : K) :
    (m.erase k).find? x = if x = k then none else m.find? x := by
  by_cases h : x = k <;> simp [erase, h]

@[simp] theorem find?_erase_self (m : OrderedMap K V) (k : K) :
    (m.erase k).find? k = none := by simp [find?_erase]

theorem find?_erase_of_ne (m : OrderedMap K V) {k x : K} (h : x ≠ k) :
    (m.erase k).find? x = m.find? x := by simp [find?_erase, h]

theorem mem_entries_iff (m : OrderedMap K V) (k : K) (v : V) :
    (k, v) ∈ m.entries ↔ m.find? k = some v := by
  by_cases hm : k ∈ m.keys
  · simp [entries, find?, hm]
  · simp [entries, find?, hm]

theorem mem_entries_insert_iff (m : OrderedMap K V) (k x : K) (v w : V) :
    (x, w) ∈ (m.insert k v).entries ↔ x = k ∧ w = v ∨ x ≠ k ∧ (x, w) ∈ m.entries := by
  rw [mem_entries_iff, mem_entries_iff, find?_insert]
  by_cases hx : x = k
  · simp [hx, eq_comm]
  · simp [hx]

/-- What holds of all pairs of a map and of a new pair holds after writing it. -/
theorem forall_entries_insert {m : OrderedMap K V} {k : K} {v : V} {p : K × V → Prop}
    (hm : ∀ kv ∈ m.entries, p kv) (hkv : p (k, v)) : ∀ kv ∈ (m.insert k v).entries, p kv := by
  rintro ⟨x, w⟩ hmem
  rcases (mem_entries_insert_iff m k x v w).mp hmem with ⟨rfl, rfl⟩ | ⟨-, hold⟩
  · exact hkv
  · exact hm (x, w) hold

theorem entries_keys (m : OrderedMap K V) : m.entries.map Prod.fst = m.keys := by
  simp [entries, Function.comp_def]

/-- Maps with the same pairs are equal. -/
theorem entries_injective {m n : OrderedMap K V} (h : m.entries = n.entries) : m = n := by
  apply ext_find?
  intro k
  apply Option.ext
  intro v
  rw [← mem_entries_iff, ← mem_entries_iff, h]

theorem insertMany_cons (m : OrderedMap K V) (p : K × V) (l : List (K × V)) :
    m.insertMany (p :: l) = (m.insert p.1 p.2).insertMany l := rfl

/-- A key that no pair writes keeps its value. -/
theorem find?_insertMany_of_notMem (m : OrderedMap K V) (l : List (K × V)) (x : K)
    (h : x ∉ l.map Prod.fst) : (m.insertMany l).find? x = m.find? x := by
  induction l generalizing m with
  | nil => rfl
  | cons p rest ih =>
      obtain ⟨hx, hrest⟩ : x ≠ p.1 ∧ x ∉ rest.map Prod.fst := by simpa using h
      rw [insertMany_cons, ih _ hrest, find?_insert_of_ne _ _ hx]

/-- With distinct keys, every listed pair is found. -/
theorem find?_insertMany_of_mem (m : OrderedMap K V) (l : List (K × V)) {x : K} {v : V}
    (hd : (l.map Prod.fst).Nodup) (h : (x, v) ∈ l) :
    (m.insertMany l).find? x = some v := by
  induction l generalizing m with
  | nil => simp at h
  | cons p rest ih =>
      obtain ⟨hp, hrest⟩ : p.1 ∉ rest.map Prod.fst ∧ (rest.map Prod.fst).Nodup := by
        simpa using hd
      rw [insertMany_cons]
      rcases List.mem_cons.mp h with rfl | hm
      · rw [find?_insertMany_of_notMem _ _ _ hp, find?_insert_self]
      · exact ih _ hrest hm

/-- Writing one map over another: the written map is read first. -/
theorem find?_insertAll (m n : OrderedMap K V) (x : K) :
    (m.insertAll n).find? x = (n.find? x).or (m.find? x) := by
  have hd : (n.entries.map Prod.fst).Nodup := by
    rw [entries_keys]
    exact n.sorted.nodup
  cases hx : n.find? x with
  | some v =>
      have hm := (mem_entries_iff n x v).mpr hx
      simp [insertAll, find?_insertMany_of_mem m n.entries hd hm]
  | none =>
      have hk : x ∉ n.entries.map Prod.fst := by
        rw [entries_keys]
        exact (find?_eq_none_iff n x).mp hx
      simp [insertAll, find?_insertMany_of_notMem m n.entries x hk]

end OrderedMap
