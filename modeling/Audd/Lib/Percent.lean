import Mathlib.Data.List.Basic
import Mathlib.Data.String.Basic

/-!
# Percent-encoding and form texts

Texts are lists of characters that stand for bytes. An encoder is any function
whose values are encodings; reading an encoding, or the form text of a list of
encoded pairs, gives back what was encoded.
-/

namespace Percent

/-- The characters that stand for themselves. -/
def unreserved (c : Char) : Bool :=
  ('A' ≤ c && c ≤ 'Z') || ('a' ≤ c && c ≤ 'z') || ('0' ≤ c && c ≤ '9') || c == '-' || c == '.' ||
    c == '_' || c == '~'

/-- The value of a hexadecimal digit of either case. -/
def hexValue (c : Char) : Option ℕ :=
  if '0' ≤ c ∧ c ≤ '9' then some (c.toNat - 48)
  else if 'A' ≤ c ∧ c ≤ 'F' then some (c.toNat - 55)
  else if 'a' ≤ c ∧ c ≤ 'f' then some (c.toNat - 87)
  else none

/-- A text that stands for one character. -/
inductive EncodesChar (c : Char) : List Char → Prop
  | plain (h : unreserved c = true) : EncodesChar c [c]
  | escaped {hi lo : Char} (h : unreserved c = false) (hhi : hexValue hi = some (c.toNat / 16))
      (hlo : hexValue lo = some (c.toNat % 16)) : EncodesChar c ['%', hi, lo]

/-- A text that stands for another one, character by character. -/
inductive Encodes : List Char → List Char → Prop
  | nil : Encodes [] []
  | cons {c : Char} {e s t : List Char} (h : EncodesChar c e) (tail : Encodes s t) :
      Encodes (c :: s) (e ++ t)

/-- Read a percent-encoded text. A percent sign without two digits stands for itself. -/
def decode : List Char → List Char
  | '%' :: hi :: lo :: rest =>
      match hexValue hi, hexValue lo with
      | some h, some l => Char.ofNat (16 * h + l) :: decode rest
      | _, _ => '%' :: decode (hi :: lo :: rest)
  | c :: rest => c :: decode rest
  | [] => []

/-! ## Reading an encoding -/

theorem unreserved_of_hexValue {c : Char} {n : ℕ} (h : hexValue c = some n) :
    unreserved c = true := by
  have hrange : ('0' ≤ c ∧ c ≤ '9') ∨ ('A' ≤ c ∧ c ≤ 'F') ∨ ('a' ≤ c ∧ c ≤ 'f') := by
    unfold hexValue at h
    split at h
    · exact .inl ‹_›
    · split at h
      · exact .inr (.inl ‹_›)
      · split at h
        · exact .inr (.inr ‹_›)
        · cases h
  simp only [unreserved, Bool.or_eq_true, Bool.and_eq_true, decide_eq_true_eq]
  rcases hrange with ⟨hlow, hhigh⟩ | ⟨hlow, hhigh⟩ | ⟨hlow, hhigh⟩
  · exact .inl (.inl (.inl (.inl (.inr ⟨hlow, hhigh⟩))))
  · have hZ : c ≤ 'Z' := Char.le_trans hhigh (by decide)
    exact .inl (.inl (.inl (.inl (.inl (.inl ⟨hlow, hZ⟩)))))
  · have hz : c ≤ 'z' := Char.le_trans hhigh (by decide)
    exact .inl (.inl (.inl (.inl (.inl (.inr ⟨hlow, hz⟩)))))

theorem decode_cons {c : Char} (h : c ≠ '%') (rest : List Char) :
    decode (c :: rest) = c :: decode rest := by
  apply decode.eq_2
  intro hi lo tail hc
  exact absurd hc h

theorem decode_encodesChar {c : Char} {e : List Char} (h : EncodesChar c e) (rest : List Char) :
    decode (e ++ rest) = c :: decode rest := by
  cases h with
  | plain h =>
      have hc : c ≠ '%' := by
        rintro rfl
        cases h
      exact decode_cons hc rest
  | escaped h hhi hlo =>
      simp only [List.cons_append, List.nil_append, decode, hhi, hlo, Nat.div_add_mod,
        Char.ofNat_toNat]

theorem decode_encodes {s e : List Char} (h : Encodes s e) : decode e = s := by
  induction h with
  | nil => rfl
  | cons h tail ih => rw [decode_encodesChar h, ih]

/-- An encoding is made of unreserved characters and percent signs. -/
theorem mem_encodes {s e : List Char} (h : Encodes s e) {c : Char} (hc : c ∈ e) :
    unreserved c = true ∨ c = '%' := by
  induction h with
  | nil => cases hc
  | cons h tail ih =>
      rcases List.mem_append.mp hc with hc | hc
      · cases h with
        | plain h =>
            rw [List.mem_singleton.mp hc]
            exact .inl h
        | escaped h hhi hlo =>
            rcases List.mem_cons.mp hc with rfl | hc
            · exact .inr rfl
            · rcases List.mem_cons.mp hc with rfl | hc
              · exact .inl (unreserved_of_hexValue hhi)
              · rw [List.mem_singleton.mp hc]
                exact .inl (unreserved_of_hexValue hlo)
      · exact ih hc

/-- A character that an encoding never contains. -/
theorem notMem_encodes {s e : List Char} (h : Encodes s e) {c : Char} (hc : unreserved c = false)
    (hpercent : c ≠ '%') : c ∉ e := by
  intro hmem
  rcases mem_encodes h hmem with hu | hp
  · rw [hc] at hu
    cases hu
  · exact hpercent hp

/-! ## An encoder -/

def hexDigit (n : ℕ) : Char := "0123456789ABCDEF".toList.getD n '0'

def encodeChar (c : Char) : List Char :=
  if unreserved c then [c] else ['%', hexDigit (c.toNat / 16), hexDigit (c.toNat % 16)]

def encode (s : List Char) : List Char := s.flatMap encodeChar

theorem hexValue_hexDigit : ∀ n < 16, hexValue (hexDigit n) = some n := by decide

theorem encodes_encode {s : List Char} (h : ∀ c ∈ s, c.toNat < 256) : Encodes s (encode s) := by
  induction s with
  | nil => exact .nil
  | cons c s ih =>
      have hc : c.toNat < 256 := h c List.mem_cons_self
      apply Encodes.cons
      · unfold encodeChar
        split
        · exact .plain ‹_›
        · exact .escaped (Bool.eq_false_iff.mpr ‹_›) (hexValue_hexDigit _ (by omega))
            (hexValue_hexDigit _ (by omega))
      · exact ih fun d hd => h d (List.mem_cons_of_mem _ hd)

/-! ## Form texts -/

/-- One pair of a form text. -/
def piece (encoder : List Char → List Char) (pair : List Char × List Char) : List Char :=
  encoder pair.1 ++ '=' :: encoder pair.2

/-- The encoded pairs with an ampersand between them. -/
def format (encoder : List Char → List Char) (pairs : List (List Char × List Char)) : List Char :=
  ['&'].intercalate (pairs.map (piece encoder))

/-- The pieces between the ampersands; the empty text has none. -/
def pieces (text : List Char) : List (List Char) :=
  if text = [] then [] else text.splitOn '&'

/-- A piece is cut at its first equals sign and both sides are decoded. -/
def readPiece (p : List Char) : List Char × List Char :=
  (decode (p.takeWhile (· ≠ '=')), decode ((p.dropWhile (· ≠ '=')).drop 1))

/-- The pairs of a form text. -/
def parse (text : List Char) : List (List Char × List Char) := (pieces text).map readPiece

variable {encoder : List Char → List Char}

theorem readPiece_piece {pair : List Char × List Char} (hkey : Encodes pair.1 (encoder pair.1))
    (hvalue : Encodes pair.2 (encoder pair.2)) : readPiece (piece encoder pair) = pair := by
  have hne : ∀ c ∈ encoder pair.1, decide (c ≠ '=') = true := by
    intro c hc
    have hnot := notMem_encodes hkey (c := '=') rfl (by decide)
    exact decide_eq_true fun heq => hnot (heq ▸ hc)
  have htake : (piece encoder pair).takeWhile (· ≠ '=') = encoder pair.1 := by
    rw [piece, List.takeWhile_append_of_pos hne]
    exact List.append_nil _
  have hdrop : (piece encoder pair).dropWhile (· ≠ '=') = '=' :: encoder pair.2 := by
    rw [piece, List.dropWhile_append_of_pos hne]
    rfl
  rw [readPiece, htake, hdrop, List.drop_one, List.tail_cons, decode_encodes hkey,
    decode_encodes hvalue]

theorem piece_ne_nil (pair : List Char × List Char) : piece encoder pair ≠ [] := by
  intro h
  cases (List.append_eq_nil_iff.mp h).2

theorem notMem_piece {pair : List Char × List Char} (hkey : Encodes pair.1 (encoder pair.1))
    (hvalue : Encodes pair.2 (encoder pair.2)) {c : Char} (hc : unreserved c = false)
    (hpercent : c ≠ '%') (heq : c ≠ '=') : c ∉ piece encoder pair := by
  intro hmem
  rcases List.mem_append.mp hmem with hmem | hmem
  · exact notMem_encodes hkey hc hpercent hmem
  · rcases List.mem_cons.mp hmem with hmem | hmem
    · exact heq hmem
    · exact notMem_encodes hvalue hc hpercent hmem

theorem format_cons (pair : List Char × List Char) (rest : List (List Char × List Char)) :
    format encoder (pair :: rest) =
      piece encoder pair ++ rest.flatMap fun p => '&' :: piece encoder p := by
  induction rest generalizing pair with
  | nil => simp only [format, List.map_cons, List.map_nil, List.intercalate_singleton,
      List.flatMap_nil, List.append_nil]
  | cons next rest ih =>
      have hnext := ih next
      simp only [format, List.map_cons] at hnext ⊢
      rw [List.intercalate_cons_cons, hnext, List.flatMap_cons, List.append_assoc]
      rfl

theorem mem_format {pairs : List (List Char × List Char)} {c : Char}
    (hc : c ∈ format encoder pairs) : c = '&' ∨ ∃ pair ∈ pairs, c ∈ piece encoder pair := by
  cases pairs with
  | nil => cases hc
  | cons pair rest =>
      rw [format_cons] at hc
      rcases List.mem_append.mp hc with hc | hc
      · exact .inr ⟨pair, List.mem_cons_self, hc⟩
      · obtain ⟨p, hp, hc⟩ := List.mem_flatMap.mp hc
        rcases List.mem_cons.mp hc with hc | hc
        · exact .inl hc
        · exact .inr ⟨p, List.mem_cons_of_mem _ hp, hc⟩

/-- Reading the form text of some pairs gives back the pairs. -/
theorem parse_format {pairs : List (List Char × List Char)}
    (h : ∀ pair ∈ pairs, Encodes pair.1 (encoder pair.1) ∧ Encodes pair.2 (encoder pair.2)) :
    parse (format encoder pairs) = pairs := by
  cases pairs with
  | nil => rfl
  | cons pair rest =>
      have hne : format encoder (pair :: rest) ≠ [] := by
        rw [format_cons]
        intro hnil
        exact piece_ne_nil pair (List.append_eq_nil_iff.mp hnil).1
      have hsplit : (format encoder (pair :: rest)).splitOn '&' =
          (pair :: rest).map (piece encoder) := by
        apply List.splitOn_intercalate
        · intro p hp
          obtain ⟨q, hq, rfl⟩ := List.mem_map.mp hp
          exact notMem_piece (h q hq).1 (h q hq).2 rfl (by decide) (by decide)
        · intro hnil
          cases hnil
      rw [parse, pieces, if_neg hne, hsplit, List.map_map]
      calc
        (pair :: rest).map (readPiece ∘ piece encoder) = (pair :: rest).map id :=
          List.map_congr_left fun q hq => readPiece_piece (h q hq).1 (h q hq).2
        _ = pair :: rest := List.map_id _

end Percent
