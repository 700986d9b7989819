import Audd.Lib.Trim
import Mathlib.Data.String.Basic

/-!
# URLs and their query pairs

A URL with an authority is made of five components that are free of each other's
delimiters, so its text determines them. A parameter is added to a text behind its
first question mark, and the pairs of the query are the old ones and the new one.
-/

namespace Uri

open Trim

/-! ## Components -/

/-- A component behind its delimiter, when there is one. -/
def delimited (delimiter : Char) : Option (List Char) → List Char
  | none => []
  | some text => delimiter :: text

theorem head?_delimited {delimiter c : Char} {text : Option (List Char)}
    (h : c ∈ (delimited delimiter text).head?) : c = delimiter := by
  cases text with
  | none => cases h
  | some t => exact (Option.some.inj h).symm

theorem delimited_injective {delimiter : Char} {text text' : Option (List Char)}
    (h : delimited delimiter text = delimited delimiter text') : text = text' := by
  cases text with
  | none =>
      cases text' with
      | none => rfl
      | some t' => cases h
  | some t =>
      cases text' with
      | none => cases h
      | some t' => exact congrArg some (List.cons_eq_cons.mp h).2

/-- A URL with an authority, by its components. -/
@[ext] structure Url where
  scheme : List Char
  authority : List Char
  path : List Char
  query : Option (List Char)
  fragment : Option (List Char)
  scheme_free : ∀ c ∈ scheme, c ≠ ':' ∧ c ≠ '/' ∧ c ≠ '?' ∧ c ≠ '#'
  authority_free : ∀ c ∈ authority, c ≠ '/' ∧ c ≠ '?' ∧ c ≠ '#'
  path_free : ∀ c ∈ path, c ≠ '?' ∧ c ≠ '#'
  path_rooted : ∀ c ∈ path.head?, c = '/'
  query_free : ∀ q ∈ query, '#' ∉ q

namespace Url

variable (U V : Url)

/-- What follows the path. -/
def afterPath : List Char := delimited '?' U.query ++ delimited '#' U.fragment

/-- What follows the scheme and its delimiters. -/
def afterScheme : List Char := U.authority ++ (U.path ++ U.afterPath)

def text : List Char := U.scheme ++ ':' :: '/' :: '/' :: U.afterScheme

end Url

/-- A part without delimiters and the rest that starts with one are determined by the whole. -/
theorem append_unique {D : Char → Prop} {a a' rest rest' : List Char} (ha : ∀ c ∈ a, ¬D c)
    (ha' : ∀ c ∈ a', ¬D c) (hrest : ∀ c ∈ rest.head?, D c) (hrest' : ∀ c ∈ rest'.head?, D c)
    (h : a ++ rest = a' ++ rest') : a = a' ∧ rest = rest' := by
  induction a generalizing a' with
  | nil =>
      cases a' with
      | nil => exact ⟨rfl, h⟩
      | cons c tail =>
          rw [List.nil_append] at h
          exact absurd (hrest c (by rw [h]; rfl)) (ha' c List.mem_cons_self)
  | cons c tail ih =>
      cases a' with
      | nil =>
          rw [List.nil_append] at h
          exact absurd (hrest' c (by rw [← h]; rfl)) (ha c List.mem_cons_self)
      | cons c' tail' =>
          obtain ⟨rfl, htail⟩ := List.cons_eq_cons.mp h
          obtain ⟨rfl, hrests⟩ := ih (fun d hd => ha d (List.mem_cons_of_mem _ hd))
            (fun d hd => ha' d (List.mem_cons_of_mem _ hd)) htail
          exact ⟨rfl, hrests⟩

namespace Url

variable {U V : Url}

theorem head?_afterPath (U : Url) : ∀ c ∈ U.afterPath.head?, c = '?' ∨ c = '#' := by
  intro c hc
  unfold afterPath at hc
  cases hquery : U.query with
  | some q =>
      rw [hquery] at hc
      exact .inl (Option.some.inj hc).symm
  | none =>
      rw [hquery] at hc
      exact .inr (head?_delimited hc)

theorem head?_afterAuthority (U : Url) :
    ∀ c ∈ (U.path ++ U.afterPath).head?, c = '/' ∨ c = '?' ∨ c = '#' := by
  intro c hc
  cases hpath : U.path with
  | nil =>
      rw [hpath, List.nil_append] at hc
      exact .inr (U.head?_afterPath c hc)
  | cons d rest =>
      rw [hpath] at hc
      exact .inl (U.path_rooted c (by rw [hpath]; exact hc))

theorem afterPath_injective (h : U.afterPath = V.afterPath) :
    U.query = V.query ∧ U.fragment = V.fragment := by
  unfold afterPath at h
  cases hU : U.query with
  | none =>
      cases hV : V.query with
      | none =>
          rw [hU, hV] at h
          exact ⟨rfl, delimited_injective h⟩
      | some q' =>
          rw [hU, hV] at h
          have hfragment : delimited '#' U.fragment = '?' :: (q' ++ delimited '#' V.fragment) := h
          exact absurd (head?_delimited (by rw [hfragment]; rfl)) (by decide)
  | some q =>
      cases hV : V.query with
      | none =>
          rw [hU, hV] at h
          have hfragment : '?' :: (q ++ delimited '#' U.fragment) = delimited '#' V.fragment := h
          exact absurd (head?_delimited (by rw [← hfragment]; rfl)) (by decide)
      | some q' =>
          rw [hU, hV] at h
          have hfree : ∀ {W : Url} {t : List Char}, W.query = some t → ∀ c ∈ t, ¬c = '#' := by
            intro W t ht c hc heq
            exact W.query_free t ht (heq ▸ hc)
          obtain ⟨rfl, hrest⟩ := append_unique (hfree hU) (hfree hV)
            (fun _ hc => head?_delimited hc) (fun _ hc => head?_delimited hc)
            (List.cons_eq_cons.mp h).2
          exact ⟨rfl, delimited_injective hrest⟩

theorem head?_afterColon (U : Url) :
    ∀ c ∈ (':' :: '/' :: '/' :: U.afterScheme).head?, c = ':' ∨ c = '/' ∨ c = '?' ∨ c = '#' :=
  fun _ hc => .inl (Option.some.inj hc).symm

/-- The text of a URL determines its components. -/
theorem text_injective (h : U.text = V.text) : U = V := by
  obtain ⟨hscheme, hafter⟩ := append_unique (D := fun c => c = ':' ∨ c = '/' ∨ c = '?' ∨ c = '#')
    (fun c hc => by simpa using U.scheme_free c hc) (fun c hc => by simpa using V.scheme_free c hc)
    U.head?_afterColon V.head?_afterColon h
  have hafter : U.afterScheme = V.afterScheme := by simpa using hafter
  obtain ⟨hauthority, hafter⟩ := append_unique (fun c hc => by simpa using U.authority_free c hc)
    (fun c hc => by simpa using V.authority_free c hc) U.head?_afterAuthority
    V.head?_afterAuthority hafter
  obtain ⟨hpath, hafter⟩ := append_unique (fun c hc => by simpa using U.path_free c hc)
    (fun c hc => by simpa using V.path_free c hc) U.head?_afterPath V.head?_afterPath hafter
  obtain ⟨hquery, hfragment⟩ := afterPath_injective hafter
  exact Url.ext hscheme hauthority hpath hquery hfragment

end Url

/-! ## Adding a parameter -/

/-- A text with a parameter at its end, behind its first question mark. -/
def addParameter (text parameter : List Char) : List Char :=
  text ++ (if '?' ∈ text then '&' else '?') :: parameter

/-- A query with one more parameter after a separator. -/
def addedQuery (query : Option (List Char)) (parameter : List Char) : List Char :=
  match query with
  | none => parameter
  | some q => q ++ '&' :: parameter

namespace Url

variable {U : Url}

theorem question_mem_text_iff (h : U.fragment = none) : '?' ∈ U.text ↔ U.query.isSome := by
  have hscheme : '?' ∉ U.scheme := fun hmem => (U.scheme_free _ hmem).2.2.1 rfl
  have hauthority : '?' ∉ U.authority := fun hmem => (U.authority_free _ hmem).2.1 rfl
  have hpath : '?' ∉ U.path := fun hmem => (U.path_free _ hmem).1 rfl
  cases hquery : U.query with
  | none => simp [text, afterScheme, afterPath, delimited, h, hquery, hscheme, hauthority, hpath]
  | some q => simp [text, afterScheme, afterPath, delimited, h, hquery]

/-- The URL with one more parameter in its query. -/
def withParameter (U : Url) (parameter : List Char) (hfree : '#' ∉ parameter) : Url :=
  { U with
    query := some (addedQuery U.query parameter)
    query_free := by
      rintro _ ⟨rfl⟩ hmem
      unfold addedQuery at hmem
      cases hquery : U.query with
      | none =>
          rw [hquery] at hmem
          exact hfree hmem
      | some q =>
          rw [hquery] at hmem
          rcases List.mem_append.mp hmem with hmem | hmem
          · exact U.query_free q hquery hmem
          · exact hfree (List.mem_of_ne_of_mem (by decide) hmem) }

/-- Without a fragment the parameter is added to the query. -/
theorem addParameter_text {parameter : List Char} (hfree : '#' ∉ parameter)
    (h : U.fragment = none) :
    addParameter U.text parameter = (U.withParameter parameter hfree).text := by
  rw [addParameter]
  cases hquery : U.query with
  | none =>
      have hmem : '?' ∉ U.text := by simp [question_mem_text_iff h, hquery]
      rw [if_neg hmem]
      simp [text, afterScheme, afterPath, withParameter, addedQuery, delimited, h, hquery]
  | some q =>
      have hmem : '?' ∈ U.text := by simp [question_mem_text_iff h, hquery]
      rw [if_pos hmem]
      simp [text, afterScheme, afterPath, withParameter, addedQuery, delimited, h, hquery]

/-- Behind a fragment the parameter becomes a part of it. -/
theorem append_text {f : List Char} (h : U.fragment = some f) (tail : List Char) :
    ∃ W : Url, W.text = U.text ++ tail ∧ W.fragment = some (f ++ tail) := by
  refine ⟨{ U with fragment := some (f ++ tail) }, ?_, rfl⟩
  simp [text, afterScheme, afterPath, delimited, h]

/-- A URL that differs from another one in a parameter at the end of the query. -/
def HasAdded (U V : Url) (parameter : List Char) : Prop :=
  V.scheme = U.scheme ∧ V.authority = U.authority ∧ V.path = U.path ∧
    V.fragment = U.fragment ∧ V.query = some (addedQuery U.query parameter)

/-- A parameter at the end of the text is one of the query exactly when there is no
fragment. -/
theorem hasAdded_iff {parameter : List Char} (hfree : '#' ∉ parameter) :
    (∃ V : Url, V.text = addParameter U.text parameter ∧ U.HasAdded V parameter) ↔
      U.fragment = none := by
  constructor
  · rintro ⟨V, htext, hadded⟩
    by_contra hfragment
    obtain ⟨f, hf⟩ := Option.ne_none_iff_exists'.mp hfragment
    obtain ⟨W, hW, hWf⟩ := append_text hf ((if '?' ∈ U.text then '&' else '?') :: parameter)
    obtain rfl : V = W := text_injective (htext.trans hW.symm)
    have hsame := hadded.2.2.2.1
    rw [hWf, hf] at hsame
    simp at hsame
  · intro h
    exact ⟨U.withParameter parameter hfree, (addParameter_text hfree h).symm,
      rfl, rfl, rfl, rfl, rfl⟩

end Url

/-! ## Pairs -/

/-- A piece of a query, cut at its first equals sign. -/
def pair (piece : List Char) : List Char × Option (List Char) :=
  (piece.takeWhile (· ≠ '='),
    if '=' ∈ piece then some (piece.dropWhile (· ≠ '=')).tail else none)

/-- The pairs of a text: the pieces between ampersands after its first question mark. -/
def pairs (text : List Char) : List (List Char × Option (List Char)) :=
  match text.dropWhile (· ≠ '?') with
  | [] => []
  | _ :: query => (query.splitOn '&').map pair

/-- The first piece of a text and what follows its ampersand. -/
theorem splitOn_eq (query : List Char) :
    query.splitOn '&' = query.takeWhile (· ≠ '&') ::
      if query.dropWhile (· ≠ '&') = [] then []
      else (query.dropWhile (· ≠ '&')).tail.splitOn '&' := by
  by_cases hmem : '&' ∈ query
  · obtain ⟨before, after, rfl, hbefore⟩ := List.eq_append_cons_of_mem hmem
    rw [takeWhile_ne_append hbefore, dropWhile_ne_append hbefore, if_neg (List.cons_ne_nil _ _),
      List.tail_cons, List.splitOn_append_cons_self_of_not_mem hbefore]
  · rw [List.takeWhile_eq_self_iff.mpr (forall_ne hmem),
      List.dropWhile_eq_nil_iff.mpr (forall_ne hmem), if_pos rfl, List.splitOn_eq_singleton hmem]

theorem pairs_of_notMem {text : List Char} (h : '?' ∉ text) : pairs text = [] := by
  rw [pairs, List.dropWhile_eq_nil_iff.mpr (forall_ne h)]

theorem pairs_append {before query : List Char} (h : '?' ∉ before) :
    pairs (before ++ '?' :: query) = (query.splitOn '&').map pair := by
  rw [pairs, dropWhile_ne_append h]

theorem pair_key_value {key value : List Char} (h : '=' ∉ key) :
    pair (key ++ '=' :: value) = (key, some value) := by
  rw [pair, takeWhile_ne_append h, dropWhile_ne_append h]
  simp

/-- Adding a parameter leaves what stands before the first question mark. -/
theorem takeWhile_addParameter (text parameter : List Char) :
    (addParameter text parameter).takeWhile (· ≠ '?') = text.takeWhile (· ≠ '?') := by
  rw [addParameter]
  by_cases hmem : '?' ∈ text
  · obtain ⟨before, query, rfl, hbefore⟩ := List.eq_append_cons_of_mem hmem
    rw [if_pos hmem, List.append_assoc, List.cons_append, takeWhile_ne_append hbefore,
      takeWhile_ne_append hbefore]
  · rw [if_neg hmem, takeWhile_ne_append hmem, List.takeWhile_eq_self_iff.mpr (forall_ne hmem)]

/-- Adding a parameter adds its pair. -/
theorem pairs_addParameter (text : List Char) {parameter : List Char} (h : '&' ∉ parameter) :
    pairs (addParameter text parameter) = pairs text ++ [pair parameter] := by
  rw [addParameter]
  by_cases hmem : '?' ∈ text
  · obtain ⟨before, query, rfl, hbefore⟩ := List.eq_append_cons_of_mem hmem
    rw [if_pos hmem, List.append_assoc, List.cons_append, pairs_append hbefore,
      pairs_append hbefore, List.splitOn_append_cons_self, List.splitOn_eq_singleton h,
      List.map_append]
    rfl
  · rw [if_neg hmem, pairs_append hmem, List.splitOn_eq_singleton h, pairs_of_notMem hmem]
    rfl

end Uri
