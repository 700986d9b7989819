import Audd.FormEncoding

/-!
# The two bodies of a form

A form is a multipart body when it has a file and an urlencoded one otherwise. The parts
of the first are C texts, which end at their first NUL; the second is escaped by length.
-/

namespace Audd

open Trim

/-- The pair in a multipart section that is not the file. -/
def MimePart.pair? (part : MimePart) : Option (String × String) :=
  match part.content with
  | .data value => some (part.name, value)
  | .filedata _ => none
  | .bytes _ => none

/-- The pairs that a server reads from a body, without the file. -/
def RequestBody.pairs : RequestBody → List (String × String)
  | .multipart parts => parts.filterMap MimePart.pair?
  | .urlencoded text => formPairs text

def NulFree (s : String) : Prop := '\x00' ∉ s.toList

instance (s : String) : Decidable (NulFree s) := inferInstanceAs (Decidable ('\x00' ∉ s.toList))

/-- A map without NUL bytes in its keys and values. -/
def NulFreeMap (m : OrderedMap String String) : Prop :=
  ∀ kv ∈ m.entries, NulFree kv.1 ∧ NulFree kv.2

theorem nulFree_cStr (s : String) : NulFree (cStr s) := by
  intro hmem
  rw [cStr, String.toList_ofList] at hmem
  simpa using List.mem_takeWhile_imp hmem

/-- The pair that the multipart sections carry for an entry. -/
def cPair (kv : String × String) : String × String := (cStr kv.1, cStr kv.2)

theorem pair?_filePart (P : Platform) (f : FileField) : (filePart P f).pair? = none := by
  unfold MimePart.pair? filePart
  split
  · rename_i h
    dsimp only at h
    split at h <;> cases h
  · rfl
  · rfl

/-- The multipart sections carry every entry up to its first NULs. -/
theorem pairs_multipart (P : Platform) (data : OrderedMap String String) (f : FileField) :
    (encodeBody P { data, file := some f }).pairs = data.entries.map cPair := by
  change List.filterMap MimePart.pair? (List.map _ data.entries ++ [filePart P f]) = _
  rw [List.filterMap_append, List.filterMap_cons_none (pair?_filePart P f), List.filterMap_nil,
    List.append_nil, List.filterMap_map]
  exact congrFun (List.filterMap_eq_map (f := cPair)) data.entries

theorem cPair_eq_self {kv : String × String} (h : NulFree kv.1 ∧ NulFree kv.2) :
    cPair kv = kv := by
  rw [cPair, cStr_eq_self h.1, cStr_eq_self h.2]

/-- Cutting every pair at its NULs keeps the set of pairs only when there are none. -/
theorem map_cPair_iff (m : OrderedMap String String) :
    (∀ kv, kv ∈ m.entries.map cPair ↔ kv ∈ m.entries) ↔ NulFreeMap m := by
  constructor
  · intro hsame kv hkv
    obtain ⟨pair, -, rfl⟩ := List.mem_map.mp ((hsame kv).mpr hkv)
    exact ⟨nulFree_cStr _, nulFree_cStr _⟩
  · intro hfree kv
    have hmap : m.entries.map cPair = m.entries := by
      conv_rhs => rw [← List.map_id m.entries]
      exact List.map_congr_left fun kv hkv => cPair_eq_self (hfree kv hkv)
    rw [hmap]

theorem nulFreeMap_insert_iff {m : OrderedMap String String} {key value : String}
    (hkey : NulFree key) (hnew : m.contains key = false) :
    NulFreeMap (m.insert key value) ↔ NulFreeMap m ∧ NulFree value := by
  have hfind : ∀ v, (key, v) ∉ m.entries := by
    intro v hmem
    rw [OrderedMap.mem_entries_iff] at hmem
    rw [OrderedMap.contains_eq_isSome, hmem] at hnew
    cases hnew
  constructor
  · intro h
    constructor
    · rintro ⟨k, v⟩ hkv
      have hk : k ≠ key := fun heq => hfind v (heq ▸ hkv)
      exact h (k, v) ((OrderedMap.mem_entries_insert_iff _ _ _ _ _).mpr (.inr ⟨hk, hkv⟩))
    · exact (h (key, value)
        ((OrderedMap.mem_entries_insert_iff _ _ _ _ _).mpr (.inl ⟨rfl, rfl⟩))).2
  · rintro ⟨hm, hvalue⟩
    exact OrderedMap.forall_entries_insert hm ⟨hkey, hvalue⟩

/-- The token counts unless the caller gave one. -/
theorem nulFreeMap_injectToken_iff (token : String) (data : OrderedMap String String) :
    NulFreeMap (injectToken token data) ↔
      NulFreeMap data ∧ (data.contains "api_token" = false → NulFree token) := by
  have hname : NulFree "api_token" := by decide
  rw [injectToken]
  cases hhas : data.contains "api_token" with
  | true => simp
  | false =>
      by_cases hempty : token = ""
      · subst hempty
        simp [NulFree]
      · rw [if_pos ⟨hempty, rfl⟩, nulFreeMap_insert_iff hname hhas]
        simp

/-- The multipart and the urlencoded request carry the same pairs exactly when no key,
no value and no token that is added has a NUL. -/
theorem sameData_iff {P : Platform} (hP : P.PercentEncodes) {url url' : String}
    {data : OrderedMap String String} {file : FileField} {env env' : AttemptEnv}
    {multipart urlencoded : RequestBody} (hdata : IsByteMap data) (htoken : IsBytes env.apiToken)
    (hsame : env'.apiToken = env.apiToken)
    (hfile : (postForm P url { data, file := some file } env).body = some multipart)
    (hform : (postForm P url' { data } env').body = some urlencoded) :
    (∀ kv, kv ∈ multipart.pairs ↔ kv ∈ urlencoded.pairs) ↔
      NulFreeMap data ∧ (data.contains "api_token" = false → NulFree env.apiToken) := by
  rw [postForm_body hfile, postForm_body hform, hsame, pairs_multipart,
    ← nulFreeMap_injectToken_iff, ← map_cPair_iff]
  have hpairs := formPairs_buildQuery hP (isByteMap_injectToken htoken hdata)
  change (∀ kv, _ ↔ kv ∈ formPairs (buildQuery P (injectToken env.apiToken data))) ↔ _
  rw [hpairs]

/-- The options of a recognition agree in both requests. -/
theorem sameData_return_option :
    let data : OrderedMap String String := OrderedMap.empty.insert "return" "apple_music,spotify"
    let env : AttemptEnv := {
      apiToken := "token"
      transfer := ⟨⟨0, 200, []⟩, [], .ok, "\x7b\x7d"⟩ }
    let file : FileField := { name := "audio.bin", contentType := "", bytes := [82, 73] }
    ∃ multipart urlencoded,
      (postForm escapingPlatform "https://api.audd.io/" { data, file := some file } env).body =
        some multipart ∧
      (postForm escapingPlatform "https://api.audd.io/" { data } env).body = some urlencoded ∧
      ∀ kv, kv ∈ multipart.pairs ↔ kv ∈ urlencoded.pairs := by
  intro data env file
  have hbytes : IsByteMap data := by
    apply isByteMap_insert isByteMap_empty
    all_goals exact isBytes_of_all (by decide)
  have htoken : IsBytes env.apiToken := isBytes_of_all (by decide)
  have hempty : NulFreeMap ∅ := by
    intro kv hkv
    cases hkv
  have hfree : NulFreeMap data :=
    (nulFreeMap_insert_iff (by decide) rfl).mpr ⟨hempty, by decide⟩
  obtain ⟨multipart, hfile⟩ : ∃ multipart,
      (postForm escapingPlatform "https://api.audd.io/" { data, file := some file } env).body =
        some multipart := ⟨_, rfl⟩
  obtain ⟨urlencoded, hform⟩ : ∃ urlencoded,
      (postForm escapingPlatform "https://api.audd.io/" { data } env).body = some urlencoded :=
    ⟨_, rfl⟩
  refine ⟨multipart, urlencoded, hfile, hform, ?_⟩
  apply (sameData_iff escapingPlatform_percentEncodes hbytes htoken rfl hfile hform).mpr
  exact ⟨hfree, fun _ => by decide⟩

/-- A value with a NUL: the multipart request carries the text in front of it, the
urlencoded one the whole value. -/
theorem nul_truncated :
    let data : OrderedMap String String := OrderedMap.empty.insert "q" "a\x00b"
    let env : AttemptEnv := {
      apiToken := ""
      transfer := ⟨⟨0, 200, []⟩, [], .ok, "\x7b\x7d"⟩ }
    let file : FileField := { name := "audio.bin", contentType := "", bytes := [82, 73] }
    ∃ multipart urlencoded,
      (postForm escapingPlatform "https://api.audd.io/" { data, file := some file } env).body =
        some multipart ∧
      (postForm escapingPlatform "https://api.audd.io/" { data } env).body = some urlencoded ∧
      multipart.pairs = [("q", "a")] ∧ urlencoded.pairs = [("q", "a\x00b")] ∧
      ¬∀ kv, kv ∈ multipart.pairs ↔ kv ∈ urlencoded.pairs := by
  intro data env file
  have hmultipart : (encodeBody escapingPlatform { data, file := some file }).pairs =
      [("q", "a")] := by decide
  have hurlencoded : (encodeBody escapingPlatform { data }).pairs = [("q", "a\x00b")] := by decide
  refine ⟨_, _, rfl, rfl, hmultipart, hurlencoded, fun hsame => ?_⟩
  have hmem := (hsame ("q", "a")).mp (hmultipart ▸ List.mem_cons_self)
  exact absurd (hurlencoded ▸ hmem) (by decide)

end Audd
