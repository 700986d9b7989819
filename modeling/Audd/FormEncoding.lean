import Audd.HttpClient
import Audd.Lib.Percent
import Audd.Lib.Trim

/-!
# The urlencoded form

The query text of a map reads back as the map, in key order. The same text is the
body of a form without a file and the query of a GET request.

## Implementation notes

What libcurl's escape function does is a property of the platform. It allows hexadecimal
digits of either case. The addresses are those that a query can be appended to:
the callers pass constant ones without a query, a fragment or a NUL.
-/

namespace Audd

open Percent Trim

/-- A text whose characters are bytes. -/
def IsBytes (s : String) : Prop := ∀ c ∈ s.toList, c.toNat < 256

theorem isBytes_of_all {s : String} (h : s.toList.all fun c => c.toNat < 256) : IsBytes s :=
  forall_of_all h

def IsByteMap (m : OrderedMap String String) : Prop :=
  ∀ kv ∈ m.entries, IsBytes kv.1 ∧ IsBytes kv.2

/-- `curl_easy_escape` succeeds and percent-encodes what is not unreserved. -/
def Platform.PercentEncodes (P : Platform) : Prop :=
  ∀ s, IsBytes s → ∃ text, P.curlEscape s = some text ∧ Encodes s.toList text.toList

/-- The pairs of an urlencoded text, percent-decoded. -/
def formPairs (text : String) : List (String × String) :=
  (parse text.toList).map fun p => (String.ofList p.1, String.ofList p.2)

/-- The query of an address: from its first question mark to its fragment. -/
def queryOf (url : String) : String :=
  String.ofList (((url.toList.takeWhile (· ≠ '#')).dropWhile (· ≠ '?')).drop 1)

/-- An address that ends in its path. -/
def EndsInPath (url : String) : Prop := ∀ c ∈ url.toList, c ≠ '?' ∧ c ≠ '#' ∧ c ≠ '\x00'

/-! ## The query text -/

section
variable (P : Platform)

/-- The encoder of the source on lists of characters. -/
def encoder (s : List Char) : List Char := (urlEncode P (String.ofList s)).toList

def charPair (kv : String × String) : List Char × List Char := (kv.1.toList, kv.2.toList)

/-- The loop of `build_query` from a text that is not empty any more. -/
theorem foldl_buildQuery (entries : List (String × String)) {out : String} (hout : out ≠ "") :
    (entries.foldl (fun out kv =>
      (if out = "" then out else out ++ "&") ++ urlEncode P kv.1 ++ "=" ++ urlEncode P kv.2)
        out).toList =
      out.toList ++ entries.flatMap fun kv => '&' :: piece (encoder P) (charPair kv) := by
  induction entries generalizing out with
  | nil => exact (List.append_nil _).symm
  | cons kv rest ih =>
      have hnext : out ++ "&" ++ urlEncode P kv.1 ++ "=" ++ urlEncode P kv.2 ≠ "" := by
        intro h
        have hnil := congrArg String.toList h
        simp at hnil
      rw [List.foldl_cons, if_neg hout, ih hnext, List.flatMap_cons]
      simp [piece, encoder, charPair]

/-- The query text is the form text of the entries. -/
theorem buildQuery_eq (params : OrderedMap String String) :
    (buildQuery P params).toList = format (encoder P) (params.entries.map charPair) := by
  unfold buildQuery
  cases params.entries with
  | nil => rfl
  | cons kv rest =>
      have hfirst : "" ++ urlEncode P kv.1 ++ "=" ++ urlEncode P kv.2 ≠ "" := by
        intro h
        have hnil := congrArg String.toList h
        simp at hnil
      rw [List.foldl_cons, if_pos rfl, foldl_buildQuery P rest hfirst, List.map_cons, format_cons,
        List.flatMap_map]
      simp [piece, encoder, charPair]

variable {P}

theorem encodes_encoder (hP : P.PercentEncodes) {s : String} (hs : IsBytes s) :
    Encodes s.toList (encoder P s.toList) := by
  obtain ⟨text, hescape, htext⟩ := hP s hs
  rw [encoder, String.ofList_toList, urlEncode, hescape, Option.getD_some]
  exact htext

theorem encodes_entries (hP : P.PercentEncodes) {params : OrderedMap String String}
    (hparams : IsByteMap params) : ∀ pair ∈ params.entries.map charPair,
      Encodes pair.1 (encoder P pair.1) ∧ Encodes pair.2 (encoder P pair.2) := by
  intro pair hpair
  obtain ⟨kv, hkv, rfl⟩ := List.mem_map.mp hpair
  exact ⟨encodes_encoder hP (hparams kv hkv).1, encodes_encoder hP (hparams kv hkv).2⟩

/-- The query text of a map reads back as its entries. -/
theorem formPairs_buildQuery (hP : P.PercentEncodes) {params : OrderedMap String String}
    (hparams : IsByteMap params) : formPairs (buildQuery P params) = params.entries := by
  rw [formPairs, buildQuery_eq, parse_format (encodes_entries hP hparams), List.map_map]
  calc
    params.entries.map _ = params.entries.map id :=
      List.map_congr_left fun kv _ => by simp [charPair]
    _ = params.entries := List.map_id _

/-- A query text has no character that ends or starts a part of an address. -/
theorem notMem_buildQuery (hP : P.PercentEncodes) {params : OrderedMap String String}
    (hparams : IsByteMap params) {c : Char} (hc : unreserved c = false)
    (hne : c ≠ '%' ∧ c ≠ '=' ∧ c ≠ '&') : c ∉ (buildQuery P params).toList := by
  rw [buildQuery_eq]
  intro hmem
  rcases mem_format hmem with hamp | ⟨pair, hpair, hmem⟩
  · exact hne.2.2 hamp
  · obtain ⟨hkey, hvalue⟩ := encodes_entries hP hparams pair hpair
    exact notMem_piece hkey hvalue hc hne.1 hne.2.1 hmem

end

/-! ## The token -/

theorem isByteMap_empty : IsByteMap ∅ := by
  intro kv hkv
  cases hkv

theorem isByteMap_insert {params : OrderedMap String String} {key value : String}
    (hparams : IsByteMap params) (hkey : IsBytes key) (hvalue : IsBytes value) :
    IsByteMap (params.insert key value) := by
  exact OrderedMap.forall_entries_insert hparams ⟨hkey, hvalue⟩

theorem isByteMap_injectToken {token : String} {params : OrderedMap String String}
    (htoken : IsBytes token) (hparams : IsByteMap params) :
    IsByteMap (injectToken token params) := by
  have hname : IsBytes "api_token" := isBytes_of_all (by decide)
  unfold injectToken
  split
  · exact isByteMap_insert hparams hname htoken
  · exact hparams

/-! ## Addresses -/

theorem cStr_eq_self {s : String} (h : '\x00' ∉ s.toList) : cStr s = s := by
  rw [cStr, takeWhile_ne_eq_self h, String.ofList_toList]

theorem toList_appendQuery (url q : String) :
    (url ++ "?" ++ q).toList = url.toList ++ '?' :: q.toList := by
  simp

theorem notMem_appendQuery {url q : String} {c : Char} (hurl : c ∉ url.toList) (hc : c ≠ '?')
    (hq : c ∉ q.toList) : c ∉ (url ++ "?" ++ q).toList := by
  rw [toList_appendQuery, List.mem_append, List.mem_cons]
  rintro (hmem | hmem | hmem)
  · exact hurl hmem
  · exact hc hmem
  · exact hq hmem

/-- An address with a query of its own after the question mark. -/
theorem queryOf_append {url q : String} (hurl : EndsInPath url) (hq : '#' ∉ q.toList) :
    queryOf (url ++ "?" ++ q) = q := by
  have hfragment : '#' ∉ (url ++ "?" ++ q).toList :=
    notMem_appendQuery (fun hmem => (hurl _ hmem).2.1 rfl) (by decide) hq
  have hdrop : (url ++ "?" ++ q).toList.dropWhile (· ≠ '?') = '?' :: q.toList := by
    rw [toList_appendQuery,
      List.dropWhile_append_of_pos fun c hc => decide_eq_true (hurl c hc).1]
    rfl
  rw [queryOf, takeWhile_ne_eq_self hfragment, hdrop, List.drop_one, List.tail_cons,
    String.ofList_toList]

theorem queryOf_endsInPath {url : String} (hurl : EndsInPath url) : queryOf url = "" := by
  have hdrop : url.toList.dropWhile (· ≠ '?') = [] :=
    List.dropWhile_eq_nil_iff.mpr fun c hc => decide_eq_true (hurl c hc).1
  rw [queryOf, takeWhile_ne_eq_self fun hmem => (hurl _ hmem).2.1 rfl, hdrop]
  rfl

section
variable {P : Platform}

/-- The address of a GET request has the query text as its query and the given
address before it. -/
theorem queryOf_queryUrl (hP : P.PercentEncodes) {url : String} {params : OrderedMap String String}
    (hurl : EndsInPath url) (hparams : IsByteMap params) :
    queryOf (cStr (queryUrl P url params)) = buildQuery P params ∧
      (cStr (queryUrl P url params)).toList.takeWhile (· ≠ '?') = url.toList := by
  have hfragment : '#' ∉ (buildQuery P params).toList :=
    notMem_buildQuery hP hparams rfl (by decide)
  have hnul : '\x00' ∉ (buildQuery P params).toList :=
    notMem_buildQuery hP hparams rfl (by decide)
  have hquestion : '?' ∉ url.toList := fun hmem => (hurl _ hmem).1 rfl
  have hpath : '\x00' ∉ url.toList := fun hmem => (hurl _ hmem).2.2 rfl
  by_cases hempty : buildQuery P params = ""
  · have hsame : queryUrl P url params = url := if_pos hempty
    rw [hsame, cStr_eq_self hpath, queryOf_endsInPath hurl, hempty]
    exact ⟨rfl, takeWhile_ne_eq_self hquestion⟩
  · have hquery : queryUrl P url params = url ++ "?" ++ buildQuery P params := by
      simp only [queryUrl, if_neg hempty, if_neg hquestion]
    have hwhole : '\x00' ∉ (url ++ "?" ++ buildQuery P params).toList :=
      notMem_appendQuery hpath (by decide) hnul
    rw [hquery, cStr_eq_self hwhole]
    refine ⟨queryOf_append hurl hfragment, ?_⟩
    rw [toList_appendQuery,
      List.takeWhile_append_of_pos fun c hc => decide_eq_true (hurl c hc).1]
    exact List.append_nil _

/-- A GET request that is sent delivers the entries of its form. -/
theorem get_delivers (hP : P.PercentEncodes) {url : String} {params : OrderedMap String String}
    {env : AttemptEnv} (hurl : EndsInPath url) (hparams : IsByteMap params)
    (htoken : IsBytes env.apiToken) (hsent : (get P url params env).transfer ≠ none) :
    formPairs (queryOf (get P url params env).url) = (injectToken env.apiToken params).entries ∧
      (get P url params env).url.toList.takeWhile (· ≠ '?') = url.toList := by
  have hform := isByteMap_injectToken htoken hparams
  have haddress : (get P url params env).url =
      cStr (queryUrl P url (injectToken env.apiToken params)) := by
    unfold get at hsent ⊢
    dsimp only at hsent ⊢
    split at hsent
    · exact absurd rfl hsent
    · rename_i hinit
      rw [if_neg hinit]
  obtain ⟨hquery, hpath⟩ := queryOf_queryUrl hP hurl hform
  rw [haddress, hquery]
  exact ⟨formPairs_buildQuery hP hform, hpath⟩

/-- A body that is sent is the encoded form with the token. -/
theorem postForm_body {url : String} {fields : FormFields} {env : AttemptEnv}
    {body : RequestBody} (h : (postForm P url fields env).body = some body) :
    body = encodeBody P { fields with data := injectToken env.apiToken fields.data } := by
  rcases postForm_cases P url fields env with ⟨hnone, -, -⟩ | ⟨hsome, -, -⟩
  · rw [hnone] at h
    cases h
  · rw [hsome, postForm_fields] at h
    exact (Option.some.inj h).symm

/-- The urlencoded body of a form delivers its entries. -/
theorem postForm_delivers (hP : P.PercentEncodes) {url text : String} {fields : FormFields}
    {env : AttemptEnv} (hdata : IsByteMap fields.data) (htoken : IsBytes env.apiToken)
    (hbody : (postForm P url fields env).body = some (.urlencoded text)) :
    formPairs text = (injectToken env.apiToken fields.data).entries := by
  have htext : text = buildQuery P (injectToken env.apiToken fields.data) := by
    have hencoded := postForm_body hbody
    unfold encodeBody at hencoded
    dsimp only at hencoded
    split at hencoded
    · cases hencoded
    · exact RequestBody.urlencoded.inj hencoded
  rw [htext, formPairs_buildQuery hP (isByteMap_injectToken htoken hdata)]

end

/-- The urlencoded form decodes back to the parameters and the injected token, for
every map and every token; different maps have different texts. A GET request and a
form without a file deliver exactly these pairs. -/
theorem urlencodedForm_roundTrip (P : Platform) (hP : P.PercentEncodes) :
    (∀ (params : OrderedMap String String) (token : String), IsByteMap params → IsBytes token →
      formPairs (buildQuery P (injectToken token params)) = (injectToken token params).entries ∧
        ∀ key, (injectToken token params).find? key =
          (params.find? key).or
            (if key = "api_token" ∧ token ≠ "" then some token else none)) ∧
    (∀ params params' : OrderedMap String String, IsByteMap params → IsByteMap params' →
      buildQuery P params = buildQuery P params' → params = params') ∧
    (∀ (url : String) (params : OrderedMap String String) (env : AttemptEnv), EndsInPath url →
      IsByteMap params → IsBytes env.apiToken → (get P url params env).transfer ≠ none →
      formPairs (queryOf (get P url params env).url) = (injectToken env.apiToken params).entries ∧
        (get P url params env).url.toList.takeWhile (· ≠ '?') = url.toList) ∧
    ∀ (url text : String) (fields : FormFields) (env : AttemptEnv), IsByteMap fields.data →
      IsBytes env.apiToken → (postForm P url fields env).body = some (.urlencoded text) →
      formPairs text = (injectToken env.apiToken fields.data).entries := by
  refine ⟨?_, ?_, ?_, ?_⟩
  · intro params token hparams htoken
    exact ⟨formPairs_buildQuery hP (isByteMap_injectToken htoken hparams),
      find?_injectToken token params⟩
  · intro params params' hparams hparams' heq
    apply OrderedMap.entries_injective
    rw [← formPairs_buildQuery hP hparams, ← formPairs_buildQuery hP hparams', heq]
  · intro url params env hurl hparams htoken hsent
    exact get_delivers hP hurl hparams htoken hsent
  · intro url text fields env hdata htoken hbody
    exact postForm_delivers hP hdata htoken hbody

/-- A platform whose escape function writes upper-case digits. -/
def escapingPlatform : Platform :=
  { Platform.ofTable [] with curlEscape := fun s => some (String.ofList (encode s.toList)) }

theorem escapingPlatform_percentEncodes : escapingPlatform.PercentEncodes := by
  intro s hs
  refine ⟨_, rfl, ?_⟩
  rw [String.toList_ofList]
  exact encodes_encode hs

/-- A longpoll request with an empty key and a value of reserved bytes. -/
theorem urlencodedForm_roundTrip_reserved :
    let params : OrderedMap String String :=
      (OrderedMap.empty.insert "" "").insert "&=" "%+?# \x00\xff"
    let env : AttemptEnv := {
      apiToken := "token"
      transfer := ⟨⟨0, 200, []⟩, [], .ok, "\x7b\x7d"⟩ }
    formPairs (queryOf (get escapingPlatform "https://api.audd.io/longpoll/" params env).url) =
      (injectToken "token" params).entries := by
  intro params env
  have hbytes : IsByteMap params := by
    apply isByteMap_insert (isByteMap_insert isByteMap_empty _ _)
    all_goals exact isBytes_of_all (by decide)
  have htoken : IsBytes env.apiToken := isBytes_of_all (by decide)
  have hurl : EndsInPath "https://api.audd.io/longpoll/" := forall_of_all (by decide)
  exact ((urlencodedForm_roundTrip escapingPlatform escapingPlatform_percentEncodes).2.2.1
    "https://api.audd.io/longpoll/" params env hurl hbytes htoken (by intro h; cases h)).1

end Audd
