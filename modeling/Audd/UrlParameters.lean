import Audd.Endpoints
import Audd.Lib.Uri
import Audd.StreamingLinks

/-!
# Parameters added to a URL

The redirect of a song link and the `return` parameter of a callback URL are appended
at the end of the text, behind a separator chosen by its first question mark. A second
`return` is refused by looking the key up in the query.
-/

namespace Audd

open Trim Uri

/-- The pairs of a URL's query: the pieces between ampersands after its first question
mark, each cut at its first equals sign. -/
def queryPairs (url : String) : List (String × Option String) :=
  (pairs url.toList).map fun p => (String.ofList p.1, p.2.map String.ofList)

/-- The text before the first question mark. -/
def beforeQuery (url : String) : String := String.ofList (url.toList.takeWhile (· ≠ '?'))

/-! ## The texts that are built -/

theorem joinCsv_eq (l : List String) : joinCsv l = ",".intercalate l := by
  induction l with
  | nil => exact String.intercalate_nil.symm
  | cons s rest ih =>
      cases rest with
      | nil => exact String.intercalate_singleton.symm
      | cons t rest =>
          change s ++ "," ++ joinCsv (t :: rest) = _
          rw [ih, String.intercalate_cons_of_ne_nil (List.cons_ne_nil _ _)]

/-- Values without a character are joined to a text without it. -/
theorem notMem_joinCsv {c : Char} (hc : c ≠ ',') {l : List String}
    (h : ∀ s ∈ l, c ∉ s.toList) : c ∉ (joinCsv l).toList := by
  induction l with
  | nil => exact List.not_mem_nil
  | cons s rest ih =>
      have hs := h s List.mem_cons_self
      cases rest with
      | nil => exact hs
      | cons t rest =>
          have hrest := ih fun u hu => h u (List.mem_cons_of_mem _ hu)
          change c ∉ (s ++ "," ++ joinCsv (t :: rest)).toList
          simp [hs, hc, hrest]

theorem toList_separated (text parameter : String) :
    (text ++ (if '?' ∈ text.toList then "&" else "?") ++ parameter).toList =
      addParameter text.toList parameter.toList := by
  rw [addParameter]
  split <;> simp

/-- What `add_return_to_url` builds when it does not throw. -/
theorem addReturnToUrl_ok {url r : String} {values : List String} (hne : values ≠ [])
    (h : addReturnToUrl url values = .ok r) :
    urlQueryHasKey url "return" = false ∧
      r.toList = addParameter url.toList ("return=".toList ++ (joinCsv values).toList) := by
  rw [addReturnToUrl, if_neg hne] at h
  split at h
  · cases h
  · rename_i hkey
    obtain rfl := Except.ok.inj h
    refine ⟨Bool.eq_false_iff.mpr hkey, ?_⟩
    rw [String.append_assoc, toList_separated, String.toList_append]

/-! ## The guard -/

/-- The scan over the query finds a key exactly when a piece has it. -/
theorem queryHasKey_iff (key query : List Char) :
    queryHasKey key query = true ↔ ∃ p ∈ (query.splitOn '&').map pair, p.1 = key := by
  fun_induction queryHasKey key query with
  | case1 query hkey =>
      rw [splitOn_eq, List.map_cons]
      exact ⟨fun _ => ⟨_, List.mem_cons_self, hkey⟩, fun _ => rfl⟩
  | case2 query hkey hlast =>
      rw [splitOn_eq, if_pos hlast]
      simpa [pair] using hkey
  | case3 query hkey hnext ih =>
      rw [ih, splitOn_eq query, if_neg hnext, List.map_cons]
      simp only [List.exists_mem_cons_iff]
      exact (or_iff_right hkey).symm

theorem urlQueryHasKey_iff (url key : String) :
    urlQueryHasKey url key = true ↔ key ∈ (queryPairs url).map Prod.fst := by
  have hkeys : key ∈ (queryPairs url).map Prod.fst ↔
      ∃ p ∈ pairs url.toList, p.1 = key.toList := by
    rw [queryPairs, List.map_map, List.mem_map]
    constructor
    · rintro ⟨p, hp, rfl⟩
      exact ⟨p, hp, String.toList_ofList.symm⟩
    · rintro ⟨p, hp, hkey⟩
      exact ⟨p, hp, by rw [Function.comp_apply, hkey, String.ofList_toList]⟩
  rw [hkeys, urlQueryHasKey, pairs]
  cases url.toList.dropWhile (· ≠ '?') with
  | nil => simp
  | cons c query => exact queryHasKey_iff _ _

/-! ## The `return` parameter -/

/-- The pairs after `add_return_to_url` are the old ones and the new one, behind the same
text. -/
theorem queryPairs_addReturnToUrl {url r : String} {values : List String} (hne : values ≠ [])
    (hvalues : ∀ v ∈ values, '&' ∉ v.toList) (h : addReturnToUrl url values = .ok r) :
    beforeQuery r = beforeQuery url ∧
      queryPairs r = queryPairs url ++ [("return", some (",".intercalate values))] := by
  obtain ⟨-, htext⟩ := addReturnToUrl_ok hne h
  constructor
  · rw [beforeQuery, htext, takeWhile_addParameter, beforeQuery]
  · have hamp : '&' ∉ "return=".toList ++ (joinCsv values).toList := by
      rw [List.mem_append]
      rintro (hmem | hmem)
      · exact absurd hmem (by decide)
      · exact notMem_joinCsv (by decide) hvalues hmem
    have hpair : pair ("return=".toList ++ (joinCsv values).toList) =
        ("return".toList, some (joinCsv values).toList) := by
      have hkey : '=' ∉ "return".toList := by decide
      exact pair_key_value hkey
    rw [queryPairs, htext, pairs_addParameter _ hamp, hpair, List.map_append, ← joinCsv_eq]
    simp [queryPairs]

theorem addReturnToUrl_throws_iff {url : String} {values : List String} (hne : values ≠ []) :
    (∃ e, addReturnToUrl url values = .error e) ↔
      "return" ∈ (queryPairs url).map Prod.fst := by
  rw [← urlQueryHasKey_iff, addReturnToUrl, if_neg hne]
  split
  · rename_i hhas
    exact ⟨fun _ => hhas, fun _ => ⟨_, rfl⟩⟩
  · rename_i hhas
    constructor
    · rintro ⟨e, he⟩
      cases he
    · exact fun h => absurd h hhas

/-- The scan of `url_query_has_key` finds exactly the keys of the query. A callback URL
with a `return` key is refused; otherwise the parameter is added behind the pairs that are
there, so it occurs once and a second one is refused. -/
theorem returnParameter_guarded :
    (∀ url key, urlQueryHasKey url key = true ↔ key ∈ (queryPairs url).map Prod.fst) ∧
    (∀ url, addReturnToUrl url [] = .ok url) ∧
    ∀ url values, values ≠ [] → (∀ v ∈ values, '&' ∉ v.toList) →
      ((∃ e, addReturnToUrl url values = .error e) ↔ "return" ∈ (queryPairs url).map Prod.fst) ∧
      ∀ r, addReturnToUrl url values = .ok r →
        beforeQuery r = beforeQuery url ∧
        queryPairs r = queryPairs url ++ [("return", some (",".intercalate values))] ∧
        ((queryPairs r).map Prod.fst).count "return" = 1 ∧
        ∀ values', values' ≠ [] → ∃ e, addReturnToUrl r values' = .error e := by
  refine ⟨urlQueryHasKey_iff, fun _ => rfl, ?_⟩
  · intro url values hne hvalues
    refine ⟨addReturnToUrl_throws_iff hne, fun r hr => ?_⟩
    obtain ⟨hbefore, hpairs⟩ := queryPairs_addReturnToUrl hne hvalues hr
    have hfresh : "return" ∉ (queryPairs url).map Prod.fst := by
      intro hmem
      obtain ⟨e, he⟩ := (addReturnToUrl_throws_iff hne).mpr hmem
      rw [he] at hr
      cases hr
    have hkeys : (queryPairs r).map Prod.fst = (queryPairs url).map Prod.fst ++ ["return"] := by
      rw [hpairs, List.map_append]
      rfl
    refine ⟨hbefore, hpairs, ?_, fun values' hne' => ?_⟩
    · rw [hkeys, List.count_append, List.count_eq_zero.mpr hfresh]
      rfl
    · apply (addReturnToUrl_throws_iff hne').mpr
      rw [hkeys]
      exact List.mem_append_right _ List.mem_cons_self

/-! ## Where a parameter ends up -/

/-- A name or value that can stand in a query. -/
def IsParameter (text : String) : Prop := '&' ∉ text.toList ∧ '#' ∉ text.toList

theorem isParameter_provider (provider : StreamingProvider) :
    IsParameter (streamingProviderName provider) := by
  cases provider <;> exact ⟨by decide, by decide⟩

/-- The URL with the text `r` is that of `U` with one more parameter in its query. -/
def AppendsTo (U : Url) (r parameter : String) : Prop :=
  ∃ V : Url, V.text = r.toList ∧ U.HasAdded V parameter.toList

/-- What both functions should do with a URL. A link is given exactly for the authority
lis.tn. A link, and a callback URL that is not refused, is the URL with one more parameter
in its query. -/
def AppendsParameters (U : Url) : Prop :=
  (∀ qparam, IsParameter qparam →
    (lisTnStreamingUrl (String.ofList U.text) qparam ≠ "" ↔ U.authority = "lis.tn".toList) ∧
    (U.authority = "lis.tn".toList →
      AppendsTo U (lisTnStreamingUrl (String.ofList U.text) qparam) qparam)) ∧
  ∀ values r, values ≠ [] → (∀ v ∈ values, IsParameter v) →
    addReturnToUrl (String.ofList U.text) values = .ok r →
    AppendsTo U r ("return=" ++ ",".intercalate values)

theorem afterSlashes_append {before after : List Char} (h : '/' ∉ before) :
    afterSlashes (before ++ '/' :: '/' :: after) = some after := by
  induction before with
  | nil => rfl
  | cons c rest ih =>
      have hc : c ≠ '/' := fun heq => h (heq ▸ List.mem_cons_self)
      rw [List.cons_append, afterSlashes]
      · exact ih fun hmem => h (List.mem_cons_of_mem _ hmem)
      · intro tail heq
        exact absurd heq hc

theorem afterSlashes_text (U : Url) : afterSlashes U.text = some U.afterScheme := by
  have hsplit : U.text = (U.scheme ++ [':']) ++ '/' :: '/' :: U.afterScheme := by
    rw [Url.text, List.append_assoc]
    rfl
  rw [hsplit]
  apply afterSlashes_append
  rw [List.mem_append]
  rintro (hmem | hmem)
  · exact (U.scheme_free _ hmem).2.1 rfl
  · exact absurd (List.mem_singleton.mp hmem) (by decide)

/-- The host that the code cuts out of a URL is its authority. -/
theorem takeWhile_afterScheme (U : Url) :
    U.afterScheme.takeWhile (fun c => c ≠ '/' ∧ c ≠ '?' ∧ c ≠ '#') = U.authority := by
  have hrest : (U.path ++ U.afterPath).takeWhile (fun c => c ≠ '/' ∧ c ≠ '?' ∧ c ≠ '#') = [] := by
    have hhead := U.head?_afterAuthority
    cases hafter : U.path ++ U.afterPath with
    | nil => rfl
    | cons c rest =>
        rw [hafter] at hhead
        apply List.takeWhile_cons_of_neg
        rcases hhead c rfl with rfl | rfl | rfl <;> decide
  rw [Url.afterScheme, List.takeWhile_append_of_pos, hrest, List.append_nil]
  exact fun c hc => decide_eq_true (U.authority_free c hc)

theorem lisTnStreamingUrl_text (U : Url) (qparam : String) :
    (lisTnStreamingUrl (String.ofList U.text) qparam).toList =
      if U.authority = "lis.tn".toList then addParameter U.text qparam.toList else [] := by
  have hne : String.ofList U.text ≠ "" := by
    intro h
    have hnil := congrArg String.toList h
    rw [String.toList_ofList, Url.text] at hnil
    exact absurd (List.append_eq_nil_iff.mp hnil).2 (List.cons_ne_nil _ _)
  rw [lisTnStreamingUrl, if_neg hne, String.toList_ofList, afterSlashes_text]
  simp only [takeWhile_afterScheme]
  by_cases hhost : U.authority = "lis.tn".toList
  · rw [if_neg (not_not.mpr hhost), if_pos hhost]
    have happend := toList_separated (String.ofList U.text) qparam
    rwa [String.toList_ofList] at happend
  · rw [if_pos hhost, if_neg hhost]
    rfl

theorem appendsTo_iff {U : Url} {r parameter : String} (hfree : '#' ∉ parameter.toList)
    (hr : r.toList = addParameter U.text parameter.toList) :
    AppendsTo U r parameter ↔ U.fragment = none := by
  rw [AppendsTo, hr]
  exact Url.hasAdded_iff hfree

theorem toList_returnParameter (values : List String) :
    ("return=" ++ ",".intercalate values).toList =
      "return=".toList ++ (joinCsv values).toList := by
  rw [String.toList_append, joinCsv_eq]

/-- A link is given exactly for the authority lis.tn. -/
theorem lisTnStreamingUrl_ne_empty_iff (U : Url) (qparam : String) :
    lisTnStreamingUrl (String.ofList U.text) qparam ≠ "" ↔ U.authority = "lis.tn".toList := by
  rw [← String.toList_inj.ne, lisTnStreamingUrl_text]
  by_cases hhost : U.authority = "lis.tn".toList
  · rw [if_pos hhost]
    refine ⟨fun _ => hhost, fun _ h => ?_⟩
    exact absurd (List.append_eq_nil_iff.mp h).2 (List.cons_ne_nil _ _)
  · rw [if_neg hhost]
    exact ⟨fun h => absurd rfl h, fun h => absurd h hhost⟩

theorem appendsTo_lisTnStreamingUrl_iff {U : Url} {qparam : String}
    (hhost : U.authority = "lis.tn".toList) (hfree : '#' ∉ qparam.toList) :
    AppendsTo U (lisTnStreamingUrl (String.ofList U.text) qparam) qparam ↔ U.fragment = none := by
  apply appendsTo_iff hfree
  rw [lisTnStreamingUrl_text, if_pos hhost]

theorem appendsTo_addReturnToUrl_iff {U : Url} {values : List String} {r : String}
    (hne : values ≠ []) (hfree : ∀ v ∈ values, '#' ∉ v.toList)
    (hr : addReturnToUrl (String.ofList U.text) values = .ok r) :
    AppendsTo U r ("return=" ++ ",".intercalate values) ↔ U.fragment = none := by
  apply appendsTo_iff
  · rw [toList_returnParameter, List.mem_append]
    rintro (hmem | hmem)
    · exact absurd hmem (by decide)
    · exact notMem_joinCsv (by decide) hfree hmem
  · rw [(addReturnToUrl_ok hne hr).2, toList_returnParameter, String.toList_ofList]

/-- A URL without a fragment gets its parameters in the query. So does, for want of a
parameter, a URL of another host whose text already has a `return` key. -/
theorem appendsParameters_iff (U : Url) :
    AppendsParameters U ↔ U.fragment = none ∨
      (U.authority ≠ "lis.tn".toList ∧
        urlQueryHasKey (String.ofList U.text) "return" = true) := by
  constructor
  · rintro ⟨hlis, hreturn⟩
    by_cases hfragment : U.fragment = none
    · exact .inl hfragment
    · refine .inr ⟨fun hhost => hfragment ?_, ?_⟩
      · have hthumb : IsParameter "thumb" := ⟨by decide, by decide⟩
        exact (appendsTo_lisTnStreamingUrl_iff hhost hthumb.2).mp ((hlis "thumb" hthumb).2 hhost)
      · by_contra hkey
        have hvalue : ∀ v ∈ ["a"], IsParameter v := by
          intro v hv
          rw [List.mem_singleton.mp hv]
          exact ⟨by decide, by decide⟩
        have hne : ["a"] ≠ [] := List.cons_ne_nil _ _
        have hok : ∃ r, addReturnToUrl (String.ofList U.text) ["a"] = .ok r := by
          rw [addReturnToUrl, if_neg hne, if_neg hkey]
          exact ⟨_, rfl⟩
        obtain ⟨r, hr⟩ := hok
        have happends := hreturn ["a"] r hne hvalue hr
        exact hfragment ((appendsTo_addReturnToUrl_iff hne (fun v hv => (hvalue v hv).2) hr).mp
          happends)
  · intro hcase
    refine ⟨fun qparam hqparam => ⟨lisTnStreamingUrl_ne_empty_iff U qparam, fun hhost => ?_⟩, ?_⟩
    · have hfragment := hcase.resolve_right fun h => h.1 hhost
      exact (appendsTo_lisTnStreamingUrl_iff hhost hqparam.2).mpr hfragment
    · intro values r hne hvalues hr
      have hfragment := hcase.resolve_right fun h => by
        have hkey := (addReturnToUrl_ok hne hr).1
        rw [h.2] at hkey
        cases hkey
      exact (appendsTo_addReturnToUrl_iff hne (fun v hv => (hvalues v hv).2) hr).mpr hfragment

/-- A link with a fragment: the parameter ends up in the fragment. -/
theorem thumb_in_fragment :
    ∃ U : Url, U.text = "https://lis.tn/a#b".toList ∧ U.fragment = some ['b'] ∧
      lisTnStreamingUrl "https://lis.tn/a#b" "thumb" = "https://lis.tn/a#b?thumb" ∧
      ¬AppendsParameters U := by
  let U : Url := {
    scheme := "https".toList
    authority := "lis.tn".toList
    path := "/a".toList
    query := none
    fragment := some ['b']
    scheme_free := forall_of_all (by decide)
    authority_free := forall_of_all (by decide)
    path_free := forall_of_all (by decide)
    path_rooted := by
      rintro c ⟨⟩
      rfl
    query_free := by rintro q ⟨⟩ }
  have hlink : lisTnStreamingUrl "https://lis.tn/a#b" "thumb" = "https://lis.tn/a#b?thumb" := by
    decide +kernel
  refine ⟨U, by decide, rfl, hlink, fun h => ?_⟩
  have hthumb : IsParameter "thumb" := ⟨by decide, by decide⟩
  have happends := (h.1 "thumb" hthumb).2 rfl
  cases (appendsTo_lisTnStreamingUrl_iff rfl hthumb.2).mp happends

end Audd
