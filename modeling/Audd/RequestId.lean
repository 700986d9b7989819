import Audd.HttpClient
import Audd.Lib.Trim

/-!
# The request id of a response

The header callback runs for the lines of every response of a transfer, while the id is
to be that of the final one. A line that carries an id replaces the id before it.
-/

namespace Audd

open Decimal Trim

/-- What the callback removes in front of a value. -/
def isTabOrSpace (c : Char) : Bool := c = ' ' || c = '\t'

/-- Spaces, tabs and line ends. -/
def isBlank (c : Char) : Bool := c = ' ' || c = '\t' || c = '\r' || c = '\n'

/-- The name and the value of a header line. -/
def headerField (line : String) : Option (List Char × List Char) :=
  if ':' ∈ line.toList then
    some (line.toList.takeWhile (· ≠ ':'), (line.toList.dropWhile (· ≠ ':')).tail)
  else none

/-- The value of an `X-Request-Id` line as it stands after the colon. -/
def requestIdField (line : String) : Option (List Char) :=
  match headerField line with
  | some (name, value) =>
      if name.map toLowerAscii = "x-request-id".toList ∧ trim isBlank isBlank value ≠ [] then
        some value
      else none
  | none => none

/-- The id in a header line, without the spaces, tabs and line ends around it. -/
def requestIdOf (line : String) : Option String :=
  (requestIdField line).map fun value => String.ofList (trim isBlank isBlank value)

/-- What the callback stores for a header line. -/
def capturedId (line : String) : Option String :=
  (requestIdField line).map fun value => String.ofList (trim isTabOrSpace isBlank value)

namespace Transfer

/-- The responses before the final one. -/
def earlierHops (t : Transfer) : List Hop := t.hops.dropLast

def finalHop (t : Transfer) : Hop := t.hops.getLast (List.cons_ne_nil _ _)

/-- The id of the final response: that of its last line with one, else empty. -/
def finalRequestId (t : Transfer) : String :=
  (t.finalHop.headerLines.reverse.findSome? requestIdOf).getD ""

/-- If the final response has a line with an id, no line end follows the spaces and tabs
after the colon of its last one. Otherwise no earlier response has such a line. -/
def KeepsFinalId (t : Transfer) : Prop :=
  match t.finalHop.headerLines.reverse.findSome? requestIdField with
  | some value => ∀ c ∈ (value.dropWhile isTabOrSpace).head?, c ≠ '\r' ∧ c ≠ '\n'
  | none => ∀ hop ∈ t.earlierHops, ∀ line ∈ hop.headerLines, requestIdField line = none

end Transfer

/-! ## One header line -/

theorem toLowerAscii_eq_colon {c : Char} (h : toLowerAscii c = ':') : c = ':' := by
  rw [toLowerAscii] at h
  split at h
  · rename_i hupper
    have hlow : 65 ≤ c.toNat := hupper.1
    have hhigh : c.toNat ≤ 90 := hupper.2
    have hvalid : (c.toNat + 32).isValidChar := Or.inl (by omega)
    have hnat := congrArg Char.toNat h
    rw [Char.ofNat, dif_pos hvalid] at hnat
    change c.toNat + 32 = 58 at hnat
    omega
  · exact h

/-- The prefix that the callback compares is the name of the line. -/
theorem headerField_iff (line : String) (value : List Char) :
    (∃ name, headerField line = some (name, value) ∧
      name.map toLowerAscii = "x-request-id".toList) ↔
    (line.toList.take 13).map toLowerAscii = "x-request-id:".toList ∧
      value = line.toList.drop 13 := by
  constructor
  · rintro ⟨name, hfield, hname⟩
    rw [headerField] at hfield
    split at hfield
    · rename_i hcolon
      obtain ⟨before, after, hline, hbefore⟩ := List.eq_append_cons_of_mem hcolon
      rw [hline, takeWhile_ne_append hbefore, dropWhile_ne_append hbefore] at hfield
      obtain ⟨rfl, rfl⟩ := Prod.mk.inj (Option.some.inj hfield)
      have hlength : before.length = 12 := by simpa using congrArg List.length hname
      rw [hline, List.append_cons]
      constructor
      · rw [List.take_left' (by simp [hlength]), List.map_append, hname]
        decide
      · rw [List.drop_left' (by simp [hlength]), List.tail_cons]
    · cases hfield
  · rintro ⟨hstart, rfl⟩
    -- The name is the prefix without its last character.
    have hmap : (line.toList.take 13).map toLowerAscii = "x-request-id".toList ++ [':'] := hstart
    obtain ⟨name, colon, htake, hname, hcolon⟩ := List.map_eq_append_iff.mp hmap
    obtain ⟨c, rfl, hc⟩ := List.map_eq_singleton_iff.mp hcolon
    obtain rfl := toLowerAscii_eq_colon hc
    have hfree : ':' ∉ name := by
      intro hmem
      have hlower := List.mem_map_of_mem (f := toLowerAscii) hmem
      rw [hname] at hlower
      exact absurd hlower (by decide)
    have hline : line.toList = name ++ ':' :: line.toList.drop 13 := by
      conv_lhs => rw [← List.take_append_drop 13 line.toList, htake]
      rw [List.append_assoc, List.singleton_append]
    refine ⟨name, ?_, hname⟩
    rw [headerField, if_pos (by rw [hline]; simp)]
    conv_lhs => rw [hline]
    rw [takeWhile_ne_append hfree, dropWhile_ne_append hfree, List.tail_cons]

/-- The value that the callback looks at is that of a line with the name. -/
theorem requestIdField_eq (line : String) :
    requestIdField line =
      if (line.toList.take 13).map toLowerAscii = "x-request-id:".toList ∧
          trim isBlank isBlank (line.toList.drop 13) ≠ [] then
        some (line.toList.drop 13)
      else none := by
  by_cases hstart : (line.toList.take 13).map toLowerAscii = "x-request-id:".toList
  · obtain ⟨name, hfield, hname⟩ := (headerField_iff line _).mpr ⟨hstart, rfl⟩
    rw [requestIdField, hfield]
    simp only [hname, hstart, true_and]
  · rw [if_neg fun h => hstart h.1, requestIdField]
    split
    · rename_i name value hfield
      refine if_neg fun h => hstart ?_
      exact ((headerField_iff line value).mp ⟨name, hfield, h.1⟩).1
    · rfl

theorem isBlank_of_isTabOrSpace {c : Char} (h : isTabOrSpace c = true) : isBlank c = true := by
  simp only [isTabOrSpace, isBlank, Bool.or_eq_true] at h ⊢
  exact .inl (.inl h)

theorem trim_isBlank_eq_nil_iff (value : List Char) :
    trim isBlank isBlank value = [] ↔ trim isTabOrSpace isBlank value = [] :=
  (trim_eq_nil_iff fun _ h => h).trans (trim_eq_nil_iff fun _ => isBlank_of_isTabOrSpace).symm

/-- The callback stores the trimmed value of a line with an id. -/
theorem captureRequestId_eq (out line : String) :
    captureRequestId out line = (capturedId line).getD out := by
  have hhead : (fun c => decide (c ≠ ' ' ∧ c ≠ '\t')) = fun c => !isTabOrSpace c := by
    funext c
    simp [isTabOrSpace]
  have hlast : (fun c => decide (c ≠ ' ' ∧ c ≠ '\t' ∧ c ≠ '\r' ∧ c ≠ '\n')) =
      fun c => !isBlank c := by
    funext c
    simp [isBlank, Bool.and_assoc]
  rw [captureRequestId, capturedId, hhead, hlast]
  dsimp only
  by_cases hid : (line.toList.take 13).map toLowerAscii = "x-request-id:".toList ∧
      trim isBlank isBlank (line.toList.drop 13) ≠ []
  · have hfield : requestIdField line = some (line.toList.drop 13) := by
      rw [requestIdField_eq, if_pos hid]
    obtain ⟨hstart, hblank⟩ := hid
    rw [hfield, Option.map_some, Option.getD_some]
    rw [ne_eq, trim_isBlank_eq_nil_iff] at hblank
    obtain ⟨b, e, hb, he, hle, htrim⟩ := exists_findIdx?_of_trim_ne_nil hblank
    have hlong : 13 < line.toList.length := by
      by_contra hshort
      rw [List.drop_of_length_le (by omega)] at hblank
      exact hblank rfl
    rw [if_pos ⟨hlong, hstart⟩, hb, he]
    dsimp only
    rw [if_pos hle, htrim]
  · have hfield : requestIdField line = none := by rw [requestIdField_eq, if_neg hid]
    rw [hfield, Option.map_none, Option.getD_none]
    split
    · rename_i hstart
      have hblank := not_not.mp (not_and.mp hid hstart.2)
      rw [trim_isBlank_eq_nil_iff] at hblank
      rw [reverse_findIdx?_of_trim_eq_nil (fun _ => isBlank_of_isTabOrSpace) hblank]
      cases List.findIdx? (fun c => !isTabOrSpace c) (line.toList.drop 13) <;> rfl
    · rfl

/-! ## A whole transfer -/

/-- After any header lines the callback holds the id of the last line with one. -/
theorem foldl_captureRequestId (lines : List String) (out : String) :
    lines.foldl captureRequestId out = (lines.reverse.findSome? capturedId).getD out := by
  induction lines generalizing out with
  | nil => rfl
  | cons line rest ih =>
      rw [List.foldl_cons, ih, captureRequestId_eq, List.reverse_cons, List.findSome?_append,
        Option.getD_or]
      congr 1
      cases hid : capturedId line <;> simp [hid]

theorem Transfer.requestId_eq (t : Transfer) :
    t.requestId =
      ((t.finalHop.headerLines.reverse.findSome? capturedId).or
        ((t.earlierHops.flatMap Hop.headerLines).reverse.findSome? capturedId)).getD "" := by
  have hhops : t.hops = t.earlierHops ++ [t.finalHop] :=
    (List.dropLast_append_getLast (List.cons_ne_nil _ _)).symm
  rw [Transfer.requestId, foldl_captureRequestId, hhops, List.flatMap_append,
    List.reverse_append, List.findSome?_append, List.flatMap_singleton]

theorem findSome?_requestIdOf (lines : List String) :
    lines.findSome? requestIdOf =
      (lines.findSome? requestIdField).map fun v => String.ofList (trim isBlank isBlank v) :=
  List.map_findSome?.symm

theorem findSome?_capturedId (lines : List String) :
    lines.findSome? capturedId =
      (lines.findSome? requestIdField).map fun v => String.ofList (trim isTabOrSpace isBlank v) :=
  List.map_findSome?.symm

theorem trim_ne_nil_of_requestIdField {line : String} {value : List Char}
    (h : requestIdField line = some value) : trim isTabOrSpace isBlank value ≠ [] := by
  rw [requestIdField_eq] at h
  split at h
  · rename_i hid
    obtain rfl := Option.some.inj h
    exact mt (trim_isBlank_eq_nil_iff _).mpr hid.2
  · cases h

theorem isBlank_eq_false_iff {c : Char} (h : isTabOrSpace c = false) :
    isBlank c = false ↔ c ≠ '\r' ∧ c ≠ '\n' := by
  simp only [isTabOrSpace, Bool.or_eq_false_iff] at h
  simp [isBlank, h]

/-- The stored id is that of the final response exactly when the earlier responses and
the line ends in front of a value do not matter. -/
theorem Transfer.requestId_eq_final_iff (t : Transfer) :
    t.requestId = t.finalRequestId ↔ t.KeepsFinalId := by
  rw [requestId_eq, finalRequestId, KeepsFinalId, findSome?_requestIdOf, findSome?_capturedId]
  cases hfinal : t.finalHop.headerLines.reverse.findSome? requestIdField with
  | some value =>
      obtain ⟨line, -, hline⟩ := List.exists_of_findSome?_eq_some hfinal
      have hne := trim_ne_nil_of_requestIdField hline
      rw [Option.map_some, Option.some_or, Option.map_some, Option.getD_some, Option.getD_some,
        String.ofList_inj, trim_eq_trim_iff (fun _ => isBlank_of_isTabOrSpace) hne]
      exact forall₂_congr fun c hc =>
        isBlank_eq_false_iff (eq_false_of_mem_head?_dropWhile hc)
  | none =>
      rw [Option.map_none, Option.none_or, Option.map_none, Option.getD_none,
        findSome?_capturedId]
      have hnone : (t.earlierHops.flatMap Hop.headerLines).reverse.findSome? requestIdField = none ↔
          ∀ hop ∈ t.earlierHops, ∀ line ∈ hop.headerLines, requestIdField line = none := by
        rw [List.findSome?_eq_none_iff]
        simp only [List.mem_reverse, List.mem_flatMap]
        exact ⟨fun h hop hhop line hline => h line ⟨hop, hhop, hline⟩,
          fun h line ⟨hop, hhop, hline⟩ => h hop hhop line hline⟩
      dsimp only
      rw [← hnone]
      cases hearlier : (t.earlierHops.flatMap Hop.headerLines).reverse.findSome? requestIdField with
      | none => simp
      | some value =>
          obtain ⟨line, -, hline⟩ := List.exists_of_findSome?_eq_some hearlier
          have hne := trim_ne_nil_of_requestIdField hline
          simpa using hne

theorem transferResult_requestId {P : Platform} {t : Transfer} {resp : HttpResponse}
    (h : transferResult P t = .ok resp) : resp.requestId = t.requestId := by
  rw [transferResult] at h
  split at h
  · rw [← Except.ok.inj h]
  · cases h

theorem postForm_requestId {P : Platform} {url : String} {fields : FormFields}
    {env : AttemptEnv} {resp : HttpResponse} (h : (postForm P url fields env).result = .ok resp) :
    resp.requestId = env.transfer.requestId := by
  rcases postForm_cases P url fields env with ⟨-, -, msg, hresult⟩ | ⟨-, -, hresult⟩
  · rw [hresult] at h
    cases h
  · exact transferResult_requestId (hresult ▸ h)

theorem get_requestId {P : Platform} {url : String} {params : OrderedMap String String}
    {env : AttemptEnv} {resp : HttpResponse} (h : (get P url params env).result = .ok resp) :
    resp.requestId = env.transfer.requestId := by
  rw [get] at h
  split at h
  · cases h
  · exact transferResult_requestId h

/-- A response carries the id of the final response of its transfer exactly when that
response has an id with no line end in front, or no response before it has one. -/
theorem requestId_final_iff (P : Platform) (env : AttemptEnv) (url : String) :
    (∀ fields resp, (postForm P url fields env).result = .ok resp →
      (resp.requestId = env.transfer.finalRequestId ↔ env.transfer.KeepsFinalId)) ∧
    ∀ params resp, (get P url params env).result = .ok resp →
      (resp.requestId = env.transfer.finalRequestId ↔ env.transfer.KeepsFinalId) := by
  constructor
  · intro fields resp hresp
    rw [postForm_requestId hresp]
    exact env.transfer.requestId_eq_final_iff
  · intro params resp hresp
    rw [get_requestId hresp]
    exact env.transfer.requestId_eq_final_iff

/-- A redirect with an id leads to a response with its own: both requests report that one,
with nothing of the redirect and without the blanks around it. -/
theorem requestId_final_iff_kept :
    let P := Platform.ofTable []
    let t : Transfer := {
      first := {
        sent := 0
        status := 302
        headerLines := ["HTTP/1.1 302 Found\x0d\n", "X-Request-Id: old\x0d\n", "\x0d\n"] }
      redirects := [{
        sent := 0
        status := 200
        headerLines := ["HTTP/1.1 200 OK\x0d\n", "x-request-id:\t new \x0d\n", "\x0d\n"] }]
      code := .ok
      body := "" }
    let env : AttemptEnv := { apiToken := "", transfer := t }
    t.finalRequestId = "new" ∧
      (∃ resp, (postForm P "https://api.audd.io/" {} env).result = .ok resp ∧
        resp.requestId = t.finalRequestId) ∧
      ∃ resp, (get P "https://api.audd.io/" ∅ env).result = .ok resp ∧
        resp.requestId = t.finalRequestId := by
  intro P t env
  have hline : t.finalHop.headerLines.reverse.findSome? requestIdField =
      some "\t new \x0d\n".toList := by decide
  have hhead : ("\t new \x0d\n".toList.dropWhile isTabOrSpace).head? = some 'n' := by decide
  have hkept : t.KeepsFinalId := by
    rw [Transfer.KeepsFinalId, hline]
    intro c hc
    obtain rfl := Option.some.inj (hhead.symm.trans hc)
    exact ⟨by decide, by decide⟩
  obtain ⟨hpost, hget⟩ := requestId_final_iff P env "https://api.audd.io/"
  refine ⟨by decide, ⟨_, rfl, ?_⟩, _, rfl, ?_⟩
  · exact (hpost {} _ rfl).mpr hkept
  · exact (hget ∅ _ rfl).mpr hkept

/-- A redirect with an id leads to a response without one: the id of the redirect is
reported, by both requests. -/
theorem redirect_id_reported :
    let P := Platform.ofTable []
    let t : Transfer := {
      first := {
        sent := 0
        status := 302
        headerLines := ["HTTP/1.1 302 Found\x0d\n", "X-Request-Id: old\x0d\n", "\x0d\n"] }
      redirects := [{
        sent := 0
        status := 200
        headerLines := ["HTTP/1.1 200 OK\x0d\n", "\x0d\n"] }]
      code := .ok
      body := "" }
    let env : AttemptEnv := { apiToken := "", transfer := t }
    t.finalRequestId = "" ∧
      (∃ resp, (postForm P "https://api.audd.io/" {} env).result = .ok resp ∧
        resp.requestId = "old") ∧
      ∃ resp, (get P "https://api.audd.io/" ∅ env).result = .ok resp ∧
        resp.requestId = "old" := by
  intro P t env
  have hid : t.requestId = "old" := by decide
  refine ⟨by decide, ⟨_, rfl, ?_⟩, _, rfl, ?_⟩
  · exact hid
  · exact hid

end Audd
