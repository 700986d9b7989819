import Audd.FormEncoding
import Audd.Lib.Numeral
import Audd.LongpollRequests
import Audd.Md5Refinement
import Audd.Preflight

/-!
# A subscription on the wire

A poll that is started for a radio stream asks with a category that is derived from the
token. Its requests are read here as the server reads them, over every run of the poll.
-/

namespace Audd

open Md5 Rfc1321

/-- `longpoll` for a radio stream, which derives the category first. -/
def longpollRadio (P : Platform) (config : ClientConfig) (memory memory' : Buffer)
    (apiToken : String) (radioId : ℤ) (opts : LongpollOptions) (env : CallEnv) :
    ApiRun (Transition Poll PollAction) :=
  longpoll P config (deriveLongpollCategory memory memory' apiToken radioId) opts env

def longpollUrl : String := apiBase ++ "/longpoll/"

def LongpollOptions.timeout (opts : LongpollOptions) : ℤ :=
  if opts.timeoutSeconds ≤ 0 then 50 else opts.timeoutSeconds

/-- The pairs that a longpoll request delivers, in the order of their names. -/
def longpollPairs (token category : String) (timeout : ℤ) (curSince : Int64) :
    List (String × String) :=
  (if token = "" then [] else [("api_token", token)]) ++ [("category", category)] ++
    (if 0 < curSince then [("since_time", toString curSince.toInt)] else []) ++
    [("timeout", toString timeout)]

/-- The form of a category: nine lower-case hexadecimal digits. -/
def IsCategory (text : String) : Prop :=
  text.toList.length = 9 ∧ ∀ c ∈ text.toList, c ∈ hex

/-! ## The category -/

theorem mem_hex_of_mem_hexDigits {bytes : List UInt8} {c : Char}
    (h : c ∈ (hexDigits bytes).toList) : c ∈ hex := by
  have hdigit : ∀ n < 16, Nat.digitChar n ∈ hex := by decide
  rw [hexDigits, String.toList_ofList] at h
  obtain ⟨b, -, hc⟩ := List.mem_flatMap.mp h
  have hlt := b.toNat_lt
  rcases List.mem_pair.mp hc with rfl | rfl
  · exact hdigit _ (by omega)
  · exact hdigit _ (by omega)

theorem length_hexDigits (bytes : List UInt8) :
    (hexDigits bytes).toList.length = 2 * bytes.length := by
  rw [hexDigits, String.toList_ofList]
  induction bytes with
  | nil => rfl
  | cons b rest ih =>
      rw [List.flatMap_cons, List.length_append, ih, List.length_cons]
      simp only [List.length_cons, List.length_nil]
      omega

theorem length_digest (message : List UInt8) : (digest message).length = 16 := by
  simp [digest, output, littleEndian]

theorem isCategory_deriveLongpollCategory (memory memory' : Buffer) (apiToken : String)
    (radioId : ℤ) : IsCategory (deriveLongpollCategory memory memory' apiToken radioId) := by
  rw [deriveLongpollCategory, md5Hex_digest, md5Hex_digest, IsCategory, String.toList_ofList]
  refine ⟨?_, fun c hc => mem_hex_of_mem_hexDigits (List.mem_of_mem_take hc)⟩
  rw [List.length_take, length_hexDigits, length_digest]
  rfl

theorem IsCategory.isBytes {text : String} (h : IsCategory text) : IsBytes text := by
  have hbyte : ∀ c ∈ hex, c.toNat < 256 := Trim.forall_of_all (by decide)
  exact fun c hc => hbyte c (h.2 c hc)

/-! ## The form of a request -/

theorem isByte_of_isNumeral {digits : List Char} {n : ℕ} (h : Decimal.IsNumeral digits n) :
    ∀ c ∈ digits, c.toNat < 256 := by
  intro c hc
  have hdigit := h.2.1 c hc
  simp only [Decimal.isDigit, Bool.and_eq_true, decide_eq_true_eq] at hdigit
  have hle : c.toNat ≤ '9'.toNat := hdigit.2
  exact hle.trans_lt (by decide)

theorem isByte_of_signedNumeral {text : List Char} {n : ℤ} (h : Decimal.SignedNumeral text n) :
    ∀ c ∈ text, c.toNat < 256 := by
  intro c hc
  cases h with
  | plain h => exact isByte_of_isNumeral h c hc
  | plus h =>
      rcases List.mem_cons.mp hc with rfl | hc
      · decide
      · exact isByte_of_isNumeral h c hc
  | minus h =>
      rcases List.mem_cons.mp hc with rfl | hc
      · decide
      · exact isByte_of_isNumeral h c hc

theorem isBytes_toString (n : ℤ) : IsBytes (toString n) :=
  isByte_of_signedNumeral (Decimal.signedNumeral_toString n)

theorem isByteMap_requestParams {category : String} (h : IsBytes category) (timeout : ℤ)
    (curSince : Int64) : IsByteMap (requestParams category timeout curSince) := by
  have hparams := isByteMap_insert (isByteMap_insert isByteMap_empty
    (isBytes_of_all (s := "category") (by decide)) h)
    (isBytes_of_all (s := "timeout") (by decide)) (isBytes_toString timeout)
  unfold requestParams
  split
  · exact isByteMap_insert hparams (isBytes_of_all (by decide)) (isBytes_toString _)
  · exact hparams

theorem entries_requestParams (token category : String) (timeout : ℤ) (curSince : Int64) :
    (injectToken token (requestParams category timeout curSince)).entries =
      longpollPairs token category timeout curSince := by
  unfold injectToken requestParams longpollPairs
  by_cases htoken : token = ""
  · by_cases hcur : 0 < curSince
    · rw [if_neg (fun h => h.1 htoken), if_pos htoken, if_pos hcur, if_pos hcur]
      rfl
    · rw [if_neg (fun h => h.1 htoken), if_pos htoken, if_neg hcur, if_neg hcur]
      rfl
  · by_cases hcur : 0 < curSince
    · rw [if_pos hcur, if_pos ⟨htoken, rfl⟩, if_neg htoken, if_pos hcur]
      rfl
    · rw [if_neg hcur, if_pos ⟨htoken, rfl⟩, if_neg htoken, if_neg hcur]
      rfl

/-! ## Over a run -/

section
variable {P : Platform} {config : ClientConfig} {memory memory' : Buffer} {apiToken : String}
  {radioId : ℤ} {opts : LongpollOptions} {env : CallEnv} {poll : Transition Poll PollAction}
  {s : Poll}

theorem longpoll_ok {category : String}
    (h : (longpoll P config category opts env).result = .ok poll) :
    poll = startLongpoll P category opts := by
  unfold longpoll at h
  dsimp only at h
  split at h
  · exact (Except.ok.inj h).symm
  · dsimp only at h
    split at h
    · exact (Except.ok.inj h).symm
    · cases h

theorem timeout_pos (opts : LongpollOptions) : 0 < opts.timeout := by
  unfold LongpollOptions.timeout
  split <;> omega

theorem endsInPath_longpollUrl : EndsInPath longpollUrl := by
  exact Trim.forall_of_all (by decide)

/-- What the server reads of a subscription. Whatever the threads do and however often the
token is rotated, each request of the poll names the category of the radio stream, which
is nine hexadecimal digits, a positive timeout, the cursor that the round trips before
it have left, if there is one, and the token of the moment, and nothing else. -/
theorem subscription_on_the_wire (hP : P.PercentEncodes)
    (hstart : (longpollRadio P config memory memory' apiToken radioId opts env).result = .ok poll)
    (h : poll.Reachable s) :
    ∃ category, category = deriveLongpollCategory memory memory' apiToken radioId ∧
      IsCategory category ∧ 0 < opts.timeout ∧
      ∀ (i : ℕ) (request : OrderedMap String String), s.requests[i]? = some request →
        ∀ attempt : AttemptEnv, IsBytes attempt.apiToken →
          (get P longpollUrl request attempt).transfer ≠ none →
          (get P longpollUrl request attempt).url.toList.takeWhile (· ≠ '?') =
              longpollUrl.toList ∧
            formPairs (queryOf (get P longpollUrl request attempt).url) =
              longpollPairs attempt.apiToken category opts.timeout
                (cursorAfter P opts.sinceTime (s.outcomes.take i)) := by
  have hcategory := isCategory_deriveLongpollCategory memory memory' apiToken radioId
  refine ⟨_, rfl, hcategory, timeout_pos opts, ?_⟩
  intro i request hrequest attempt htoken hsent
  rw [longpoll_ok hstart] at h
  have hlog := (requestLog_of_reachable h).request i
    (List.getElem?_eq_some_iff.mp hrequest).1
  have hparams := Option.some.inj (hrequest.symm.trans hlog)
  subst hparams
  have hbytes := isByteMap_requestParams hcategory.isBytes opts.timeout
    (cursorAfter P opts.sinceTime (s.outcomes.take i))
  obtain ⟨hpairs, hpath⟩ := get_delivers hP endsInPath_longpollUrl hbytes htoken hsent
  exact ⟨hpath, hpairs.trans (entries_requestParams _ _ _ _)⟩

end

/-- The second request of a poll, after a keep-alive with a timestamp. -/
theorem subscription_on_the_wire_keepAlive :
    let text := "\x7b\"timeout\":\"no events\",\"timestamp\":100\x7d"
    let body := Json.object (.ofList [("timeout", .string "no events"),
      ("timestamp", .numberUnsigned 100)])
    let P : Platform := { Platform.ofTable [(text, body)] with
      curlEscape := escapingPlatform.curlEscape }
    let attempt : AttemptEnv := {
      apiToken := "rotated"
      transfer := ⟨⟨0, 200, []⟩, [], .ok, text⟩ }
    ∃ (s : Poll) (request : OrderedMap String String) (category : String),
      s.requests[1]? = some request ∧ IsCategory category ∧
      formPairs (queryOf (get P longpollUrl request attempt).url) =
        [("api_token", "rotated"), ("category", category), ("since_time", "100"),
          ("timeout", "50")] := by
  intro text body P attempt
  let memory : Buffer := ⟨List.replicate 64 0, rfl⟩
  let opts : LongpollOptions := { timeoutSeconds := 0, skipCallbackCheck := true }
  let poll := startLongpoll P (deriveLongpollCategory memory memory "token" 7) opts
  have hP : P.PercentEncodes := escapingPlatform_percentEncodes
  obtain ⟨s, hrun, hout, request, hrequest⟩ : ∃ s,
      poll.runFrom [.worker .connectionError, .worker (.response 200 text ""),
        .worker .connectionError, .worker .connectionError] poll.start = some s ∧
      s.outcomes = [.response 200 text ""] ∧ ∃ request, s.requests[1]? = some request :=
    ⟨_, rfl, rfl, _, rfl⟩
  have hreach := Transition.Reachable.start.runFrom _ hrun
  have hstart : (longpollRadio P {} memory memory "token" 7 opts
      { attempts := fun _ => attempt }).result = .ok poll := rfl
  obtain ⟨category, -, hcategory, -, hwire⟩ := subscription_on_the_wire hP hstart hreach
  refine ⟨s, request, category, hrequest, hcategory, ?_⟩
  have hcursor : cursorAfter P opts.sinceTime [.response 200 text ""] = 100 := rfl
  have hsince : toString (100 : Int64).toInt = "100" := by decide
  have htimeout : toString opts.timeout = "50" := by decide
  have hpairs := (hwire 1 request hrequest attempt (isBytes_of_all (by decide))
    (by intro h; cases h)).2
  rw [hout, List.take_of_length_le (by simp), hcursor, longpollPairs, hsince, htimeout] at hpairs
  exact hpairs

end Audd
