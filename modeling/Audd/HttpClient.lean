import Audd.Error
import Audd.Lib.Decimal
import Audd.Platform

/-!
# The HTTP client

`post_form` and `get` of `http_client.cpp` over one libcurl transfer.

## Implementation notes

A transfer is what libcurl did: the hops it followed, the code it ended with and
the body it delivered. The two probes report the body bytes and the last status
line of all hops. Options that do not change what is sent or reported, such as
the timeouts, are left out.
-/

namespace Audd

open Decimal

/-- One request of a transfer with the response lines it got. -/
structure Hop where
  /-- Request-body bytes sent on the hop. -/
  sent : ℕ
  /-- The status of the response, zero when no status line came back. -/
  status : ℤ
  headerLines : List String

/-- One `curl_easy_perform`: the first request and the redirects it followed. -/
structure Transfer where
  first : Hop
  redirects : List Hop
  code : CurlCode
  body : String

structure FileField where
  name : String
  contentType : String
  path : String := ""
  bytes : List UInt8 := []

def FileField.isPath (f : FileField) : Bool := f.path ≠ ""

structure FormFields where
  data : OrderedMap String String := ∅
  file : Option FileField := none

/-- A response; `jsonBody` is null when the raw body is not JSON. -/
structure HttpResponse where
  httpStatus : ℤ
  rawBody : String
  jsonBody : Json
  requestId : String

/-- The content of one multipart section. -/
inductive MimeContent
  | data (s : String)
  | filedata (path : String)
  | bytes (b : List UInt8)

structure MimePart where
  name : String
  filename : Option String := none
  contentType : Option String := none
  content : MimeContent

inductive RequestBody
  | multipart (parts : List MimePart)
  | urlencoded (text : String)

/-- What the surroundings decide about one request: the token at its start,
whether libcurl gave a handle and could attach the file, and the transfer. -/
structure AttemptEnv where
  apiToken : String
  easyInit : Bool := true
  filedata : Bool := true
  transfer : Transfer

/-- One request as it was made. `fields` includes the token; `body` and
`transfer` are absent when the transfer was never started. -/
structure Attempt where
  url : String
  fields : FormFields
  body : Option RequestBody := none
  transfer : Option Transfer := none
  result : Except Exn HttpResponse

/-- The part of a text that a C function sees. -/
def cStr (s : String) : String := String.ofList (s.toList.takeWhile (· ≠ '\x00'))

/-- The header callback: a non-blank `X-Request-Id` value replaces the stored one. -/
def captureRequestId (out line : String) : String :=
  let l := line.toList
  if 13 < l.length ∧ (l.take 13).map toLowerAscii = "x-request-id:".toList then
    let val := l.drop 13
    let b := val.findIdx? fun c => c ≠ ' ' ∧ c ≠ '\t'
    let e := val.reverse.findIdx? fun c => c ≠ ' ' ∧ c ≠ '\t' ∧ c ≠ '\r' ∧ c ≠ '\n'
    match b, e with
    | some b, some e =>
        let e := val.length - 1 - e
        if b ≤ e then String.ofList ((val.drop b).take (e - b + 1)) else out
    | _, _ => out
  else out

namespace Transfer

def hops (t : Transfer) : List Hop := t.first :: t.redirects

/-- `CURLINFO_SIZE_UPLOAD_T`: the body bytes sent on all hops. -/
def sizeUpload (t : Transfer) : ℕ := (t.hops.map Hop.sent).sum

/-- `CURLINFO_RESPONSE_CODE`: the last status line seen. -/
def responseCode (t : Transfer) : ℤ :=
  t.hops.foldl (fun status h => if h.status = 0 then status else h.status) 0

/-- The header callback runs for every header line of every hop. -/
def requestId (t : Transfer) : String :=
  (t.hops.flatMap Hop.headerLines).foldl captureRequestId ""

end Transfer

/-- The bytes of the request body that an attempt sent to a server. -/
def Attempt.bodyBytes (a : Attempt) : ℕ := (a.transfer.map Transfer.sizeUpload).getD 0

/-- Whether a failed transfer counts as having failed before its upload. -/
def failureIsPreUpload (code : CurlCode) (uploadedBodyBytes httpStatus : ℤ) : Bool :=
  match code with
  | .unsupportedProtocol | .urlMalformat | .couldntResolveProxy | .couldntResolveHost
  | .couldntConnect | .sslConnectError | .peerFailedVerification | .sslCipher
  | .sslCacertBadfile | .interfaceFailed => true
  | .ok | .other _ => uploadedBodyBytes == 0 && httpStatus == 0

def performFailedBeforeUpload (t : Transfer) : Bool :=
  failureIsPreUpload t.code t.sizeUpload t.responseCode

/-- Add the client's token unless it is empty or the caller gave one. -/
def injectToken (token : String) (data : OrderedMap String String) : OrderedMap String String :=
  if token ≠ "" ∧ !data.contains "api_token" then data.insert "api_token" token else data

/-- The token goes under the caller's own value. -/
theorem find?_injectToken (token : String) (data : OrderedMap String String) (key : String) :
    (injectToken token data).find? key =
      (data.find? key).or (if key = "api_token" ∧ token ≠ "" then some token else none) := by
  rw [injectToken]
  by_cases hput : token ≠ "" ∧ !data.contains "api_token"
  · rw [if_pos hput, OrderedMap.find?_insert]
    by_cases hk : key = "api_token"
    · have hnone : data.find? "api_token" = none := by
        simpa [OrderedMap.contains_eq_isSome] using hput.2
      simp [hk, hnone, hput.1]
    · simp [hk]
  · rw [if_neg hput]
    by_cases hk : key = "api_token" ∧ token ≠ ""
    · obtain ⟨rfl, htoken⟩ := hk
      have hsome : data.find? "api_token" ≠ none := by
        simpa [OrderedMap.contains_eq_isSome, htoken] using hput
      obtain ⟨v, hv⟩ := Option.ne_none_iff_exists'.mp hsome
      simp [hv]
    · simp [hk]

section
variable (P : Platform)

def urlEncode (s : String) : String := (P.curlEscape s).getD s

/-- The query text of a map, without a leading question mark. -/
def buildQuery (params : OrderedMap String String) : String :=
  params.entries.foldl (fun out kv =>
    (if out = "" then out else out ++ "&") ++ urlEncode P kv.1 ++ "=" ++ urlEncode P kv.2) ""

/-- The multipart section of the file. Its name is set before the path is attached, so
attaching can replace it. -/
def filePart (f : FileField) : MimePart where
  name := "file"
  filename := some (if f.isPath then P.filedataName.apply (cStr f.name) (cStr f.path)
    else cStr f.name)
  contentType := if f.contentType = "" then none else some (cStr f.contentType)
  content := if f.isPath then .filedata (cStr f.path) else .bytes f.bytes

/-- The encoded body: multipart when there is a file, else urlencoded. -/
def encodeBody (fields : FormFields) : RequestBody :=
  match fields.file with
  | some f => .multipart (fields.data.entries.map
      (fun kv => { name := cStr kv.1, content := .data (cStr kv.2) }) ++ [filePart P f])
  | none => .urlencoded (buildQuery P fields.data)

/-- The outcome of a performed transfer. -/
def transferResult (t : Transfer) : Except Exn HttpResponse :=
  if t.code = .ok then
    .ok {
      httpStatus := t.responseCode
      rawBody := t.body
      jsonBody := P.parseOrNull t.body
      requestId := t.requestId }
  else .error (.connection (P.curlStrerror t.code) (performFailedBeforeUpload t))

def postForm (url : String) (fields : FormFields) (env : AttemptEnv) : Attempt :=
  let fields := { fields with data := injectToken env.apiToken fields.data }
  if !env.easyInit then
    { url, fields, result := .error (.connection "curl_easy_init failed" true) }
  else
    match fields.file.filter fun f => f.isPath && !env.filedata with
    | some f =>
        { url, fields, result := .error (.connection ("failed to attach file: " ++ f.path) true) }
    | none =>
        { url := cStr url, fields, body := some (encodeBody P fields),
          transfer := some env.transfer, result := transferResult P env.transfer }

/-- The address of a GET request with its parameters. -/
def queryUrl (url : String) (params : OrderedMap String String) : String :=
  let q := buildQuery P params
  if q = "" then url else url ++ (if '?' ∈ url.toList then "&" else "?") ++ q

def get (url : String) (params : OrderedMap String String) (env : AttemptEnv) : Attempt :=
  let withToken := injectToken env.apiToken params
  if !env.easyInit then
    { url, fields := { data := withToken },
      result := .error (.connection "curl_easy_init failed" true) }
  else
    { url := cStr (queryUrl P url withToken), fields := { data := withToken },
      transfer := some env.transfer, result := transferResult P env.transfer }

/-- A request either fails before its transfer is started, and then nothing of it is
sent, or performs the transfer with the encoded form as its body. -/
theorem postForm_cases (url : String) (fields : FormFields) (env : AttemptEnv) :
    ((postForm P url fields env).body = none ∧ (postForm P url fields env).transfer = none ∧
        ∃ msg, (postForm P url fields env).result = .error (.connection msg true)) ∨
      ((postForm P url fields env).body =
          some (encodeBody P (postForm P url fields env).fields) ∧
        (postForm P url fields env).transfer = some env.transfer ∧
        (postForm P url fields env).result = transferResult P env.transfer) := by
  unfold postForm
  dsimp only
  split
  · exact .inl ⟨rfl, rfl, _, rfl⟩
  · split
    · exact .inl ⟨rfl, rfl, _, rfl⟩
    · exact .inr ⟨rfl, rfl, rfl⟩

/-- Every request carries the same form, with the token of its own start. -/
theorem postForm_fields (url : String) (fields : FormFields) (env : AttemptEnv) :
    (postForm P url fields env).fields =
      { fields with data := injectToken env.apiToken fields.data } := by
  unfold postForm
  dsimp only
  split
  · rfl
  · split <;> rfl

end

end Audd
