import Audd.Client

/-!
# The other endpoints

The request methods of `streams.cpp`, `custom_catalog.cpp` and `advanced.cpp`,
each a form handed to the shared `post_form`.
-/

namespace Audd

variable (P : Platform) (config : ClientConfig)

structure SetCallbackUrlOptions where
  returnMetadata : List String := []
  extraParameters : OrderedMap String String := ∅

structure AddStreamRequest where
  url : String
  radioId : ℤ := 0
  callbacks : String := ""
  extraParameters : OrderedMap String String := ∅

/-- Append the metadata list to a callback URL as its `return` parameter. -/
def addReturnToUrl (rawUrl : String) (returnMetadata : List String) : Except Exn String :=
  if returnMetadata = [] then .ok rawUrl
  else if urlQueryHasKey rawUrl "return" then
    .error (.api {
      errorCode := 0
      message := "callback URL already contains a `return` query parameter; pass " ++
        "an empty return_metadata or remove the parameter from the URL"
      httpStatus := 0
      requestId := "" })
  else .ok (rawUrl ++ (if '?' ∈ rawUrl.toList then "&" else "?") ++ "return=" ++
    joinCsv returnMetadata)

/-- The form of a method with its own fields over the extra parameters. -/
def formOver (extra : OrderedMap String String) (typed : List (String × String)) : FormFields where
  data := ((∅ : OrderedMap String String).insertAll extra).insertMany typed

def setCallbackUrl (url : String) (opts : SetCallbackUrlOptions) (env : CallEnv) : ApiRun Unit :=
  match addReturnToUrl url opts.returnMetadata with
  | .error e => .throw e
  | .ok finalUrl =>
      (internalPostForm P config (apiBase ++ "/setCallbackUrl/")
        (formOver opts.extraParameters [("url", finalUrl)]) false config.maxAttempts env).map
        fun _ => ()

/-- An idempotent read: any transport failure may be retried. -/
def getCallbackUrl (env : CallEnv) : ApiRun String :=
  (internalPostForm P config (apiBase ++ "/getCallbackUrl/") {} false config.maxAttempts env
    .allConnectionErrors).map fun body =>
    ((findValue body "result").bind Platform.getString).getD ""

def addFields (req : AddStreamRequest) : FormFields :=
  let f := formOver req.extraParameters [("url", req.url), ("radio_id", toString req.radioId)]
  { f with data := writeSome f.data "callbacks" (textOption req.callbacks) }

def addStream (req : AddStreamRequest) (env : CallEnv) : ApiRun Unit :=
  (internalPostForm P config (apiBase ++ "/addStream/") (addFields req) false
    config.maxAttempts env).map fun _ => ()

def setUrl (radioId : ℤ) (url : String) (env : CallEnv) : ApiRun Unit :=
  (internalPostForm P config (apiBase ++ "/setStreamUrl/")
    (formOver ∅ [("radio_id", toString radioId), ("url", url)]) false
    config.maxAttempts env).map fun _ => ()

def del (radioId : ℤ) (env : CallEnv) : ApiRun Unit :=
  (internalPostForm P config (apiBase ++ "/deleteStream/")
    (formOver ∅ [("radio_id", toString radioId)]) false config.maxAttempts env).map fun _ => ()

/-- An idempotent read: any transport failure may be retried. -/
def list (env : CallEnv) : ApiRun (List Stream) :=
  (internalPostForm P config (apiBase ++ "/getStreams/") {} false config.maxAttempts env
    .allConnectionErrors).map fun body =>
    ((resultArrayOrNull body).getD []).map (parseStream P)

def prepareSourceForUpload : (fileExists : String → Bool) → Source → Except Exn FormFields :=
  prepareWith fun s => "audd: source not URL nor existing file: " ++ s

/-- A metered upload: one attempt whatever the configuration says. -/
def customCatalogAdd (audioId : ℤ) (source : Source) (env : CallEnv) : ApiRun Unit :=
  match prepareSourceForUpload env.fileExists source with
  | .error e => .throw e
  | .ok f =>
      (internalPostForm P config (apiBase ++ "/upload/")
        { f with data := f.data.insert "audio_id" (toString audioId) } true 1 env).map fun _ => ()

def rawRequest (method : String) (params : OrderedMap String String) (env : CallEnv) :
    ApiRun Json :=
  internalPostForm P config (apiBase ++ "/" ++ method ++ "/") { data := params } false
    config.maxAttempts env

def findLyrics (query : String) (env : CallEnv) : ApiRun (List LyricsResult) :=
  (rawRequest P config "findLyrics" ((∅ : OrderedMap String String).insert "q" query) env).map
    fun body => ((resultArrayOrNull body).getD []).map (parseLyrics P)

/-- The public calls that send a request. -/
inductive ApiCall
  | recognize (source : Source) (opts : RecognizeOptions)
  | recognizeEnterprise (source : Source) (opts : EnterpriseOptions)
  | setCallbackUrl (url : String) (opts : SetCallbackUrlOptions)
  | getCallbackUrl
  | addStream (req : AddStreamRequest)
  | setUrl (radioId : ℤ) (url : String)
  | del (radioId : ℤ)
  | list
  | customCatalogAdd (audioId : ℤ) (source : Source)
  | findLyrics (query : String)
  | rawRequest (method : String) (params : OrderedMap String String)

/-- What a public call returns. -/
inductive ApiValue
  | recognition (result : Option RecognitionResult)
  | enterprise (found : List EnterpriseMatch)
  | nothing
  | callbackUrl (url : String)
  | streams (streams : List Stream)
  | lyrics (results : List LyricsResult)
  | body (j : Json)

/-- A public call as it ran. -/
def ApiCall.run (call : ApiCall) (env : CallEnv) : ApiRun ApiValue :=
  match call with
  | .recognize source opts => (Audd.recognize P config source opts env).map .recognition
  | .recognizeEnterprise source opts =>
      (Audd.recognizeEnterprise P config source opts env).map .enterprise
  | .setCallbackUrl url opts => (Audd.setCallbackUrl P config url opts env).map fun _ => .nothing
  | .getCallbackUrl => (Audd.getCallbackUrl P config env).map .callbackUrl
  | .addStream req => (Audd.addStream P config req env).map fun _ => .nothing
  | .setUrl radioId url => (Audd.setUrl P config radioId url env).map fun _ => .nothing
  | .del radioId => (Audd.del P config radioId env).map fun _ => .nothing
  | .list => (Audd.list P config env).map .streams
  | .customCatalogAdd audioId source =>
      (Audd.customCatalogAdd P config audioId source env).map fun _ => .nothing
  | .findLyrics query => (Audd.findLyrics P config query env).map .lyrics
  | .rawRequest method params => (Audd.rawRequest P config method params env).map .body

end Audd
