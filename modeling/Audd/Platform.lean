import Audd.Json
import Audd.Lib.ExactDouble

/-!
# What the client takes from outside its sources

The JSON text parser and printer, libcurl's string functions and the parts of
C++ that the compiler chooses. Everything else of the libraries that the
modelled functions use is a definition of its own.

## Implementation notes

A conversion of a double outside the target's range is undefined in C++. The
result is taken from the platform, so no statement depends on one compiler.
-/

namespace Audd

/-- The result codes of a transfer that the sources name, and every other one. -/
inductive CurlCode
  | ok
  | unsupportedProtocol
  | urlMalformat
  | couldntResolveProxy
  | couldntResolveHost
  | couldntConnect
  | sslConnectError
  | peerFailedVerification
  | sslCipher
  | sslCacertBadfile
  | interfaceFailed
  | other (code : ℕ)
deriving DecidableEq

/-- The file name of a multipart section after `curl_mime_filedata`: the one it had, or the
base name of the path, as POSIX defines it or cut at both kinds of slash. -/
inductive FiledataName
  | kept
  | posix
  | cut
deriving DecidableEq

/-- What follows the last slash or backslash. -/
def afterSeparators (path : String) : List Char :=
  (path.toList.reverse.takeWhile fun c => c ≠ '/' ∧ c ≠ '\\').reverse

/-- The text between the slashes at the end and the slash before them. -/
def lastComponent (path : String) : List Char :=
  ((path.toList.reverse.dropWhile (· = '/')).takeWhile (· ≠ '/')).reverse

def posixBasename (path : String) : String :=
  if path = "" then "."
  else if lastComponent path = [] then "/"
  else String.ofList (lastComponent path)

def FiledataName.apply (rule : FiledataName) (name path : String) : String :=
  match rule with
  | .kept => name
  | .posix => posixBasename path
  | .cut => String.ofList (afterSeparators path)

/-- The libraries and the compiler. -/
structure Platform where
  /-- `nlohmann::json::parse`, with the text of the exception on failure. -/
  parse : String → Except String Json
  /-- The empty text is not a JSON text. -/
  parse_empty : ∃ what, parse "" = .error what
  /-- `nlohmann::json::dump`. -/
  dump : Json → String
  /-- A double outside `std::int64_t` converted to it. -/
  undefinedInt64 : Binary64 → Int64
  /-- A double outside `int` converted to it. -/
  undefinedInt32 : Binary64 → Int32
  /-- Whether `std::stod` reports a range error for a magnitude. -/
  stodRangeError : ℚ → Bool
  /-- Whether `long long` is the type `std::int64_t`. -/
  longLongIsInt64 : Bool
  /-- `curl_easy_escape` with an explicit length; `none` when it fails. -/
  curlEscape : String → Option String
  /-- `curl_easy_strerror`. -/
  curlStrerror : CurlCode → String
  /-- The side effect of `curl_mime_filedata` on the file name. -/
  filedataName : FiledataName

namespace Platform

variable (P : Platform)

/-- The parsed text, or null when it is not JSON. -/
def parseOrNull (text : String) : Json :=
  match P.parse text with
  | .ok j => j
  | .error _ => .null

/-- `static_cast<std::int64_t>` of a double. -/
def toInt64 (d : Binary64) : Int64 :=
  if d.isFinite ∧ -2 ^ 63 ≤ d.trunc ∧ d.trunc < 2 ^ 63 then Int64.ofInt d.trunc
  else P.undefinedInt64 d

/-- `static_cast<int>` of a double. -/
def toInt32 (d : Binary64) : Int32 :=
  if d.isFinite ∧ -2 ^ 31 ≤ d.trunc ∧ d.trunc < 2 ^ 31 then Int32.ofInt d.trunc
  else P.undefinedInt32 d

/-- `get<int>()`; `none` is the exception for a value that is no number or boolean. -/
def getInt : Json → Option Int32
  | .numberUnsigned u => some u.toInt64.toInt32
  | .numberInteger i => some i.toInt32
  | .numberFloat d => some (P.toInt32 d)
  | .boolean b => some (if b then 1 else 0)
  | _ => none

/-- `get<long long>()`. Booleans convert only where `long long` is not the
library's own integer type. -/
def getLongLong : Json → Option Int64
  | .numberUnsigned u => some u.toInt64
  | .numberInteger i => some i
  | .numberFloat d => some (P.toInt64 d)
  | .boolean b => if P.longLongIsInt64 then none else some (if b then 1 else 0)
  | _ => none

/-- `get<std::string>()`. -/
def getString : Json → Option String
  | .string s => some s
  | _ => none

/-- A 64-bit Linux platform whose parser knows the texts of a table. -/
def ofTable (texts : List (String × Json)) : Platform where
  parse text :=
    if text = "" then .error "unexpected end of input"
    else match texts.lookup text with
      | some j => .ok j
      | none => .error "syntax error"
  parse_empty := ⟨_, rfl⟩
  dump _ := ""
  undefinedInt64 _ := Int64.minValue
  undefinedInt32 _ := Int32.minValue
  stodRangeError q := ExactDouble.overflow ≤ q
  longLongIsInt64 := false
  curlEscape s := some s
  curlStrerror _ := "transfer failed"
  filedataName := .posix

end Platform

end Audd
