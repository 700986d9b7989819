import Audd.Json

/-!
# Exceptions

The exception classes of `error.hpp` with the fields they carry, and the
argument error that a rejected source raises.
-/

namespace Audd

/-- The fields of `AudDApiError`. -/
structure ApiError where
  errorCode : Int32
  message : String
  httpStatus : ℤ
  requestId : String
  requestMethod : String := ""
  brandedMessage : String := ""
  requestedParams : OrderedMap String String := ∅
  rawResponse : String := ""

/-- An exception thrown by the client. `AudDCustomCatalogAccessError` derives
from `AudDApiError` and adds the server's message. -/
inductive Exn
  | api (e : ApiError)
  | customCatalogAccess (e : ApiError) (serverMessage : String)
  | connection (message : String) (failedBeforeUpload : Bool)
  | serialization (message rawText : String)
  | invalidArgument (message : String)

/-- The value that a handler of `AudDApiError` catches. -/
def Exn.apiError? : Exn → Option ApiError
  | .api e => some e
  | .customCatalogAccess e _ => some e
  | _ => none

/-! ## Categories -/

inductive ErrorCategory
  | authentication
  | quota
  | subscription
  | customCatalogAccess
  | invalidRequest
  | invalidAudio
  | rateLimit
  | streamLimit
  | notReleased
  | blocked
  | needsUpdate
  | server
  | connection
  | serialization
deriving DecidableEq

/-- The category of a numeric code. -/
def sentinelForCode (code : Int32) : ErrorCategory :=
  match code.toInt with
  | 900 | 901 | 903 => .authentication
  | 902 => .quota
  | 904 | 905 => .subscription
  | 50 | 51 | 600 | 601 | 602 | 700 | 701 | 702 | 906 => .invalidRequest
  | 300 | 400 | 500 => .invalidAudio
  | 610 => .streamLimit
  | 611 => .rateLimit
  | 907 => .notReleased
  | 19 | 31337 => .blocked
  | 20 => .needsUpdate
  | _ => .server

namespace Exn

/-- `category()`; an argument error is no `AudDError` and has none. -/
def category : Exn → Option ErrorCategory
  | .api e => some (sentinelForCode e.errorCode)
  | .customCatalogAccess _ _ => some .customCatalogAccess
  | .connection _ _ => some .connection
  | .serialization _ _ => some .serialization
  | .invalidArgument _ => none

end Exn

/-- Only the categories of the server's own errors have a code. -/
theorem sentinelForCode_ne (code : Int32) :
    sentinelForCode code ≠ .connection ∧ sentinelForCode code ≠ .serialization ∧
      sentinelForCode code ≠ .customCatalogAccess := by
  unfold sentinelForCode
  split <;> decide

end Audd
