import Audd.JsonParse

/-!
# Callback bodies

`parse_callback` chooses between a notification and a match by the key that the
outer object has.
-/

namespace Audd

variable (P : Platform)

/-- The outer `time` field of a notification body. -/
def outerTime (members : OrderedMap String Json) : Int32 :=
  match members.find? "time" with
  | some t => if t.isNull then 0 else (P.getInt t).getD 0
  | none => 0

/-- Decode the members of an outer object. -/
def parseCallbackObject (members : OrderedMap String Json) (body : String) :
    Except Exn CallbackEvent :=
  match members.find? "notification" with
  | some notif =>
      .ok (.notificationEvent
        (parseStreamCallbackNotification P notif (outerTime P members) body))
  | none =>
      match members.find? "result" with
      | some result => (parseStreamCallbackMatch P result body).map .matchEvent
      | none =>
          .error (.serialization "callback body has neither result nor notification" body)

def parseCallback (body : String) : Except Exn CallbackEvent :=
  match P.parse body with
  | .error what => .error (.serialization ("callback body is not valid JSON: " ++ what) body)
  | .ok (.object members) => parseCallbackObject P members body
  | .ok _ => .error (.serialization "callback body is not a JSON object" body)

variable {P}

theorem parseCallback_of_parse {raw : String} {members : OrderedMap String Json}
    (h : P.parse raw = .ok (.object members)) :
    parseCallback P raw = parseCallbackObject P members raw := by
  simp [parseCallback, h]

end Audd
