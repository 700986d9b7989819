import Audd.Callback
import Audd.DemuxQueue
import Audd.HttpClient
import Audd.Lib.Transition

/-!
# The longpoll subscription

The worker thread of `start_longpoll_`, the three pumps of `LongpollPoll::run`
and any number of `close()` calls, as one transition system.

## Implementation notes

A step is one mutex-protected section, one access of the `closed` flag or one
callback, so any interleaving of the threads is a run. The worker's choice of
what to do with a response only reads the response, and it is one step with the
check of the flag before it. The requests, the round trips completed and the
callbacks made are kept as history. A request is recorded in the step that finds
the flag unset: a `close()` between that test and `get` does not stop it, and it
counts as in flight from the test on. An absent callback is one that does
nothing.
-/

namespace Audd

structure LongpollOptions where
  sinceTime : Int64 := 0
  timeoutSeconds : ℤ := 50
  skipCallbackCheck : Bool := false

/-- What the worker sees of one request: an `AudDConnectionError` or a response. -/
inductive RoundTrip
  | connectionError
  | response (httpStatus : ℤ) (rawBody requestId : String)

/-- The next of the four actions of `close_all`. -/
inductive CloseStage
  | setFlag
  | closeMatches
  | closeNotifications
  | closeErrors
deriving DecidableEq

inductive WorkerPc
  | loopHead
  | requesting
  | sleeping
  | received (httpStatus : ℤ) (rawBody requestId : String)
  | pushing (ev : CallbackEvent) (body : Json)
  | pushingError (e : Exn)
  | closing (stage : CloseStage)
  | stopped

structure Worker where
  pc : WorkerPc := .loopHead
  curSince : Int64
  backoff : ℕ := 500

/-- A pump thread: between pulls, with a value for its callback, or done. -/
inductive Pump (T : Type)
  | pulling
  | delivering (v : T)
  | finished

/-- A queue, the pump that drains it and the callbacks the pump made. -/
structure Lane (T : Type) where
  queue : TracedQueue T := {}
  pump : Pump T := .pulling
  calls : List T := []

/-- The thread in `run`: it pumps the errors and then joins the other two. -/
inductive Caller
  | pulling
  | delivering (e : Exn)
  | closing (stage : CloseStage)
  | joining
  | returned

/-- The state shared by the threads, the threads and the history. -/
structure Poll where
  closed : Bool := false
  matchLane : Lane StreamCallbackMatch := {}
  notificationLane : Lane StreamCallbackNotification := {}
  errorQueue : TracedQueue Exn := {}
  worker : Worker
  caller : Caller := .pulling
  onError : List Exn := []
  /-- The `close()` calls, each with its next action. -/
  closers : List (Option CloseStage) := []
  requests : List (OrderedMap String String) := []
  outcomes : List RoundTrip := []

inductive PollAction
  | worker (outcome : RoundTrip)
  | matchPump
  | notificationPump
  | caller
  | beginClose
  | closer (i : ℕ)

/-- One turn of a pump. -/
def Lane.pumpStep {T : Type} (l : Lane T) : Option (Lane T) :=
  match l.pump with
  | .pulling =>
      match l.queue.pull with
      | some (some v, q) => some { l with queue := q, pump := .delivering v }
      | some (none, q) => some { l with queue := q, pump := .finished }
      | none => none
  | .delivering v => some { l with pump := .pulling, calls := l.calls ++ [v] }
  | .finished => none

def Lane.push {T : Type} (l : Lane T) (v : T) : Lane T := { l with queue := l.queue.push v }

def Lane.close {T : Type} (l : Lane T) : Lane T := { l with queue := l.queue.close }

/-- What follows an action of `close_all`. -/
def CloseStage.next : CloseStage → Option CloseStage
  | .setFlag => some .closeMatches
  | .closeMatches => some .closeNotifications
  | .closeNotifications => some .closeErrors
  | .closeErrors => none

/-- One action of `close_all`. -/
def Poll.closeAt (s : Poll) : CloseStage → Poll
  | .setFlag => { s with closed := true }
  | .closeMatches => { s with matchLane := s.matchLane.close }
  | .closeNotifications => { s with notificationLane := s.notificationLane.close }
  | .closeErrors => { s with errorQueue := s.errorQueue.close }

/-- The parameters of a longpoll request. -/
def requestParams (category : String) (timeout : ℤ) (curSince : Int64) :
    OrderedMap String String :=
  let params := ((∅ : OrderedMap String String).insert "category" category).insert "timeout"
    (toString timeout)
  if 0 < curSince then params.insert "since_time" (toString curSince.toInt) else params

section
variable (P : Platform)

/-- Move the cursor to the body's timestamp, if it has one that converts. -/
def advanceSince (body : Json) (curSince : Int64) : Int64 :=
  match body.find? "timestamp" with
  | some t => if t.isNull then curSince else (P.getLongLong t).getD curSince
  | none => curSince

/-- The error that ends a subscription. -/
def longpollError (httpStatus : ℤ) (rawBody requestId : String) : Exn :=
  .api {
    errorCode := 0
    message := "Longpoll endpoint returned HTTP " ++ toString httpStatus
    httpStatus
    requestId
    rawResponse := rawBody }

/-- How the worker classifies a response. -/
def disposition (httpStatus : ℤ) (rawBody : String) : LongpollDisposition :=
  classifyLongpollResponse httpStatus (P.parseOrNull rawBody) (rawBody = "")

/-- The worker's step on a response that arrived before the poll was closed. A
body that `parse_callback` rejects is passed over without touching the cursor. -/
def handleResponse (w : Worker) (httpStatus : ℤ) (rawBody requestId : String) : Worker :=
  let w := { w with backoff := 500 }
  match disposition P httpStatus rawBody with
  | .terminal => { w with pc := .pushingError (longpollError httpStatus rawBody requestId) }
  | .skip => { w with pc := .loopHead }
  | .keepAlive =>
      { w with pc := .loopHead, curSince := advanceSince P (P.parseOrNull rawBody) w.curSince }
  | .event =>
      match parseCallback P rawBody with
      | .ok ev => { w with pc := .pushing ev (P.parseOrNull rawBody) }
      | .error _ => { w with pc := .loopHead }

/-- Push an event to the queue of its kind. -/
def Poll.pushEvent (s : Poll) : CallbackEvent → Poll
  | .matchEvent m => { s with matchLane := s.matchLane.push m }
  | .notificationEvent n => { s with notificationLane := s.notificationLane.push n }

variable (category : String) (timeout : ℤ)

def workerStep (outcome : RoundTrip) (s : Poll) : Option Poll :=
  match s.worker.pc with
  | .loopHead =>
      if s.closed then some { s with worker := { s.worker with pc := .stopped } }
      else some { s with
        worker := { s.worker with pc := .requesting }
        requests := s.requests ++ [requestParams category timeout s.worker.curSince] }
  | .requesting =>
      let pc := match outcome with
        | .connectionError => .sleeping
        | .response httpStatus rawBody requestId => .received httpStatus rawBody requestId
      some { s with worker := { s.worker with pc }, outcomes := s.outcomes ++ [outcome] }
  | .sleeping =>
      -- `sleep_or_stop` returns when it sees the flag, or at the end of the back-off
      if s.closed then some { s with worker := { s.worker with pc := .stopped } }
      else some { s with worker :=
        { s.worker with pc := .loopHead, backoff := min (s.worker.backoff * 2) 30000 } }
  | .received httpStatus rawBody requestId =>
      if s.closed then some { s with worker := { s.worker with pc := .stopped } }
      else some { s with worker := handleResponse P s.worker httpStatus rawBody requestId }
  | .pushing ev body =>
      some { s.pushEvent ev with worker :=
        { s.worker with pc := .loopHead, curSince := advanceSince P body s.worker.curSince } }
  | .pushingError e =>
      some { s with
        errorQueue := s.errorQueue.push e
        worker := { s.worker with pc := .closing .setFlag } }
  | .closing stage =>
      let pc := match stage.next with
        | some next => .closing next
        | none => .stopped
      some { s.closeAt stage with worker := { s.worker with pc } }
  | .stopped => none

/-- One turn of the thread in `run`. -/
def callerStep (s : Poll) : Option Poll :=
  match s.caller with
  | .pulling =>
      match s.errorQueue.pull with
      | some (some e, q) => some { s with errorQueue := q, caller := .delivering e }
      | some (none, q) => some { s with errorQueue := q, caller := .joining }
      | none => none
  | .delivering e => some { s with onError := s.onError ++ [e], caller := .closing .setFlag }
  | .closing stage =>
      let caller := match stage.next with
        | some next => .closing next
        | none => .joining
      some { s.closeAt stage with caller }
  | .joining =>
      match s.matchLane.pump, s.notificationLane.pump with
      | .finished, .finished => some { s with caller := .returned }
      | _, _ => none
  | .returned => none

def pollStep : PollAction → Poll → Option Poll
  | .worker outcome, s => workerStep P category timeout outcome s
  | .matchPump, s => s.matchLane.pumpStep.map fun l => { s with matchLane := l }
  | .notificationPump, s =>
      s.notificationLane.pumpStep.map fun l => { s with notificationLane := l }
  | .caller, s => callerStep s
  | .beginClose, s => some { s with closers := s.closers ++ [some .setFlag] }
  | .closer i, s =>
      match s.closers[i]? with
      | some (some stage) =>
          some { s.closeAt stage with closers := s.closers.set i stage.next }
      | _ => none

/-- `start_longpoll_` with a timeout that is not positive replaced by the default. -/
def startLongpoll (opts : LongpollOptions) : Transition Poll PollAction where
  start := { worker := { curSince := opts.sinceTime } }
  step := pollStep P category
    (if opts.timeoutSeconds ≤ 0 then 50 else opts.timeoutSeconds)

end

end Audd
