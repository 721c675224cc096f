/-
  Mappers, services and layers.

  `classify` turns the payload of an error response into a failure, and never fails itself: what is
  no envelope of the schema is kept as text, and reported.  A mapper turns responses into results: a
  response below 400 passes as it is, with its body unread; any other is read to its end and becomes
  an `Error.api` — or the error that reading it met.

  A service answers requests.  Before that it may be asked whether it is ready.  A layer makes a
  service of a service: it stands around it, sees the request before it and the answer after it.

    * **`Layer.mapping`** (`ErrorPayloadLayer`) applies a mapper to every response, and reports each
      failure made so.
    * **`Layer.logging`** (`LoggingLayer`) reports each request and how it ended, inside a span of its
      own.  A logging layer measures how long each of its calls takes: what it measures is part of
      the layer here (`Logger.clock`).
    * **`Layer.gate`** asks the service below whether it is ready, and calls it only if it is.

  Readiness is asked of the outermost service and answered by the innermost one.
-/
import PlatformClient.Run

namespace PlatformClient

/-! ## Classification -/

/-- The failure that an error response is. -/
def classify (schema : Schema) (status : Nat) (payload : Bytes) : Failure :=
  match Envelope.decode schema payload with
  | .ok e => .known status e
  | .error _ => .unknown status (Utf8.lossy payload)

/-- What classifying a payload reports. -/
def classifyReport (schema : Schema) (status : Nat) (payload : Bytes) : Trace :=
  match Envelope.decode schema payload with
  | .ok _ => []
  | .error reason => [⟨.unmatched schema status reason, []⟩]

/-- The run of classifying a payload. -/
def Run.classify (schema : Schema) (status : Nat) (payload : Bytes) : Run Failure :=
  ⟨.ok (PlatformClient.classify schema status payload), 0, classifyReport schema status payload, []⟩

/-! ## Mappers -/

/-- A mapper for the error responses of one schema (`ErrorPayloadMapper`). -/
structure Mapper where
  schema : Schema
  deriving DecidableEq, Repr

namespace Mapper

/-- Pass a response on, or fail with what it says. -/
def map (m : Mapper) (r : Response) : Run Response :=
  if r.isError then do
    let payload ← Run.collect r.body
    let failure ← Run.classify m.schema r.status payload
    Run.of (.error (.api failure))
  else Run.of (.ok r)

end Mapper

/-! ## Services and layers -/

/-- Something that answers requests. -/
structure Service where
  ready : Except Error Unit
  call : Request → Run Response

/-- Something around a service. -/
abbrev Layer := Service → Service

/-- The event of a failure that a mapper made. -/
def Mapper.event (m : Mapper) : Except Error Response → Option Event
  | .error (.api f) => some (.mapped m.schema f)
  | _ => none

/-- Map the service's responses. -/
def Layer.mapping (m : Mapper) : Layer := fun inner =>
  { ready := inner.ready
    call := fun request => do
      let response ← inner.call request
      (m.map response).reportEnd m.event }

namespace Detail

/-- The headers, if they are to be shown. -/
def shown (d : Detail) (headers : Headers) : Option Headers :=
  match d with
  | .summary => none
  | .headers => some headers

/-- The event of the end of a call that took so many milliseconds. -/
def completion (d : Detail) (elapsed : Nat) : Except Error Response → Event
  | .ok r =>
    if r.isError then .httpError r.status elapsed
    else .completed r.status elapsed (d.shown r.headers)
  | .error (.api f) => .apiError f elapsed
  | .error e => .failed e elapsed

end Detail

/-- Somebody who reports calls (`Logging`): how much is reported, and how long calls take. -/
structure Logger where
  detail : Detail
  clock : Clock

namespace Logger

/-- The logger of summaries. -/
def summary (clock : Clock) : Logger := ⟨.summary, clock⟩

/-- The time that the call of a request takes, in milliseconds. -/
def elapsed (l : Logger) (request : Request) : Nat := (l.clock request).millis

/-- The event of a call's start. -/
def start (l : Logger) (request : Request) : Event := .sending (l.detail.shown request.headers)

/-- The event of a call's end. -/
def finish (l : Logger) (request : Request) (result : Except Error Response) : Event :=
  l.detail.completion (l.elapsed request) result

end Logger

/-- Report the service's calls. -/
def Layer.logging (l : Logger) : Layer := fun inner =>
  { ready := inner.ready
    call := fun request =>
      Run.inside (Span.of request) do
        Run.report (l.start request)
        (inner.call request).reportEnd fun result => some (l.finish request result) }

/-- Call the service only if it is ready. -/
def Layer.gate : Layer := fun inner =>
  { ready := .ok ()
    call := fun request => do
      Run.of inner.ready
      inner.call request }

/-- A service behind layers: the first one is the innermost. -/
def Service.behind (s : Service) (layers : List Layer) : Service :=
  layers.foldl (fun inner layer => layer inner) s

/-- A request to a service that is asked for readiness first. -/
def Service.oneshot (s : Service) (request : Request) : Run Response := do
  Run.of s.ready
  s.call request

/-- The service that answers every request with the same result. -/
def Service.constant (ready : Except Error Unit) (result : Except Error Response) : Service :=
  { ready, call := fun request => ⟨result, 0, [], [request]⟩ }

/-- The layers a client is usually built with. -/
inductive Middleware where
  | mapping (m : Mapper)
  | logging (l : Logger)

/-- The layer of a middleware. -/
def Middleware.layer : Middleware → Layer
  | .mapping m => .mapping m
  | .logging l => .logging l

end PlatformClient
