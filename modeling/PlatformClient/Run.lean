/-
  Runs — what a step of a call comes to, and what it reports on the way.

  An event says what happened; an entry of a trace is an event together with the spans it happened
  in, the outermost first.  The wording of events and the names of their fields are in `Event.level`,
  `Event.message` and `Event.fields`.

  The events of a call's end tell how long the call took.  No time passes in a run: times are
  measured outside, and given to whoever reports them (`Clock`).  Nothing is known of what a clock
  shows, not even that it shows the same for the same request elsewhere.

  A run is a value: the result or error, how many items of body streams were taken on the way, what
  was reported, and which requests went out.  Runs are chained by `bind`: the second part of a chain
  runs only after a result, and everything else adds up.
-/
import PlatformClient.Config
import PlatformClient.Http.Request
import PlatformClient.Http.Response

namespace PlatformClient

/-! ## Times -/

/-- How long the call of a request takes, as somebody measures it who waits for its end. -/
abbrev Clock := Request → Duration

/-- The clock that shows no time at all. -/
def Clock.stopped : Clock := fun _ => ⟨0⟩

/-! ## Events -/

/-- How important an event is. -/
inductive Level where
  | debug
  | info
  | warn
  deriving DecidableEq, Repr

def Level.name : Level → String
  | .debug => "DEBUG"
  | .info => "INFO"
  | .warn => "WARN"

/-- How much a logging layer reports (`LogLevel`: `Info` and `Debug`). -/
inductive Detail where
  /-- That a request is sent, and how it ended. -/
  | summary
  /-- The headers as well. -/
  | headers
  deriving DecidableEq, Repr

/-- What happens during a call.  An event of its end tells the time it took, in milliseconds. -/
inductive Event where
  /-- A payload was no envelope of its schema. -/
  | unmatched (schema : Schema) (status : Nat) (reason : DecodeError)
  /-- A response was turned into a failure. -/
  | mapped (schema : Schema) (failure : Failure)
  /-- A request goes out; its headers are shown if asked for. -/
  | sending (headers : Option Headers)
  /-- A response without error came back. -/
  | completed (status elapsed : Nat) (headers : Option Headers)
  /-- An error response came back. -/
  | httpError (status elapsed : Nat)
  /-- The call failed with a classified failure. -/
  | apiError (failure : Failure) (elapsed : Nat)
  /-- The call failed otherwise. -/
  | failed (error : Error) (elapsed : Nat)
  deriving DecidableEq

/-- The value of a field of an event. -/
inductive FieldValue where
  | text (s : String)
  | number (n : Nat)
  | entries (es : List String)
  deriving DecidableEq, Repr

namespace Event

/-- An event that shows headers is for debugging. -/
def levelOf (headers : Option Headers) : Level := if headers.isSome then .debug else .info

def level : Event → Level
  | unmatched .. => .debug
  | sending hs => levelOf hs
  | completed _ _ hs => levelOf hs
  | mapped .. | httpError .. | apiError .. | failed .. => .warn

def message : Event → String
  | unmatched .. => "error payload did not match envelope"
  | mapped .. => "error response mapped to failure"
  | sending _ => "sending request"
  | completed .. => "request completed"
  | httpError .. => "request failed with HTTP error"
  | apiError .. => "request failed with API error"
  | failed .. => "request failed"

/-- The headers field of an event that shows headers. -/
def headerField (headers : Option Headers) : List (String × FieldValue) :=
  match headers with
  | none => []
  | some hs => [("headers", .entries hs.quoted)]

/-- The field of the time a call took. -/
def timeField (elapsed : Nat) : String × FieldValue := ("elapsed_ms", .number elapsed)

/-- The fields of an event, in their order. -/
def fields : Event → List (String × FieldValue)
  | unmatched schema status reason =>
    [("schema", .text schema.name), ("status_code", .number status), ("reason", .text reason.message)]
  | mapped schema f =>
    [("schema", .text schema.name), ("status", .number f.status), ("failure", .text f.message)]
  | sending hs => headerField hs
  | completed status elapsed hs =>
    ("status", .number status) :: timeField elapsed :: headerField hs
  | httpError status elapsed => [("status", .number status), timeField elapsed]
  | apiError f elapsed =>
    [("status", .number f.status), ("failure", .text f.message), timeField elapsed]
  | failed e elapsed => [("error", .text e.message), timeField elapsed]

end Event

/-! ## Entries -/

/-- A span: the request that a stretch of events belongs to. -/
structure Span where
  method : String
  url : String
  deriving DecidableEq, Repr

/-- The name of spans in traces. -/
def Span.name : String := "cf_request"

/-- The span of a request. -/
def Span.of (r : Request) : Span := ⟨r.method.name, r.url.text⟩

/-- An event in its spans, the outermost first. -/
structure Entry where
  event : Event
  spans : List Span
  deriving DecidableEq

/-- The same entry, seen from outside a span around it. -/
def Entry.inside (span : Span) (e : Entry) : Entry := { e with spans := span :: e.spans }

/-- What a call reports, in order. -/
abbrev Trace := List Entry

/-! ## Runs -/

/-- What a step of a call comes to. -/
structure Run (α : Type) where
  result : Except Error α
  taken : Nat
  trace : Trace
  sent : List Request

namespace Run

/-- A run that does nothing but have a result or an error. -/
def of {α : Type} (result : Except Error α) : Run α := ⟨result, 0, [], []⟩

/-- A run that reports one event. -/
def report (event : Event) : Run Unit := ⟨.ok (), 0, [⟨event, []⟩], []⟩

/-- One run after another: the second gets the first one's result, if there is one. -/
def bind {α β : Type} (x : Run α) (f : α → Run β) : Run β :=
  match x.result with
  | .error e => ⟨.error e, x.taken, x.trace, x.sent⟩
  | .ok a =>
    let y := f a
    ⟨y.result, x.taken + y.taken, x.trace ++ y.trace, x.sent ++ y.sent⟩

instance : Monad Run where
  pure a := of (.ok a)
  bind := bind

/-- The run inside a span. -/
def inside {α : Type} (span : Span) (x : Run α) : Run α :=
  { x with trace := x.trace.map (Entry.inside span) }

/-- The run with one event more at its end, which may depend on how it ended. -/
def reportEnd {α : Type} (event : Except Error α → Option Event) (x : Run α) : Run α :=
  match event x.result with
  | none => x
  | some e => { x with trace := x.trace ++ [⟨e, []⟩] }

/-- Collect a body. -/
def collect (body : Body) : Run Bytes := ⟨body.collect, body.taken, [], []⟩

end Run

end PlatformClient
