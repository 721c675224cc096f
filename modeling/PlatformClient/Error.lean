/-
  Errors of a call.

  `Error` lists the ways a call can fail.  Only `api` comes from an answer of the platform; it holds
  the classified failure.  All others arise below or beside HTTP: the connection, the request, the
  response, or the JSON and URLs handed in.
-/
import PlatformClient.Envelope
import PlatformClient.Url.Basic

namespace PlatformClient

/-- Why a call failed. -/
inductive Error where
  /-- The platform answered with an error status. -/
  | api (failure : Failure)
  /-- The exchange with the server failed. -/
  | connection (detail : String)
  /-- No secure connection could be made. -/
  | tls (detail : String)
  /-- No response arrived in time. -/
  | timeout
  /-- The request cannot be sent. -/
  | invalidRequest (detail : String)
  /-- The response cannot be used. -/
  | invalidResponse (detail : String)
  /-- A value has no JSON form (`JsonSerialization`). -/
  | jsonWriting (problem : Json.Problem)
  /-- A text is not the JSON of the value expected (`JsonDeserialization`). -/
  | jsonReading (path reason : String)
  /-- A text is no URL. -/
  | invalidUrl (problem : Url.Problem)
  deriving DecidableEq, Repr

namespace Error

/-- The wording of an error. -/
def message : Error → String
  | api f => f.message
  | connection d => s!"connection error: {d}"
  | tls d => s!"TLS error: {d}"
  | timeout => "request timeout"
  | invalidRequest d => s!"invalid request: {d}"
  | invalidResponse d => s!"invalid response: {d}"
  | jsonWriting p => s!"JSON serialization error: {p.message}"
  | jsonReading path reason => s!"JSON deserialization error at '{path}': {reason}"
  | invalidUrl p => s!"invalid URL: {p.message}"

/-- The wording of the error underneath, where one was passed on. -/
def source : Error → Option String
  | jsonWriting p => some p.message
  | invalidUrl p => some p.message
  | _ => none

/-- The classified failure, if the platform answered. -/
def failure : Error → Option Failure
  | api f => some f
  | _ => none

/-- The status of the platform's answer, if there was one. -/
def status (e : Error) : Option Nat := e.failure.map Failure.status

def isTimeout : Error → Bool
  | timeout => true
  | _ => false

def isConnection : Error → Bool
  | connection _ => true
  | _ => false

/-- The platform answered that the request was wrong. -/
def isClientError (e : Error) : Bool := e.failure.any Failure.isClientError

/-- The platform answered that it failed itself. -/
def isServerError (e : Error) : Bool := e.failure.any Failure.isServerError

/-- The platform answered that there is no such thing. -/
def isNotFound (e : Error) : Bool := e.status == some 404

/-- A text that could not be read as JSON. -/
def ofMisread (m : Json.Misread) : Error :=
  .jsonReading (Json.pathText m.path) m.problem.message

end Error

/-- Read a value from the front of a JSON text (`from_json`). -/
def readJson {α : Type} (r : Json.Reader α) (text : Bytes) : Except Error α :=
  (r.read text).mapError Error.ofMisread

end PlatformClient
