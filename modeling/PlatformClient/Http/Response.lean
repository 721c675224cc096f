/-
  Responses, their bodies, and the ways to read one.

  A body is empty, or in memory, or a stream that still belongs to the transport.  A stream is the
  list of the items it would yield: chunks, or errors that end the reading.  Nothing is taken from a
  stream before somebody collects the body, and one loop, `Body.drain`, collects it: it stops at the
  first error and leaves the items behind it.  `Body.taken` counts the items that are gone then, the
  error included.

  A response keeps its body unread: its status can be looked at, and it can be handed on, without
  taking anything from the transport.  Every way to read the body takes all of it.
-/
import PlatformClient.Error
import PlatformClient.Http.Headers

namespace PlatformClient

/-! ## Bodies -/

/-- The body of a response. -/
inductive Body where
  | empty
  | full (bytes : Bytes)
  | stream (items : List (Except Error Bytes))

namespace Body

/-- Whether the body still belongs to the transport. -/
def isStream : Body → Bool
  | stream _ => true
  | _ => false

/-- Read a stream until it ends or an item fails: the chunks in order or the failure, and the items
    that were never taken; `done` holds the chunks read before, last first. -/
def drain (done : List Bytes) :
    List (Except Error Bytes) → Except Error Bytes × List (Except Error Bytes)
  | [] => (.ok done.reverse.flatten, [])
  | .ok chunk :: rest => drain (chunk :: done) rest
  | .error e :: rest => (.error e, rest)

/-- The whole body in memory. -/
def collect : Body → Except Error Bytes
  | empty => .ok []
  | full bytes => .ok bytes
  | stream items => (drain [] items).1

/-- How many items of the stream are taken to collect the body. -/
def taken : Body → Nat
  | stream items => items.length - (drain [] items).2.length
  | _ => 0

/-- A short form for traces that shows no content. -/
def summary : Body → String
  | empty => "Empty"
  | full bytes => s!"Full({bytes.length})"
  | stream _ => "Stream(..)"

end Body

/-! ## Responses -/

/-- A response. -/
structure Response where
  status : Nat
  headers : Headers
  body : Body

namespace Response

def isSuccess (r : Response) : Bool := 200 ≤ r.status && r.status < 300

def isRedirection (r : Response) : Bool := 300 ≤ r.status && r.status < 400

/-- The platform reports an error. -/
def isError (r : Response) : Bool := 400 ≤ r.status

def isClientError (r : Response) : Bool := 400 ≤ r.status && r.status < 500

def isServerError (r : Response) : Bool := 500 ≤ r.status && r.status < 600

/-- The value of a header, by the exact spelling of its name. -/
def header (r : Response) (name : String) : Option String := r.headers.get? name

/-- The bytes of the body. -/
def bytes (r : Response) : Except Error Bytes := r.body.collect

/-- The body as a text, if it is UTF-8. -/
def text (r : Response) : Except Error String :=
  match r.bytes with
  | .error e => .error e
  | .ok bs =>
    match Utf8.decode bs with
    | .ok t => .ok t
    | .error f => .error (.invalidResponse s!"body is not UTF-8: {f.message}")

/-- The body as a JSON value of some type. -/
def json {α : Type} (r : Response) (reader : Json.Reader α) : Except Error α :=
  match r.bytes with
  | .error e => .error e
  | .ok bs => readJson reader bs

end Response

end PlatformClient
