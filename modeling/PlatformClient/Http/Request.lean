/-
  Requests, and the steps that build one.

  A request starts from a method and a URL.  Each step returns the request with one part changed; a
  step that fails leaves nothing behind.  Only the JSON step can fail: it sets the body together with
  the header that says what the body is.

  The steps are the calls on a `RequestBuilder`.  A builder holds nothing but the request it will
  give, so there is no type of its own for it.
-/
import PlatformClient.Error
import PlatformClient.Http.Headers
import PlatformClient.Json.Printer

namespace PlatformClient

/-- Write a payload as JSON (`to_json`). -/
def writeJson (p : Json.Payload) : Except Error Bytes :=
  (p.toJson.map Json.toBytes).mapError Error.jsonWriting

/-! ## Methods -/

/-- Bytes that a token of HTTP may have: letters, digits, and some punctuation. -/
def isTokenByte (b : UInt8) : Bool :=
  (0x30 ≤ b && b ≤ 0x39) || (0x41 ≤ b && b ≤ 0x5A) || (0x61 ≤ b && b ≤ 0x7A)
    || (Utf8.encode "!#$%&'*+-.^_`|~").contains b

/-- Whether bytes are a token. -/
def isToken (bs : Bytes) : Bool := !bs.isEmpty && bs.all isTokenByte

/-- The method of a request. -/
structure Method where
  name : String
  token : isToken (Utf8.encode name) = true
  deriving DecidableEq

namespace Method

/-- The method with a name, if the name is a token. -/
def ofName? (name : String) : Option Method :=
  if h : isToken (Utf8.encode name) = true then some ⟨name, h⟩ else none

def get : Method := ⟨"GET", by decide +kernel⟩

def post : Method := ⟨"POST", by decide +kernel⟩

def delete : Method := ⟨"DELETE", by decide +kernel⟩

end Method

/-! ## Requests -/

/-- A request. -/
structure Request where
  method : Method
  url : Url
  headers : Headers
  body : Option Bytes
  deriving DecidableEq

namespace Request

/-- The request to start from. -/
def new (method : Method) (url : Url) : Request := ⟨method, url, .empty, none⟩

/-- Set a header, in place of the value it had. -/
def header (r : Request) (name value : String) : Request :=
  { r with headers := r.headers.insert name value }

/-- Append a pair to the query. -/
def query (r : Request) (name value : String) : Request :=
  { r with url := r.url.appendQuery name value }

/-- Set the body. -/
def withBody (r : Request) (body : Bytes) : Request := { r with body := some body }

/-- Set a JSON body and the header that says so. -/
def json (r : Request) (p : Json.Payload) : Except Error Request :=
  (writeJson p).map fun body => (r.header "Content-Type" "application/json").withBody body

/-- A step of building a request. -/
inductive Step where
  | header (name value : String)
  | query (name value : String)
  | body (bytes : Bytes)
  | json (payload : Json.Payload)

/-- Take a step. -/
def step (r : Request) : Step → Except Error Request
  | .header name value => .ok (r.header name value)
  | .query name value => .ok (r.query name value)
  | .body bytes => .ok (r.withBody bytes)
  | .json p => r.json p

/-- Take steps in order, up to the first that fails. -/
def steps (r : Request) (ss : List Step) : Except Error Request := ss.foldlM step r

end Request

end PlatformClient
