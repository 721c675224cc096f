/-
  Exchanges — the transport of a client (`RawHyperClient`).

  A request is sent in two steps.  `dispatch` settles, without a network, whether there is a message
  and somewhere to send it; `receive` makes a result of what became of the message.  Between the two
  stands a peer, which is all that the library knows of the network.

  1. **Messages** are requests in the form in which they are sent (`build_hyper_request`).  A message
     has one field for each header of its request, with the name in lower case.  A name has to be a
     token, and a value must not have control characters other than tab; one header that breaks these
     rules keeps the whole request from being sent.  Since a request tells names apart by their
     spelling, a message may have two fields whose names differed only in case.  What is left of the
     URL in a message is its target, which has no fragment.  What is added on the way — the host, the
     length of the body — is not part of the message.
  2. **Replies** are what a peer sends back.  The head of a reply is a status and header fields in
     their order of arrival; its body arrives in frames: data, trailers behind the data, or the loss
     of the connection.  A response is made of a reply before any frame is looked at:

       * its headers are the fields whose value is readable; of several with one name the last counts
         (`extract_headers`);
       * its body is the stream of the frames' data, bounded by a number of bytes if there is a
         bound.  The first frame that is larger than what the bound still allows ends the stream.
-/
import PlatformClient.Config
import PlatformClient.Http.Request
import PlatformClient.Service
import PlatformClient.Transport.Target

namespace PlatformClient

/-! ## Messages -/

/-- A header field as it is sent or received: a name in lower case, and the bytes of its value. -/
structure HeaderField where
  name : String
  value : Bytes
  deriving DecidableEq, Repr

/-- Why a header cannot be sent. -/
inductive FieldProblem where
  | badName
  | badValue
  deriving DecidableEq, Repr

/-- The wording of a problem. -/
def FieldProblem.message : FieldProblem → String
  | .badName => "invalid HTTP header name"
  | .badValue => "failed to parse header value"

namespace HeaderField

/-- The most bytes that a name may have. -/
def nameLimit : Nat := 65535

/-- Whether a text can be the name of a field. -/
def isName (name : String) : Bool :=
  isToken (Utf8.encode name) && (Utf8.encode name).length ≤ nameLimit

/-- Bytes that a value may have: all but controls; tab is no control here. -/
def isValueByte (b : UInt8) : Bool := (0x20 ≤ b && b != 0x7F) || b == 0x09

/-- A name in lower case. -/
def lowerCase (name : String) : String := String.ofList (name.toList.map Char.toLower)

/-- The field of a header; a bad name counts before a bad value. -/
def ofEntry (entry : String × String) : Except FieldProblem HeaderField :=
  if !isName entry.1 then .error .badName
  else if !(Utf8.encode entry.2).all isValueByte then .error .badValue
  else .ok ⟨lowerCase entry.1, Utf8.encode entry.2⟩

end HeaderField

/-- A request as it is handed to the connection (`http::Request`). -/
structure Message where
  method : Method
  target : Target
  fields : List HeaderField
  body : Bytes
  deriving DecidableEq

namespace Message

/-- The message of a request whose headers are taken in the order of `entries`. -/
def ofEntries (r : Request) (entries : List (String × String)) : Except Error Message := do
  let target ← (Target.of r.url.text).mapError fun p => .invalidRequest p.message
  let fields ← (entries.mapM HeaderField.ofEntry).mapError fun p => .invalidRequest p.message
  return ⟨r.method, target, fields, r.body.getD []⟩

/-- The message of a request. -/
def of (r : Request) : Except Error Message := ofEntries r r.headers.entries

/-- The method that asks for a tunnel to an authority. -/
def tunnelMethod : String := "CONNECT"

/-- Whether a message is for a tunnel. -/
def isTunnel (m : Message) : Bool := m.method.name == tunnelMethod

/-- Whether a message says where to send it: a tunnel needs no more than an authority. -/
def isAddressed (m : Message) : Bool :=
  match m.target with
  | .absolute .. => true
  | .authority _ => m.isTunnel

end Message

/-! ## Headers of replies -/

/-- Bytes of a readable value: visible ASCII, space and tab. -/
def HeaderField.isReadableByte (b : UInt8) : Bool := (0x20 ≤ b && b ≤ 0x7E) || b == 0x09

/-- Whether a value can be read as text. -/
def HeaderField.isReadable (f : HeaderField) : Bool := f.value.all isReadableByte

/-- The field as an entry of a header map. -/
def HeaderField.entry (f : HeaderField) : String × String :=
  (lowerCase f.name, String.ofList (f.value.map fun b => Char.ofNat b.toNat))

/-- The header map of received fields. -/
def Headers.ofFields (fields : List HeaderField) : Headers :=
  .ofList ((fields.filter HeaderField.isReadable).map HeaderField.entry)

/-! ## Bodies of replies -/

/-- A part of a body as it arrives. -/
inductive Frame where
  | data (bytes : Bytes)
  | trailers
  | lost
  deriving DecidableEq, Repr

/-- Why a body cannot be read to its end. -/
inductive BodyProblem where
  | limitExceeded
  | connectionLost
  deriving DecidableEq, Repr

/-- The wording of a problem. -/
def BodyProblem.message : BodyProblem → String
  | .limitExceeded => "length limit exceeded"
  | .connectionLost => "error reading a body from connection"

/-- The error of a body that cannot be read to its end. -/
def BodyProblem.error (status : Nat) (p : BodyProblem) : Error :=
  .connection s!"reading body of HTTP {status} response: {p.message}"

/-- Whether a number of bytes is within a bound. -/
def isWithin (bound : Option Nat) (n : Nat) : Bool := bound.all (n ≤ ·)

namespace Frame

/-- The items of the stream that frames become. -/
def items (status : Nat) (bound : Option Nat) : List Frame → List (Except Error Bytes)
  | [] => []
  | .data bytes :: rest =>
    if isWithin bound bytes.length then
      .ok bytes :: items status (bound.map (· - bytes.length)) rest
    else [.error (BodyProblem.limitExceeded.error status)]
  | .trailers :: rest => .ok [] :: items status bound rest
  | .lost :: _ => [.error (BodyProblem.connectionLost.error status)]

end Frame

/-! ## Replies -/

/-- What a server sends back. -/
structure Reply where
  status : Nat
  fields : List HeaderField
  frames : List Frame
  deriving DecidableEq, Repr

/-- The response that a reply becomes. -/
def Reply.response (bound : Option Nat) (r : Reply) : Response :=
  ⟨r.status, .ofFields r.fields, .stream (Frame.items r.status bound r.frames)⟩

/-! ## Peers -/

/-- What becomes of a message. -/
inductive Delivery where
  /-- No connection can be made. -/
  | refused
  /-- A connection is made, but no reply comes in time. -/
  | silent
  /-- The connection ends without a well-formed head of a reply. -/
  | broken
  | answered (reply : Reply)
  deriving DecidableEq, Repr

/-- The other side of a connection. -/
abbrev Peer := Message → Delivery

/-- The peer that nobody can connect to. -/
def Peer.unreachable : Peer := fun _ => .refused

/-! ## Sending requests -/

namespace Exchange

/-- Why a message could not be exchanged. -/
inductive Problem where
  | notAddressed
  | notConnected
  | notAnswered
  deriving DecidableEq, Repr

/-- The wording of a problem. -/
def Problem.message : Problem → String
  | .notAddressed => "client error (UserAbsoluteUriRequired)"
  | .notConnected => "client error (Connect)"
  | .notAnswered => "client error (SendRequest)"

/-- The error of a problem. -/
def Problem.error (p : Problem) : Error := .connection p.message

/-- The message to send for a request, if there is one and it can be sent somewhere. -/
def dispatch (r : Request) : Except Error Message := do
  let m ← Message.of r
  if !m.isAddressed then .error Problem.notAddressed.error
  else if !m.target.isReachable then .error Problem.notConnected.error
  else .ok m

/-- The result of what became of a message. -/
def receive (bound : Option Nat) : Delivery → Except Error Response
  | .refused => .error Problem.notConnected.error
  | .silent => .error .timeout
  | .broken => .error Problem.notAnswered.error
  | .answered reply => .ok (reply.response bound)

/-- Send a request to a peer. -/
def perform (peer : Peer) (config : Config) (r : Request) : Run Response :=
  match dispatch r with
  | .error e => .of (.error e)
  | .ok m => ⟨receive config.maxBodySize (peer m), 0, [], [r]⟩

end Exchange

/-- The service that sends requests to a peer. -/
def Service.transport (peer : Peer) (config : Config) : Service :=
  { ready := .ok (), call := Exchange.perform peer config }

end PlatformClient
