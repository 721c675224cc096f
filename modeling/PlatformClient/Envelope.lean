/-
  The error envelopes of the platform's backends, and the failures that come of them.

  Each backend describes an error by a JSON object of its own shape:

    * **v2** — `code`, `description` and `error_code`;
    * **v3** — `errors`, an array of entries with `code`, `detail` and `title`;
    * **uaa** — `error` and `error_description`.

  `Schema` names the shape, `Envelope` holds what an object of that shape says, and
  `Schema.reader` reads it.  Codes are signed integers of 64 bits.  A v2 envelope and a v3 entry are
  records of one shape, an integer and two texts, under different names (`codedRecord`).

  A payload is decoded with one schema, all or nothing: it either yields the whole envelope or a
  reason.  In order:

  1. one byte order mark at the very front is dropped;
  2. behind white space, form feeds included, a payload has to go on with a brace — a record could
     also be written as an array, but an error payload is an object;
  3. the envelope is read, and nothing but white space of JSON (no form feed) may follow it;
  4. a v3 envelope without entries says nothing and is refused.

  An error response is classified as exactly one `Failure`: the envelope of the expected schema if its
  payload decodes as one, and otherwise the payload's text, whatever it is.
-/
import PlatformClient.Json.Value

namespace PlatformClient

/-- Which shape error payloads have. -/
inductive Schema where
  | v2
  | v3
  | uaa
  deriving DecidableEq, Repr

/-- The name of a schema in messages. -/
def Schema.name : Schema → String
  | .v2 => "v2"
  | .v3 => "v3"
  | .uaa => "uaa"

/-! ## What an envelope says -/

/-- An error of the second version of the controller's interface. -/
structure V2Error where
  code : Int
  description : String
  errorCode : String
  deriving DecidableEq, Repr

/-- One error of the third version of the controller's interface. -/
structure V3Error where
  code : Int
  detail : String
  title : String
  deriving DecidableEq, Repr

/-- An error of the authorization server. -/
structure UaaError where
  error : String
  description : String
  deriving DecidableEq, Repr

/-- What an error payload says. -/
inductive Envelope where
  | v2 (e : V2Error)
  | v3 (entries : List V3Error)
  | uaa (e : UaaError)
  deriving DecidableEq, Repr

/-- The schema an envelope belongs to. -/
def Envelope.schema : Envelope → Schema
  | .v2 _ => .v2
  | .v3 _ => .v3
  | .uaa _ => .uaa

def V2Error.message (e : V2Error) : String := s!"{e.errorCode}({e.code}): {e.description}"

def V3Error.message (e : V3Error) : String := s!"{e.title}({e.code}): {e.detail}"

def UaaError.message (e : UaaError) : String := s!"{e.error}: {e.description}"

/-- What stands between two entries of a v3 envelope. -/
def V3Error.separator : String := ", "

/-- Write an entry behind what is written already: the separator comes before every entry but the
    first. -/
def V3Error.append (written : String) (entry : V3Error × Nat) : String :=
  (if 0 < entry.2 then written ++ separator else written) ++ entry.1.message

/-- The text of entries, one after the other in their order. -/
def V3Error.messages (entries : List V3Error) : String := entries.zipIdx.foldl append ""

/-- The text of an envelope. -/
def Envelope.message : Envelope → String
  | .v2 e => e.message
  | .v3 entries => V3Error.messages entries
  | .uaa e => e.message

/-! ## Reading envelopes -/

open Json

/-- A field that has to be there when the record ends. -/
def required {α : Type} (name : String) : Option α → Except String α
  | none => .error name
  | some a => .ok a

/-- The fields of a coded record as they come in: an integer and two texts. -/
structure CodedParts where
  code : Option Int
  first : Option String
  second : Option String

/-- A record of an integer `code` and two texts.  Of several missing fields the first in this order
    is told. -/
def codedRecord {α : Type} (name first second : String) (make : Int → String → String → α) :
    Record CodedParts α where
  name := name
  fields := [
    .of "code" CodedParts.code (fun n st => { st with code := some n }) (.integer int64),
    .of first CodedParts.first (fun t st => { st with first := some t }) .text,
    .of second CodedParts.second (fun t st => { st with second := some t }) .text]
  start := ⟨none, none, none⟩
  finish st := do
    let code ← required "code" st.code
    let a ← required first st.first
    let b ← required second st.second
    return make code a b

/-- The record of a v2 envelope (`ClientV2Envelope`). -/
def v2Record : Record CodedParts V2Error :=
  codedRecord "ClientV2Envelope" "description" "error_code" V2Error.mk

/-- The record of a v3 entry (`ClientV3Error`). -/
def v3EntryRecord : Record CodedParts V3Error :=
  codedRecord "ClientV3Error" "detail" "title" V3Error.mk

/-- The record of a v3 envelope (`ClientV3Envelope`): the entries in the order of the array. -/
def v3Record : Record (Option (List V3Error)) (List V3Error) where
  name := "ClientV3Envelope"
  fields := [.of "errors" id (fun es _ => some es) (.array (.record v3EntryRecord))]
  start := none
  finish := required "errors"

/-- The fields of a uaa envelope as they come in. -/
structure UaaParts where
  error : Option String
  description : Option String

/-- The record of a uaa envelope. -/
def uaaRecord : Record UaaParts UaaError where
  name := "UaaEnvelope"
  fields := [
    .of "error" UaaParts.error (fun t st => { st with error := some t }) .text,
    .of "error_description" UaaParts.description (fun t st => { st with description := some t })
      .text]
  start := ⟨none, none⟩
  finish st := do
    let error ← required "error" st.error
    let description ← required "error_description" st.description
    return ⟨error, description⟩

/-- The reader of the envelopes of a schema. -/
def Schema.reader : Schema → Reader Envelope
  | .v2 => (Reader.record v2Record).map .v2
  | .v3 => (Reader.record v3Record).map .v3
  | .uaa => (Reader.record uaaRecord).map .uaa

/-! ## Decoding -/

/-- Why a payload does not decode. -/
inductive DecodeError where
  | notAnObject
  | json (misread : Json.Misread)
  | emptyErrors
  deriving DecidableEq, Repr

/-- The wording of a reason. -/
def DecodeError.message : DecodeError → String
  | .notAnObject => "error payload is not a JSON object"
  | .json m => s!"invalid error payload at '{Json.pathText m.path}': {m.problem.message}"
  | .emptyErrors => "error payload has an empty 'errors' array"

namespace Envelope

/-- The byte order mark in UTF-8. -/
def byteOrderMark : Bytes := [0xEF, 0xBB, 0xBF]

/-- A payload without one leading byte order mark. -/
def dropMark (payload : Bytes) : Bytes :=
  if byteOrderMark.isPrefixOf payload then payload.drop byteOrderMark.length else payload

/-- White space before a payload's object: that of JSON, and form feed. -/
def isLeadingBlank (b : UInt8) : Bool :=
  b = 0x20 || b = 0x09 || b = 0x0A || b = 0x0C || b = 0x0D

/-- Whether a text starts, behind white space, with a brace. -/
def opensObject (s : Bytes) : Bool := (s.dropWhile isLeadingBlank).head? == some 0x7B

/-- A v3 envelope has at least one entry; the other envelopes have nothing to check (`validate`). -/
def validate : Envelope → Except DecodeError Envelope
  | .v3 [] => .error .emptyErrors
  | e => .ok e

/-- The envelope in a payload without byte order mark, by the reader of its schema (`decode_as`). -/
def decodeObject (schema : Schema) (s : Bytes) : Except DecodeError Envelope :=
  if opensObject s then
    match schema.reader.readWhole s with
    | .error m => .error (.json m)
    | .ok e => e.validate
  else .error .notAnObject

/-- The envelope in a payload (`decode`). -/
def decode (schema : Schema) (payload : Bytes) : Except DecodeError Envelope :=
  decodeObject schema (dropMark payload)

end Envelope

/-! ## Failures -/

/-- A classified error response, with the status of the response. -/
inductive Failure where
  /-- The payload is an envelope: `ClientV2`, `ClientV3` or `Uaa`, as its schema says. -/
  | known (status : Nat) (envelope : Envelope)
  /-- The payload is no envelope of the expected schema, and kept as text (`Unknown`). -/
  | unknown (status : Nat) (payload : String)
  deriving DecidableEq, Repr

namespace Failure

def status : Failure → Nat
  | .known s _ | .unknown s _ => s

/-- The schema whose envelope was decoded, if one was. -/
def schema : Failure → Option Schema
  | .known _ e => some e.schema
  | .unknown .. => none

def message : Failure → String
  | .known _ e => e.message
  | .unknown s _ => s!"Unknown Cloud Foundry Exception (HTTP {s})"

/-- The status is one of a client's error. -/
def isClientError (f : Failure) : Bool := 400 ≤ f.status && f.status ≤ 499

/-- The status is one of a server's error. -/
def isServerError (f : Failure) : Bool := 500 ≤ f.status && f.status ≤ 599

end Failure

end PlatformClient
