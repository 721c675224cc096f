/-
  URLs.

  A URL is a record of its parts, each already in normal form and percent encoded where it has to
  be; `Url.text` writes the parts one after the other.  The path is either a list of segments or, in
  URLs such as `mailto:a@b`, one text without a structure.
-/
import PlatformClient.Url.Host

namespace PlatformClient

/-- The path of a URL. -/
inductive Url.Path where
  /-- Segments, each written behind a slash. -/
  | segments (parts : List String)
  /-- A text that follows the scheme as it is. -/
  | rootless (text : String)
  deriving DecidableEq, Repr

/-- A URL, part by part. -/
structure Url where
  scheme : String
  username : String
  password : String
  host : Option Url.Host
  port : Option Nat
  path : Url.Path
  query : Option String
  fragment : Option String
  deriving DecidableEq, Repr

namespace Url

/-! ## Schemes -/

/-- The special schemes other than `file`, with the port that goes without saying. -/
def defaultPorts : List (String × Nat) :=
  [("http", 80), ("https", 443), ("ws", 80), ("wss", 443), ("ftp", 21)]

/-- What kind of scheme a URL has. -/
inductive SchemeKind where
  | special
  | file
  | plain
  deriving DecidableEq, Repr

/-- The kind of a scheme. -/
def SchemeKind.of (scheme : String) : SchemeKind :=
  if scheme = "file" then .file
  else if (defaultPorts.lookup scheme).isSome then .special
  else .plain

/-- Whether backslashes separate parts as slashes do. -/
def SchemeKind.isSpecial : SchemeKind → Bool
  | .plain => false
  | _ => true

/-! ## Writing -/

/-- The user name and password, with the mark that ends them. -/
def credentials (u : Url) : String :=
  if u.username.isEmpty && u.password.isEmpty then ""
  else u.username ++ (if u.password.isEmpty then "" else ":" ++ u.password) ++ "@"

/-- Everything between scheme and path.  Without a host, a path that starts with an empty segment
    gets a dot in front, lest the segment after it be taken for a host. -/
def authority (u : Url) : String :=
  match u.host with
  | some host =>
    "//" ++ u.credentials ++ host.text ++ (match u.port with
      | some p => ":" ++ Nat.repr p
      | none => "")
  | none =>
    match u.path with
    | .segments ("" :: _ :: _) => "/."
    | _ => ""

/-- The written form of a path. -/
def Path.text : Path → String
  | .segments parts => String.join (parts.map ("/" ++ ·))
  | .rootless t => t

/-- A part that is written behind a mark, if it is there. -/
def marked (mark : String) : Option String → String
  | none => ""
  | some t => mark ++ t

/-- The written form of a URL. -/
def text (u : Url) : String :=
  u.scheme ++ ":" ++ u.authority ++ u.path.text ++ marked "?" u.query ++ marked "#" u.fragment

/-! ## Queries -/

/-- A query with one pair more; a query without text holds no pair yet. -/
def Form.append (query : Option String) (name value : String) : String :=
  let pair := String.ofList (Form.encodePair name value)
  match query with
  | none => pair
  | some q => if q.isEmpty then pair else q ++ "&" ++ pair

/-- A URL with one pair more in its query. -/
def appendQuery (u : Url) (name value : String) : Url :=
  { u with query := some (Form.append u.query name value) }

end Url

end PlatformClient
