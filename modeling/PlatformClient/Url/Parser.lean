/-
  Reading URLs.

  A text is a URL only if it starts with a scheme.  What follows depends on the kind of the scheme:

    * **special** schemes (`http` and the like) have a host behind any number of slashes; a
      backslash counts as a slash, and the path always has a segment;
    * **`file`** has a host, which is usually empty, and its path may start with a drive letter;
    * **other** schemes have a host exactly if two slashes follow, and a path without any structure
      if no slash follows.

  Blanks at either end do not count, nor do tabs and line breaks anywhere, but for the place in the
  path of a `file` URL that `Url.Walk` names.  The parts are cut out one after the other, each
  function returning its part and what is left.
-/
import PlatformClient.Url.Walk

namespace PlatformClient.Url

/-! ## Preparation and scheme -/

/-- Characters that do not count at either end. -/
def isEdge (c : Char) : Bool := c.toNat ≤ 0x20

/-- A text without what does not count at its ends. -/
def trim (cs : List Char) : List Char :=
  ((cs.dropWhile isEdge).reverse.dropWhile isEdge).reverse

/-- Characters of a scheme after the first. -/
def isSchemeChar (c : Char) : Bool := c.isAlphanum || c == '+' || c == '-' || c == '.'

/-- The scheme, in lower case, and what follows its colon. -/
def cutScheme (cs : List Char) : Option (String × List Char) :=
  match cs with
  | [] => none
  | c :: _ =>
    if c.isAlpha then
      match cs.dropWhile isSchemeChar with
      | ':' :: rest => some (String.ofList ((cs.takeWhile isSchemeChar).map Char.toLower), rest)
      | _ => none
    else none

/-! ## Query and fragment -/

/-- Whether a character starts the query or the fragment. -/
def endsPath (c : Char) : Bool := c == '?' || c == '#'

/-- Query and fragment, each encoded: what follows the path. -/
def cutTail (kind : SchemeKind) : List Char → Option String × Option String
  | '?' :: rest =>
    let escapes := if kind.isSpecial then inSpecialQuery else inQuery
    let query := percentEncode escapes (rest.takeWhile (· ≠ '#'))
    let fragment := match rest.dropWhile (· ≠ '#') with
      | _ :: f => some (String.ofList (percentEncode inFragment f))
      | [] => none
    (some (String.ofList query), fragment)
  | '#' :: rest => (none, some (String.ofList (percentEncode inFragment rest)))
  | _ => (none, none)

/-! ## Path -/

/-- The path behind a host. -/
def hostPath (kind : SchemeKind) (cs : List Char) : Path :=
  if cs.isEmpty && !kind.isSpecial then .segments []
  else (Walk.ofText kind (dropSlash kind cs)).toPath kind

/-! ## User, host and port -/

/-- Whether a character ends user, host and port. -/
def endsAuthority (kind : SchemeKind) (c : Char) : Bool := isSlash kind c || endsPath c

/-- The user name and password, encoded; the first colon separates them. -/
def userinfo (cs : List Char) : String × String :=
  let name := cs.takeWhile (· ≠ ':')
  let password := (cs.dropWhile (· ≠ ':')).drop 1
  (String.ofList (percentEncode inUserinfo name), String.ofList (percentEncode inUserinfo password))

/-- What stands before and behind the last `@`. -/
def cutUser (cs : List Char) : Option (List Char) × List Char :=
  if cs.contains '@' then
    let host := (cs.reverse.takeWhile (· ≠ '@')).reverse
    (some (cs.take (cs.length - host.length - 1)), host)
  else (none, cs)

/-- A host and what follows it: a colon ends it, unless it stands in brackets. -/
def cutHost (inside : Bool) : List Char → List Char × List Char
  | [] => ([], [])
  | c :: rest =>
    if c = ':' ∧ ¬inside then ([], c :: rest)
    else
      let (host, tail) := cutHost (if c = '[' then true else if c = ']' then false else inside) rest
      (c :: host, tail)

/-- A port: its digits say a number of 16 bits, or nothing. -/
def portOf (scheme : String) (digits : List Char) : Except Problem (Option Nat) :=
  if digits.isEmpty then .ok none
  else match numberIn? 10 digits with
    | none => .error .badPort
    | some n =>
      if 0xFFFF < n then .error .badPort
      else if defaultPorts.lookup scheme = some n then .ok none
      else .ok (some n)

/-- The port behind a host, and what is left of the text there: a backslash ends a port even where
    it separates nothing. -/
def cutPort (scheme : String) (cs : List Char) : Except Problem (Option Nat × List Char) :=
  match cs with
  | ':' :: rest => do
    let port ← portOf scheme (rest.takeWhile (· ≠ '\\'))
    return (port, rest.dropWhile (· ≠ '\\'))
  | _ => .ok (none, cs)

/-- A URL behind the slashes in front of its host. -/
def afterSlashes (scheme : String) (kind : SchemeKind) (cs : List Char) : Except Problem Url := do
  let (user, hostAndPort) := cutUser (cs.takeWhile (!endsAuthority kind ·))
  let tail := cs.dropWhile (!endsAuthority kind ·)
  if user == some [] && hostAndPort.isEmpty && !tail.isEmpty then .error .emptyHost
  else
    let (username, password) := userinfo (user.getD [])
    let (hostText, portText) := cutHost false hostAndPort
    if kind.isSpecial && hostText.isEmpty then .error .emptyHost
    else
      let host ← if kind.isSpecial then specialHost hostText else plainHost hostText
      if hostText.isEmpty && portText.head? == some ':' then .error .emptyHost
      else
        let (port, stray) ← cutPort scheme portText
        if hostText.isEmpty && !(username.isEmpty && password.isEmpty) then .error .emptyHost
        else
          let rest := stray ++ tail
          let (query, fragment) := cutTail kind (rest.dropWhile (!endsPath ·))
          return {
            scheme, username, password, host := some host, port
            path := hostPath kind (rest.takeWhile (!endsPath ·)), query, fragment }

/-! ## The three kinds -/

/-- A file URL with that host; `cs` is what stands behind the slash of the root. -/
def fileUrlAt (host : Host) (cs : List Char) : Url :=
  let walk := Walk.ofText .file (cs.takeWhile (!endsPath ·))
  let (query, fragment) := cutTail .file (visible (cs.dropWhile (!endsPath ·)))
  ⟨"file", "", "", some (if walk.onDrive then .name "" else host), none, walk.toPath .file, query,
    fragment⟩

/-- A file URL behind its scheme.  Without a host, the slash behind `//` belongs to the path
    already. -/
def fileUrl (cs : List Char) : Except Problem Url :=
  let isSlashAt (i : Nat) : Bool := (visible cs)[i]?.any (isSlash .file)
  if isSlashAt 0 && isSlashAt 1 then
    let cs := dropVisible (dropVisible cs)
    let hostText := visible (cs.takeWhile (!endsAuthority .file ·))
    let rest := cs.dropWhile (!endsAuthority .file ·)
    if hostText.isEmpty || isDriveLetter hostText then .ok (fileUrlAt (.name "") cs)
    else do
      let host ← specialHost hostText
      if host = .name "localhost" then return fileUrlAt (.name "") rest
      else return fileUrlAt host (dropSlash .file rest)
  else if isSlashAt 0 then .ok (fileUrlAt (.name "") (dropVisible cs))
  else .ok (fileUrlAt (.name "") cs)

/-- A URL of another scheme, behind it. -/
def plainUrl (scheme : String) (cs : List Char) : Except Problem Url :=
  match cs with
  | '/' :: '/' :: rest => afterSlashes scheme .plain rest
  | _ =>
    let (query, fragment) := cutTail .plain (cs.dropWhile (!endsPath ·))
    let before := cs.takeWhile (!endsPath ·)
    let path := match before with
      | '/' :: rest => (Walk.ofText .plain rest).toPath .plain
      | _ => .rootless (String.ofList (percentEncode isControl before))
    .ok ⟨scheme, "", "", none, none, path, query, fragment⟩

/-- Read a URL. -/
def parse (text : String) : Except Problem Url :=
  let cs := trim text.toList
  match cutScheme (visible cs) with
  | none => .error .relative
  | some (scheme, rest) =>
    match SchemeKind.of scheme with
    | .special => afterSlashes scheme .special (rest.dropWhile (isSlash .special))
    | .file => fileUrl ((cs.dropWhile (· ≠ ':')).drop 1)
    | .plain => plainUrl scheme rest

end PlatformClient.Url
