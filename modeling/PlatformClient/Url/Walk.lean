/-
  Paths, walked segment by segment.

  Slashes cut the text of a path into segments, and the path is what is left after a walk along them
  that starts at the root:

    * `.` stays where it is, and `..` goes to the directory above;
    * nothing leads above a drive letter, whatever the scheme;
    * in a `file` URL a drive letter straight at the root becomes a drive: its second character is
      then a colon, and the URL has no host.

  Tabs and line breaks count nowhere, with one exception: in a `file` URL one that stands behind a
  drive letter at the root, and before another character, ends the drive as a slash does.  What
  follows it there is a name even if it reads `.` or `..`, and the host stays.
-/
import PlatformClient.Url.Basic

namespace PlatformClient.Url

/-! ## Characters that do not count -/

/-- Characters that do not count: tabs and line breaks. -/
def isInvisible (c : Char) : Bool := c == '\t' || c == '\n' || c == '\r'

/-- The characters of a text that count. -/
def visible (cs : List Char) : List Char := cs.filter (!isInvisible ·)

/-- A text behind the first of its characters that counts. -/
def dropVisible (cs : List Char) : List Char := (cs.dropWhile isInvisible).drop 1

/-! ## Segments -/

/-- Whether a character separates segments. -/
def isSlash (kind : SchemeKind) (c : Char) : Bool := c == '/' || (kind.isSpecial && c == '\\')

/-- A text without a slash in front. -/
def dropSlash (kind : SchemeKind) : List Char → List Char
  | [] => []
  | c :: rest => if isSlash kind c then rest else c :: rest

/-- A text with every separator of segments turned into a slash. -/
def normalSlashes (kind : SchemeKind) (cs : List Char) : List Char :=
  cs.map fun c => if isSlash kind c then '/' else c

/-- A segment that stands for the current directory. -/
def isSingleDot (s : List Char) : Bool :=
  [['.'], ['%', '2', 'e']].contains (s.map Char.toLower)

/-- A segment that stands for the directory above. -/
def isDoubleDot (s : List Char) : Bool :=
  [['.', '.'], ['.', '%', '2', 'e'], ['%', '2', 'e', '.'], ['%', '2', 'e', '%', '2', 'e']].contains
    (s.map Char.toLower)

/-- A drive letter: a letter, then a colon or a bar. -/
def isDriveLetter : List Char → Bool
  | [c, d] => c.isAlpha && (d == ':' || d == '|')
  | _ => false

/-- Whether a segment starts with a drive letter, and has nothing or a backslash behind it. -/
def startsWithDrive (s : List Char) : Bool :=
  isDriveLetter (s.take 2) && (s[2]?).all (· == '\\')

/-- A segment cut at the tab or line break that ends the drive in it. -/
def cutDrive? (segment : List Char) : Option (List Char × List Char) :=
  match visible segment, dropVisible (dropVisible segment) with
  | c :: ':' :: d :: name, b :: _ =>
    if c.isAlpha && isInvisible b then some ([c, ':'], d :: name) else none
  | _, _ => none

/-! ## The walk -/

/-- How far a walk has come. -/
structure Walk where
  /-- The segments that lead from the root to where the walk is. -/
  path : List (List Char)
  /-- Whether the first of them has become a drive. -/
  onDrive : Bool
  deriving DecidableEq, Repr

namespace Walk

/-- At the root. -/
def root : Walk := ⟨[], false⟩

/-- One directory up, if one is there and it is no drive letter. -/
def up (w : Walk) : Walk :=
  if w.path.getLast?.any startsWithDrive then w else { w with path := w.path.dropLast }

/-- On to a segment of that name. -/
def down (w : Walk) (name : List Char) : Walk := { w with path := w.path ++ [name] }

/-- Along one segment; `last` says that nothing follows it, so that a directory has to be closed. -/
def along (kind : SchemeKind) (w : Walk) (segment : List Char) (last : Bool) : Walk :=
  let atFileRoot := kind == .file && w.path.isEmpty
  let close (w : Walk) := if last then w.down [] else w
  let name := percentEncode inPath (visible segment)
  match if atFileRoot then cutDrive? segment else none with
  | some (drive, name) => (w.down drive).down (percentEncode inPath name)
  | none =>
    if isDoubleDot name then close w.up
    else if isSingleDot name then close w
    else if atFileRoot && isDriveLetter name then ⟨[name.take 1 ++ [':']], true⟩
    else w.down name

/-- Along all of a list of segments. -/
def alongAll (kind : SchemeKind) (w : Walk) : List (List Char) → Walk
  | [] => w
  | [segment] => w.along kind segment true
  | segment :: rest => (w.along kind segment false).alongAll kind rest

/-- The walk along a text, which stands behind the slash of the root. -/
def ofText (kind : SchemeKind) (cs : List Char) : Walk :=
  root.alongAll kind ((normalSlashes kind cs).splitOn '/')

/-- The path of a file URL does not start with empty segments. -/
def dropEmptyFront (kind : SchemeKind) (path : List (List Char)) : List (List Char) :=
  match kind with
  | .file => match path.dropWhile List.isEmpty with
    | [] => [[]]
    | p => p
  | _ => path

/-- The path that a walk took. -/
def toPath (kind : SchemeKind) (w : Walk) : Path :=
  .segments ((dropEmptyFront kind w.path).map String.ofList)

example : (ofText .special "a/./b/../c".toList).path = ["a".toList, "c".toList] := by decide +kernel
example : (ofText .plain "a/C|/../..".toList).path = ["a".toList, "C|".toList, []] := by
  decide +kernel
example : ofText .file "../C|/..".toList = ⟨["C:".toList, []], true⟩ := by decide +kernel
example : ofText .file "C:\t..".toList = ⟨["C:".toList, "..".toList], false⟩ := by decide +kernel

end Walk

end PlatformClient.Url
