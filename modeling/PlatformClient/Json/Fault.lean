/-
  What can be wrong with a JSON text, and where.

  1. **Causes** say what is wrong, as data.  `Cause.message` is the one place with the wording.
  2. **Positions.**  A reader works on what is left of a text, so a fault keeps the number of bytes
     left when it arose; `Place.of` turns that into a line and a column of the whole text.  Two
     conventions occur: *here*, before the next byte, and *peek*, behind it (at the end of the text
     the two agree).
  3. **Paths** lead from the root to the place being read: member names, indices, and `?` where a
     member's name was not known yet.  A fault starts with the empty path, and each container on
     the way out puts its own step in front.
-/
import PlatformClient.Json.Basic
import PlatformClient.Text.Utf8
import PlatformClient.Text.Characters

namespace PlatformClient.Json

/-! ## Causes -/

/-- What stands in a text where something else was expected. -/
inductive Found where
  | null
  | bool (b : Bool)
  | number (n : Number)
  | text (s : String)
  | array
  | object
  deriving DecidableEq, Repr

/-- Why a text cannot be read. -/
inductive Cause where
  | endInArray
  | endInObject
  | endInText
  | endInValue
  | expectedColon
  | expectedCommaOrBracket
  | expectedCommaOrBrace
  | expectedWord
  | expectedValue
  | badEscape
  | badNumber
  | outOfRange
  /-- A text is not UTF-8; `tail` bytes of it follow its longest well-formed start. -/
  | badCodePoint (tail : Nat)
  | controlCharacter
  | keyNotText
  | loneSurrogate
  | surrogateCut
  | trailingComma
  | trailingCharacters
  | tooDeep
  | wrongType (found : Found) (expected : String)
  | wrongValue (n : Int) (expected : String)
  | wrongLength (n : Nat) (expected : String)
  | missingField (name : String)
  | duplicateField (name : String)
  deriving DecidableEq, Repr

/-- How a message names what it found. -/
def Found.describe : Found → String
  | .null => "null"
  | .bool b => s!"boolean `{b}`"
  | .number (.int n) => s!"integer `{n}`"
  | .number (.float x) => "floating point `" ++ x.text ++ "`"
  | .text s => "string " ++ Text.quote s
  | .array => "sequence"
  | .object => "map"

/-- The wording of a cause. -/
def Cause.message : Cause → String
  | .endInArray => "EOF while parsing a list"
  | .endInObject => "EOF while parsing an object"
  | .endInText => "EOF while parsing a string"
  | .endInValue => "EOF while parsing a value"
  | .expectedColon => "expected `:`"
  | .expectedCommaOrBracket => "expected `,` or `]`"
  | .expectedCommaOrBrace => "expected `,` or `\x7d`"
  | .expectedWord => "expected ident"
  | .expectedValue => "expected value"
  | .badEscape => "invalid escape"
  | .badNumber => "invalid number"
  | .outOfRange => "number out of range"
  | .badCodePoint _ => "invalid unicode code point"
  | .controlCharacter => "control character (\\u0000-\\u001F) found while parsing a string"
  | .keyNotText => "key must be a string"
  | .loneSurrogate => "lone leading surrogate in hex escape"
  | .surrogateCut => "unexpected end of hex escape"
  | .trailingComma => "trailing comma"
  | .trailingCharacters => "trailing characters"
  | .tooDeep => "recursion limit exceeded"
  | .wrongType found expected => s!"invalid type: {found.describe}, expected {expected}"
  | .wrongValue n expected => s!"invalid value: integer `{n}`, expected {expected}"
  | .wrongLength n expected => s!"invalid length {n}, expected {expected}"
  | .missingField name => s!"missing field `{name}`"
  | .duplicateField name => s!"duplicate field `{name}`"

/-! ## Paths -/

/-- One step from a value to a part of it. -/
inductive Step where
  | member (name : String)
  | index (i : Nat)
  | unknown
  deriving DecidableEq, Repr

/-- The steps from the root to a place. -/
abbrev Path := List Step

/-- A step in writing, apart from the dot before it. -/
def Step.text : Step → String
  | .member name => name
  | .index i => s!"[{i}]"
  | .unknown => "?"

/-- Whether a step is set off by a dot from the one before it. -/
def Step.dotted : Step → Bool
  | .index _ => false
  | _ => true

/-- A path in writing: the root alone is a dot. -/
def pathText : Path → String
  | [] => "."
  | first :: rest =>
    rest.foldl (fun t step => t ++ (if step.dotted then "." else "") ++ step.text) first.text

/-! ## Faults -/

/-- A fault: its cause, the number of bytes left when it arose, and the path to its place. -/
structure Fault where
  cause : Cause
  left : Nat
  path : Path
  deriving DecidableEq, Repr

/-- A fault before the next byte of what is left. -/
def Fault.here (cause : Cause) (rest : Bytes) : Fault := ⟨cause, rest.length, []⟩

/-- A fault behind the next byte of what is left, if there is one. -/
def Fault.peek (cause : Cause) (rest : Bytes) : Fault := ⟨cause, rest.length - 1, []⟩

/-- The same fault, seen from the container around it. -/
def Fault.inside (step : Step) (f : Fault) : Fault := { f with path := step :: f.path }

/-- A place in a text: lines count from 1, columns from 0. -/
structure Place where
  line : Nat
  column : Nat
  deriving DecidableEq, Repr

/-- The place in `text` before its last `left` bytes. -/
def Place.of (text : Bytes) (left : Nat) : Place :=
  let before := text.take (text.length - left)
  ⟨1 + before.count 0x0A, (before.reverse.takeWhile (· ≠ 0x0A)).length⟩

/-- A cause, and its place if it has one. -/
structure Problem where
  cause : Cause
  place : Option Place
  deriving DecidableEq, Repr

/-- The wording of a problem. -/
def Problem.message (p : Problem) : String :=
  match p.place with
  | none => p.cause.message
  | some ⟨line, column⟩ => s!"{p.cause.message} at line {line} column {column}"

/-- The problem a fault is in the whole text.  For ill-formed UTF-8 the column points to the end of
    the well-formed start of the text, counted back from the closing quote. -/
def Fault.problem (f : Fault) (text : Bytes) : Problem :=
  let place := Place.of text f.left
  match f.cause with
  | .badCodePoint tail => ⟨f.cause, some ⟨place.line, place.column - tail⟩⟩
  | cause => ⟨cause, some place⟩

example : pathText [.member "errors", .index 0, .unknown] = "errors[0].?" := by decide +kernel
example : Place.of [0x7B, 0x0A, 0x20, 0x31] 1 = ⟨2, 1⟩ := by decide +kernel

end PlatformClient.Json
