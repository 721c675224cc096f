/-
  Targets — URLs in the form in which a request can be sent to them.

  A URL is taken apart once more before a request is sent, by rules that are stricter in some places
  than those of reading URLs (`http::Uri`).  Two forms result:

    * **absolute** — a scheme, `://`, an authority that is not empty, and path and query;
    * **authority alone** — a text without `://` and without any slash, such as `mailto:x@y`.

  An authority is read byte by byte.  Outside brackets, and behind the last `@`, it may have one
  colon and no percent sign; brackets come in one pair, in order.  What follows the authority has no
  character that a target could not have, so it is not looked at; it ends before the first number
  sign, for a target has no fragment.
-/
import PlatformClient.Text.Utf8

namespace PlatformClient

/-- Why no request can be sent to a URL. -/
inductive TargetProblem where
  | empty
  | tooLong
  | schemeTooLong
  | badCharacter
  | badAuthority
  | badFormat
  deriving DecidableEq, Repr

/-- The wording of a problem. -/
def TargetProblem.message : TargetProblem → String
  | .empty => "empty string"
  | .tooLong => "uri too long"
  | .schemeTooLong => "scheme too long"
  | .badCharacter => "invalid uri character"
  | .badAuthority => "invalid authority"
  | .badFormat => "invalid format"

/-- What a request is sent to. -/
inductive Target where
  | absolute (scheme authority pathAndQuery : Bytes)
  | authority (text : Bytes)
  deriving DecidableEq, Repr

namespace Target

/-- The most bytes that a target may have. -/
def lengthLimit : Nat := 65534

/-- The most bytes that a scheme may have. -/
def schemeLimit : Nat := 64

/-! ## Scheme -/

/-- Bytes of a scheme: letters, digits, `+`, `-` and `.`. -/
def isSchemeByte (b : UInt8) : Bool :=
  (0x30 ≤ b && b ≤ 0x39) || (0x41 ≤ b && b ≤ 0x5A) || (0x61 ≤ b && b ≤ 0x7A)
    || [0x2B, 0x2D, 0x2E].contains b

/-- What stands between a scheme and its authority: a colon and two slashes. -/
def schemeMark : Bytes := [0x3A, 0x2F, 0x2F]

/-- A text cut into its scheme and what follows the mark behind it, if it has a scheme. -/
def cutScheme (s : Bytes) : Option (Bytes × Bytes) :=
  let tail := s.dropWhile isSchemeByte
  if schemeMark.isPrefixOf tail then
    some (s.takeWhile isSchemeByte, tail.drop schemeMark.length)
  else none

/-! ## Authority -/

/-- Whether a byte ends an authority: a slash, a question mark or a number sign. -/
def endsAuthority (b : UInt8) : Bool := [0x2F, 0x3F, 0x23].contains b

/-- Bytes that no authority has: controls, space, what is not ASCII, and some punctuation. -/
def isForbidden (b : UInt8) : Bool :=
  b ≤ 0x20 || 0x7F ≤ b || [0x22, 0x3C, 0x3E, 0x5C, 0x5E, 0x60, 0x7B, 0x7C, 0x7D].contains b

/-- The most colons that may follow each other in any part of an authority. -/
def colonLimit : Nat := 8

/-- What has been seen of an authority: colons and percent signs in the part being read, brackets in
    all of it. -/
structure Scan where
  colons : Nat
  percent : Bool
  opened : Bool
  closed : Bool
  deriving DecidableEq, Repr

/-- Nothing seen yet. -/
def Scan.start : Scan := ⟨0, false, false, false⟩

/-- Take one byte of an authority. -/
def Scan.step (s : Scan) (b : UInt8) : Except TargetProblem Scan :=
  if b = 0x3A then
    if colonLimit ≤ s.colons then .error .badAuthority else .ok { s with colons := s.colons + 1 }
  else if b = 0x5B then
    if s.percent || s.opened then .error .badAuthority else .ok { s with opened := true }
  else if b = 0x5D then
    if !s.opened || s.closed then .error .badAuthority
    else .ok { s with colons := 0, percent := false, closed := true }
  else if b = 0x40 then .ok { s with colons := 0, percent := false }
  else if b = 0x25 then .ok { s with percent := true }
  else if isForbidden b then .error .badCharacter
  else .ok s

/-- Whether an authority may end after what has been seen. -/
def Scan.complete (s : Scan) : Bool := s.opened == s.closed && s.colons ≤ 1 && !s.percent

/-- The authority at the front of a text. -/
def authority? (s : Bytes) : Except TargetProblem Bytes := do
  let text := s.takeWhile fun b => !endsAuthority b
  let seen ← text.foldlM Scan.step .start
  if seen.complete && text.getLast? != some 0x40 then .ok text else .error .badAuthority

/-! ## Targets -/

/-- A text up to its fragment: the number sign and what follows it are dropped. -/
def dropFragment (s : Bytes) : Bytes := s.takeWhile (· ≠ 0x23)

/-- The target that the bytes of a URL are. -/
def ofBytes (s : Bytes) : Except TargetProblem Target :=
  if lengthLimit < s.length then .error .tooLong
  else match cutScheme s with
    | some (scheme, rest) =>
      if schemeLimit < scheme.length then .error .schemeTooLong
      else if rest.isEmpty then .error .empty
      else do
        let text ← authority? rest
        if text.isEmpty then .error .badFormat
        else .ok (.absolute scheme text (dropFragment (rest.drop text.length)))
    | none => do
      let text ← authority? s
      if text.length = s.length then .ok (.authority text) else .error .badFormat

/-- The target that a URL is. -/
def of (url : String) : Except TargetProblem Target := ofBytes (Utf8.encode url)

/-- Whether a connection can be made for a target: only two schemes are known, and an authority alone
    names no scheme that could be unknown. -/
def isReachable : Target → Bool
  | .absolute scheme .. => [Utf8.encode "http", Utf8.encode "https"].contains scheme
  | .authority _ => true

example : of "http://a@b:1/c" = .ok (.absolute (Utf8.encode "http") (Utf8.encode "a@b:1") [0x2F, 0x63]) := by
  cbv
example : of "http://h/c?d#e" =
    .ok (.absolute (Utf8.encode "http") (Utf8.encode "h") (Utf8.encode "/c?d")) := by cbv
example : of "mailto:x@y" = .ok (.authority (Utf8.encode "mailto:x@y")) := by cbv
example : of "file:///x" = .error .badFormat := by cbv
example : of "data://" = .error .empty := by cbv

end Target

end PlatformClient
