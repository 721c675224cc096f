/-
  Percent encoding — bytes as `%` and two hexadecimal digits — and the encoding of queries.

  Each part of a URL has its own set of ASCII characters that may not stand for themselves; what
  lies beyond ASCII is always written by its UTF-8 bytes.  Decoding turns every `%` with two digits
  back into a byte and leaves any other `%` alone.

  A query made of pairs is in form encoding (`Form`): the pairs are joined by `&`, each a name, `=`,
  and a value.  Letters, digits and `*-._` stand for themselves, a space is written `+`, and every
  other byte of a text's UTF-8 is percent encoded; so neither of the two separators can occur inside
  a name or value.  `Form.parsePairs` reads a query back: at each `&`, then at the first `=` of a
  piece.
-/
import PlatformClient.Json.Text

namespace PlatformClient.Url

/-! ## Encoding -/

/-- A hexadecimal digit, upper case. -/
def hexDigit (n : Nat) : Char := (Nat.digitChar n).toUpper

/-- A byte in percent encoding. -/
def percentByte (b : UInt8) : List Char := ['%', hexDigit (b.toNat / 16), hexDigit (b.toNat % 16)]

/-- Characters that are encoded everywhere: controls, and all that is not ASCII. -/
def isControl (c : Char) : Bool := c.toNat < 0x20 || 0x7E < c.toNat

/-- What is encoded in a fragment. -/
def inFragment (c : Char) : Bool := isControl c || [' ', '"', '<', '>', '`'].contains c

/-- What is encoded in a query. -/
def inQuery (c : Char) : Bool := isControl c || [' ', '"', '#', '<', '>'].contains c

/-- What is encoded in the query of a URL with a special scheme. -/
def inSpecialQuery (c : Char) : Bool := inQuery c || c == '\''

/-- What is encoded in a path. -/
def inPath (c : Char) : Bool := inFragment c || ['#', '?', '\x7b', '\x7d'].contains c

/-- What is encoded in a user name or password. -/
def inUserinfo (c : Char) : Bool :=
  inPath c || ['/', ':', ';', '=', '@', '[', '\\', ']', '^', '|'].contains c

/-- A text with the characters of a set in percent encoding. -/
def percentEncode (escapes : Char → Bool) (cs : List Char) : List Char :=
  cs.flatMap fun c => if escapes c then (String.utf8EncodeChar c).flatMap percentByte else [c]

/-! ## Decoding -/

/-- The byte that `%` and two digits spell. -/
def escaped? (b x y : UInt8) : Option UInt8 :=
  if b = 0x25 then do
    let hi ← Json.hexDigit? x
    let lo ← Json.hexDigit? y
    return UInt8.ofNat (hi * 16 + lo)
  else none

/-- Bytes with percent encoding undone. -/
def percentDecode : Bytes → Bytes
  | b :: x :: y :: rest =>
    match escaped? b x y with
    | some c => c :: percentDecode rest
    | none => b :: percentDecode (x :: y :: rest)
  | s => s

example : percentEncode inPath ['a', ' ', 'é'] = "a%20%C3%A9".toList := by decide +kernel
example : percentDecode (Utf8.encode "%41%zz%") = Utf8.encode "A%zz%" := by decide +kernel

/-! ## Names and values in a query -/

namespace Form

/-- Bytes that stand for themselves. -/
def isUnreserved (b : UInt8) : Bool :=
  (0x30 ≤ b && b ≤ 0x39) || (0x41 ≤ b && b ≤ 0x5A) || (0x61 ≤ b && b ≤ 0x7A)
    || [0x2A, 0x2D, 0x2E, 0x5F].contains b

/-- The written form of a byte. -/
def encodeByte (b : UInt8) : List Char :=
  if isUnreserved b then [Char.ofNat b.toNat] else if b = 0x20 then ['+'] else percentByte b

/-- The written form of a name or value. -/
def encode (text : String) : List Char := (Utf8.encode text).flatMap encodeByte

/-- The written form of a pair. -/
def encodePair (name value : String) : List Char := encode name ++ '=' :: encode value

/-- The bytes of a written name or value. -/
def decode (cs : List Char) : Bytes :=
  percentDecode ((Utf8.encode (String.ofList cs)).map fun b => if b = 0x2B then 0x20 else b)

/-- A piece of a query as name and value: cut at the first `=`, the value empty if there is none. -/
def parsePair (piece : List Char) : Bytes × Bytes :=
  (decode (piece.takeWhile (· ≠ '=')), decode ((piece.dropWhile (· ≠ '=')).drop 1))

/-- The pairs of a query. -/
def parsePairs (query : List Char) : List (Bytes × Bytes) := (query.splitOn '&').map parsePair

example : encodePair "a b" "ü&=" = "a+b=%C3%BC%26%3D".toList := by decide +kernel
example : parsePairs (encodePair "a b" "ü&=") = [(Utf8.encode "a b", Utf8.encode "ü&=")] := by
  decide +kernel

end Form

end PlatformClient.Url
