/-
  Hosts — domains, IPv4 addresses and IPv6 addresses.

  In a URL with a special scheme the text between the separators is percent-decoded first.

    * In brackets it is an **IPv6** address: eight numbers of 16 bits in hexadecimal, the last two
      of them possibly written as an IPv4 address, and one run of zeros possibly left out (`::`).
    * If its last part is a number, it is an **IPv4** address: one to four numbers, each decimal,
      octal or hexadecimal, where the last one fills all bytes that are left.
    * Otherwise it is a **domain**: ASCII in lower case without forbidden characters, cut into valid
      labels.  A label that starts with `xn--` spells a name that has other characters too, and it
      is valid only if that name is in the form in which names are compared: a name that folding
      would change has another spelling already.

  The spelling of such a name (`Punycode`) is the label's ASCII characters, a hyphen, and then one
  number for each other character, written in base 36 with the least digit first.  The number says
  how many steps to take through the pairs of a code point and a place to insert it.  Where a digit
  ends a number depends on a bias that adapts to the numbers so far.

  Other schemes take a host as it is, apart from percent encoding.  Domains are ASCII here: a host
  with any other character is refused as an invalid domain.
-/
import PlatformClient.Text.Characters
import PlatformClient.Url.Percent

set_option linter.unusedVariables false

namespace PlatformClient.Url

/-- Why a text is no URL. -/
inductive Problem where
  | relative
  | emptyHost
  | badPort
  | badIPv4
  | badIPv6
  | badDomain
  | forbiddenInHost
  deriving DecidableEq, Repr

/-- The wording of a problem. -/
def Problem.message : Problem → String
  | .relative => "relative URL without a base"
  | .emptyHost => "empty host"
  | .badPort => "invalid port number"
  | .badIPv4 => "invalid IPv4 address"
  | .badIPv6 => "invalid IPv6 address"
  | .badDomain => "invalid international domain name"
  | .forbiddenInHost => "invalid domain character"

/-- A host. -/
inductive Host where
  /-- A domain, or the host of a scheme that is not special. -/
  | name (text : String)
  /-- An address of 32 bits. -/
  | ipv4 (address : Nat)
  /-- An address of eight numbers of 16 bits. -/
  | ipv6 (pieces : List Nat)
  deriving DecidableEq, Repr

/-! ## Numbers in a base -/

/-- The value of a digit in a base up to 16. -/
def digitIn? (base : Nat) (c : Char) : Option Nat :=
  match Json.hexDigit? c.toUInt8 with
  | some d => if c.toNat < 0x80 ∧ d < base then some d else none
  | none => none

/-- The number that digits of a base spell. -/
def numberIn? (base : Nat) (cs : List Char) : Option Nat :=
  cs.foldlM (fun n c => (digitIn? base c).map (n * base + ·)) 0

/-! ## IPv4 -/

/-- A number of an IPv4 address: `0x` marks hexadecimal, another leading `0` octal; nothing behind
    the mark is zero. -/
def ipv4Number? : List Char → Option Nat
  | [] => none
  | '0' :: 'x' :: rest | '0' :: 'X' :: rest => numberIn? 16 rest
  | '0' :: c :: rest => numberIn? 8 (c :: rest)
  | cs => numberIn? 10 cs

/-- Whether the last part of a domain, not counting an empty one at its end, is a number. -/
def endsInNumber (domain : List Char) : Bool :=
  let isNumber (part : List Char) : Bool :=
    (!part.isEmpty && part.all Char.isDigit) || (ipv4Number? part).isSome
  match (domain.splitOn '.').reverse with
  | [] => false
  | [] :: last :: _ => isNumber last
  | last :: _ => isNumber last

/-- The address that numbers spell: all but the last are bytes, and the last fills the rest. -/
def ipv4Address? (numbers : List Nat) : Option Nat :=
  match numbers.reverse with
  | [] => none
  | last :: front =>
    if 3 < front.length then none
    else if front.any (255 < ·) || Nat.pow 256 (4 - front.length) ≤ last then none
    else some (front.foldr (fun n a => a * 256 + n) 0 * Nat.pow 256 (4 - front.length) + last)

/-- The IPv4 address of a domain that ends in a number. -/
def ipv4? (domain : List Char) : Option Nat :=
  let parts := domain.splitOn '.'
  let parts := if parts.getLast? == some [] then parts.dropLast else parts
  if 4 < parts.length then none else (parts.mapM ipv4Number?).bind ipv4Address?

/-! ## IPv6 -/

/-- A decimal byte of an IPv4 address inside an IPv6 address: no leading zeros. -/
def decimalByte? (cs : List Char) : Option Nat :=
  match cs with
  | [] => none
  | '0' :: _ :: _ => none
  | _ => (numberIn? 10 cs).filter (· ≤ 255)

/-- The two numbers of an IPv4 address at the end of an IPv6 address. -/
def embeddedIPv4? (cs : List Char) : Option (List Nat) := do
  match ← (cs.splitOn '.').mapM decimalByte? with
  | [a, b, c, d] => some [a * 256 + b, c * 256 + d]
  | _ => none

/-- A number of an IPv6 address: one to four hexadecimal digits. -/
def ipv6Piece? (cs : List Char) : Option Nat :=
  if cs.isEmpty || 4 < cs.length then none else numberIn? 16 cs

/-- The numbers on one side of a gap; `last` says whether the address ends with them. -/
def ipv6Side? (last : Bool) (cs : List Char) : Option (List Nat) :=
  if cs.isEmpty then some []
  else
    let parts := cs.splitOn ':'
    match parts.getLast? with
    | none => none
    | some tail =>
      if last && tail.contains '.' then do
        let front ← parts.dropLast.mapM ipv6Piece?
        let back ← embeddedIPv4? tail
        return front ++ back
      else parts.mapM ipv6Piece?

/-- A text cut at its first `::`. -/
def cutGap : List Char → Option (List Char × List Char)
  | ':' :: ':' :: rest => some ([], rest)
  | [] => none
  | c :: rest => (cutGap rest).map fun (a, b) => (c :: a, b)

/-- The eight numbers of an IPv6 address. -/
def ipv6? (cs : List Char) : Option (List Nat) :=
  match cutGap cs with
  | none => (ipv6Side? true cs).filter (·.length = 8)
  | some (left, right) => do
    let front ← ipv6Side? false left
    let back ← ipv6Side? true right
    let known := front.length + back.length
    if 7 < known then none else some (front ++ List.replicate (8 - known) 0 ++ back)

/-- The longest run of zeros, at least two long: its start and length.  The first one wins. -/
def longestZeros (pieces : List Nat) : Option (Nat × Nat) :=
  let runs := (List.range pieces.length).map fun i => (i, ((pieces.drop i).takeWhile (· = 0)).length)
  runs.foldl (fun best (i, n) =>
    if n < 2 then best
    else match best with
      | none => some (i, n)
      | some (_, m) => if m < n then some (i, n) else best) none

/-- Numbers of an IPv6 address, written with colons between them. -/
def ipv6Run (pieces : List Nat) : List Char :=
  List.intercalate [':'] (pieces.map (Nat.toDigits 16))

/-- The written form of an IPv6 address: the longest run of zeros is left out. -/
def ipv6Text (pieces : List Nat) : List Char :=
  match longestZeros pieces with
  | none => ipv6Run pieces
  | some (i, n) => ipv6Run (pieces.take i) ++ [':', ':'] ++ ipv6Run (pieces.drop (i + n))

/-- The written form of an IPv4 address. -/
def ipv4Text (address : Nat) : String :=
  ".".intercalate ([3, 2, 1, 0].map fun i => Nat.repr (address / Nat.pow 256 i % 256))

/-- The written form of a host. -/
def Host.text : Host → String
  | .name t => t
  | .ipv4 a => ipv4Text a
  | .ipv6 ps => String.ofList ('[' :: ipv6Text ps ++ [']'])

/-! ## Punycode -/

namespace Punycode

/-- The value of a digit, letters in lower case. -/
def digit? (c : Char) : Option Nat :=
  if 'a' ≤ c ∧ c ≤ 'z' then some (c.toNat - 'a'.toNat)
  else if '0' ≤ c ∧ c ≤ '9' then some (c.toNat - '0'.toNat + 26)
  else none

/-- The least value a digit needs to go on with the number, at a position `k` counted in steps
    of 36. -/
def threshold (k bias : Nat) : Nat := min (max (k - bias) 1) 26

/-- Scaling for the bias: how often `delta` has to be divided by 35, and what is left of it. -/
def shrink (delta k : Nat) : Nat × Nat :=
  if 455 < delta then shrink (delta / 35) (k + 36) else (delta, k)
  termination_by delta
  decreasing_by exact Nat.div_lt_self (by omega) (by decide)

/-- The bias after a number `delta`, with `count` characters in the label so far. -/
def adapt (delta count : Nat) (first : Bool) : Nat :=
  let delta := if first then delta / 700 else delta / 2
  let (delta, k) := shrink (delta + delta / count) 0
  k + 36 * delta / (delta + 38)

/-- The greatest number that a spelling may reach. -/
def maxNumber : Nat := 0xFFFFFFFF

/-- A number: `value` and `weight` are those of the digits so far, `k` the next position. -/
def number? (bias : Nat) (value weight k : Nat) : List Char → Option (Nat × List Char)
  | [] => none
  | c :: rest => do
    let d ← digit? c
    let value := value + d * weight
    if maxNumber < value then none
    else
      let t := threshold k bias
      if d < t then some (value, rest) else number? bias value (weight * (36 - t)) (k + 36) rest

/-- A number takes at least one character. -/
theorem number?_length_lt {bias value weight k n : Nat} {s rest : List Char}
    (h : number? bias value weight k s = some (n, rest)) : rest.length < s.length := by
  induction s generalizing value weight k with
  | nil => cases h
  | cons c s ih =>
    rw [number?] at h
    cases hd : digit? c with
    | none => rw [hd] at h; cases h
    | some d =>
      simp only [hd, bind, Option.bind] at h
      split at h
      · cases h
      · split at h
        · cases h; exact Nat.lt_succ_self _
        · exact Nat.lt_succ_of_lt (ih h)

/-- Insert the characters that the numbers of `s` name into `label`.  `code` and `place` are the code
    point and the place reached so far. -/
def insertAll (bias code place : Nat) (first : Bool) (label : List Char) (s : List Char) :
    Option (List Char) :=
  if s.isEmpty then some label
  else
    match h : number? bias 0 1 36 s with
    | none => none
    | some (delta, rest) =>
      let count := label.length + 1
      let total := place + delta
      let code := code + total / count
      let place := total % count
      if code < 0x110000 ∧ ¬(0xD800 ≤ code ∧ code ≤ 0xDFFF) then
        insertAll (adapt delta count first) code (place + 1) false
          (label.take place ++ Char.ofNat code :: label.drop place) rest
      else none
  termination_by s.length
  decreasing_by exact number?_length_lt h

/-- A spelling cut at its last hyphen: the ASCII characters, and the numbers.  A hyphen at the very
    front cuts nothing off. -/
def cutLastHyphen (s : List Char) : List Char × List Char :=
  let numbers := (s.reverse.takeWhile (· ≠ '-')).reverse
  let ascii := s.take (s.length - numbers.length - 1)
  if ascii.isEmpty then ([], s) else (ascii, numbers)

/-- The characters of a spelling. -/
def decode (s : List Char) : Option (List Char) :=
  let (ascii, numbers) := cutLastHyphen s
  insertAll 72 0x80 0 true ascii numbers

example : decode "bcher-kva".toList = some "bücher".toList := by decide +kernel

end Punycode

/-! ## Labels -/

/-- Characters that names keep although folding changes them: the sharp s and the final sigma. -/
def keptInNames : List Char := ['\u00df', '\u03c2']

/-- The ranges of the code points that no name has although folding leaves them alone: characters
    that describe others, the ideographic full stop, which separates labels, and the signs that stand
    for what cannot be shown. -/
def excludedRanges : Text.CodeRanges :=
  [(0x1806, 0x1806), (0x2FF0, 0x2FFF), (0x3002, 0x3002), (0x31EF, 0x31EF), (0xFFFC, 0xFFFD)]

/-- Whether a name may have a character beyond ASCII. -/
def isNameChar (c : Char) : Bool :=
  keptInNames.contains c
    || !(Text.isUnprintable c || Text.changesWhenFolded c || excludedRanges.contains c.toNat)

/-- Whether the spelling behind `xn--` is that of a name: one beyond ASCII, of characters that names
    may have, with no mark in front. -/
def isSpelling (spelling : List Char) : Bool :=
  match Punycode.decode spelling with
  | none => false
  | some name =>
    name.any (fun c => 0x80 ≤ c.toNat)
      && name.all (fun c => c.toNat < 0x80 || isNameChar c)
      && name.head?.all (fun c => !Text.isMark c)

/-- Whether a label is valid, in lower case. -/
def isValidLabel (label : List Char) : Bool :=
  match label with
  | 'x' :: 'n' :: '-' :: '-' :: spelling => isSpelling spelling
  | _ => true

example : isValidLabel "xn--bcher-kva".toList = true := by decide +kernel
example : isValidLabel "xn--bcher-kva-".toList = false := by decide +kernel
example : isSpelling "4ca".toList = true ∧ isSpelling "7ba".toList = false := by decide +kernel

/-! ## Domains -/

/-- Characters that no host may have. -/
def isForbiddenInHost (c : Char) : Bool :=
  ['\x00', '\t', '\n', '\r', ' ', '#', '/', ':', '<', '>', '?', '@', '[', '\\', ']', '^', '|'].contains c

/-- Characters that no domain may have. -/
def isForbiddenInDomain (c : Char) : Bool :=
  isForbiddenInHost c || c.toNat ≤ 0x1F || c == '%' || 0x7F ≤ c.toNat

/-- A domain in its normal form. -/
def domain? (cs : List Char) : Option (List Char) :=
  let lower := cs.map Char.toLower
  if lower.any isForbiddenInDomain then none
  else if (lower.splitOn '.').all isValidLabel then some lower
  else none

/-! ## Hosts -/

/-- The IPv6 address in brackets, the opening one removed. -/
def bracketed (cs : List Char) : Except Problem Host :=
  match cs.reverse with
  | ']' :: inner =>
    match ipv6? inner.reverse with
    | some ps => .ok (.ipv6 ps)
    | none => .error .badIPv6
  | _ => .error .badIPv6

/-- The host of a URL with a special scheme. -/
def specialHost (cs : List Char) : Except Problem Host :=
  match cs with
  | '[' :: rest => bracketed rest
  | _ =>
    match Utf8.decode (percentDecode (Utf8.encode (String.ofList cs))) with
    | .error _ => .error .badDomain
    | .ok text =>
      match domain? text.toList with
      | none => .error .badDomain
      | some [] => .error .emptyHost
      | some domain =>
        if endsInNumber domain then
          match ipv4? domain with
          | some a => .ok (.ipv4 a)
          | none => .error .badIPv4
        else .ok (.name (String.ofList domain))

/-- The host of a URL with another scheme. -/
def plainHost (cs : List Char) : Except Problem Host :=
  match cs with
  | '[' :: rest => bracketed rest
  | _ =>
    if cs.any isForbiddenInHost then .error .forbiddenInHost
    else .ok (.name (String.ofList (percentEncode isControl cs)))

example : ipv4? "0x7f.1".toList = some 0x7F000001 := by decide +kernel
example : (ipv6? "::ffff:1.2.3.4".toList).map ipv6Text = some "::ffff:102:304".toList := by
  decide +kernel

end PlatformClient.Url
