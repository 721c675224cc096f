/-
  UTF-8 — one cut of a byte text, and the two readings made from it.

  A byte text is cut from left to right into *pieces*.  A piece is either one scalar value, or one
  maximal ill-formed stretch: the longest start of a well-formed sequence that the text does not
  continue as such a sequence has to go on.  A stretch that the text breaks off is `malformed`; one
  that simply runs into the end of the text is `truncated`.

  1. **`decode`** is the strict reading: the text, or the first piece that is no scalar value.
  2. **`lossy`** is the lenient reading: every ill-formed piece becomes one replacement character.
  3. **`encode`** goes back: the bytes of a text.

  Which bytes may follow which lead byte is the table of well-formed sequences of the Unicode
  standard: overlong forms, surrogates and values above U+10FFFF fail at their second byte.
-/

namespace PlatformClient

/-- A run of bytes as it comes from, or goes to, the network. -/
abbrev Bytes := List UInt8

namespace Utf8

/-! ## Pieces -/

/-- One stretch of a byte text. -/
inductive Piece where
  /-- A complete scalar value. -/
  | scalar (c : Char)
  /-- A stretch of `size` bytes that the next byte does not continue. -/
  | malformed (size : Nat)
  /-- A stretch of `size` bytes that the end of the text cuts short. -/
  | truncated (size : Nat)
  deriving DecidableEq, Repr

/-- What a lead byte promises: its share of the code point, the number of bytes to come, and the
    range of the first of them. -/
structure Lead where
  payload : Nat
  more : Nat
  lo : UInt8
  hi : UInt8
  deriving DecidableEq, Repr

/-- The lead bytes of sequences of two, three and four bytes. -/
def lead? (b : UInt8) : Option Lead :=
  if 0xC2 ≤ b ∧ b ≤ 0xDF then some ⟨b.toNat - 0xC0, 1, 0x80, 0xBF⟩
  else if b = 0xE0 then some ⟨0, 2, 0xA0, 0xBF⟩
  else if b = 0xED then some ⟨0xD, 2, 0x80, 0x9F⟩
  else if 0xE1 ≤ b ∧ b ≤ 0xEF then some ⟨b.toNat - 0xE0, 2, 0x80, 0xBF⟩
  else if b = 0xF0 then some ⟨0, 3, 0x90, 0xBF⟩
  else if b = 0xF4 then some ⟨4, 3, 0x80, 0x8F⟩
  else if 0xF1 ≤ b ∧ b ≤ 0xF3 then some ⟨b.toNat - 0xF0, 3, 0x80, 0xBF⟩
  else none

/-- `follow n lo hi code size rest` reads the `n` bytes a sequence still lacks.  Only the first of
    them has a range of its own, `lo` to `hi`; `code` and `size` describe what was read so far. -/
def follow : Nat → UInt8 → UInt8 → Nat → Nat → Bytes → Piece × Bytes
  | 0, _, _, code, _, rest => (.scalar (Char.ofNat code), rest)
  | _ + 1, _, _, _, size, [] => (.truncated size, [])
  | n + 1, lo, hi, code, size, b :: rest =>
    if lo ≤ b ∧ b ≤ hi then follow n 0x80 0xBF (code * 64 + (b.toNat - 0x80)) (size + 1) rest
    else (.malformed size, b :: rest)

/-- The piece that starts with byte `b`, and the bytes after it. -/
def next (b : UInt8) (rest : Bytes) : Piece × Bytes :=
  if b < 0x80 then (.scalar (Char.ofNat b.toNat), rest)
  else match lead? b with
    | none => (.malformed 1, rest)
    | some l => follow l.more l.lo l.hi l.payload 1 rest

theorem follow_length_le (n : Nat) (lo hi : UInt8) (code size : Nat) (rest : Bytes) :
    (follow n lo hi code size rest).2.length ≤ rest.length := by
  induction n generalizing lo hi code size rest with
  | zero => simp [follow]
  | succ n ih =>
    cases rest with
    | nil => simp [follow]
    | cons b rest =>
      rw [follow]
      split
      · exact Nat.le_succ_of_le (ih _ _ _ _ _)
      · exact Nat.le_refl _

/-- A step never lengthens what is left, so the pieces come to an end. -/
theorem next_length_le (b : UInt8) (rest : Bytes) : (next b rest).2.length ≤ rest.length := by
  rw [next]
  split
  · exact Nat.le_refl _
  · split
    · exact Nat.le_refl _
    · exact follow_length_le ..

/-- `cut done s` cuts `s`, behind the pieces `done` (last one first). -/
def cut (done : List Piece) : Bytes → List Piece
  | [] => done.reverse
  | b :: rest => cut ((next b rest).1 :: done) (next b rest).2
  termination_by s => s.length
  decreasing_by exact Nat.lt_succ_of_le (next_length_le b rest)

/-- The pieces of a byte text, in order. -/
def pieces (s : Bytes) : List Piece := cut [] s

/-- What a lenient reader shows for a piece. -/
def Piece.shown : Piece → Char
  | .scalar c => c
  | .malformed _ | .truncated _ => '\uFFFD'

/-! ## The strict and the lenient reading -/

/-- Why a byte text is not UTF-8: what stands at its first ill-formed piece. -/
inductive Fault where
  | malformed (index size : Nat)
  | truncated (index : Nat)
  deriving DecidableEq, Repr

/-- The number of bytes before the first ill-formed piece. -/
def Fault.index : Fault → Nat
  | .malformed i _ | .truncated i => i

/-- The wording of a fault. -/
def Fault.message : Fault → String
  | .malformed i n => s!"invalid utf-8 sequence of {n} bytes from index {i}"
  | .truncated i => s!"incomplete utf-8 byte sequence from index {i}"

/-- The first ill-formed piece, where the first piece starts at `index`. -/
def fault? (index : Nat) : List Piece → Option Fault
  | [] => none
  | .scalar c :: ps => fault? (index + c.utf8Size) ps
  | .malformed n :: _ => some (.malformed index n)
  | .truncated _ :: _ => some (.truncated index)

/-- The strict reading. -/
def decode (s : Bytes) : Except Fault String :=
  match fault? 0 (pieces s) with
  | some f => .error f
  | none => .ok (String.ofList ((pieces s).map Piece.shown))

/-- The lenient reading. -/
def lossy (s : Bytes) : String := String.ofList ((pieces s).map Piece.shown)

/-- The bytes of a text. -/
def encode (text : String) : Bytes := text.toList.flatMap String.utf8EncodeChar

example : decode [0x61, 0xC3, 0xA9] = .ok "aé" := by cbv
example : decode [0x61, 0xE0, 0x80] = .error (.malformed 1 1) := by cbv
example : decode [0xF0, 0x9F, 0x98] = .error (.truncated 0) := by cbv
example : lossy [0xF0, 0x9F, 0x61, 0xFF] = "\uFFFDa\uFFFD" := by decide +kernel

end Utf8

end PlatformClient
