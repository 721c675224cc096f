/-
  Readers of single values: integers of a range, booleans, texts, values that may be `null`, and
  values that are passed over.

  A value of another type is named in the fault (`mismatch`).  To name a scalar it has to be read,
  so a malformed scalar of the wrong type is reported as malformed; an array or object of the wrong
  type is not entered.
-/
import PlatformClient.Json.Skip

set_option linter.unusedVariables false

namespace PlatformClient.Json

/-- The fault of a value with first byte `b` where `expected` should stand. -/
def mismatch (expected : String) (b : UInt8) (rest : Bytes) : Fault :=
  let scalar (found : Found) : Except Fault Bytes → Fault
    | .error f => f
    | .ok rest => .here (.wrongType found expected) rest
  let number : Read Number → Fault
    | .error f => f
    | .ok (n, rest) => .here (.wrongType (.number n) expected) rest
  if b = 0x6E then scalar .null (word nullTail rest)
  else if b = 0x74 then scalar (.bool true) (word trueTail rest)
  else if b = 0x66 then scalar (.bool false) (word falseTail rest)
  else if b = 0x2D then number (readNumber true rest)
  else if isDigit b then number (readNumber false (b :: rest))
  else if b = 0x22 then
    match readText rest with
    | .error f => f
    | .ok (t, rest) => .here (.wrongType (.text t) expected) rest
  else if b = 0x5B then .here (.wrongType .array expected) (b :: rest)
  else if b = 0x7B then .here (.wrongType .object expected) (b :: rest)
  else .peek .expectedValue (b :: rest)

/-! ## Integers -/

/-- An integer type: how messages name it, and its bounds. -/
structure IntType where
  name : String
  least : Int
  greatest : Int
  deriving DecidableEq, Repr

/-- Signed integers of 64 bits. -/
def int64 : IntType := ⟨"i64", -0x8000000000000000, 0x7FFFFFFFFFFFFFFF⟩

/-- Unsigned integers of 32 bits. -/
def uint32 : IntType := ⟨"u32", 0, 0xFFFFFFFF⟩

/-- A number as an integer of a type. -/
def IntType.ofNumber (t : IntType) : Read Number → Read Int
  | .error f => .error f
  | .ok (.int n, rest) =>
    if t.least ≤ n ∧ n ≤ t.greatest then .ok (n, rest)
    else .error (.here (.wrongValue n t.name) rest)
  | .ok (.float x, rest) => .error (.here (.wrongType (.number (.float x)) t.name) rest)

/-- An integer with first byte `b`. -/
def IntType.head (t : IntType) (b : UInt8) (rest : Bytes) : Read Int :=
  if b = 0x2D then t.ofNumber (readNumber true rest)
  else if isDigit b then t.ofNumber (readNumber false (b :: rest))
  else .error (mismatch t.name b rest)

/-- A bounded integer comes from a number that was read as an integer. -/
theorem IntType.ofNumber_ok {t : IntType} {r : Read Number} {n : Int} {rest : Bytes}
    (h : t.ofNumber r = .ok (n, rest)) : r = .ok (.int n, rest) := by
  unfold IntType.ofNumber at h
  split at h
  · cases h
  · split at h
    · cases h; rfl
    · cases h
  · cases h

theorem IntType.head_length_le {t : IntType} {b : UInt8} {s rest : Bytes} {n : Int}
    (h : t.head b s = .ok (n, rest)) : rest.length ≤ s.length := by
  unfold IntType.head at h
  split at h
  · exact Nat.le_of_lt (readNumber_length_lt (ofNumber_ok h))
  · split at h
    · exact Nat.lt_succ_iff.mp (readNumber_length_lt (ofNumber_ok h))
    · cases h

/-- The reader of integers of a type. -/
def Reader.integer (t : IntType) : Reader Int := .ofHead t.head IntType.head_length_le

/-! ## Booleans and texts -/

/-- A boolean with first byte `b`. -/
def boolHead (b : UInt8) (rest : Bytes) : Read Bool :=
  if b = 0x74 then (word trueTail rest).map (true, ·)
  else if b = 0x66 then (word falseTail rest).map (false, ·)
  else .error (mismatch "a boolean" b rest)

/-- None of the readers below lengthens what is left; a value's first byte is gone before them. -/
theorem map_word_length_le {α : Type} {a c : α} {expected s rest : Bytes}
    (h : (word expected s).map (a, ·) = .ok (c, rest)) : rest.length ≤ s.length :=
  word_length_le (rest_map_ok_iff.mp h).1

theorem boolHead_length_le {b : UInt8} {s rest : Bytes} {v : Bool}
    (h : boolHead b s = .ok (v, rest)) : rest.length ≤ s.length := by
  unfold boolHead at h
  split at h
  · exact map_word_length_le h
  · split at h
    · exact map_word_length_le h
    · cases h

/-- The reader of booleans. -/
def Reader.bool : Reader Bool := .ofHead boolHead boolHead_length_le

/-- A text with first byte `b`. -/
def textHead (b : UInt8) (rest : Bytes) : Read String :=
  if b = 0x22 then readText rest else .error (mismatch "a string" b rest)

theorem textHead_length_le {b : UInt8} {s rest : Bytes} {t : String}
    (h : textHead b s = .ok (t, rest)) : rest.length ≤ s.length := by
  unfold textHead at h
  split at h
  · exact Nat.le_of_lt (readText_length_lt h)
  · cases h

/-- The reader of texts. -/
def Reader.text : Reader String := .ofHead textHead textHead_length_le

/-! ## Values that may be `null`, and values that are passed over -/

/-- A value that may be `null`: only the first letter decides which it is. -/
def nullOr {α : Type} (r : Reader α) (s : Bytes) : Read (Option α) :=
  match skipBlank s with
  | [] => (r.run s).map fun (a, rest) => (some a, rest)
  | b :: rest =>
    if b = 0x6E then (word nullTail rest).map (none, ·)
    else (r.run s).map fun (a, rest) => (some a, rest)

/-- The reader of a value that may be `null`. -/
def Reader.nullable {α : Type} (r : Reader α) : Reader (Option α) where
  run := nullOr r
  consumes {s a rest} h := by
    unfold nullOr at h
    have hs := skipBlank_length_le s
    split at h
    · exact (r.map some).consumes h
    · rename_i b t ht
      rw [ht, List.length_cons] at hs
      split at h
      · have := map_word_length_le h; omega
      · exact (r.map some).consumes h

/-- The reader that passes over a value. -/
def Reader.ignored : Reader Unit where
  run s := (skipValue s).map ((), ·)
  consumes {s a rest} h := skipValue_length_lt (rest_map_ok_iff.mp h).1

end PlatformClient.Json
