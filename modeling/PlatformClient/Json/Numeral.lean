/-
  Numbers in JSON.

  A number is read in one pass.  Its digits, those of the fraction included, are gathered into a
  significand below 2^64; from the first digit on that would not fit, digits are dropped, and a
  dropped digit of the integer part raises the exponent by one.

  * Without fraction and exponent, and with no digit dropped, the number is an integer, as long as
    it lies between -2^63 and 2^64; `-0` and what lies beyond are floating point.
  * Otherwise it is significand times a power of ten, computed in floating point (`Binary64.scale`),
    and out of range when that is too large.

  An integer part is `0` or starts with another digit.  `skipNumber` passes over a number that
  nobody will see: it checks the form alone.
-/
import PlatformClient.Json.Reader

set_option linter.unusedVariables false

namespace PlatformClient.Json

/-! ## Digits -/

/-- Decimal digits. -/
def isDigit (b : UInt8) : Bool := 0x30 ≤ b && b ≤ 0x39

/-- The value of a decimal digit. -/
def digitValue (b : UInt8) : Nat := b.toNat - 0x30

/-- `gather n ds` appends digits to the significand `n` while it stays below 2^64, and returns the
    digits that are dropped as well. -/
def gather : Nat → Bytes → Nat × Bytes
  | n, [] => (n, [])
  | n, d :: ds =>
    if n * 10 + digitValue d < 0x10000000000000000 then gather (n * 10 + digitValue d) ds else (n, d :: ds)

/-- The marks of an exponent. -/
def isExponentMark (b : UInt8) : Bool := b = 0x65 || b = 0x45

/-! ## Floating point -/

/-- The number `±digits * 10 ^ exponent`, ending before `rest`. -/
def finishFloat (negative : Bool) (digits : Nat) (exponent : Int) (rest : Bytes) : Read Number :=
  match (Binary64.scale digits exponent).bind (Binary64.ofCode? negative) with
  | some x => .ok (.float x, rest)
  | none => .error (.here .outOfRange rest)

/-- `exponentDigits e s` appends the digits of `s` to the exponent `e`.  The first digit that takes
    it to 2^31 ends the run: then there is no exponent, and what is left starts behind it. -/
def exponentDigits : Nat → Bytes → Option Nat × Bytes
  | e, [] => (some e, [])
  | e, b :: rest =>
    if isDigit b then
      if e * 10 + digitValue b < 0x80000000 then exponentDigits (e * 10 + digitValue b) rest
      else (none, rest)
    else (some e, b :: rest)

/-- The optional sign of an exponent: whether it is negative, and what is left. -/
def exponentSign : Bytes → Bool × Bytes
  | [] => (false, [])
  | b :: rest =>
    if b = 0x2B then (false, rest) else if b = 0x2D then (true, rest) else (false, b :: rest)

/-- An exponent, behind its mark; `exponent` is what fraction and dropped digits make of it so
    far.  An exponent too large to hold is out of range, unless it is negative or all digits of the
    number are zero: then the number is zero. -/
def readExponent (negative : Bool) (digits : Nat) (exponent : Int) (s : Bytes) : Read Number :=
  let (down, s) := exponentSign s
  match s with
  | [] => .error (.here .endInValue [])
  | b :: rest =>
    if isDigit b then
      match exponentDigits (digitValue b) rest with
      | (some e, rest) => finishFloat negative digits (if down then exponent - e else exponent + e) rest
      | (none, rest) =>
        if digits ≠ 0 ∧ ¬down then .error (.here .outOfRange rest)
        else .ok (.float (.zero negative), rest.dropWhile isDigit)
    else .error (.here .badNumber rest)

/-- A fraction, behind its point. -/
def readFraction (negative : Bool) (digits : Nat) (exponent : Int) (s : Bytes) : Read Number :=
  let ds := s.takeWhile isDigit
  if ds.isEmpty then .error (.peek (if s.isEmpty then .endInValue else .badNumber) s)
  else
    let (digits, dropped) := gather digits ds
    let exponent := exponent - (ds.length - dropped.length : Nat)
    match s.dropWhile isDigit with
    | [] => finishFloat negative digits exponent []
    | b :: rest =>
      if isExponentMark b then readExponent negative digits exponent rest
      else finishFloat negative digits exponent (b :: rest)

/-! ## Numbers -/

/-- A number without fraction and exponent, `dropped` of its digits being left out. -/
def finishWhole (negative : Bool) (digits dropped : Nat) (rest : Bytes) : Read Number :=
  if dropped ≠ 0 then finishFloat negative digits dropped rest
  else if ¬negative then .ok (.int digits, rest)
  else if digits ≠ 0 ∧ digits ≤ 0x8000000000000000 then .ok (.int (-digits), rest)
  else finishFloat negative digits 0 rest

/-- What follows the integer part. -/
def afterWhole (negative : Bool) (digits dropped : Nat) : Bytes → Read Number
  | [] => finishWhole negative digits dropped []
  | b :: rest =>
    if b = 0x2E then readFraction negative digits dropped rest
    else if isExponentMark b then readExponent negative digits dropped rest
    else finishWhole negative digits dropped (b :: rest)

/-- Whether the next byte is a digit. -/
def digitNext : Bytes → Bool
  | [] => false
  | b :: _ => isDigit b

/-- A number, behind its sign. -/
def readNumber (negative : Bool) : Bytes → Read Number
  | [] => .error (.here .endInValue [])
  | b :: rest =>
    if b = 0x30 then
      if digitNext rest then .error (.peek .badNumber rest) else afterWhole negative 0 0 rest
    else if isDigit b then
      let (digits, dropped) := gather 0 (b :: rest.takeWhile isDigit)
      afterWhole negative digits dropped.length (rest.dropWhile isDigit)
    else .error (.here .badNumber rest)

/-! ## Numbers that are passed over -/

/-- Pass over an exponent, behind its mark. -/
def skipExponent (s : Bytes) : Except Fault Bytes :=
  match (exponentSign s).2 with
  | [] => .error (.here .badNumber [])
  | b :: rest =>
    if isDigit b then .ok (rest.dropWhile isDigit) else .error (.here .badNumber rest)

/-- Pass over what follows the integer part. -/
def skipAfterWhole : Bytes → Except Fault Bytes
  | [] => .ok []
  | b :: rest =>
    if b = 0x2E then
      if digitNext rest then
        match rest.dropWhile isDigit with
        | [] => .ok []
        | c :: rest => if isExponentMark c then skipExponent rest else .ok (c :: rest)
      else .error (.peek .badNumber rest)
    else if isExponentMark b then skipExponent rest
    else .ok (b :: rest)

/-- Pass over a number, behind its sign. -/
def skipNumber : Bytes → Except Fault Bytes
  | [] => .error (.here .badNumber [])
  | b :: rest =>
    if b = 0x30 then
      if digitNext rest then .error (.peek .badNumber rest) else skipAfterWhole rest
    else if isDigit b then skipAfterWhole (rest.dropWhile isDigit)
    else .error (.here .badNumber rest)

/-! ## A number takes at least one byte -/

theorem finishFloat_rest {negative : Bool} {digits : Nat} {exponent : Int} {s rest : Bytes}
    {n : Number} (h : finishFloat negative digits exponent s = .ok (n, rest)) : rest = s := by
  unfold finishFloat at h
  split at h
  · cases h; rfl
  · cases h

/-- The readers of a number never lengthen what is left, and a number takes at least one byte. One
    lemma per reader, in the order of their calls. -/
theorem exponentDigits_length_le (e : Nat) (s : Bytes) :
    (exponentDigits e s).2.length ≤ s.length := by
  fun_induction exponentDigits e s with
  | case1 => exact Nat.le_refl _
  | case2 _ _ _ _ _ ih => exact Nat.le_succ_of_le ih
  | case3 => exact Nat.le_succ _
  | case4 => exact Nat.le_refl _

theorem exponentSign_length_le (s : Bytes) : (exponentSign s).2.length ≤ s.length := by
  unfold exponentSign
  split
  · exact Nat.le_refl _
  · split
    · exact Nat.le_succ _
    · split
      · exact Nat.le_succ _
      · exact Nat.le_refl _

theorem readExponent_length_le {negative : Bool} {digits : Nat} {exponent : Int} {s rest : Bytes}
    {n : Number} (h : readExponent negative digits exponent s = .ok (n, rest)) :
    rest.length ≤ s.length := by
  have hs := exponentSign_length_le s
  unfold readExponent at h
  generalize exponentSign s = p at h hs
  obtain ⟨down, t⟩ := p
  simp only at h hs
  split at h
  · cases h
  · rename_i b t'
    rw [List.length_cons] at hs
    split at h
    · have he := exponentDigits_length_le (digitValue b) t'
      split at h
      · rename_i hd
        rw [hd] at he
        rw [finishFloat_rest h]
        simp only at he; omega
      · rename_i hd
        rw [hd] at he
        split at h
        · cases h
        · cases h
          exact Nat.le_trans (dropWhile_length_le isDigit _) (by simp only at he; omega)
    · cases h

theorem readFraction_length_le {negative : Bool} {digits : Nat} {exponent : Int} {s rest : Bytes}
    {n : Number} (h : readFraction negative digits exponent s = .ok (n, rest)) :
    rest.length ≤ s.length := by
  have hs := dropWhile_length_le isDigit s
  unfold readFraction at h
  simp only at h
  split at h
  · cases h
  · split at h
    · rw [finishFloat_rest h]; exact Nat.zero_le _
    · rename_i b t ht
      rw [ht] at hs
      split at h
      · have := readExponent_length_le h
        rw [List.length_cons] at hs; omega
      · rw [finishFloat_rest h]; exact hs

theorem finishWhole_rest {negative : Bool} {digits dropped : Nat} {s rest : Bytes}
    {n : Number} (h : finishWhole negative digits dropped s = .ok (n, rest)) : rest = s := by
  unfold finishWhole at h
  split at h
  · exact finishFloat_rest h
  · split at h
    · cases h; rfl
    · split at h
      · cases h; rfl
      · exact finishFloat_rest h

theorem afterWhole_length_le {negative : Bool} {digits dropped : Nat} {s rest : Bytes}
    {n : Number} (h : afterWhole negative digits dropped s = .ok (n, rest)) :
    rest.length ≤ s.length := by
  unfold afterWhole at h
  split at h
  · exact Nat.le_of_eq (congrArg List.length (finishWhole_rest h))
  · split at h
    · exact Nat.le_succ_of_le (readFraction_length_le h)
    · split at h
      · exact Nat.le_succ_of_le (readExponent_length_le h)
      · exact Nat.le_of_eq (congrArg List.length (finishWhole_rest h))

/-- A number has a digit. -/
theorem readNumber_length_lt {negative : Bool} {s rest : Bytes} {n : Number}
    (h : readNumber negative s = .ok (n, rest)) : rest.length < s.length := by
  unfold readNumber at h
  split at h
  · cases h
  · rename_i b t
    rw [List.length_cons, Nat.lt_succ_iff]
    split at h
    · split at h
      · cases h
      · exact afterWhole_length_le h
    · split at h
      · exact Nat.le_trans (afterWhole_length_le h) (dropWhile_length_le isDigit t)
      · cases h

theorem skipExponent_length_le {s rest : Bytes} (h : skipExponent s = .ok rest) :
    rest.length ≤ s.length := by
  have hs := exponentSign_length_le s
  unfold skipExponent at h
  split at h
  · cases h
  · rename_i b t ht
    rw [ht, List.length_cons] at hs
    split at h
    · cases h
      have := dropWhile_length_le isDigit t
      omega
    · cases h

theorem skipAfterWhole_length_le {s rest : Bytes} (h : skipAfterWhole s = .ok rest) :
    rest.length ≤ s.length := by
  unfold skipAfterWhole at h
  split at h
  · cases h; exact Nat.le_refl _
  · rename_i b t
    rw [List.length_cons]
    split at h
    · split at h
      · have ht := dropWhile_length_le isDigit t
        split at h
        · cases h; exact Nat.zero_le _
        · rename_i c t' hc
          rw [hc, List.length_cons] at ht
          split at h
          · have := skipExponent_length_le h; omega
          · cases h; rw [List.length_cons]; omega
      · cases h
    · split at h
      · exact Nat.le_succ_of_le (skipExponent_length_le h)
      · cases h; exact Nat.le_refl _

/-- A skipped number has one, too. -/
theorem skipNumber_length_lt {s rest : Bytes} (h : skipNumber s = .ok rest) :
    rest.length < s.length := by
  unfold skipNumber at h
  split at h
  · cases h
  · rename_i b t
    rw [List.length_cons, Nat.lt_succ_iff]
    split at h
    · split at h
      · cases h
      · exact skipAfterWhole_length_le h
    · split at h
      · exact Nat.le_trans (skipAfterWhole_length_le h) (dropWhile_length_le isDigit t)
      · cases h

end PlatformClient.Json
