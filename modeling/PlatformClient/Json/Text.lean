/-
  Texts in JSON: what stands between two quotes.

  `textBytes` reads up to the closing quote and undoes the escapes; only then is the whole of it
  checked to be UTF-8 (`readText`).  An escape for a code point beyond U+FFFF is a pair of surrogates,
  and a surrogate outside such a pair is refused.  `skipText` passes over a text that nobody will
  see: it checks the escapes' form, but neither surrogates nor UTF-8.
-/
import PlatformClient.Json.Reader

set_option linter.unusedVariables false

namespace PlatformClient.Json

/-! ## Escapes -/

/-- The value of a hexadecimal digit, in either case. -/
def hexDigit? (b : UInt8) : Option Nat :=
  if 0x30 ≤ b ∧ b ≤ 0x39 then some (b.toNat - 0x30)
  else if 0x41 ≤ b ∧ b ≤ 0x46 then some (b.toNat - 0x37)
  else if 0x61 ≤ b ∧ b ≤ 0x66 then some (b.toNat - 0x57)
  else none

/-- The number that four hexadecimal digits spell. -/
def hexQuad? (a b c d : UInt8) : Option Nat := do
  let a ← hexDigit? a
  let b ← hexDigit? b
  let c ← hexDigit? c
  let d ← hexDigit? d
  return ((a * 16 + b) * 16 + c) * 16 + d

/-- Four hexadecimal digits. -/
def hexQuad : Bytes → Read Nat
  | a :: b :: c :: d :: rest =>
    match hexQuad? a b c d with
    | some n => .ok (n, rest)
    | none => .error (.here .badEscape rest)
  | _ => .error (.here .endInText [])

/-- What an escape of one letter stands for. -/
def shortEscape? (b : UInt8) : Option UInt8 :=
  if b = 0x22 ∨ b = 0x5C ∨ b = 0x2F then some b
  else if b = 0x62 then some 0x08
  else if b = 0x66 then some 0x0C
  else if b = 0x6E then some 0x0A
  else if b = 0x72 then some 0x0D
  else if b = 0x74 then some 0x09
  else none

/-- Surrogates that come first in a pair. -/
def isLeading (n : Nat) : Bool := 0xD800 ≤ n && n ≤ 0xDBFF

/-- Surrogates that come second in a pair. -/
def isTrailing (n : Nat) : Bool := 0xDC00 ≤ n && n ≤ 0xDFFF

/-- The code point of a pair of surrogates. -/
def joinPair (leading trailing : Nat) : Nat :=
  0x10000 + (leading - 0xD800) * 0x400 + (trailing - 0xDC00)

/-- The second half of a pair, behind the leading surrogate. -/
def trailingEscape (leading : Nat) : Bytes → Read Char
  | [] => .error (.here .endInText [])
  | b :: rest =>
    if b ≠ 0x5C then .error (.here .surrogateCut rest)
    else match rest with
      | [] => .error (.here .endInText [])
      | u :: rest =>
        if u ≠ 0x75 then .error (.here .surrogateCut rest)
        else match hexQuad rest with
          | .error f => .error f
          | .ok (n, rest) =>
            if isTrailing n then .ok (Char.ofNat (joinPair leading n), rest)
            else .error (.here .loneSurrogate rest)

/-- The character of an escape with four digits, behind its `u`. -/
def longEscape (s : Bytes) : Read Char :=
  match hexQuad s with
  | .error f => .error f
  | .ok (n, rest) =>
    if isTrailing n then .error (.here .loneSurrogate rest)
    else if isLeading n then trailingEscape n rest
    else .ok (Char.ofNat n, rest)

/-- What an escape stands for, behind its backslash. -/
def escape : Bytes → Read Bytes
  | [] => .error (.here .endInText [])
  | b :: rest =>
    match shortEscape? b with
    | some c => .ok ([c], rest)
    | none =>
      if b = 0x75 then (longEscape rest).map fun (c, rest) => (String.utf8EncodeChar c, rest)
      else .error (.here .badEscape rest)

/-- The readers inside a text never lengthen what is left; the loop over the text goes on behind
    them. -/
theorem hexQuad_length_le {s rest : Bytes} {n : Nat} (h : hexQuad s = .ok (n, rest)) :
    rest.length ≤ s.length := by
  unfold hexQuad at h
  split at h
  · split at h
    · cases h; simp only [List.length_cons]; omega
    · cases h
  · cases h

theorem trailingEscape_length_le {l : Nat} {s rest : Bytes} {c : Char}
    (h : trailingEscape l s = .ok (c, rest)) : rest.length ≤ s.length := by
  unfold trailingEscape at h
  split at h
  · cases h
  · split at h
    · cases h
    · split at h
      · cases h
      · split at h
        · cases h
        · split at h
          · cases h
          · rename_i hq
            have := hexQuad_length_le hq
            split at h
            · simp only [Except.ok.injEq, Prod.mk.injEq] at h
              rw [← h.2]; simp only [List.length_cons]; omega
            · cases h

theorem longEscape_length_le {s rest : Bytes} {c : Char} (h : longEscape s = .ok (c, rest)) :
    rest.length ≤ s.length := by
  unfold longEscape at h
  split at h
  · cases h
  · rename_i hq
    have hq := hexQuad_length_le hq
    split at h
    · cases h
    · split at h
      · exact Nat.le_trans (trailingEscape_length_le h) hq
      · cases h; exact hq

theorem escape_length_le {s rest bs : Bytes} (h : escape s = .ok (bs, rest)) :
    rest.length ≤ s.length := by
  unfold escape at h
  split at h
  · cases h
  · split at h
    · cases h; simp
    · split at h
      · rename_i t _ _ _
        cases hl : longEscape t with
        | error f => rw [hl] at h; cases h
        | ok p =>
          rw [hl] at h
          cases h
          exact Nat.le_succ_of_le (longEscape_length_le hl)
      · cases h

/-! ## Texts -/

/-- Bytes that stand for themselves in a text: all but quote, backslash and controls. -/
def isPlain (b : UInt8) : Bool := 0x20 ≤ b && b != 0x22 && b != 0x5C

/-- `textBytes done s` is the text up to the closing quote, its escapes undone, behind what was read
    before (`done`, last byte first). -/
def textBytes (done s : Bytes) : Read Bytes :=
  match h : s.dropWhile isPlain with
  | [] => .error (.here .endInText [])
  | b :: rest =>
    let done := (s.takeWhile isPlain).reverse ++ done
    if b = 0x22 then .ok (done.reverse, rest)
    else if b = 0x5C then
      match he : escape rest with
      | .error f => .error f
      | .ok (bs, rest') => textBytes (bs.reverse ++ done) rest'
    else .error (.here .controlCharacter rest)
  termination_by s.length
  decreasing_by
    have h1 := dropWhile_length_le isPlain s
    have h2 := escape_length_le he
    rw [h, List.length_cons] at h1
    omega

/-- A text takes at least its closing quote. By the recursion of the loop: each round drops a byte
    or a whole escape. -/
theorem textBytes_length_lt {done s bs rest : Bytes} (h : textBytes done s = .ok (bs, rest)) :
    rest.length < s.length := by
  fun_induction textBytes done s with
  | case1 => cases h
  | case2 done s rest' done' hs =>
    cases h
    have := dropWhile_length_le isPlain s
    rw [hs, List.length_cons] at this
    omega
  | case3 => cases h
  | case4 done s rest' done' bs rest'' he hs _ ih =>
    have h1 := dropWhile_length_le isPlain s
    have h2 := escape_length_le he
    have h3 := ih h
    rw [hs, List.length_cons] at h1
    omega
  | case5 => cases h

/-- A text, behind its opening quote. -/
def readText (s : Bytes) : Read String :=
  match textBytes [] s with
  | .error f => .error f
  | .ok (bytes, rest) =>
    match Utf8.decode bytes with
    | .ok t => .ok (t, rest)
    | .error f => .error (.here (.badCodePoint (bytes.length - f.index)) rest)

theorem readText_length_lt {s rest : Bytes} {t : String} (h : readText s = .ok (t, rest)) :
    rest.length < s.length := by
  unfold readText at h
  split at h
  · cases h
  · rename_i hb
    have := textBytes_length_lt hb
    split at h
    · cases h; exact this
    · cases h

/-! ## Texts that are passed over -/

/-- Pass over an escape, behind its backslash. -/
def skipEscape : Bytes → Except Fault Bytes
  | [] => .error (.here .endInText [])
  | b :: rest =>
    if (shortEscape? b).isSome then .ok rest
    else if b = 0x75 then (hexQuad rest).map (·.2)
    else .error (.here .badEscape rest)

theorem skipEscape_length_le {s rest : Bytes} (h : skipEscape s = .ok rest) :
    rest.length ≤ s.length := by
  unfold skipEscape at h
  split at h
  · cases h
  · split at h
    · cases h; simp
    · split at h
      · rename_i t _ _
        cases hq : hexQuad t with
        | error f => rw [hq] at h; cases h
        | ok p =>
          rw [hq] at h
          cases h
          exact Nat.le_succ_of_le (hexQuad_length_le hq)
      · cases h

/-- Pass over a text, behind its opening quote. -/
def skipText (s : Bytes) : Except Fault Bytes :=
  match h : s.dropWhile isPlain with
  | [] => .error (.here .endInText [])
  | b :: rest =>
    if b = 0x22 then .ok rest
    else if b = 0x5C then
      match he : skipEscape rest with
      | .error f => .error f
      | .ok rest' => skipText rest'
    else .error (.here .controlCharacter (b :: rest))
  termination_by s.length
  decreasing_by
    have h1 := dropWhile_length_le isPlain s
    have h2 := skipEscape_length_le he
    rw [h, List.length_cons] at h1
    omega

/-- So does a skipped one. -/
theorem skipText_length_lt {s rest : Bytes} (h : skipText s = .ok rest) :
    rest.length < s.length := by
  fun_induction skipText s with
  | case1 => cases h
  | case2 s rest' hs =>
    cases h
    have := dropWhile_length_le isPlain s
    rw [hs, List.length_cons] at this
    omega
  | case3 => cases h
  | case4 s rest' rest'' he hs _ ih =>
    have h1 := dropWhile_length_le isPlain s
    have h2 := skipEscape_length_le he
    have h3 := ih h
    rw [hs, List.length_cons] at h1
    omega
  | case5 => cases h

end PlatformClient.Json
