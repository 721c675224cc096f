/-
  Values that are passed over.

  The value of a member nobody asked for only has to have the form of a value.  It may be nested to
  any depth, so `skipFrom` keeps the containers that are still open on a list of its own, the
  innermost first, and runs as one loop.
-/
import PlatformClient.Json.Text
import PlatformClient.Json.Numeral

set_option linter.unusedVariables false

namespace PlatformClient.Json

/-- The kind of a container that is still open. -/
inductive Container where
  | array
  | object
  deriving DecidableEq, Repr

/-- The byte that closes a container. -/
def Container.closer : Container → UInt8
  | .array => 0x5D
  | .object => 0x7D

/-- The fault of a text that ends inside a container. -/
def Container.ended : Container → Cause
  | .array => .endInArray
  | .object => .endInObject

/-- The fault of a container whose next part is neither a comma nor its end. -/
def Container.unseparated : Container → Cause
  | .array => .expectedCommaOrBracket
  | .object => .expectedCommaOrBrace

/-- Pass over a scalar with first byte `b`. -/
def skipScalar (b : UInt8) (rest : Bytes) : Except Fault Bytes :=
  if b = 0x6E then word nullTail rest
  else if b = 0x74 then word trueTail rest
  else if b = 0x66 then word falseTail rest
  else if b = 0x2D then skipNumber rest
  else if isDigit b then skipNumber (b :: rest)
  else if b = 0x22 then skipText rest
  else .error (.peek .expectedValue (b :: rest))

/-- The container that a byte opens. -/
def opens? (b : UInt8) : Option Container :=
  if b = 0x5B then some .array else if b = 0x7B then some .object else none

/-- Pass over what comes before a value inside a container: in an object, a name and its colon. -/
def skipLabel (container : Container) (s : Bytes) : Except Fault Bytes :=
  match container with
  | .array => .ok s
  | .object =>
    match skipBlank s with
    | [] => .error (.peek .endInObject [])
    | b :: rest =>
      if b ≠ 0x22 then .error (.peek .keyNotText (b :: rest))
      else match skipText rest with
        | .error f => .error f
        | .ok rest =>
          match skipBlank rest with
          | [] => .error (.peek .endInObject [])
          | c :: rest => if c = 0x3A then .ok rest else .error (.peek .expectedColon (c :: rest))

/-- A scalar's first byte is gone before it is skipped, so this is enough. -/
theorem skipScalar_length_le {b : UInt8} {s rest : Bytes} (h : skipScalar b s = .ok rest) :
    rest.length ≤ s.length := by
  unfold skipScalar at h
  split at h
  · exact word_length_le h
  · split at h
    · exact word_length_le h
    · split at h
      · exact word_length_le h
      · split at h
        · exact Nat.le_of_lt (skipNumber_length_lt h)
        · split at h
          · exact Nat.lt_succ_iff.mp (skipNumber_length_lt h)
          · split at h
            · exact Nat.le_of_lt (skipText_length_lt h)
            · cases h

theorem skipLabel_length_le {container : Container} {s rest : Bytes} (h : skipLabel container s = .ok rest) :
    rest.length ≤ s.length := by
  unfold skipLabel at h
  split at h
  · cases h; exact Nat.le_refl _
  · have hs := skipBlank_length_le s
    split at h
    · cases h
    · rename_i b t ht
      rw [ht, List.length_cons] at hs
      split at h
      · cases h
      · split at h
        · cases h
        · rename_i t' ht'
          have h1 := skipText_length_lt ht'
          have h2 := skipBlank_length_le t'
          split at h
          · cases h
          · rename_i c t'' hc
            rw [hc, List.length_cons] at h2
            split at h
            · cases h; omega
            · cases h

/-- `skipFrom true outer s` passes over a value and then closes the open containers `outer`;
    `skipFrom false outer s` starts behind a value. -/
def skipFrom (value : Bool) (outer : List Container) (s : Bytes) : Except Fault Bytes :=
  if value then
    match hs : skipBlank s with
    | [] => .error (.peek .endInValue [])
    | b :: rest =>
      match opens? b with
      | none =>
        match hr : skipScalar b rest with
        | .error f => .error f
        | .ok rest => skipFrom false outer rest
      | some container =>
        match hr : skipBlank rest with
        | [] => .error (.peek container.ended [])
        | c :: rest' =>
          if c = container.closer then skipFrom false outer rest'
          else match hl : skipLabel container (c :: rest') with
            | .error f => .error f
            | .ok rest'' => skipFrom true (container :: outer) rest''
  else
    match outer with
    | [] => .ok s
    | container :: outer =>
      match hs : skipBlank s with
      | [] => .error (.peek container.ended [])
      | b :: rest =>
        if b = 0x2C then
          match hl : skipLabel container rest with
          | .error f => .error f
          | .ok rest' => skipFrom true (container :: outer) rest'
        else if b = container.closer then skipFrom false outer rest
        else .error (.peek container.unseparated (b :: rest))
  termination_by s.length
  decreasing_by
    all_goals have h1 := skipBlank_length_le s
    all_goals rw [hs, List.length_cons] at h1
    · have h2 := skipScalar_length_le hr
      omega
    · have h2 := skipBlank_length_le rest
      rw [hr, List.length_cons] at h2
      omega
    · have h2 := skipBlank_length_le rest
      have h3 := skipLabel_length_le hl
      rw [hr] at h2
      omega
    · have h2 := skipLabel_length_le hl
      omega
    · omega

/-- Pass over a value. -/
def skipValue (s : Bytes) : Except Fault Bytes := skipFrom true [] s

/-- Skipping a value takes at least one byte, by the recursion of the loop; skipping the rest of
    containers may take none. -/
theorem skipFrom_length {value : Bool} {outer : List Container} {s rest : Bytes}
    (h : skipFrom value outer s = .ok rest) : rest.length + value.toNat ≤ s.length := by
  fun_induction skipFrom value outer s with
  | case1 | case2 | case4 | case6 | case9 | case10 | case13 => cases h
  -- a scalar
  | case3 outer s b t hs _ t' ht ih =>
    have h1 := skipBlank_length_le s
    have h2 := skipScalar_length_le ht
    have h3 := ih h
    rw [hs, List.length_cons] at h1
    simp only [Bool.toNat_true, Bool.toNat_false] at h3 ⊢; omega
  -- an empty container, both of whose brackets are gone
  | case5 outer s b t hs container _ t' ht ih =>
    have h1 := skipBlank_length_le s
    have h2 := skipBlank_length_le t
    have h3 := ih h
    rw [hs, List.length_cons] at h1
    rw [ht, List.length_cons] at h2
    simp only [Bool.toNat_true, Bool.toNat_false] at h3 ⊢; omega
  -- a container that is opened in front of its first part
  | case7 outer s b t hs container _ c t' hc _ t'' ht ih =>
    have h1 := skipBlank_length_le s
    have h2 := skipBlank_length_le t
    have h3 := ih h
    have h4 := skipLabel_length_le ht
    rw [hs, List.length_cons] at h1
    rw [hc] at h2
    simp only [Bool.toNat_true] at h3 ⊢; omega
  | case8 value s hv =>
    cases h
    simp only [Bool.not_eq_true] at hv
    simp [hv]
  -- a comma, and the next part
  | case11 value s hv container outer t t' ht hs ih =>
    have h1 := skipBlank_length_le s
    have h2 := skipLabel_length_le ht
    have h3 := ih h
    rw [hs, List.length_cons] at h1
    simp only [Bool.not_eq_true] at hv
    simp only [hv, Bool.toNat_true, Bool.toNat_false] at h3 ⊢; omega
  -- the end of a container
  | case12 value s hv container outer t hs _ ih =>
    have h1 := skipBlank_length_le s
    have h3 := ih h
    rw [hs, List.length_cons] at h1
    simp only [Bool.not_eq_true] at hv
    simp only [hv, Bool.toNat_false] at h3 ⊢; omega

theorem skipValue_length_lt {s rest : Bytes} (h : skipValue s = .ok rest) :
    rest.length < s.length :=
  skipFrom_length h

end PlatformClient.Json
