/-
  The reader of arbitrary JSON values, and reading a whole text.

  `Reader.value depth` reads values nested at most `depth` deep: the bracket or brace that would
  open one container more is refused.  `nestingLimit` is the depth used everywhere.

  `Reader.read` starts at the front of a text and leaves alone whatever follows the value;
  `Reader.readWhole` also requires that nothing but white space follows.  A failure of either is a
  `Misread`: a path, and a problem placed in the text.
-/
import PlatformClient.Json.Container

namespace PlatformClient.Json

/-! ## Arbitrary values -/

/-- A value with first byte `b`; `inner` reads what is nested in it, if more nesting is allowed. -/
def valueHead (inner : Option (Reader Json)) (b : UInt8) (rest : Bytes) : Read Json :=
  if b = 0x6E then (word nullTail rest).map (Json.null, ·)
  else if b = 0x74 then (word trueTail rest).map (Json.bool true, ·)
  else if b = 0x66 then (word falseTail rest).map (Json.bool false, ·)
  else if b = 0x2D then (readNumber true rest).map fun (n, rest) => (.number n, rest)
  else if isDigit b then (readNumber false (b :: rest)).map fun (n, rest) => (.number n, rest)
  else if b = 0x22 then (readText rest).map fun (t, rest) => (.text t, rest)
  else if b = 0x5B then
    match inner with
    | none => .error (.peek .tooDeep (b :: rest))
    | some r => (elements r 0 [] rest).map fun (vs, rest) => (.array vs, rest)
  else if b = 0x7B then
    match inner with
    | none => .error (.peek .tooDeep (b :: rest))
    | some r => (members r [] rest).map fun (ms, rest) => (.ofMembers ms, rest)
  else .error (.peek .expectedValue (b :: rest))

/-- No branch lengthens what is left. -/
theorem valueHead_length_le {inner : Option (Reader Json)} {b : UInt8} {s rest : Bytes} {v : Json}
    (h : valueHead inner b s = .ok (v, rest)) : rest.length ≤ s.length := by
  unfold valueHead at h
  split at h
  · exact map_word_length_le h
  · split at h
    · exact map_word_length_le h
    · split at h
      · exact map_word_length_le h
      · split at h
        · -- behind a minus
          obtain ⟨n, hn, -⟩ := read_map_ok_iff.mp h
          exact Nat.le_of_lt (readNumber_length_lt hn)
        · split at h
          · -- a digit is read again with the number, so the number is longer by it
            obtain ⟨n, hn, -⟩ := read_map_ok_iff.mp h
            exact Nat.lt_succ_iff.mp (readNumber_length_lt hn)
          · split at h
            · obtain ⟨t, ht, -⟩ := read_map_ok_iff.mp h
              exact Nat.le_of_lt (readText_length_lt ht)
            · split at h
              · split at h
                · cases h
                · obtain ⟨vs, hvs, -⟩ := read_map_ok_iff.mp h
                  exact Nat.le_of_lt (elements_length_lt hvs)
              · split at h
                · split at h
                  · cases h
                  · obtain ⟨ms, hms, -⟩ := read_map_ok_iff.mp h
                    exact Nat.le_of_lt (members_length_lt hms)
                · cases h

/-- The reader of values nested at most `depth` deep. -/
def Reader.value : Nat → Reader Json
  | 0 => .ofHead (valueHead none) valueHead_length_le
  | depth + 1 => .ofHead (valueHead (some (value depth))) valueHead_length_le

/-- The greatest nesting that is read. -/
def nestingLimit : Nat := 127

/-! ## Whole texts -/

/-- Why a text could not be read, and where. -/
structure Misread where
  path : Path
  problem : Problem
  deriving DecidableEq, Repr

/-- A fault as it is reported for the whole text. -/
def Fault.misread (f : Fault) (text : Bytes) : Misread := ⟨f.path, f.problem text⟩

/-- Nothing but white space may follow. -/
def endOfText (s : Bytes) : Except Fault Unit :=
  match skipBlank s with
  | [] => .ok ()
  | b :: rest => .error (.peek .trailingCharacters (b :: rest))

/-- Read a value from the front of a text. -/
def Reader.read {α : Type} (r : Reader α) (text : Bytes) : Except Misread α :=
  match r.run text with
  | .error f => .error (f.misread text)
  | .ok (a, _) => .ok a

/-- Read a value that is all there is in a text, apart from white space. -/
def Reader.readWhole {α : Type} (r : Reader α) (text : Bytes) : Except Misread α :=
  match r.run text with
  | .error f => .error (f.misread text)
  | .ok (a, rest) =>
    match endOfText rest with
    | .error f => .error (f.misread text)
    | .ok () => .ok a

/-- The reader of arbitrary values. -/
def anyValue : Reader Json := .value nestingLimit

end PlatformClient.Json
