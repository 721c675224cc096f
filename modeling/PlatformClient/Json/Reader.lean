/-
  Readers — functions from what is left of a JSON text to a value and what is left after it.

  A reader never looks back, so what it does depends only on the bytes still to come.  It also
  never succeeds without taking at least one byte: `Reader.consumes` is part of the type, and it is
  what lets the loops over elements and members end (`Json.Container`).

  `Reader.ofHead` makes a reader of a function on the first byte behind the white space; all
  readers of this library come from it.
-/
import PlatformClient.Json.Fault

namespace PlatformClient.Json

/-- The result of reading: a value and the bytes after it. -/
abbrev Read (α : Type) := Except Fault (α × Bytes)

/-- A reader of values of type `α`. -/
structure Reader (α : Type) where
  run : Bytes → Read α
  consumes : ∀ {s : Bytes} {a : α} {rest : Bytes}, run s = .ok (a, rest) → rest.length < s.length

/-! ## Results that are changed -/

/-- A change of faults does not change what is read. -/
theorem mapError_ok_iff {α : Type} {f : Fault → Fault} {e : Except Fault α} {a : α} :
    e.mapError f = .ok a ↔ e = .ok a := by
  cases e with
  | error =>
    constructor
    · intro h
      cases h
    · intro h
      cases h
  | ok => exact Iff.rfl

/-- A value that is changed was read up to the same place. -/
theorem read_map_ok_iff {α β : Type} {e : Read α} {f : α → β} {b : β} {rest : Bytes} :
    (e.map fun (a, rest) => (f a, rest)) = .ok (b, rest) ↔ ∃ a, e = .ok (a, rest) ∧ b = f a := by
  cases e with
  | error f => simp [Except.map]
  | ok p =>
    obtain ⟨a, t⟩ := p
    simp only [Except.map, Except.ok.injEq, Prod.mk.injEq]
    constructor
    · rintro ⟨rfl, rfl⟩
      exact ⟨a, ⟨rfl, rfl⟩, rfl⟩
    · rintro ⟨a, ⟨rfl, rfl⟩, rfl⟩
      exact ⟨rfl, rfl⟩

/-- A value may be put beside what is left. -/
theorem rest_map_ok_iff {α : Type} {e : Except Fault Bytes} {a c : α} {rest : Bytes} :
    e.map (a, ·) = .ok (c, rest) ↔ e = .ok rest ∧ c = a := by
  cases e with
  | error f => simp [Except.map]
  | ok t =>
    simp only [Except.map, Except.ok.injEq, Prod.mk.injEq]
    constructor
    · rintro ⟨rfl, rfl⟩
      exact ⟨rfl, rfl⟩
    · rintro ⟨rfl, rfl⟩
      exact ⟨rfl, rfl⟩

/-! ## White space -/

/-- White space of JSON: space, tab, line feed, carriage return. -/
def isBlank (b : UInt8) : Bool := b = 0x20 || b = 0x09 || b = 0x0A || b = 0x0D

/-- What is left after white space. -/
def skipBlank (s : Bytes) : Bytes := s.dropWhile isBlank

theorem dropWhile_length_le (p : UInt8 → Bool) (s : Bytes) :
    (s.dropWhile p).length ≤ s.length :=
  (List.dropWhile_sublist p).length_le

theorem skipBlank_length_le (s : Bytes) : (skipBlank s).length ≤ s.length :=
  dropWhile_length_le isBlank s

/-! ## Readers by their first byte -/

/-- Skip white space, then go on by the first byte; a value is expected here. -/
def startValue {α : Type} (head : UInt8 → Bytes → Read α) (s : Bytes) : Read α :=
  match skipBlank s with
  | [] => .error (.peek .endInValue [])
  | b :: rest => head b rest

/-- The reader that goes on by the first byte behind the white space. -/
def Reader.ofHead {α : Type} (head : UInt8 → Bytes → Read α)
    (fits : ∀ {b : UInt8} {s : Bytes} {a : α} {rest : Bytes},
      head b s = .ok (a, rest) → rest.length ≤ s.length) : Reader α where
  run := startValue head
  consumes {s a rest} h := by
    rw [startValue] at h
    have hs := skipBlank_length_le s
    split at h
    · cases h
    · rename_i b t ht
      have := fits h
      rw [ht, List.length_cons] at hs
      omega

/-- The reader whose value is then changed by `f`. -/
def Reader.map {α β : Type} (f : α → β) (r : Reader α) : Reader β where
  run s := (r.run s).map fun (a, rest) => (f a, rest)
  consumes {s b rest} h := by
    obtain ⟨a, ha, -⟩ := read_map_ok_iff.mp h
    exact r.consumes ha

/-! ## Literal words -/

/-- `word expected s` takes the bytes `expected` from the front of `s`. -/
def word : Bytes → Bytes → Except Fault Bytes
  | [], s => .ok s
  | _ :: _, [] => .error (.here .endInValue [])
  | w :: ws, b :: rest => if b = w then word ws rest else .error (.here .expectedWord rest)

theorem word_length_le {expected s rest : Bytes} (h : word expected s = .ok rest) :
    rest.length ≤ s.length := by
  fun_induction word expected s with
  | case1 s => cases h; exact Nat.le_refl _
  | case2 => cases h
  | case3 w ws rest' ih => exact Nat.le_succ_of_le (ih h)
  | case4 => cases h

/-- The rest of the word `null` after its first letter. -/
def nullTail : Bytes := [0x75, 0x6C, 0x6C]

/-- The rest of the word `true` after its first letter. -/
def trueTail : Bytes := [0x72, 0x75, 0x65]

/-- The rest of the word `false` after its first letter. -/
def falseTail : Bytes := [0x61, 0x6C, 0x73, 0x65]

end PlatformClient.Json
