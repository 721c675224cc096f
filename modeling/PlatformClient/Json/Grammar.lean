/-
  The grammar of JSON texts.

  It says which bytes are written forms, without saying how to read them.  A written form is put
  together from parts: numbers from sign, whole, fraction and exponent; texts from single bytes and
  escapes; arrays and objects from `Item`s and `Member`s, which remember the white space around what
  they hold.  Nesting has no bound here, nor has the size of a number.

    * **`Value s`** — `s` is one value, without white space around it.
    * **`Spelled s`** — `s` can stand between the quotes of a text.
    * **`Spells s t`** — `s` can stand there and means the bytes `t`; surrogates come in pairs.
    * **`Integer s n`** — `s` is a number without fraction and exponent, other than `-0`, worth `n`.
    * **`Object ms s`**, **`Array is s`** — `s` is an object of these members, an array of these items.

  White space may surround the one value of a whole text: `Text`.
-/
import PlatformClient.Json.Numeral
import PlatformClient.Json.Text

namespace PlatformClient.Json.Grammar

/-! ## White space and numbers -/

/-- White space, possibly none. -/
def Blank (s : Bytes) : Prop := ∀ b ∈ s, isBlank b = true

/-- One digit or more. -/
def Digits (s : Bytes) : Prop := s ≠ [] ∧ ∀ b ∈ s, isDigit b = true

/-- The whole part of a number: a zero alone, or digits that start with none. -/
def Whole (s : Bytes) : Prop := s = [0x30] ∨ Digits s ∧ s.head? ≠ some 0x30

/-- The fraction of a number, if it has one. -/
def Fraction (s : Bytes) : Prop := s = [] ∨ ∃ ds, Digits ds ∧ s = 0x2E :: ds

/-- The exponent of a number, if it has one. -/
def Exponent (s : Bytes) : Prop :=
  s = [] ∨ ∃ mark sign ds, isExponentMark mark = true ∧ sign ∈ [[], [0x2B], [0x2D]] ∧ Digits ds ∧
    s = mark :: (sign ++ ds)

/-- A number. -/
def Numeral (s : Bytes) : Prop :=
  ∃ sign whole fraction exponent, sign ∈ [[], [0x2D]] ∧ Whole whole ∧ Fraction fraction ∧
    Exponent exponent ∧ s = sign ++ whole ++ fraction ++ exponent

/-- The number that decimal digits spell. -/
def decimal (ds : Bytes) : Nat := ds.foldl (fun n d => n * 10 + digitValue d) 0

/-- An integer and what it is worth; zero has no sign. -/
def Integer (s : Bytes) (n : Int) : Prop :=
  Whole s ∧ n = decimal s ∨
    ∃ ds, Whole ds ∧ decimal ds ≠ 0 ∧ s = 0x2D :: ds ∧ n = -(decimal ds : Int)

/-! ## Texts -/

/-- Bytes that stand for themselves in a text. -/
def Plain (b : UInt8) : Prop := 0x20 ≤ b ∧ b ≠ 0x22 ∧ b ≠ 0x5C

/-- What can stand between the quotes of a text. -/
inductive Spelled : Bytes → Prop
  | nil : Spelled []
  | plain {b : UInt8} {s : Bytes} : Plain b → Spelled s → Spelled (b :: s)
  | short {b c : UInt8} {s : Bytes} :
      shortEscape? b = some c → Spelled s → Spelled (0x5C :: b :: s)
  | long {a b c d : UInt8} {n : Nat} {s : Bytes} :
      hexQuad? a b c d = some n → Spelled s → Spelled (0x5C :: 0x75 :: a :: b :: c :: d :: s)

/-- What can stand between the quotes of a text, and the bytes it means. -/
inductive Spells : Bytes → Bytes → Prop
  | nil : Spells [] []
  | plain {b : UInt8} {s t : Bytes} : Plain b → Spells s t → Spells (b :: s) (b :: t)
  | short {b c : UInt8} {s t : Bytes} :
      shortEscape? b = some c → Spells s t → Spells (0x5C :: b :: s) (c :: t)
  | long {a b c d : UInt8} {n : Nat} {s t : Bytes} :
      hexQuad? a b c d = some n → isLeading n = false → isTrailing n = false → Spells s t →
      Spells (0x5C :: 0x75 :: a :: b :: c :: d :: s) (String.utf8EncodeChar (Char.ofNat n) ++ t)
  | pair {a b c d e f g h : UInt8} {m n : Nat} {s t : Bytes} :
      hexQuad? a b c d = some m → isLeading m = true →
      hexQuad? e f g h = some n → isTrailing n = true → Spells s t →
      Spells (0x5C :: 0x75 :: a :: b :: c :: d :: 0x5C :: 0x75 :: e :: f :: g :: h :: s)
        (String.utf8EncodeChar (Char.ofNat (joinPair m n)) ++ t)

/-- What means bytes can stand between quotes. -/
theorem Spells.spelled {s t : Bytes} (h : Spells s t) : Spelled s := by
  induction h with
  | nil => exact .nil
  | plain hb _ ih => exact .plain hb ih
  | short hb _ ih => exact .short hb ih
  | long hn _ _ _ ih => exact .long hn ih
  | pair hm _ hn _ _ ih => exact .long hm (.long hn ih)

/-! ## Items and members -/

/-- An item of an array: a value with white space around it. -/
structure Item where
  before : Bytes
  value : Bytes
  after : Bytes

/-- The item in writing. -/
def Item.text (i : Item) : Bytes := i.before ++ i.value ++ i.after

/-- The white space of an item is white space. -/
def Item.Spaced (i : Item) : Prop := Blank i.before ∧ Blank i.after

/-- A member of an object: a name and a value, with white space around them. -/
structure Member where
  before : Bytes
  /-- What stands between the quotes. -/
  name : Bytes
  between : Bytes
  item : Item

/-- The member in writing. -/
def Member.text (m : Member) : Bytes :=
  m.before ++ 0x22 :: m.name ++ 0x22 :: m.between ++ 0x3A :: m.item.text

/-- The white space of a member is white space. -/
def Member.Spaced (m : Member) : Prop := Blank m.before ∧ Blank m.between ∧ m.item.Spaced

/-- Parts in writing, with commas between them. -/
def separated (parts : List Bytes) : Bytes := List.intercalate [0x2C] parts

/-! ## Values -/

/-- One value, without white space around it. -/
inductive Value : Bytes → Prop
  | word {first : UInt8} {tail : Bytes} :
      (first, tail) ∈ [(0x6E, nullTail), (0x74, trueTail), (0x66, falseTail)] →
      Value (first :: tail)
  | numeral {s : Bytes} : Numeral s → Value s
  | text {s : Bytes} : Spelled s → Value (0x22 :: s ++ [0x22])
  | emptyArray {w : Bytes} : Blank w → Value (0x5B :: w ++ [0x5D])
  | array {items : List Item} :
      items ≠ [] → (∀ i ∈ items, i.Spaced) → (∀ i ∈ items, Value i.value) →
      Value (0x5B :: separated (items.map Item.text) ++ [0x5D])
  | emptyObject {w : Bytes} : Blank w → Value (0x7B :: w ++ [0x7D])
  | object {members : List Member} :
      members ≠ [] → (∀ m ∈ members, m.Spaced ∧ Spelled m.name) →
      (∀ m ∈ members, Value m.item.value) →
      Value (0x7B :: separated (members.map Member.text) ++ [0x7D])

/-- What stands between the brackets of a container with these parts. -/
def Inside (parts : List Bytes) (s : Bytes) : Prop :=
  parts = [] ∧ Blank s ∨ parts ≠ [] ∧ s = separated parts

/-- An array of these items. -/
def Array (items : List Item) (s : Bytes) : Prop :=
  (∀ i ∈ items, i.Spaced ∧ Value i.value) ∧
    ∃ inside, Inside (items.map Item.text) inside ∧ s = 0x5B :: inside ++ [0x5D]

/-- An object of these members. -/
def Object (members : List Member) (s : Bytes) : Prop :=
  (∀ m ∈ members, m.Spaced ∧ Spelled m.name ∧ Value m.item.value) ∧
    ∃ inside, Inside (members.map Member.text) inside ∧ s = 0x7B :: inside ++ [0x7D]

/-- A value with white space around it. -/
def Text (value s : Bytes) : Prop :=
  ∃ before after, Blank before ∧ Blank after ∧ s = before ++ value ++ after

/-! ## Arrays and objects are values -/

/-- Arrays and objects are values. -/
theorem Array.value {items : List Item} {s : Bytes} (h : Array items s) : Value s := by
  obtain ⟨hi, inside, ⟨hn, hb⟩ | ⟨hn, rfl⟩, rfl⟩ := h
  · exact .emptyArray hb
  · exact .array (fun he => hn (by rw [he]; rfl)) (fun i m => (hi i m).1) (fun i m => (hi i m).2)

theorem Object.value {members : List Member} {s : Bytes} (h : Object members s) : Value s := by
  obtain ⟨hm, inside, ⟨hn, hb⟩ | ⟨hn, rfl⟩, rfl⟩ := h
  · exact .emptyObject hb
  · exact .object (fun he => hn (by rw [he]; rfl)) (fun m hm' => ⟨(hm m hm').1, (hm m hm').2.1⟩)
      (fun m hm' => (hm m hm').2.2)

theorem Array.head {items : List Item} {s : Bytes} (h : Array items s) : s.head? = some 0x5B := by
  obtain ⟨-, inside, -, rfl⟩ := h
  rfl

theorem Object.head {members : List Member} {s : Bytes} (h : Object members s) :
    s.head? = some 0x7B := by
  obtain ⟨-, inside, -, rfl⟩ := h
  rfl

end PlatformClient.Json.Grammar
