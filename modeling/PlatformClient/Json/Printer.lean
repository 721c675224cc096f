/-
  The written form of a JSON value: compact, with the members of an object in their order.

  A text is written between quotes.  Only quote, backslash and the controls below space are escaped;
  five of the controls have a letter of their own, the others are written by their number.

  What is handed in to be written may be a value or a dictionary whose keys are no texts
  (`Payload`).  Integers have a written form, so they can serve as member names; pairs have none, so
  a dictionary with such a key cannot be written.
-/
import PlatformClient.Json.Fault

namespace PlatformClient.Json

/-! ## Texts -/

/-- The two-character escapes: what is escaped, and the letter that stands for it. -/
def letterEscapes : List (Char × Char) :=
  [('"', '"'), ('\\', '\\'), ('\x08', 'b'), ('\x0c', 'f'), ('\n', 'n'), ('\r', 'r'), ('\t', 't')]

/-- The last two of the four digits by which a control is written. -/
def controlDigits (n : Nat) : List Char := [(n / 16).digitChar, (n % 16).digitChar]

/-- The written form of one character. -/
def renderChar (c : Char) : List Char :=
  match letterEscapes.lookup c with
  | some letter => ['\\', letter]
  | none => if c.toNat < 0x20 then ['\\', 'u', '0', '0'] ++ controlDigits c.toNat else [c]

/-- The written form of a text. -/
def renderText (s : String) : List Char := '"' :: s.toList.flatMap renderChar ++ ['"']

/-- The written form of a number. -/
def renderNumber : Number → List Char
  | .int n => (toString n).toList
  | .float x => x.text.toList

/-! ## Values -/

mutual

/-- The written form of a value. -/
def renderChars : Json → List Char
  | .null => ['n', 'u', 'l', 'l']
  | .bool true => ['t', 'r', 'u', 'e']
  | .bool false => ['f', 'a', 'l', 's', 'e']
  | .number n => renderNumber n
  | .text s => renderText s
  | .array [] => ['[', ']']
  | .array (v :: rest) => '[' :: renderChars v ++ renderItems rest ++ [']']
  | .object [] => ['\x7b', '\x7d']
  | .object ((name, v) :: rest) =>
    '\x7b' :: renderText name ++ ':' :: renderChars v ++ renderMembers rest ++ ['\x7d']

/-- The written form of the items after the first. -/
def renderItems : List Json → List Char
  | [] => []
  | v :: rest => ',' :: renderChars v ++ renderItems rest

/-- The written form of the members after the first. -/
def renderMembers : List (String × Json) → List Char
  | [] => []
  | (name, v) :: rest =>
    ',' :: renderText name ++ ':' :: renderChars v ++ renderMembers rest

end

/-- The written form of a value as a text. -/
def render (v : Json) : String := String.ofList v.renderChars

/-- The written form of a value as bytes. -/
def toBytes (v : Json) : Bytes := Utf8.encode v.render

example : render (ofMembers [("b", .array [.null, .bool true]), ("a", .text "\"\x01é")])
    = "\x7b\"a\":\"\\\"\\u0001é\",\"b\":[null,true]\x7d" := by decide +kernel

/-! ## Values handed in -/

/-- A key of a dictionary. -/
inductive Key where
  | text (s : String)
  | int (n : Int)
  | pair (a b : Int)
  deriving DecidableEq, Repr

/-- The member name of a key, if it has one. -/
def Key.name? : Key → Option String
  | .text s => some s
  | .int n => some (toString n)
  | .pair .. => none

/-- A value to be written. -/
inductive Payload where
  | value (v : Json)
  /-- A dictionary; its members are written in the order given. -/
  | dictionary (entries : List (Key × Json))

/-- Entries with integer keys in ascending order; of several with one key the last stays. -/
def putInt {α : Type} (key : Int) (a : α) : List (Int × α) → List (Int × α)
  | [] => [(key, a)]
  | (k, b) :: rest =>
    if key < k then (key, a) :: (k, b) :: rest
    else if key = k then (key, a) :: rest
    else (k, b) :: putInt key a rest

/-- The dictionary of entries with integer keys. -/
def Payload.ofInts (entries : List (Int × Json)) : Payload :=
  .dictionary ((entries.foldl (fun done (k, v) => putInt k v done) []).map
    fun (k, v) => (.int k, v))

/-- An entry as a member, if its key has a name. -/
def member? (entry : Key × Json) : Option (String × Json) :=
  entry.1.name?.map fun name => (name, entry.2)

/-- The JSON form of a payload: a dictionary needs a name for every key. -/
def Payload.toJson : Payload → Except Problem Json
  | .value v => .ok v
  | .dictionary entries =>
    match entries.mapM member? with
    | some members => .ok (.object members)
    | none => .error ⟨.keyNotText, none⟩

end PlatformClient.Json
