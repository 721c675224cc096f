/-
  JSON values.

  A number keeps the two kinds apart that a reader tells apart: integers, from -2^63 up to but not
  including 2^64, and binary64 numbers.  The members of an object stand in ascending order of their
  names, each name once; `put` keeps that order, and `Json.Canonical` says it of a whole value.
-/
import PlatformClient.Binary64

namespace PlatformClient

/-- A JSON number. -/
inductive Number where
  | int (n : Int)
  | float (x : Binary64)
  deriving DecidableEq, Repr

/-- A JSON value. -/
inductive Json where
  | null
  | bool (b : Bool)
  | number (n : Number)
  | text (s : String)
  | array (items : List Json)
  | object (members : List (String × Json))
  deriving Repr, Inhabited

namespace Json

/-! ## Members in order -/

/-- `put name a members` gives `name` the value `a`: in its place if it is new, over the old value
    if it is not. -/
def put {α : Type} (name : String) (a : α) : List (String × α) → List (String × α)
  | [] => [(name, a)]
  | (n, b) :: rest =>
    if name < n then (name, a) :: (n, b) :: rest
    else if name = n then (name, a) :: rest
    else (n, b) :: put name a rest

/-- Members in ascending order of their names; of several with one name the last stays. -/
def ordered {α : Type} (members : List (String × α)) : List (String × α) :=
  members.foldl (fun done (name, a) => put name a done) []

/-- An object with the given members. -/
def ofMembers (members : List (String × Json)) : Json := .object (ordered members)

/-- The value of a member of an object. -/
def get? (v : Json) (name : String) : Option Json :=
  match v with
  | .object members => members.lookup name
  | _ => none

/-! ## Canonical values -/

/-- The integers that a JSON number may be: from -2^63 up to, but not including, 2^64. -/
def InRange (n : Int) : Prop := -0x8000000000000000 ≤ n ∧ n < 0x10000000000000000

instance (n : Int) : Decidable (InRange n) := inferInstanceAs (Decidable (_ ∧ _))

/-- Values whose integers are in range and whose members are in order. -/
inductive Canonical : Json → Prop
  | null : Canonical .null
  | bool (b : Bool) : Canonical (.bool b)
  | int (n : Int) : InRange n → Canonical (.number (.int n))
  | float (x : Binary64) : Canonical (.number (.float x))
  | text (s : String) : Canonical (.text s)
  | array (items : List Json) : (∀ v ∈ items, Canonical v) → Canonical (.array items)
  | object (members : List (String × Json)) :
      members.Pairwise (fun a b => a.1 < b.1) → (∀ m ∈ members, Canonical m.2) →
      Canonical (.object members)

/-! ## Nesting -/

mutual

/-- How deep arrays and objects are nested in a value; a scalar has depth 0. -/
def depth : Json → Nat
  | .array items => depthOfItems items + 1
  | .object members => depthOfMembers members + 1
  | _ => 0

/-- The greatest depth among items. -/
def depthOfItems : List Json → Nat
  | [] => 0
  | v :: rest => max (depth v) (depthOfItems rest)

/-- The greatest depth among members. -/
def depthOfMembers : List (String × Json) → Nat
  | [] => 0
  | (_, v) :: rest => max (depth v) (depthOfMembers rest)

end

example : (ordered [("b", 1), ("a", 2), ("b", 3)] : List (String × Nat)) = [("a", 2), ("b", 3)] := by
  decide +kernel

end Json

end PlatformClient
