/-
  Readers of arrays and objects.

  1. **Turns.**  `nextElement` and `nextMember` read what stands between two parts of a container:
     they find its end, or the start of the next element, or the next member's name.  All containers
     share them.
  2. **`Reader.array`** and **`Reader.dictionary`** read parts of one type.
  3. **`Reader.record`** reads a structure with named fields.  In an object the fields come in any
     order, each at most once, and other members are passed over; a record may also be written as an
     array of its fields in their order.

  A fault inside a part gets the part's step; a fault at a member's name gets the step `?`.  A
  record with a field too many, or too few, only reports so after trying to step over its own end:
  that is where such a fault is placed.
-/
import PlatformClient.Json.Scalar

set_option linter.unusedVariables false

namespace PlatformClient.Json

/-! ## Turns -/

/-- What comes next in a container: its end, or a part; and what is left then. -/
inductive Turn (α : Type) where
  | done (rest : Bytes)
  | part (a : α) (rest : Bytes)
  deriving Repr

/-- The next turn in an array: what is left starts behind the bracket, or at an element. -/
def nextElement (first : Bool) (s : Bytes) : Except Fault (Turn Unit) :=
  match skipBlank s with
  | [] => .error (.peek .endInArray [])
  | b :: rest =>
    if b = 0x5D then .ok (.done rest)
    else if first then .ok (.part () (b :: rest))
    else if b = 0x2C then
      match skipBlank rest with
      | [] => .error (.peek .endInValue [])
      | c :: rest =>
        if c = 0x5D then .error (.peek .trailingComma (c :: rest)) else .ok (.part () (c :: rest))
    else .error (.peek .expectedCommaOrBracket (b :: rest))

/-- A member's name, behind its opening quote. -/
def memberName (s : Bytes) : Except Fault (Turn String) :=
  (readText s).map fun (name, rest) => .part name rest

/-- The next turn in an object, apart from the step of its faults. -/
def nextName (first : Bool) (s : Bytes) : Except Fault (Turn String) :=
  match skipBlank s with
  | [] => .error (.peek .endInObject [])
  | b :: rest =>
    if b = 0x7D then .ok (.done rest)
    else if first then
      if b = 0x22 then memberName rest else .error (.peek .keyNotText (b :: rest))
    else if b = 0x2C then
      match skipBlank rest with
      | [] => .error (.peek .endInValue [])
      | c :: rest =>
        if c = 0x22 then memberName rest
        else if c = 0x7D then .error (.peek .trailingComma (c :: rest))
        else .error (.peek .keyNotText (c :: rest))
    else .error (.peek .expectedCommaOrBrace (b :: rest))

/-- The next turn in an object: what is left starts behind the brace, or behind a name. -/
def nextMember (first : Bool) (s : Bytes) : Except Fault (Turn String) :=
  (nextName first s).mapError (Fault.inside .unknown)

/-- The colon between a name and its value. -/
def colon (s : Bytes) : Except Fault Bytes :=
  match skipBlank s with
  | [] => .error (.peek .endInObject [])
  | b :: rest => if b = 0x3A then .ok rest else .error (.peek .expectedColon (b :: rest))

/-- The value of a member, behind its name. -/
def memberValue {α : Type} (r : Reader α) (name : String) (s : Bytes) : Read α :=
  match colon s with
  | .error f => .error f
  | .ok rest => (r.run rest).mapError (Fault.inside (.member name))

/-- The element at an index. -/
def element {α : Type} (r : Reader α) (i : Nat) (s : Bytes) : Read α :=
  (r.run s).mapError (Fault.inside (.index i))

/-- The bytes left after a turn. -/
def Turn.rest {α : Type} : Turn α → Bytes
  | .done rest | .part _ rest => rest

/-- How much shorter a turn leaves the text for certain: an end takes its bracket. -/
def Turn.taken {α : Type} : Turn α → Nat
  | .done _ => 1
  | .part .. => 0

/-- A turn never lengthens what is left, and the end of an array takes its bracket. The readers
    below loop over turns, and their termination rests on these lemmas. -/
theorem nextElement_length {first : Bool} {s : Bytes} {t : Turn Unit}
    (h : nextElement first s = .ok t) : t.rest.length + t.taken ≤ s.length := by
  unfold nextElement at h
  have hs := skipBlank_length_le s
  split at h
  · cases h
  · rename_i b r hb
    rw [hb, List.length_cons] at hs
    split at h
    · -- the bracket
      cases h; exact hs
    · split at h
      · -- the first element, which stays where it is
        cases h; exact hs
      · split at h
        · -- a comma, and the element behind it
          have hr := skipBlank_length_le r
          split at h
          · cases h
          · rename_i c r' hc
            rw [hc] at hr
            split at h
            · cases h
            · cases h
              simp only [Turn.rest, Turn.taken]; omega
        · cases h

/-- A name is behind its quote, so at least one byte is gone. -/
theorem memberName_length {s : Bytes} {t : Turn String} (h : memberName s = .ok t) :
    t.rest.length + 1 ≤ s.length ∧ t.taken = 0 := by
  unfold memberName at h
  cases hr : readText s with
  | error f => rw [hr] at h; cases h
  | ok p =>
    rw [hr] at h
    obtain ⟨name, rest⟩ := p
    simp only [Except.map, Except.ok.injEq] at h
    exact h ▸ ⟨readText_length_lt hr, rfl⟩

theorem nextMember_length {first : Bool} {s : Bytes} {t : Turn String}
    (h : nextMember first s = .ok t) : t.rest.length + t.taken ≤ s.length := by
  have h := mapError_ok_iff.mp h
  unfold nextName at h
  have hs := skipBlank_length_le s
  split at h
  · cases h
  · rename_i b r hb
    rw [hb, List.length_cons] at hs
    split at h
    · cases h; exact hs
    · split at h
      · split at h
        · have := memberName_length h; omega
        · cases h
      · split at h
        · have hr := skipBlank_length_le r
          split at h
          · cases h
          · rename_i c r' hc
            rw [hc, List.length_cons] at hr
            split at h
            · have := memberName_length h; omega
            · split at h <;> cases h
        · cases h

/-- The colon itself is gone. -/
theorem colon_length_lt {s rest : Bytes} (h : colon s = .ok rest) : rest.length < s.length := by
  unfold colon at h
  have hs := skipBlank_length_le s
  split at h
  · cases h
  · rename_i b r hb
    rw [hb, List.length_cons] at hs
    split at h
    · cases h; omega
    · cases h

theorem memberValue_length_lt {α : Type} {r : Reader α} {name : String} {s rest : Bytes} {a : α}
    (h : memberValue r name s = .ok (a, rest)) : rest.length < s.length := by
  unfold memberValue at h
  split at h
  · cases h
  · rename_i hc
    have := colon_length_lt hc
    have := r.consumes (mapError_ok_iff.mp h)
    omega

/-- An element is at least one byte long. -/
theorem element_length_lt {α : Type} {r : Reader α} {i : Nat} {s rest : Bytes} {a : α}
    (h : element r i s = .ok (a, rest)) : rest.length < s.length :=
  r.consumes (mapError_ok_iff.mp h)

/-! ## Arrays and dictionaries -/

/-- The elements of an array from the one at index `i`; `done` holds those before it, last first. -/
def elements {α : Type} (r : Reader α) (i : Nat) (done : List α) (s : Bytes) : Read (List α) :=
  match ht : nextElement (i == 0) s with
  | .error f => .error f
  | .ok (.done rest) => .ok (done.reverse, rest)
  | .ok (.part () start) =>
    match he : element r i start with
    | .error f => .error f
    | .ok (a, rest) => elements r (i + 1) (a :: done) rest
  termination_by s.length
  decreasing_by
    have h1 := nextElement_length ht
    have h2 := element_length_lt he
    simp only [Turn.rest] at h1; omega

/-- An array leaves less than it was given, by induction along the loop. -/
theorem elements_length_lt {α : Type} {r : Reader α} {i : Nat} {done as : List α}
    {s rest : Bytes} (h : elements r i done s = .ok (as, rest)) : rest.length < s.length := by
  fun_induction elements r i done s with
  | case1 => cases h
  | case2 i done s rest' ht =>
    cases h
    have := nextElement_length ht
    simp only [Turn.rest, Turn.taken] at this; omega
  | case3 => cases h
  | case4 i done s start ht a rest' he ih =>
    have h1 := nextElement_length ht
    have h2 := element_length_lt he
    have h3 := ih h
    simp only [Turn.rest] at h1; omega

/-- The members of an object whose values have one type; `done` holds those before, last first. -/
def members {α : Type} (r : Reader α) (done : List (String × α)) (s : Bytes) :
    Read (List (String × α)) :=
  match ht : nextMember done.isEmpty s with
  | .error f => .error f
  | .ok (.done rest) => .ok (done.reverse, rest)
  | .ok (.part name start) =>
    match hv : memberValue r name start with
    | .error f => .error f
    | .ok (a, rest) => members r ((name, a) :: done) rest
  termination_by s.length
  decreasing_by
    have h1 := nextMember_length ht
    have h2 := memberValue_length_lt hv
    simp only [Turn.rest] at h1; omega

/-- So does an object. -/
theorem members_length_lt {α : Type} {r : Reader α} {done as : List (String × α)}
    {s rest : Bytes} (h : members r done s = .ok (as, rest)) : rest.length < s.length := by
  fun_induction members r done s with
  | case1 => cases h
  | case2 done s rest' ht =>
    cases h
    have := nextMember_length ht
    simp only [Turn.rest, Turn.taken] at this; omega
  | case3 => cases h
  | case4 done s name start ht a rest' hv ih =>
    have h1 := nextMember_length ht
    have h2 := memberValue_length_lt hv
    have h3 := ih h
    simp only [Turn.rest] at h1; omega

/-- An array with first byte `b`. -/
def arrayHead {α : Type} (r : Reader α) (b : UInt8) (rest : Bytes) : Read (List α) :=
  if b = 0x5B then elements r 0 [] rest else .error (mismatch "a sequence" b rest)

theorem arrayHead_length_le {α : Type} {r : Reader α} {b : UInt8} {s rest : Bytes} {as : List α}
    (h : arrayHead r b s = .ok (as, rest)) : rest.length ≤ s.length := by
  unfold arrayHead at h
  split at h
  · exact Nat.le_of_lt (elements_length_lt h)
  · cases h

/-- The reader of arrays. -/
def Reader.array {α : Type} (r : Reader α) : Reader (List α) :=
  .ofHead (arrayHead r) arrayHead_length_le

/-- A dictionary with first byte `b`. -/
def dictionaryHead {α : Type} (r : Reader α) (b : UInt8) (rest : Bytes) :
    Read (List (String × α)) :=
  if b = 0x7B then (members r [] rest).map fun (ms, rest) => (ordered ms, rest)
  else .error (mismatch "a map" b rest)

theorem dictionaryHead_length_le {α : Type} {r : Reader α} {b : UInt8} {s rest : Bytes}
    {ms : List (String × α)} (h : dictionaryHead r b s = .ok (ms, rest)) :
    rest.length ≤ s.length := by
  unfold dictionaryHead at h
  split at h
  · obtain ⟨ms, hms, -⟩ := read_map_ok_iff.mp h
    exact Nat.le_of_lt (members_length_lt hms)
  · cases h

/-- The reader of objects whose values have one type; of several members with one name the last
    counts. -/
def Reader.dictionary {α : Type} (r : Reader α) : Reader (List (String × α)) :=
  .ofHead (dictionaryHead r) dictionaryHead_length_le

/-! ## Records -/

/-- A field of a record that is collected in a state of type `σ`. -/
structure Field (σ : Type) where
  name : String
  /-- Whether the state has the field already. -/
  filled : σ → Bool
  /-- The field's value, as the change it makes to the state. -/
  read : Reader (σ → σ)

/-- The field that is collected in an optional part of the state. -/
def Field.of {σ α : Type} (name : String) (get : σ → Option α) (set : α → σ → σ) (r : Reader α) :
    Field σ :=
  ⟨name, fun st => (get st).isSome, r.map set⟩

/-- A record type: its name in messages, its fields in order, and what is made of them in the end;
    a failure names the first field that is missing. -/
structure Record (σ α : Type) where
  name : String
  fields : List (Field σ)
  start : σ
  finish : σ → Except String α

/-- What is left behind the end of an object, if the end is next. -/
def stepOverBrace (s : Bytes) : Bytes :=
  match skipBlank s with
  | [] => []
  | b :: rest => if b = 0x7D then rest else b :: rest

/-- Finish a record that ends before `rest`. -/
def Record.close {σ α : Type} (t : Record σ α) (st : σ) (rest : Bytes) : Read α :=
  match t.finish st with
  | .ok a => .ok (a, rest)
  | .error name => .error (.here (.missingField name) rest)

/-- A member of a record, behind its name: the state with it. -/
def Record.member {σ α : Type} (t : Record σ α) (st : σ) (name : String) (s : Bytes) : Read σ :=
  match t.fields.find? (fun f => f.name == name) with
  | none => (memberValue .ignored name s).map fun (_, rest) => (st, rest)
  | some f =>
    if f.filled st then .error (.here (.duplicateField name) (stepOverBrace s))
    else (memberValue f.read name s).map fun (change, rest) => (change st, rest)

/-- A member of a record is at least its colon and its value long. -/
theorem Record.member_length_lt {σ α : Type} {t : Record σ α} {st st' : σ} {name : String}
    {s rest : Bytes} (h : t.member st name s = .ok (st', rest)) : rest.length < s.length := by
  unfold Record.member at h
  split at h
  · obtain ⟨u, hu, -⟩ := (read_map_ok_iff (f := fun _ => st)).mp h
    exact memberValue_length_lt hu
  · split at h
    · cases h
    · rename_i f _ _
      obtain ⟨change, hu, -⟩ := (read_map_ok_iff (f := fun change : σ → σ => change st)).mp h
      exact memberValue_length_lt hu

/-- A record written as an object, from a member on. -/
def Record.ofObject {σ α : Type} (t : Record σ α) (first : Bool) (st : σ) (s : Bytes) : Read α :=
  match ht : nextMember first s with
  | .error f => .error f
  | .ok (.done rest) => t.close st rest
  | .ok (.part name start) =>
    match hm : t.member st name start with
    | .error f => .error f
    | .ok (st', rest) => t.ofObject false st' rest
  termination_by s.length
  decreasing_by
    have h1 := nextMember_length ht
    have h2 := Record.member_length_lt hm
    simp only [Turn.rest] at h1; omega

/-- Closing a record reads nothing. -/
theorem Record.close_rest {σ α : Type} {t : Record σ α} {st : σ} {a : α} {s rest : Bytes}
    (h : t.close st s = .ok (a, rest)) : rest = s := by
  unfold Record.close at h
  split at h
  · cases h; rfl
  · cases h

/-- A record written as an object leaves less than it was given. -/
theorem Record.ofObject_length_lt {σ α : Type} {t : Record σ α} {first : Bool} {st : σ} {a : α}
    {s rest : Bytes} (h : t.ofObject first st s = .ok (a, rest)) : rest.length < s.length := by
  fun_induction Record.ofObject t first st s with
  | case1 => cases h
  | case2 first st s rest' ht =>
    have := nextMember_length ht
    rw [Record.close_rest h]
    simp only [Turn.rest, Turn.taken] at this; omega
  | case3 => cases h
  | case4 first st s name start ht st' rest' hm ih =>
    have h1 := nextMember_length ht
    have h2 := Record.member_length_lt hm
    have h3 := ih h
    simp only [Turn.rest] at h1; omega

/-- The end of an array all of whose fields were read. -/
def closeBracket (s : Bytes) : Except Fault Bytes :=
  match skipBlank s with
  | [] => .error (.peek .endInArray [])
  | b :: rest =>
    if b = 0x5D then .ok rest
    else if b = 0x2C then
      match skipBlank rest with
      | [] => .error (.peek .trailingCharacters [])
      | c :: rest =>
        .error (.peek (if c = 0x5D then .trailingComma else .trailingCharacters) (c :: rest))
    else .error (.peek .trailingCharacters (b :: rest))

/-- The description of a record type by its length. -/
def Record.describeLength {σ α : Type} (t : Record σ α) : String :=
  let n := t.fields.length
  s!"struct {t.name} with {n} " ++ (if n = 1 then "element" else "elements")

/-- A record written as an array, from the field at index `i` on. -/
def Record.ofArray {σ α : Type} (t : Record σ α) (i : Nat) : List (Field σ) → σ → Bytes → Read α
  | [], st, s =>
    match closeBracket s with
    | .error f => .error f
    | .ok rest => t.close st rest
  | f :: fields, st, s =>
    match nextElement (i == 0) s with
    | .error e => .error e
    | .ok (.done rest) => .error (.here (.wrongLength i t.describeLength) rest)
    | .ok (.part () start) =>
      match element f.read i start with
      | .error e => .error e
      | .ok (change, rest) => t.ofArray (i + 1) fields (change st) rest

theorem closeBracket_length_lt {s rest : Bytes} (h : closeBracket s = .ok rest) :
    rest.length < s.length := by
  unfold closeBracket at h
  have hs := skipBlank_length_le s
  split at h
  · cases h
  · rename_i b r hb
    rw [hb, List.length_cons] at hs
    split at h
    · cases h; omega
    · split at h
      · split at h <;> cases h
      · cases h

/-- So does one written as an array. -/
theorem Record.ofArray_length_lt {σ α : Type} {t : Record σ α} {i : Nat} {fields : List (Field σ)}
    {st : σ} {a : α} {s rest : Bytes} (h : t.ofArray i fields st s = .ok (a, rest)) :
    rest.length < s.length := by
  induction fields generalizing i st s with
  | nil =>
    rw [Record.ofArray] at h
    split at h
    · cases h
    · rename_i hc
      rw [Record.close_rest h]
      exact closeBracket_length_lt hc
  | cons f fields ih =>
    rw [Record.ofArray] at h
    split at h
    · cases h
    · cases h
    · rename_i ht
      have h1 := nextElement_length ht
      split at h
      · cases h
      · rename_i he
        have h2 := element_length_lt he
        have h3 := ih h
        simp only [Turn.rest] at h1; omega

/-- A record with first byte `b`. -/
def Record.head {σ α : Type} (t : Record σ α) (b : UInt8) (rest : Bytes) : Read α :=
  if b = 0x7B then t.ofObject true t.start rest
  else if b = 0x5B then t.ofArray 0 t.fields t.start rest
  else .error (mismatch s!"struct {t.name}" b rest)

theorem Record.head_length_le {σ α : Type} {t : Record σ α} {b : UInt8} {s rest : Bytes} {a : α}
    (h : t.head b s = .ok (a, rest)) : rest.length ≤ s.length := by
  unfold Record.head at h
  split at h
  · exact Nat.le_of_lt (Record.ofObject_length_lt h)
  · split at h
    · exact Nat.le_of_lt (Record.ofArray_length_lt h)
    · cases h

/-- The reader of records of a type. -/
def Reader.record {σ α : Type} (t : Record σ α) : Reader α := .ofHead t.head Record.head_length_le

end PlatformClient.Json
