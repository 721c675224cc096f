/-
  What the reader of a record takes.

  1. **Members.**  A member has a name, escapes resolved, and a value; what the record does with
     one member is `Takes`, and with all of them in turn `Collects`.
  2. **Two forms.**  A record is read from an object whose members it collects, or from an array
     with one item for each of its fields (`record_reads`).
  3. **Slots.**  A field that is collected in an optional part of the state is there in the end just
     if one member has its name (`Collects.slot`); and members that give each field once are always
     collected (`exists_collects`).
-/
import PlatformClient.Proofs.Json.Reading

namespace PlatformClient.Json

open Grammar

/-! ## Members -/

/-- The name of the member, escapes resolved. -/
def Grammar.Member.Named (m : Member) (name : String) : Prop :=
  Spells m.name (Utf8.encode name)

/-- A member has at most one name. -/
theorem Grammar.Member.Named.unique {m : Member} {a b : String} (ha : m.Named a) (hb : m.Named b) :
    a = b :=
  Utf8.encode_injective (Spells.unique ha hb)

/-- The names of all members resolve to texts. -/
def AllNamed (members : List Member) : Prop := ∀ m ∈ members, ∃ name, m.Named name

/-- A member's name is read exactly when some spelling of it stands there in quotes. -/
theorem memberName_ok_iff {s rest : Bytes} {name : String} :
    memberName s = .ok (.part name rest) ↔
      ∃ form, Spells form (Utf8.encode name) ∧ s = form ++ 0x22 :: rest := by
  rw [← readText_ok_iff, memberName]
  cases readText s with
  | error f => simp [Except.map]
  | ok p => cases p; simp [Except.map]

theorem memberName_not_done {s rest : Bytes} : memberName s ≠ .ok (.done rest) := by
  intro h
  unfold memberName at h
  cases hr : readText s <;> rw [hr] at h <;> cases h

/-- The members end at a brace, with white space in front of it. -/
theorem nextMember_done_iff {first : Bool} {s rest : Bytes} :
    nextMember first s = .ok (.done rest) ↔ ∃ w, Blank w ∧ s = w ++ 0x7D :: rest := by
  rw [nextMember, mapError_ok_iff]
  unfold nextName
  constructor
  · intro h
    split at h
    · cases h
    rename_i b t hb
    obtain ⟨-, w, hw, rfl⟩ := skipBlank_eq_cons_iff.mp hb
    split at h
    · rename_i hc
      subst hc
      cases h
      exact ⟨w, hw, rfl⟩
    split at h
    · split at h
      · -- every other branch ends in a name or in a fault
        exact absurd h memberName_not_done
      · cases h
    split at h
    · split at h
      · cases h
      · split at h
        · exact absurd h memberName_not_done
        · split at h <;> cases h
    · cases h
  · rintro ⟨w, hw, rfl⟩
    rw [skipBlank_eq_cons_iff.mpr ⟨by decide, w, hw, rfl⟩]
    dsimp only
    rw [if_pos rfl]

/-- A name that comes next has a comma in front, or is the first. -/
theorem nextMember_part_sound {first : Bool} {s start : Bytes} {name : String}
    (h : nextMember first s = .ok (.part name start)) :
    ∃ comma w form, Separator first comma ∧ Blank w ∧ Spells form (Utf8.encode name) ∧
      s = comma ++ w ++ 0x22 :: (form ++ 0x22 :: start) := by
  rw [nextMember, mapError_ok_iff] at h
  unfold nextName at h
  split at h
  · cases h
  rename_i b t hb
  obtain ⟨-, w, hw, rfl⟩ := skipBlank_eq_cons_iff.mp hb
  split at h
  · cases h
  split at h
  · -- the first name
    rename_i hfirst
    subst hfirst
    split at h
    · rename_i hq
      subst hq
      obtain ⟨form, hform, rfl⟩ := memberName_ok_iff.mp h
      exact ⟨[], w, form, rfl, hw, hform, rfl⟩
    · cases h
  rename_i hfirst
  rw [Bool.not_eq_true] at hfirst
  subst hfirst
  split at h
  · -- a further one, behind its comma
    rename_i hcomma
    subst hcomma
    split at h
    · cases h
    rename_i c u hc
    obtain ⟨-, w', hw', rfl⟩ := skipBlank_eq_cons_iff.mp hc
    split at h
    · rename_i hq
      subst hq
      obtain ⟨form, hform, rfl⟩ := memberName_ok_iff.mp h
      exact ⟨w ++ [0x2C], w', form, ⟨w, hw, rfl⟩, hw', hform, by simp⟩
    · split at h <;> cases h
  · cases h

/-- A further member is found behind its comma, or at once when it is the first. -/
theorem nextMember_part_complete {first : Bool} {comma w form : Bytes} {name : String}
    (start : Bytes) (hcomma : Separator first comma) (hw : Blank w)
    (hform : Spells form (Utf8.encode name)) :
    nextMember first (comma ++ w ++ 0x22 :: (form ++ 0x22 :: start)) = .ok (.part name start) := by
  have hname : memberName (form ++ 0x22 :: start) = .ok (.part name start) :=
    memberName_ok_iff.mpr ⟨form, hform, rfl⟩
  have hquote : skipBlank (w ++ 0x22 :: (form ++ 0x22 :: start)) =
      0x22 :: (form ++ 0x22 :: start) := skipBlank_eq_cons_iff.mpr ⟨by decide, w, hw, rfl⟩
  rw [nextMember, mapError_ok_iff]
  cases first with
  | true =>
    have hnone : comma = [] := hcomma
    rw [nextName, hnone, List.nil_append, hquote]
    dsimp only
    rw [if_neg (by decide), if_pos rfl, if_pos rfl]
    exact hname
  | false =>
    -- the comma comes first, with white space of its own
    obtain ⟨w', hw', rfl⟩ := hcomma
    have hfound : skipBlank (w' ++ [0x2C] ++ w ++ 0x22 :: (form ++ 0x22 :: start)) =
        0x2C :: (w ++ 0x22 :: (form ++ 0x22 :: start)) :=
      skipBlank_eq_cons_iff.mpr ⟨by decide, w', hw', by simp⟩
    rw [nextName, hfound]
    dsimp only
    rw [if_neg (by decide), if_neg (by decide), if_pos rfl, hquote]
    dsimp only
    rw [if_pos rfl]
    exact hname

/-- Name and value are parted by a colon, with white space in front of it. -/
theorem colon_ok_iff {s rest : Bytes} :
    colon s = .ok rest ↔ ∃ w, Blank w ∧ s = w ++ 0x3A :: rest := by
  unfold colon
  constructor
  · intro h
    split at h
    · cases h
    rename_i b t hb
    obtain ⟨-, w, hw, rfl⟩ := skipBlank_eq_cons_iff.mp hb
    split at h
    · rename_i hc
      subst hc
      cases h
      exact ⟨w, hw, rfl⟩
    · cases h
  · rintro ⟨w, hw, rfl⟩
    rw [skipBlank_eq_cons_iff.mpr ⟨by decide, w, hw, rfl⟩]
    dsimp only
    rw [if_pos rfl]

/-- A read member is a colon, then the value that the reader `r` takes, each with its white
    space. -/
theorem memberValue_sound {α : Type} {r : Reader α} (hr : r.Exact) {name : String}
    {s rest : Bytes} {a : α} (h : memberValue r name s = .ok (a, rest)) :
    ∃ w w' v, Blank w ∧ Blank w' ∧ r.Writes v a ∧ s = w ++ 0x3A :: (w' ++ v ++ rest) := by
  unfold memberValue at h
  split at h
  · cases h
  rename_i t ht
  obtain ⟨w, hw, rfl⟩ := colon_ok_iff.mp ht
  obtain ⟨w', v, hw', hv, rfl⟩ := hr.sound (mapError_ok_iff.mp h)
  exact ⟨w, w', v, hw, hw', hv, rfl⟩

/-- Conversely, `r` is handed the value wherever the white space stands. -/
theorem memberValue_complete {α : Type} {r : Reader α} (name : String)
    {w w' v rest : Bytes} {a : α} (hw : Blank w) (hw' : Blank w') (hv : r.Takes v a)
    (hs : Stops rest) : memberValue r name (w ++ 0x3A :: (w' ++ v ++ rest)) = .ok (a, rest) := by
  rw [memberValue, colon_ok_iff.mpr ⟨w, hw, rfl⟩]
  dsimp only
  rw [hv.2 hw' hs]
  rfl

/-- A member that comes next is found by its name. -/
theorem nextMember_member {first : Bool} {m : Member} {name : String} {ps : List Bytes}
    {inside : Bytes} (rest : Bytes) (hname : m.Named name) (hspaced : m.Spaced)
    (h : Remaining first (m.text :: ps) inside) :
    ∃ after, Remaining false ps after ∧
      nextMember first (inside ++ 0x7D :: rest) = .ok (.part name (m.between ++ 0x3A ::
        (m.item.before ++ m.item.value ++ (after ++ 0x7D :: rest)))) := by
  obtain ⟨comma, hcomma, rfl⟩ := h
  obtain ⟨hbefore, -, -, hafter⟩ := hspaced
  refine ⟨m.item.after ++ further ps, remaining_false_iff.mpr ⟨_, hafter, rfl⟩, ?_⟩
  have hsplit : comma ++ m.text ++ further ps ++ 0x7D :: rest =
      comma ++ m.before ++ 0x22 :: (m.name ++ 0x22 :: (m.between ++ 0x3A ::
        (m.item.before ++ m.item.value ++ (m.item.after ++ further ps ++ 0x7D :: rest)))) := by
    simp [Member.text, Item.text]
  rw [hsplit, nextMember_part_complete _ hcomma hbefore hname]

section Collecting

variable {σ α : Type} {t : Record σ α}

/-- What a record makes of a member: a value nobody asked for is passed over, and a field must not
    have been there before. -/
def Record.Takes (t : Record σ α) (st : σ) (name : String) (v : Bytes) (st' : σ) : Prop :=
  match t.fields.find? (fun f => f.name == name) with
  | none => Value v ∧ st' = st
  | some f => f.filled st = false ∧ ∃ change, f.read.Writes v change ∧ st' = change st

/-- A member that no field names is read for its shape only, and changes nothing. -/
theorem Record.takes_none_iff {st st' : σ} {name : String} {v : Bytes}
    (hf : t.fields.find? (fun f => f.name == name) = none) :
    t.Takes st name v st' ↔ Value v ∧ st' = st := by
  rw [Record.Takes, hf]

/-- A member that a field names must be the first of that name, and its value one that the field's
    reader takes. -/
theorem Record.takes_some_iff {st st' : σ} {name : String} {v : Bytes} {f : Field σ}
    (hf : t.fields.find? (fun f => f.name == name) = some f) :
    t.Takes st name v st' ↔
      f.filled st = false ∧ ∃ change, f.read.Writes v change ∧ st' = change st := by
  rw [Record.Takes, hf]

/-- Either way the value is a value of the grammar. -/
theorem Record.Takes.value {st st' : σ} {name : String} {v : Bytes} (h : t.Takes st name v st') :
    Value v := by
  cases hf : t.fields.find? (fun f => f.name == name) with
  | none => exact ((Record.takes_none_iff hf).mp h).1
  | some f =>
    obtain ⟨-, change, hv, -⟩ := (Record.takes_some_iff hf).mp h
    exact hv.1

/-- What a record makes of members in their order. -/
inductive Record.Collects (t : Record σ α) : σ → List Member → σ → Prop
  | nil {st : σ} : t.Collects st [] st
  | cons {st st' st'' : σ} {m : Member} {ms : List Member} {name : String} :
      m.Named name → t.Takes st name m.item.value st' → t.Collects st' ms st'' →
      t.Collects st (m :: ms) st''

/-- The members of a record that is read all have readable names. -/
theorem Record.Collects.named {st st' : σ} {members : List Member}
    (h : t.Collects st members st') : AllNamed members := by
  induction h with
  | nil => intro m hm; cases hm
  | cons hname _ _ ih =>
    intro m hm
    rcases List.mem_cons.mp hm with rfl | hm
    · exact ⟨_, hname⟩
    · exact ih m hm

/-- The values of all fields are read exactly. -/
def Record.Exact (t : Record σ α) : Prop := ∀ f ∈ t.fields, f.read.Exact

/-- One member, read: what it did to the state is what `Takes` says of its name and value. -/
theorem Record.member_sound (ht : t.Exact) {st st' : σ} {name : String} {s rest : Bytes}
    (h : t.member st name s = .ok (st', rest)) :
    ∃ w w' v, Blank w ∧ Blank w' ∧ t.Takes st name v st' ∧ s = w ++ 0x3A :: (w' ++ v ++ rest) := by
  cases hf : t.fields.find? (fun f => f.name == name) with
  | none =>
    rw [Record.member, hf] at h
    obtain ⟨u, hu, rfl⟩ := (read_map_ok_iff (f := fun _ => st)).mp h
    obtain ⟨w, w', v, hw, hw', hv, rfl⟩ := memberValue_sound ignored_reads.exact hu
    exact ⟨w, w', v, hw, hw', (Record.takes_none_iff hf).mpr ⟨hv.1, rfl⟩, rfl⟩
  | some f =>
    rw [Record.member, hf] at h
    dsimp only at h
    split at h
    · cases h
    rename_i hfilled
    obtain ⟨change, hu, rfl⟩ := (read_map_ok_iff (f := fun change : σ → σ => change st)).mp h
    obtain ⟨w, w', v, hw, hw', hv, rfl⟩ :=
      memberValue_sound (ht f (List.mem_of_find?_eq_some hf)) hu
    have htakes : t.Takes st name v (change st) :=
      (Record.takes_some_iff hf).mpr ⟨by simpa using hfilled, change, hv, rfl⟩
    exact ⟨w, w', v, hw, hw', htakes, rfl⟩

/-- One member that `Takes` allows is read, with the state it says. -/
theorem Record.member_complete (ht : t.Exact) {st st' : σ} {name : String}
    {w w' v rest : Bytes} (hw : Blank w) (hw' : Blank w') (hv : t.Takes st name v st')
    (hs : Stops rest) : t.member st name (w ++ 0x3A :: (w' ++ v ++ rest)) = .ok (st', rest) := by
  cases hf : t.fields.find? (fun f => f.name == name) with
  | none =>
    obtain ⟨hvalue, rfl⟩ := (Record.takes_none_iff hf).mp hv
    have hwrites : Reader.ignored.Writes v () := ignored_reads.writes_iff.mpr hvalue
    rw [Record.member, hf]
    exact (read_map_ok_iff (f := fun _ => st')).mpr
      ⟨(), memberValue_complete name hw hw' (ignored_reads.exact.takes hwrites) hs, rfl⟩
  | some f =>
    obtain ⟨hfilled, change, hwrites, rfl⟩ := (Record.takes_some_iff hf).mp hv
    have hread := ht f (List.mem_of_find?_eq_some hf)
    rw [Record.member, hf]
    dsimp only
    rw [if_neg (by rw [hfilled]; decide)]
    exact (read_map_ok_iff (f := fun change : σ → σ => change st)).mpr
      ⟨change, memberValue_complete name hw hw' (hread.takes hwrites) hs, rfl⟩

/-! ## Records written as objects -/

/-- One round of the loop over the members. -/
theorem Record.ofObject_eq (t : Record σ α) (first : Bool) (st : σ) (s : Bytes) :
    t.ofObject first st s =
      match nextMember first s with
      | .error f => .error f
      | .ok (.done rest) => t.close st rest
      | .ok (.part name start) =>
        match t.member st name start with
        | .error f => .error f
        | .ok (st', rest) => t.ofObject false st' rest := by
  rw [Record.ofObject.eq_def]
  split
  · rename_i h
    rw [h]
  · rename_i h
    rw [h]
  · rename_i h
    rw [h]
    dsimp only
    split <;> rename_i hm <;> rw [hm]

/-- At the closing brace the record is finished from what the members left. -/
theorem Record.close_ok_iff {st : σ} {a : α} {s rest : Bytes} :
    t.close st s = .ok (a, rest) ↔ t.finish st = .ok a ∧ rest = s := by
  unfold Record.close
  split
  · rename_i hf
    rw [hf]
    simp [eq_comm]
  · rename_i hf
    rw [hf]
    simp

/-- The members are well-formed. -/
def WellFormedMembers (members : List Member) : Prop :=
  ∀ m ∈ members, m.Spaced ∧ Spelled m.name ∧ Value m.item.value

/-- The loop over the members, read backwards: by the recursion of `ofObject`, each round puts one
    member in front of those that the rest of the loop collects. -/
theorem Record.ofObject_sound (ht : t.Exact) {first : Bool} {st : σ} {a : α} {s rest : Bytes}
    (h : t.ofObject first st s = .ok (a, rest)) :
    ∃ members st' inside, t.Collects st members st' ∧ WellFormedMembers members ∧
      t.finish st' = .ok a ∧ Remaining first (members.map Member.text) inside ∧
      s = inside ++ 0x7D :: rest := by
  fun_induction Record.ofObject t first st s with
  | case1 => cases h
  | case2 first st s u hu =>
    obtain ⟨hf, rfl⟩ := Record.close_ok_iff.mp h
    obtain ⟨w, hw, rfl⟩ := nextMember_done_iff.mp hu
    exact ⟨[], st, w, .nil, by simp [WellFormedMembers], hf, hw, rfl⟩
  | case3 => cases h
  | case4 first st s name start hn st' u hm ih =>
    -- the white space behind the value belongs to this member, not to what remains
    obtain ⟨members, st'', inside, hc, hwf, hf, hrem, rfl⟩ := ih h
    obtain ⟨comma, w, form, hcomma, hw, hform, rfl⟩ := nextMember_part_sound hn
    obtain ⟨w1, w2, v, hw1, hw2, htakes, rfl⟩ := Record.member_sound ht hm
    obtain ⟨w3, hw3, rfl⟩ := remaining_false_iff.mp hrem
    refine ⟨⟨w, form, w1, ⟨w2, v, w3⟩⟩ :: members, st'', _, .cons hform htakes hc, ?_, hf,
      ⟨comma, hcomma, rfl⟩, by simp [Member.text, Item.text]⟩
    intro m hm
    rcases List.mem_cons.mp hm with rfl | hm
    · exact ⟨⟨hw, hw1, hw2, hw3⟩, hform.spelled, htakes.value⟩
    · exact hwf m hm

/-- A name that comes next is found, and its member is handed on. -/
theorem Record.ofObject_member (t : Record σ α) {first : Bool} {st : σ} {m : Member} {name : String}
    {ms : List Member} (hname : m.Named name) (hspaced : m.Spaced) {inside : Bytes} (rest : Bytes)
    (hrem : Remaining first ((m :: ms).map Member.text) inside) :
    ∃ after, Remaining false (ms.map Member.text) after ∧
      t.ofObject first st (inside ++ 0x7D :: rest) =
        match t.member st name (m.between ++ 0x3A ::
            (m.item.before ++ m.item.value ++ (after ++ 0x7D :: rest))) with
        | .error f => .error f
        | .ok (st', rest) => t.ofObject false st' rest := by
  obtain ⟨after, hafter, hnext⟩ := nextMember_member rest hname hspaced hrem
  exact ⟨after, hafter, by rw [Record.ofObject_eq, hnext]⟩

/-- Members that are collected are read, and leave what remains of the object behind them. -/
theorem Record.ofObject_collected (ht : t.Exact) {st st' : σ} {members more : List Member}
    (h : t.Collects st members st') (hwf : WellFormedMembers members) (first : Bool)
    {inside : Bytes} (rest : Bytes)
    (hrem : Remaining first ((members ++ more).map Member.text) inside) :
    ∃ first' inside', Remaining first' (more.map Member.text) inside' ∧
      t.ofObject first st (inside ++ 0x7D :: rest) =
        t.ofObject first' st' (inside' ++ 0x7D :: rest) := by
  induction h generalizing first inside with
  | nil => exact ⟨first, inside, hrem, rfl⟩
  | @cons st st1 st2 m ms name hname htakes _ ih =>
    obtain ⟨hspaced, -, -⟩ := hwf m (by simp)
    obtain ⟨after, hafter, hmember⟩ := t.ofObject_member hname hspaced rest hrem
    have hstops : Stops (after ++ 0x7D :: rest) := hafter.stops (c := .object) rest
    obtain ⟨first', inside', hinside, hobject⟩ := ih (fun o ho => hwf o (by simp [ho])) false hafter
    refine ⟨first', inside', hinside, ?_⟩
    rw [hmember, Record.member_complete ht hspaced.2.1 hspaced.2.2.1 htakes hstops]
    exact hobject

/-- Directly in front of the closing brace, the loop closes. -/
theorem Record.ofObject_close (t : Record σ α) {first : Bool} {st : σ} {w : Bytes} (hw : Blank w)
    (rest : Bytes) : t.ofObject first st (w ++ 0x7D :: rest) = t.close st rest := by
  rw [Record.ofObject_eq, nextMember_done_iff.mpr ⟨w, hw, rfl⟩]

/-- The loop over the members, forwards: by induction over what is collected, with the separator of
    the first member apart from the others. -/
theorem Record.ofObject_complete (ht : t.Exact) {st st' : σ} {members : List Member}
    (h : t.Collects st members st') (hwf : WellFormedMembers members) {a : α}
    (hf : t.finish st' = .ok a) (first : Bool) {inside : Bytes} (rest : Bytes)
    (hrem : Remaining first (members.map Member.text) inside) :
    t.ofObject first st (inside ++ 0x7D :: rest) = .ok (a, rest) := by
  rw [← List.append_nil members] at hrem
  obtain ⟨first', w, hw, hobject⟩ := Record.ofObject_collected ht h hwf first rest hrem
  rw [hobject, t.ofObject_close hw]
  exact Record.close_ok_iff.mpr ⟨hf, rfl⟩

/-! ## Records written as arrays -/

/-- An array ends at its bracket, with white space in front of it. -/
theorem closeBracket_ok_iff {s rest : Bytes} :
    closeBracket s = .ok rest ↔ ∃ w, Blank w ∧ s = w ++ 0x5D :: rest := by
  unfold closeBracket
  constructor
  · intro h
    split at h
    · cases h
    rename_i b u hb
    obtain ⟨-, w, hw, rfl⟩ := skipBlank_eq_cons_iff.mp hb
    split at h
    · rename_i hc
      subst hc
      cases h
      exact ⟨w, hw, rfl⟩
    split at h
    · split at h <;> cases h
    · cases h
  · rintro ⟨w, hw, rfl⟩
    rw [skipBlank_eq_cons_iff.mpr ⟨by decide, w, hw, rfl⟩]
    dsimp only
    rw [if_pos rfl]

/-- What fields make of one item each, in their order. -/
inductive Fills : List (Field σ) → σ → List Item → σ → Prop
  | nil {st : σ} : Fills [] st [] st
  | cons {f : Field σ} {fs : List (Field σ)} {st st' : σ} {i : Item} {is : List Item}
      {change : σ → σ} :
      f.read.Writes i.value change → Fills fs (change st) is st' → Fills (f :: fs) st (i :: is) st'

/-- The items of a record written as an array are values of the grammar. -/
theorem Fills.value {fs : List (Field σ)} {st st' : σ} {items : List Item}
    (h : Fills fs st items st') : ∀ i ∈ items, Value i.value := by
  induction h with
  | nil => intro i hi; cases hi
  | cons hv _ ih =>
    intro i hi
    rcases List.mem_cons.mp hi with rfl | hi
    · exact hv.1
    · exact ih i hi

/-- A record read from an array has an item for every field, in the order of the fields, and no
    more. -/
theorem Record.ofArray_sound {i : Nat} {fs : List (Field σ)} (hfs : ∀ f ∈ fs, f.read.Exact)
    {st : σ} {a : α} {s rest : Bytes} (h : t.ofArray i fs st s = .ok (a, rest)) :
    ∃ items st' inside, Fills fs st items st' ∧ (∀ i ∈ items, i.Spaced) ∧ t.finish st' = .ok a ∧
      Remaining (i == 0) (items.map Item.text) inside ∧ s = inside ++ 0x5D :: rest := by
  induction fs generalizing i st s with
  | nil =>
    rw [Record.ofArray] at h
    split at h
    · cases h
    -- all fields are filled, and only the bracket may follow
    rename_i u hu
    obtain ⟨hf, rfl⟩ := Record.close_ok_iff.mp h
    obtain ⟨w, hw, rfl⟩ := closeBracket_ok_iff.mp hu
    exact ⟨[], st, w, .nil, by simp, hf, hw, rfl⟩
  | cons f fs ih =>
    rw [Record.ofArray] at h
    split at h
    · cases h
    · cases h
    rename_i start hn
    split at h
    · cases h
    rename_i change u he
    -- the item fills the next field, and the others are filled behind it
    obtain ⟨items, st', inside, hitems, hspaced, hf, hrem, rfl⟩ :=
      ih (fun g hg => hfs g (by simp [hg])) h
    obtain ⟨comma, w, hc, hw, rfl⟩ := nextElement_part_sound hn
    obtain ⟨w', v, hw', hv, rfl⟩ := element_sound (hfs f (by simp)) he
    obtain ⟨item, rfl, hi, hrem'⟩ := remaining_item (v := v) hc hw hw' hrem
    refine ⟨item :: items, st', _, .cons hv hitems, ?_, hf, hrem', by simp⟩
    intro j hj
    rcases List.mem_cons.mp hj with rfl | hj
    · exact hi
    · exact hspaced j hj

/-- Items that fill the fields one after another are read as the record. -/
theorem Record.ofArray_complete {fs : List (Field σ)} (hfs : ∀ f ∈ fs, f.read.Exact) {st st' : σ}
    {items : List Item} (h : Fills fs st items st') (hspaced : ∀ i ∈ items, i.Spaced) {a : α}
    (hf : t.finish st' = .ok a) (i : Nat) {inside : Bytes} (rest : Bytes)
    (hrem : Remaining (i == 0) (items.map Item.text) inside) :
    t.ofArray i fs st (inside ++ 0x5D :: rest) = .ok (a, rest) := by
  induction h generalizing i inside with
  | nil =>
    rw [Record.ofArray, closeBracket_ok_iff.mpr ⟨inside, hrem, rfl⟩]
    exact Record.close_ok_iff.mpr ⟨hf, rfl⟩
  | @cons f fs st st' item items change hv _ ih =>
    obtain ⟨after, hafter, hnext⟩ := nextElement_item rest hv.1
      (hspaced item (by simp)) hrem
    have hstops : Stops (after ++ 0x5D :: rest) := hafter.stops (c := .array) rest
    rw [Record.ofArray, hnext]
    dsimp only
    rw [element_complete i ((hfs f (by simp)).takes hv) hstops]
    exact ih (fun g hg => hfs g (by simp [hg])) (fun j hj => hspaced j (by simp [hj])) hf (i + 1)
      hafter

/-! ## The two forms of a record -/

/-- A record written as an object whose members it collects. -/
def Record.ObjectForm (t : Record σ α) (v : Bytes) (a : α) : Prop :=
  ∃ members st, Object members v ∧ t.Collects t.start members st ∧ t.finish st = .ok a

/-- A record written as an array with one item for each field. -/
def Record.ArrayForm (t : Record σ α) (v : Bytes) (a : α) : Prop :=
  ∃ items st, Grammar.Array items v ∧ Fills t.fields t.start items st ∧ t.finish st = .ok a

/-- At a brace the record is read from an object, and only the object forms are read. -/
theorem Record.head_brace_ok_iff (ht : t.Exact) {s rest : Bytes} {a : α} :
    t.head 0x7B s = .ok (a, rest) ↔ ∃ v, t.ObjectForm v a ∧ 0x7B :: s = v ++ rest := by
  rw [Record.head, if_pos rfl]
  constructor
  · intro h
    obtain ⟨members, st, inside, hc, hwf, hf, hrem, rfl⟩ := Record.ofObject_sound ht h
    exact ⟨_, ⟨members, st, ⟨hwf, inside, remaining_true_iff.mp hrem, rfl⟩, hc, hf⟩, by simp⟩
  · rintro ⟨v, ⟨members, st, ⟨hwf, inside, hinside, rfl⟩, hc, hf⟩, hs⟩
    rw [List.cons_append, List.cons_append, List.cons.injEq] at hs
    obtain ⟨-, rfl⟩ := hs
    have := Record.ofObject_complete ht hc hwf hf true rest (remaining_true_iff.mpr hinside)
    rwa [List.append_assoc]

/-- At a bracket it is read from an array, and only the array forms are read. -/
theorem Record.head_bracket_ok_iff (ht : t.Exact) {s rest : Bytes} {a : α} :
    t.head 0x5B s = .ok (a, rest) ↔ ∃ v, t.ArrayForm v a ∧ 0x5B :: s = v ++ rest := by
  rw [Record.head, if_neg (by decide), if_pos rfl]
  constructor
  · intro h
    obtain ⟨items, st, inside, hc, hspaced, hf, hrem, rfl⟩ := Record.ofArray_sound ht h
    exact ⟨_, ⟨items, st, ⟨fun i hi => ⟨hspaced i hi, hc.value i hi⟩, inside,
      remaining_true_iff.mp hrem, rfl⟩, hc, hf⟩, by simp⟩
  · rintro ⟨v, ⟨items, st, ⟨hwf, inside, hinside, rfl⟩, hc, hf⟩, hs⟩
    rw [List.cons_append, List.cons_append, List.cons.injEq] at hs
    obtain ⟨-, rfl⟩ := hs
    have := Record.ofArray_complete ht hc (fun i hi => (hwf i hi).1) hf 0 rest
      (remaining_true_iff.mpr hinside)
    rwa [List.append_assoc]

/-- A record is read from either of its forms, and from nothing else. -/
theorem record_reads (ht : t.Exact) :
    (Reader.record t).Reads fun v a => t.ObjectForm v a ∨ t.ArrayForm v a := by
  refine Reader.reads_ofHead ?_ ?_ ?_
  · rintro v a (⟨members, st, h, -⟩ | ⟨items, st, h, -⟩)
    · exact h.value
    · exact h.value
  · intro b s a rest h
    by_cases hb : b = 0x7B
    · subst hb
      obtain ⟨v, hv, hs⟩ := (Record.head_brace_ok_iff ht).mp h
      exact ⟨v, .inl hv, hs⟩
    by_cases hb' : b = 0x5B
    · subst hb'
      obtain ⟨v, hv, hs⟩ := (Record.head_bracket_ok_iff ht).mp h
      exact ⟨v, .inr hv, hs⟩
    · rw [Record.head, if_neg hb, if_neg hb'] at h
      cases h
  · rintro b u rest a (h | h) -
    · -- the first byte says which of the two forms it is
      have hb : b = 0x7B := by
        obtain ⟨members, st, ⟨-, inside, -, hv⟩, -⟩ := h
        rw [List.cons_append, List.cons.injEq] at hv
        exact hv.1
      subst hb
      exact (Record.head_brace_ok_iff ht).mpr ⟨_, h, rfl⟩
    · have hb : b = 0x5B := by
        obtain ⟨items, st, ⟨-, inside, -, hv⟩, -⟩ := h
        rw [List.cons_append, List.cons.injEq] at hv
        exact hv.1
      subst hb
      exact (Record.head_bracket_ok_iff ht).mpr ⟨_, h, rfl⟩

/-! ## Slots -/

/-- One of the members, and only one, has the name, and `P` holds of its value. -/
def Occurs (members : List Member) (name : String) (P : Bytes → Prop) : Prop :=
  ∃ before m after, members = before ++ m :: after ∧ m.Named name ∧ P m.item.value ∧
    ∀ o ∈ before ++ after, ¬ o.Named name

/-- No member has the name. -/
def Absent (members : List Member) (name : String) : Prop := ∀ m ∈ members, ¬ m.Named name

/-- A name that is given once is given by the first member or by a later one, not by both. -/
theorem occurs_cons_iff {m : Member} {ms : List Member} {name : String} {P : Bytes → Prop} :
    Occurs (m :: ms) name P ↔
      m.Named name ∧ P m.item.value ∧ Absent ms name ∨ ¬ m.Named name ∧ Occurs ms name P := by
  constructor
  · rintro ⟨before, o, after, hms, ho, hP, hothers⟩
    -- either the member that is given stands first, or another one does
    cases before with
    | nil =>
      rw [List.nil_append, List.cons.injEq] at hms
      obtain ⟨rfl, rfl⟩ := hms
      exact .inl ⟨ho, hP, hothers⟩
    | cons b before =>
      rw [List.cons_append, List.cons.injEq] at hms
      obtain ⟨rfl, rfl⟩ := hms
      exact .inr ⟨hothers m (by simp), before, o, after, rfl, ho, hP,
        fun x hx => hothers x (by simp [List.mem_append.mp hx])⟩
  · rintro (⟨hm, hP, habsent⟩ | ⟨hm, before, o, after, rfl, ho, hP, hothers⟩)
    · exact ⟨[], m, ms, rfl, hm, hP, habsent⟩
    · refine ⟨m :: before, o, after, rfl, ho, hP, ?_⟩
      intro x hx
      rw [List.cons_append] at hx
      rcases List.mem_cons.mp hx with rfl | hx
      · exact hm
      · exact hothers x hx

/-- A name is absent when the first member and all later ones have another. -/
theorem absent_cons_iff {m : Member} {ms : List Member} {name : String} :
    Absent (m :: ms) name ↔ ¬ m.Named name ∧ Absent ms name := by
  simp [Absent]

/-- A weaker demand on the value is met by the same member. -/
theorem Occurs.mono {members : List Member} {name : String} {P Q : Bytes → Prop}
    (h : Occurs members name P) (hPQ : ∀ v, P v → Q v) : Occurs members name Q := by
  obtain ⟨before, m, after, hms, hm, hP, hothers⟩ := h
  exact ⟨before, m, after, hms, hm, hPQ _ hP, hothers⟩

theorem occurs_congr {members : List Member} {name : String} {P Q : Bytes → Prop}
    (h : ∀ v, P v ↔ Q v) : Occurs members name P ↔ Occurs members name Q :=
  ⟨fun ho => ho.mono fun v => (h v).mp, fun ho => ho.mono fun v => (h v).mpr⟩

/-- The only member with a name is the same one each time. -/
theorem Occurs.exists_both {members : List Member} {name : String} {P Q : Bytes → Prop}
    (hP : Occurs members name P) (hQ : Occurs members name Q) : ∃ v, P v ∧ Q v := by
  induction members with
  | nil =>
    obtain ⟨before, m, after, h, -⟩ := hP
    cases before <;> cases h
  | cons m ms ih =>
    rcases occurs_cons_iff.mp hP with ⟨hm, hv, -⟩ | ⟨hm, hP'⟩
    · rcases occurs_cons_iff.mp hQ with ⟨-, hv', -⟩ | ⟨hm', -⟩
      · exact ⟨_, hv, hv'⟩
      · exact absurd hm hm'
    · rcases occurs_cons_iff.mp hQ with ⟨hm', -⟩ | ⟨-, hQ'⟩
      · exact absurd hm' hm
      · exact ih hP' hQ'

/-- What holds of the value of the only member with a name holds of any member with that name. -/
theorem Occurs.of_named {members : List Member} {name : String} {P : Bytes → Prop}
    (h : Occurs members name P) {m : Member} (hm : m ∈ members) (hname : m.Named name) :
    P m.item.value := by
  obtain ⟨before, o, after, rfl, -, hP, hothers⟩ := h
  rcases List.mem_append.mp hm with hb | hm
  · exact absurd hname (hothers m (by simp [hb]))
  · rcases List.mem_cons.mp hm with rfl | ha
    · exact hP
    · exact absurd hname (hothers m (by simp [ha]))

/-- A name that is given is not absent. -/
theorem Occurs.not_absent {members : List Member} {name : String} {P : Bytes → Prop}
    (h : Occurs members name P) : ¬ Absent members name := by
  obtain ⟨before, m, after, rfl, hm, -⟩ := h
  intro habsent
  exact habsent m (by simp) hm

/-- A field is collected in an optional part of the state, which no other field touches. -/
structure Record.HasSlot {β : Type} (t : Record σ α) (name : String) (get : σ → Option β)
    (r : Reader β) : Prop where
  found : ∃ set, t.fields.find? (fun f => f.name == name) = some (.of name get set r) ∧
    ∀ b st, get (set b st) = some b
  others : ∀ f ∈ t.fields, f.name = name ∨ ∀ v change st, f.read.Writes v change →
    get (change st) = get st

/-- The reader of a field takes the forms of the value's own reader, and its result is the change to
    the state. -/
theorem Field.of_writes_iff {β : Type} {name : String} {get : σ → Option β} {set : β → σ → σ}
    {r : Reader β} {v : Bytes} {change : σ → σ} :
    (Field.of name get set r).read.Writes v change ↔ ∃ b, r.Writes v b ∧ change = set b :=
  Reader.writes_map_iff

/-- A field reads exactly when its value's reader does. -/
theorem Field.of_exact {β : Type} {name : String} {get : σ → Option β} {set : β → σ → σ}
    {r : Reader β} (hr : r.Exact) : (Field.of name get set r).read.Exact :=
  hr.map set

/-- A field that leaves a part of the state alone does so with every value. -/
theorem Field.of_frame {β γ : Type} {name : String} {get : σ → Option β} {set : β → σ → σ}
    {r : Reader β} {other : σ → γ} (h : ∀ b st, other (set b st) = other st) (v : Bytes)
    (change : σ → σ) (st : σ) (hv : (Field.of name get set r).read.Writes v change) :
    other (change st) = other st := by
  obtain ⟨b, -, rfl⟩ := Field.of_writes_iff.mp hv
  exact h b st

variable {β : Type} {name : String} {get : σ → Option β} {r : Reader β}

/-- A member of the slot's name finds the slot empty and leaves its own value there. -/
theorem Record.HasSlot.takes_self (hs : t.HasSlot name get r) {st st' : σ} {v : Bytes}
    (h : t.Takes st name v st') : get st = none ∧ ∃ b, r.Writes v b ∧ get st' = some b := by
  obtain ⟨set, hfound, hset⟩ := hs.found
  obtain ⟨hfilled, change, hc, rfl⟩ := (Record.takes_some_iff hfound).mp h
  obtain ⟨b, hb, rfl⟩ := Field.of_writes_iff.mp hc
  refine ⟨?_, b, hb, hset b st⟩
  have : (get st).isSome = false := hfilled
  rwa [Option.isSome_eq_false_iff, Option.isNone_iff_eq_none] at this

/-- A member of another name leaves the slot as it was. -/
theorem Record.HasSlot.takes_other (hs : t.HasSlot name get r) {st st' : σ} {other : String}
    {v : Bytes} (h : t.Takes st other v st') (hne : other ≠ name) : get st' = get st := by
  cases hf : t.fields.find? (fun f => f.name == other) with
  | none => rw [((Record.takes_none_iff hf).mp h).2]
  | some f =>
    obtain ⟨-, change, hv, rfl⟩ := (Record.takes_some_iff hf).mp h
    have hname : f.name = other := by simpa using List.find?_some hf
    rcases hs.others f (List.mem_of_find?_eq_some hf) with h | h
    · exact absurd (hname.symm.trans h) hne
    · exact h v change st hv

/-- A slot that is filled stays so, and no further member has its name. -/
theorem Record.Collects.slot_filled (hs : t.HasSlot name get r) {st st' : σ}
    {members : List Member} (h : t.Collects st members st') {b : β} (hb : get st = some b) :
    get st' = some b ∧ Absent members name := by
  induction h with
  | nil => exact ⟨hb, fun m hm => by cases hm⟩
  | @cons st st1 st2 m ms n hname htakes _ ih =>
    by_cases hn : n = name
    · -- a member with the name would not be taken
      subst hn
      have hempty := (hs.takes_self htakes).1
      rw [hempty] at hb
      cases hb
    · obtain ⟨hst, habsent⟩ := ih ((hs.takes_other htakes hn).trans hb)
      exact ⟨hst, absent_cons_iff.mpr ⟨fun hm => hn (hname.unique hm), habsent⟩⟩

/-- A slot that was empty holds in the end what the only member with its name says, or nothing. -/
theorem Record.Collects.slot (hs : t.HasSlot name get r) {st st' : σ}
    {members : List Member} (h : t.Collects st members st') (hb : get st = none) :
    get st' = none ∧ Absent members name ∨
      ∃ b, get st' = some b ∧ Occurs members name (r.Writes · b) := by
  induction h with
  | nil => exact .inl ⟨hb, fun m hm => by cases hm⟩
  | @cons st st1 st2 m ms n hname htakes hrest ih =>
    by_cases hn : n = name
    · -- this member fills the slot, and none behind it has the name
      subst hn
      obtain ⟨-, b, hv, hb'⟩ := hs.takes_self htakes
      obtain ⟨hst, habsent⟩ := hrest.slot_filled hs hb'
      exact .inr ⟨b, hst, occurs_cons_iff.mpr (.inl ⟨hname, hv, habsent⟩)⟩
    · -- this member leaves the slot to those behind it
      have hm : ¬ m.Named name := fun hm => hn (hname.unique hm)
      rcases ih ((hs.takes_other htakes hn).trans hb) with ⟨hst, habsent⟩ | ⟨b, hst, hoccurs⟩
      · exact .inl ⟨hst, absent_cons_iff.mpr ⟨hm, habsent⟩⟩
      · exact .inr ⟨b, hst, occurs_cons_iff.mpr (.inr ⟨hm, hoccurs⟩)⟩

/-- Over all members, the slot ends up with the value of the one member of its name. By induction
    over the members: before that member the slot is empty, behind it no second one is allowed. -/
theorem Record.Collects.get_eq_some_iff (hs : t.HasSlot name get r) {st st' : σ}
    {members : List Member} (h : t.Collects st members st') (h0 : get st = none) {b : β} :
    get st' = some b ↔ Occurs members name (r.Writes · b) := by
  rcases h.slot hs h0 with ⟨hnone, habsent⟩ | ⟨c, hsome, hoccurs⟩
  · constructor
    · intro hb
      rw [hnone] at hb
      cases hb
    · intro hb
      exact absurd habsent hb.not_absent
  · constructor
    · intro hb
      rw [hsome] at hb
      cases hb
      exact hoccurs
    · intro hb
      obtain ⟨v, hc, hb'⟩ := hoccurs.exists_both hb
      rw [hsome, hc.unique hb']

/-! ## Members that are always collected -/

/-- Every field has a slot. -/
def Record.Slotted (t : Record σ α) : Prop :=
  ∀ f ∈ t.fields, ∃ (β : Type) (get : σ → Option β) (r : Reader β),
    t.HasSlot f.name get r ∧ ∀ st, f.filled st = (get st).isSome

/-- No field changes whether another is filled. -/
theorem Record.Slotted.filled_eq (ht : t.Slotted) {f g : Field σ} (hf : f ∈ t.fields)
    (hg : g ∈ t.fields) (hne : g.name ≠ f.name) {v : Bytes} {change : σ → σ}
    (hv : g.read.Writes v change) (st : σ) : f.filled (change st) = f.filled st := by
  obtain ⟨β, get, r, hs, hfilled⟩ := ht f hf
  rcases hs.others g hg with h | h
  · exact absurd h hne
  · rw [hfilled, hfilled, h v change st hv]

/-- The field can still be read: it is missing in the state and among the members but once. -/
def Field.Readable (f : Field σ) (st : σ) (members : List Member) : Prop :=
  f.filled st = false ∧ Occurs members f.name fun v => ∃ change, f.read.Writes v change

/-- The field of a name that is given once, with a value its reader takes, is readable. -/
theorem Field.of_readable {β : Type} {name : String} {get : σ → Option β} {set : β → σ → σ}
    {r : Reader β} {st : σ} {members : List Member} {b : β} (h0 : get st = none)
    (h : Occurs members name (r.Writes · b)) :
    (Field.of name get set r).Readable st members := by
  refine ⟨?_, h.mono fun v hv => ⟨set b, Field.of_writes_iff.mpr ⟨b, hv, rfl⟩⟩⟩
  show (get st).isSome = false
  rw [h0]
  rfl

/-- Each field is given once by members that are still to come, or not at all. -/
def Record.Ready (t : Record σ α) (st : σ) (members : List Member) : Prop :=
  ∀ f ∈ t.fields, Absent members f.name ∨ f.Readable st members

/-- A member that gives no field leaves all fields to those behind it. -/
theorem Record.Ready.pass {st : σ} {m : Member} {ms : List Member} {n : String}
    (h : t.Ready st (m :: ms)) (hn : m.Named n) (hne : ∀ f ∈ t.fields, f.name ≠ n) :
    t.Ready st ms := by
  intro f hf
  rcases h f hf with habsent | ⟨hfilled, ho⟩
  · exact .inl (absent_cons_iff.mp habsent).2
  · rcases occurs_cons_iff.mp ho with ⟨hm, -⟩ | ⟨-, ho'⟩
    · exact absurd (hm.unique hn) (hne f hf)
    · exact .inr ⟨hfilled, ho'⟩

/-- A member with the name of a field can be read as that field, and no other member can. -/
theorem Record.Ready.field {st : σ} {m : Member} {ms : List Member} {g : Field σ}
    (h : t.Ready st (m :: ms)) (hg : g ∈ t.fields) (hn : m.Named g.name) :
    g.filled st = false ∧ (∃ change, g.read.Writes m.item.value change) ∧ Absent ms g.name := by
  rcases h g hg with habsent | ⟨hfilled, ho⟩
  · exact absurd hn (absent_cons_iff.mp habsent).1
  · rcases occurs_cons_iff.mp ho with ⟨-, hv, habsent⟩ | ⟨hm, -⟩
    · exact ⟨hfilled, hv, habsent⟩
    · exact absurd hn hm

/-- Reading a field leaves the others to the members behind it. -/
theorem Record.Ready.change (ht : t.Slotted) {st : σ} {m : Member} {ms : List Member}
    {g : Field σ} {change : σ → σ} (h : t.Ready st (m :: ms)) (hg : g ∈ t.fields)
    (hn : m.Named g.name) (hv : g.read.Writes m.item.value change) (habsent : Absent ms g.name) :
    t.Ready (change st) ms := by
  intro f hf
  by_cases hname : f.name = g.name
  · exact .inl (hname ▸ habsent)
  rcases h f hf with hnot | ⟨hfilled, ho⟩
  · exact .inl (absent_cons_iff.mp hnot).2
  · rcases occurs_cons_iff.mp ho with ⟨hm, -⟩ | ⟨-, ho'⟩
    · exact absurd (hm.unique hn) hname
    · have hsame : f.filled (change st) = f.filled st :=
        ht.filled_eq hf hg (fun h => hname h.symm) hv st
      exact .inr ⟨hsame.trans hfilled, ho'⟩

/-- The next member is taken. -/
theorem Record.Ready.exists_takes (ht : t.Slotted) {st : σ} {m : Member} {ms : List Member}
    {n : String} (h : t.Ready st (m :: ms)) (hn : m.Named n) (hv : Value m.item.value) :
    ∃ st', t.Takes st n m.item.value st' ∧ t.Ready st' ms := by
  cases hf : t.fields.find? (fun f => f.name == n) with
  | none =>
    have hne : ∀ f ∈ t.fields, f.name ≠ n := fun f hmem => by
      simpa using List.find?_eq_none.mp hf f hmem
    exact ⟨st, (Record.takes_none_iff hf).mpr ⟨hv, rfl⟩, h.pass hn hne⟩
  | some g =>
    have hg : g.name = n := by simpa using List.find?_some hf
    have hmem : g ∈ t.fields := List.mem_of_find?_eq_some hf
    subst hg
    obtain ⟨hfilled, ⟨change, hchange⟩, habsent⟩ := h.field hmem hn
    exact ⟨change st, (Record.takes_some_iff hf).mpr ⟨hfilled, change, hchange, rfl⟩,
      h.change ht hmem hn hchange habsent⟩

/-- Members with names are collected if each field is given once, or not at all. -/
theorem Record.exists_collects (ht : t.Slotted) {members : List Member} {st : σ}
    (hnames : AllNamed members) (hvalues : ∀ m ∈ members, Value m.item.value)
    (h : t.Ready st members) : ∃ st', t.Collects st members st' := by
  -- taking a member keeps the members behind it ready
  induction members generalizing st with
  | nil => exact ⟨st, .nil⟩
  | cons m ms ih =>
    obtain ⟨n, hn⟩ := hnames m (by simp)
    obtain ⟨st1, htakes, hready⟩ := h.exists_takes ht hn (hvalues m (by simp))
    obtain ⟨st2, hrest⟩ := ih (fun o ho => hnames o (by simp [ho]))
      (fun o ho => hvalues o (by simp [ho])) hready
    exact ⟨st2, .cons hn htakes hrest⟩

/-- A record is read from an object just if its members have names and say, each field once, what
    the record is. -/
theorem Record.objectForm_iff (ht : t.Slotted) (given : List Member → α → Prop)
    (hgiven : ∀ {members st a}, t.Collects t.start members st →
      (t.finish st = .ok a ↔ given members a))
    (hfields : ∀ {members a}, given members a → ∀ f ∈ t.fields, f.Readable t.start members)
    {v : Bytes} {a : α} :
    t.ObjectForm v a ↔ ∃ members, Object members v ∧ AllNamed members ∧ given members a := by
  constructor
  · rintro ⟨members, st, hobject, hc, hf⟩
    exact ⟨members, hobject, hc.named, (hgiven hc).mp hf⟩
  · rintro ⟨members, hobject, hnamed, ha⟩
    obtain ⟨st, hc⟩ := Record.exists_collects ht hnamed (fun m hm => (hobject.1 m hm).2.2)
      fun f hf => .inr (hfields ha f hf)
    exact ⟨members, st, hobject, hc, (hgiven hc).mpr ha⟩

end Collecting

end PlatformClient.Json
