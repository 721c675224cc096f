/-
  Arbitrary values, read back from their written form.

  The reader of arbitrary values stops at a bound on nesting, and printing does not.  So of printed
  values without floating point those within the bound are read back as they were, and all others
  are refused, at a container that would be the first beyond the bound.

  1. **Members.**  The loop over the members of an object is told by their names and values, as that
     over the items of an array is by its items: the members in front of a failing one are read.
  2. **Depth** of a container is that of its deepest part; behind a bound that is passed there is a
     first part that passes it.
  3. **One level.**  `Reader.level inner` reads scalars itself and leaves the parts of a container to
     `inner`.  It takes a container whose parts `inner` takes, and fails at the first part that
     `inner` fails at; without an `inner` it fails at every container.
  4. **All levels.**  By induction on the bound: `value_takes` and `value_fails`.
-/
import Mathlib.Data.List.Induction
import PlatformClient.Proofs.Json.PrintedContainers

namespace PlatformClient.Json

open Grammar

/-! ## Members of an object -/

section Members

variable {α : Type} {r : Reader α}

/-- The members have these names and are taken as these values, in their order. -/
def Keyed (r : Reader α) : List Member → List (String × α) → Prop :=
  List.Forall₂ fun m p => m.Named p.1 ∧ r.Takes m.item.value p.2

/-- One round of the loop over the members of a value that is read as a tree. -/
theorem members_eq (r : Reader α) (done : List (String × α)) (s : Bytes) :
    members r done s =
      match nextMember done.isEmpty s with
      | .error f => .error f
      | .ok (.done rest) => .ok (done.reverse, rest)
      | .ok (.part name start) =>
        match memberValue r name start with
        | .error f => .error f
        | .ok (a, rest) => members r ((name, a) :: done) rest := by
  rw [members.eq_def]
  split
  · rename_i h
    rw [h]
  · rename_i h
    rw [h]
  · rename_i h
    rw [h]
    dsimp only
    split <;> rename_i hv <;> rw [hv]

/-- Members that are taken are read, and leave what remains of the object behind them. -/
theorem members_keyed {ms more : List Member} {ps : List (String × α)} (h : Keyed r ms ps)
    (hspaced : ∀ m ∈ ms, m.Spaced) (done : List (String × α)) {inside : Bytes} (rest : Bytes)
    (hrem : Remaining done.isEmpty ((ms ++ more).map Member.text) inside) :
    ∃ inside', Remaining (ps.reverse ++ done).isEmpty (more.map Member.text) inside' ∧
      members r done (inside ++ 0x7D :: rest) =
        members r (ps.reverse ++ done) (inside' ++ 0x7D :: rest) := by
  induction h generalizing done inside with
  | nil => exact ⟨inside, hrem, rfl⟩
  | @cons m p ms ps hm _ ih =>
    obtain ⟨hname, hvalue⟩ := hm
    have hm := hspaced m List.mem_cons_self
    obtain ⟨after, hafter, hnext⟩ := nextMember_member rest hname hm hrem
    have hstops : Stops (after ++ 0x7D :: rest) := hafter.stops (c := .object) rest
    obtain ⟨inside', hinside, hmembers⟩ :=
      ih (fun o ho => hspaced o (List.mem_cons_of_mem m ho)) (p :: done) hafter
    rw [List.reverse_cons, List.append_assoc]
    refine ⟨inside', hinside, ?_⟩
    rw [members_eq, hnext]
    dsimp only
    rw [memberValue_complete p.1 hm.2.1 hm.2.2.1 hvalue hstops]
    exact hmembers

/-- The loop reads all members, whatever their names, in order. -/
theorem members_complete {ms : List Member} {ps : List (String × α)} (h : Keyed r ms ps)
    (hspaced : ∀ m ∈ ms, m.Spaced) {inside : Bytes} (hinside : Inside (ms.map Member.text) inside)
    (rest : Bytes) : members r [] (inside ++ 0x7D :: rest) = .ok (ps, rest) := by
  have hrem := remaining_true_iff.mpr hinside
  rw [← List.append_nil ms] at hrem
  obtain ⟨w, hw, hmembers⟩ := members_keyed h hspaced [] rest hrem
  rw [hmembers, members_eq, nextMember_done_iff.mpr ⟨w, hw, rfl⟩, List.append_nil,
    List.reverse_reverse]

/-- The members in front of a failing one are read, and its fault gets its name. -/
theorem members_fails {before after : List Member} {bad : Member} {name : String}
    {ps : List (String × α)} {P : Fault → Prop} {inside : Bytes}
    (hspaced : ∀ m ∈ before ++ bad :: after, m.Spaced)
    (hinside : Inside ((before ++ bad :: after).map Member.text) inside)
    (hbefore : Keyed r before ps) (hname : bad.Named name) (hbad : r.Fails bad.item.value P)
    (rest : Bytes) :
    ∃ f, members r [] (inside ++ 0x7D :: rest) = .error (f.inside (.member name)) ∧ P f := by
  have hfront : ∀ m ∈ before, m.Spaced := fun m hm => hspaced m (by simp [hm])
  have hspacedbad : bad.Spaced := hspaced bad (by simp)
  obtain ⟨inside', hrem, hmembers⟩ := members_keyed hbefore hfront [] rest
    (remaining_true_iff.mpr hinside)
  obtain ⟨u, hu, hnext⟩ := nextMember_member rest hname hspacedbad hrem
  have hstops : Stops (u ++ 0x7D :: rest) := hu.stops (c := .object) rest
  obtain ⟨f, hf, hP⟩ := memberValue_fails hbad name hspacedbad.2.1 hspacedbad.2.2.1 hstops
  refine ⟨f, ?_, hP⟩
  rw [hmembers, members_eq, hnext]
  dsimp only
  rw [hf]

end Members

/-! ## Members in order -/

/-- A name behind all others is put at the end. -/
theorem put_of_greater {α : Type} {name : String} (a : α) {ms : List (String × α)}
    (h : ∀ m ∈ ms, m.1 < name) : put name a ms = ms ++ [(name, a)] := by
  induction ms with
  | nil => rfl
  | cons m ms ih =>
    obtain ⟨n, b⟩ := m
    have hn : n < name := h (n, b) List.mem_cons_self
    rw [put, if_neg (String.lt_asymm hn), if_neg (String.ne_of_lt hn).symm,
      ih fun o ho => h o (List.mem_cons_of_mem _ ho), List.cons_append]

/-- Members that are in order stay as they are. -/
theorem ordered_of_ascending {ms : List (String × Json)} (h : Ascending ms) : ordered ms = ms := by
  induction ms using List.reverseRecOn with
  | nil => rfl
  | append_singleton ms m ih =>
    obtain ⟨hms, -, hlast⟩ := List.pairwise_append.mp h
    have hgreater : ∀ o ∈ ms, o.1 < m.1 := fun o ho => hlast o ho m List.mem_cons_self
    have hstep : ordered (ms ++ [m]) = put m.1 m.2 (ordered ms) := by
      rw [ordered, List.foldl_append]
      rfl
    rw [hstep, ih hms, put_of_greater m.2 hgreater]

/-! ## Depth -/

/-- Items are as deep as the deepest of them. -/
theorem depthOfItems_le_iff {vs : List Json} {d : Nat} :
    depthOfItems vs ≤ d ↔ ∀ v ∈ vs, v.depth ≤ d := by
  induction vs with
  | nil => simp [depthOfItems]
  | cons v vs ih => rw [depthOfItems, Nat.max_le, ih, List.forall_mem_cons]

/-- So are members. -/
theorem depthOfMembers_le_iff {ms : List (String × Json)} {d : Nat} :
    depthOfMembers ms ≤ d ↔ ∀ m ∈ ms, m.2.depth ≤ d := by
  induction ms with
  | nil => simp [depthOfMembers]
  | cons m ms ih => rw [depthOfMembers, Nat.max_le, ih, List.forall_mem_cons]

/-- Of parts that are not all within a bound there is a first one beyond it. -/
theorem exists_first_beyond {α : Type} {depth : α → Nat} {parts : List α} {d : Nat}
    (h : ¬ ∀ a ∈ parts, depth a ≤ d) :
    ∃ before bad after, parts = before ++ bad :: after ∧ d < depth bad ∧
      ∀ a ∈ before, depth a ≤ d := by
  cases hfind : parts.find? fun a => decide (d < depth a) with
  | none =>
    have hall : ∀ a ∈ parts, depth a ≤ d := by simpa using List.find?_eq_none.mp hfind
    exact absurd hall h
  | some bad =>
    obtain ⟨hbad, before, after, hparts, hbefore⟩ := List.find?_eq_some_iff_append.mp hfind
    exact ⟨before, bad, after, hparts, by simpa using hbad, by simpa using hbefore⟩

/-! ## Values without floating point -/

/-- Values whose numbers are all integers. -/
inductive Integral : Json → Prop
  | null : Integral .null
  | bool (b : Bool) : Integral (.bool b)
  | int (n : Int) : Integral (.number (.int n))
  | text (s : String) : Integral (.text s)
  | array (items : List Json) : (∀ v ∈ items, Integral v) → Integral (.array items)
  | object (members : List (String × Json)) :
      (∀ m ∈ members, Integral m.2) → Integral (.object members)

/-! ## One level -/

/-- The reader of values whose parts `inner` reads; without it a value may have none. -/
def Reader.level (inner : Option (Reader Json)) : Reader Json :=
  .ofHead (valueHead inner) valueHead_length_le

section Levels

variable {inner : Option (Reader Json)} {r : Reader Json}

/-! ### By the first byte -/

/-- The branches of the reader, one equation per first byte. -/
theorem valueHead_null (s : Bytes) :
    valueHead inner 0x6E s = (word nullTail s).map (Json.null, ·) := rfl

theorem valueHead_true (s : Bytes) :
    valueHead inner 0x74 s = (word trueTail s).map (Json.bool true, ·) := rfl

theorem valueHead_false (s : Bytes) :
    valueHead inner 0x66 s = (word falseTail s).map (Json.bool false, ·) := rfl

theorem valueHead_minus (s : Bytes) : valueHead inner 0x2D s =
    (readNumber true s).map fun (n, rest) => (.number n, rest) := rfl

theorem valueHead_digit {b : UInt8} (hb : isDigit b = true) (s : Bytes) : valueHead inner b s =
    (readNumber false (b :: s)).map fun (n, rest) => (.number n, rest) := by
  have hne : ∀ c, isDigit c = false → b ≠ c := by
    rintro c hc rfl
    rw [hb] at hc
    cases hc
  unfold valueHead
  rw [if_neg (hne _ (by decide)), if_neg (hne _ (by decide)), if_neg (hne _ (by decide)),
    if_neg (hne _ (by decide)), if_pos hb]

theorem valueHead_quote (s : Bytes) : valueHead inner 0x22 s =
    (readText s).map fun (t, rest) => (.text t, rest) := rfl

theorem valueHead_bracket (r : Reader Json) (s : Bytes) : valueHead (some r) 0x5B s =
    (elements r 0 [] s).map fun (vs, rest) => (.array vs, rest) := rfl

theorem valueHead_brace (r : Reader Json) (s : Bytes) : valueHead (some r) 0x7B s =
    (members r [] s).map fun (ms, rest) => (.ofMembers ms, rest) := rfl

/-- The values without a depth of their own are read at every level. -/
theorem level_takes_null : (Reader.level inner).Takes Json.null.toBytes .null := by
  have hvalue := value_toBytes .null
  rw [toBytes_null] at hvalue ⊢
  refine Reader.takes_ofHead hvalue fun rest _ => ?_
  rw [valueHead_null, word_ok_iff.mpr rfl]
  rfl

theorem level_takes_bool (b : Bool) :
    (Reader.level inner).Takes (Json.bool b).toBytes (.bool b) := by
  have hvalue := value_toBytes (.bool b)
  rw [toBytes_bool] at hvalue ⊢
  cases b with
  | true =>
    refine Reader.takes_ofHead hvalue fun rest _ => ?_
    rw [valueHead_true, word_ok_iff.mpr rfl]
    rfl
  | false =>
    refine Reader.takes_ofHead hvalue fun rest _ => ?_
    rw [valueHead_false, word_ok_iff.mpr rfl]
    rfl

theorem level_takes_text (s : String) :
    (Reader.level inner).Takes (Json.text s).toBytes (.text s) := by
  obtain ⟨form, hform, htext⟩ := textForm_toBytes s
  have hvalue := value_toBytes (.text s)
  rw [htext, List.cons_append] at hvalue ⊢
  refine Reader.takes_ofHead hvalue fun rest _ => ?_
  have hread : readText (form ++ [0x22] ++ rest) = .ok (s, rest) :=
    readText_ok_iff.mpr ⟨form, hform, by simp⟩
  rw [valueHead_quote, hread]
  rfl

theorem level_takes_integer {n : Int} (hn : InRange n) :
    (Reader.level inner).Takes (Json.number (.int n)).toBytes (.number (.int n)) := by
  have hvalue := value_toBytes (.number (.int n))
  have hinteger : Integer (Json.number (.int n)).toBytes n := integer_toBytes_iff.mpr rfl
  obtain ⟨b, u, hbu, -⟩ := hvalue.first
  rw [hbu] at hvalue hinteger ⊢
  refine Reader.takes_ofHead hvalue fun rest hs => ?_
  rcases readNumber_integer hinteger hn hs with ⟨t, heq, hread⟩ | ⟨c, t, heq, hdigit, hread⟩
  · obtain ⟨rfl, rfl⟩ := List.cons.inj heq
    rw [valueHead_minus, hread]
    rfl
  · obtain ⟨rfl, rfl⟩ := List.cons.inj heq
    rw [valueHead_digit hdigit, hread]
    rfl

/-- Scalars are taken on every level. -/
theorem level_takes_scalar {v : Json} (hcanonical : v.Canonical) (hintegral : v.Integral)
    (hdepth : v.depth = 0) : (Reader.level inner).Takes v.toBytes v := by
  cases hintegral with
  | null => exact level_takes_null
  | bool b => exact level_takes_bool b
  | int n =>
    cases hcanonical with
    | int _ hn => exact level_takes_integer hn
  | text s => exact level_takes_text s
  | array vs => exact absurd hdepth (Nat.succ_ne_zero _)
  | object ms => exact absurd hdepth (Nat.succ_ne_zero _)

/-- Items that are read from their printed forms are read as a list. -/
theorem listed_written {vs : List Json} (h : ∀ v ∈ vs, r.Takes v.toBytes v) :
    Listed r.Takes (vs.map writtenItem) vs :=
  List.forall₂_map_left_iff.mpr (List.forall₂_same.mpr h)

/-- Members that are read from their printed forms are read under their names. -/
theorem keyed_written {ms : List (String × Json)} (h : ∀ m ∈ ms, r.Takes m.2.toBytes m.2) :
    Keyed r (ms.map writtenMember) ms :=
  List.forall₂_map_left_iff.mpr (List.forall₂_same.mpr fun m hm => ⟨writtenMember_named m, h m hm⟩)

/-- An array is taken if its items are. -/
theorem level_takes_array {vs : List Json} (h : ∀ v ∈ vs, r.Takes v.toBytes v) :
    (Reader.level (some r)).Takes (Json.array vs).toBytes (.array vs) := by
  have harray := array_printed vs
  have hvalue := harray.value
  obtain ⟨hitems, inside, hinside, htext⟩ := harray
  rw [htext, List.cons_append] at hvalue ⊢
  refine Reader.takes_ofHead hvalue fun rest _ => ?_
  rw [valueHead_bracket, List.append_assoc]
  exact read_map_ok_iff.mpr ⟨vs, elements_complete (listed_written h)
    (fun i hi => (hitems i hi).1) 0 [] rest (remaining_true_iff.mpr hinside), rfl⟩

/-- An object is taken if the values of its members are. -/
theorem level_takes_object {ms : List (String × Json)} (hms : Ascending ms)
    (h : ∀ m ∈ ms, r.Takes m.2.toBytes m.2) :
    (Reader.level (some r)).Takes (Json.object ms).toBytes (.object ms) := by
  have hobject := object_printed ms
  have hvalue := hobject.value
  obtain ⟨hmembers, inside, hinside, htext⟩ := hobject
  rw [htext, List.cons_append] at hvalue ⊢
  refine Reader.takes_ofHead hvalue fun rest _ => ?_
  rw [valueHead_brace, List.append_assoc]
  have hread := members_complete (keyed_written h) (fun m hm => (hmembers m hm).1) hinside rest
  refine read_map_ok_iff.mpr ⟨ms, hread, ?_⟩
  rw [ofMembers, ordered_of_ascending hms]

/-- The fault of a container inside as many others as may be. -/
def TooDeep (bound : Nat) (f : Fault) : Prop := f.cause = .tooDeep ∧ f.path.length = bound

/-- Seen from a container, a fault of nesting within it is one step further in. -/
theorem TooDeep.inside {d : Nat} {f : Fault} (h : TooDeep d f) (step : Step) :
    TooDeep (d + 1) (f.inside step) :=
  ⟨h.1, congrArg (· + 1) h.2⟩

/-- Where a value may have no parts, every container is beyond the bound. -/
theorem level_fails_container {v : Json} (h : v.depth ≠ 0) :
    (Reader.level none).Fails v.toBytes (TooDeep 0) := by
  cases v with
  | array vs =>
    rw [toBytes_array, List.cons_append]
    exact Reader.fails_ofHead (by decide) fun rest _ => ⟨_, rfl, rfl, rfl⟩
  | object ms =>
    rw [toBytes_object, List.cons_append]
    exact Reader.fails_ofHead (by decide) fun rest _ => ⟨_, rfl, rfl, rfl⟩
  | _ => exact absurd rfl h

variable {d : Nat}

/-- An array fails at the first item that does. -/
theorem level_fails_array {before after : List Json} {bad : Json}
    (hbefore : ∀ v ∈ before, r.Takes v.toBytes v) (hbad : r.Fails bad.toBytes (TooDeep d)) :
    (Reader.level (some r)).Fails (Json.array (before ++ bad :: after)).toBytes
      (TooDeep (d + 1)) := by
  obtain ⟨hitems, inside, hinside, htext⟩ := array_printed (before ++ bad :: after)
  rw [List.map_append, List.map_cons] at hitems hinside
  rw [htext, List.cons_append]
  refine Reader.fails_ofHead (by decide) fun rest _ => ?_
  obtain ⟨f, hf, hdeep⟩ := elements_fails (fun i hi => (hitems i hi).1) hinside
    (listed_written hbefore) (value_toBytes bad) hbad rest
  refine ⟨_, ?_, hdeep.inside (.index (before.map writtenItem).length)⟩
  rw [valueHead_bracket, List.append_assoc]
  exact congrArg (Except.map _) hf

/-- An object fails at the first member whose value does. -/
theorem level_fails_object {before after : List (String × Json)} {bad : String × Json}
    (hbefore : ∀ m ∈ before, r.Takes m.2.toBytes m.2) (hbad : r.Fails bad.2.toBytes (TooDeep d)) :
    (Reader.level (some r)).Fails (Json.object (before ++ bad :: after)).toBytes
      (TooDeep (d + 1)) := by
  obtain ⟨hmembers, inside, hinside, htext⟩ := object_printed (before ++ bad :: after)
  rw [List.map_append, List.map_cons] at hmembers hinside
  rw [htext, List.cons_append]
  refine Reader.fails_ofHead (by decide) fun rest _ => ?_
  obtain ⟨f, hf, hdeep⟩ := members_fails (fun m hm => (hmembers m hm).1) hinside
    (keyed_written hbefore) (writtenMember_named bad) hbad rest
  refine ⟨_, ?_, hdeep.inside (.member bad.1)⟩
  rw [valueHead_brace, List.append_assoc]
  exact congrArg (Except.map _) hf

end Levels

/-! ## All levels -/

/-- A value within the bound is read back as it was. -/
theorem value_takes {d : Nat} {v : Json} (hcanonical : v.Canonical) (hintegral : v.Integral)
    (hdepth : v.depth ≤ d) : (Reader.value d).Takes v.toBytes v := by
  -- a container of the next level has its parts within the bound of this one
  induction d generalizing v with
  | zero => exact level_takes_scalar hcanonical hintegral (Nat.le_zero.mp hdepth)
  | succ d ih =>
    cases hintegral with
    | array vs hitems =>
      cases hcanonical with
      | array _ hcanonical =>
        have hvs := depthOfItems_le_iff.mp (Nat.le_of_succ_le_succ hdepth)
        exact level_takes_array fun v hv => ih (hcanonical v hv) (hitems v hv) (hvs v hv)
    | object ms hvalues =>
      cases hcanonical with
      | object _ hms hcanonical =>
        have hdepths := depthOfMembers_le_iff.mp (Nat.le_of_succ_le_succ hdepth)
        exact level_takes_object hms fun m hm =>
          ih (hcanonical m hm) (hvalues m hm) (hdepths m hm)
    | null => exact level_takes_null
    | bool b => exact level_takes_bool b
    | int n => exact level_takes_scalar hcanonical (.int n) rfl
    | text s => exact level_takes_text s

/-- A value beyond the bound is refused at a container that is inside as many as may be. -/
theorem value_fails {d : Nat} {v : Json} (hcanonical : v.Canonical) (hintegral : v.Integral)
    (hdepth : d < v.depth) : (Reader.value d).Fails v.toBytes (TooDeep d) := by
  -- the parts in front of the first one beyond the bound are within it, and so they are taken
  induction d generalizing v with
  | zero => exact level_fails_container (Nat.ne_of_gt hdepth)
  | succ d ih =>
    cases hintegral with
    | array vs hitems =>
      cases hcanonical with
      | array _ hcanonical =>
        have hbeyond : ¬ ∀ v ∈ vs, v.depth ≤ d := fun h =>
          Nat.not_le.mpr hdepth (Nat.succ_le_succ (depthOfItems_le_iff.mpr h))
        obtain ⟨before, bad, after, rfl, hbad, hbefore⟩ := exists_first_beyond hbeyond
        refine level_fails_array (fun v hv => ?_) (ih (hcanonical bad ?_) (hitems bad ?_) hbad)
        · exact value_takes (hcanonical v (by simp [hv])) (hitems v (by simp [hv])) (hbefore v hv)
        · simp
        · simp
    | object ms hvalues =>
      cases hcanonical with
      | object _ hms hcanonical =>
        have hbeyond : ¬ ∀ m ∈ ms, m.2.depth ≤ d := fun h =>
          Nat.not_le.mpr hdepth (Nat.succ_le_succ (depthOfMembers_le_iff.mpr h))
        obtain ⟨before, bad, after, rfl, hbad, hbefore⟩ := exists_first_beyond hbeyond
        refine level_fails_object (fun m hm => ?_) (ih (hcanonical bad ?_) (hvalues bad ?_) hbad)
        · exact value_takes (hcanonical m (by simp [hm])) (hvalues m (by simp [hm])) (hbefore m hm)
        · simp
        · simp
    | null => cases hdepth
    | bool b => cases hdepth
    | int n => cases hdepth
    | text s => cases hdepth

end PlatformClient.Json
