/-
  What readers make of printed arrays and objects.

  The members of an object stand in ascending order of their names, and so do the fields of a
  record, so that the fields come one after the other, each at most once.

  1. **Arrays.**  An array is refused for its first item that is, behind items that are read.
  2. **Members.**  If every field that is there can be read, then all members are collected, and a
     field is filled in the end just if the object has it (`Regular.exists_collects`).
  3. **Objects.**  With all fields an object is read (`Regular.written`).  Without one of them it is
     refused as a whole, and with one that cannot be read it is refused there: at the first such
     field, since of those behind it none has been looked at (`Regular.refuses_first`).
-/
import PlatformClient.Proofs.Json.Printing
import PlatformClient.Proofs.Json.Refusal

namespace PlatformClient.Json

open Grammar

/-! ## Arrays -/

/-- A printed array is refused for its first bad item, at that item's index. -/
theorem array_refuses_printed {α : Type} {r : Reader α} (hr : r.Exact) {before : List Json}
    {bad : Json} {path : Path} (hbefore : ∀ v ∈ before, ∃ a, r.Writes v.toBytes a)
    (hbad : r.Refuses bad.toBytes path) (after : List Json) :
    r.array.Refuses (Json.array (before ++ bad :: after)).toBytes (.index before.length :: path) := by
  have harray := array_printed (before ++ bad :: after)
  rw [List.map_append, List.map_cons] at harray
  have hitems : ∀ i ∈ before.map writtenItem, ∃ a, r.Writes i.value a := by
    intro i hi
    obtain ⟨v, hv, rfl⟩ := List.mem_map.mp hi
    exact hbefore v hv
  obtain ⟨as, hlisted⟩ := exists_listed hitems
  have hrefuses := array_refuses hr harray hlisted hbad
  rwa [List.length_map] at hrefuses

/-! ## Members -/

section Members

variable {ms : List (String × Json)} {name : String}

/-- Values stand in ascending order of their names. -/
def Ascending (ms : List (String × Json)) : Prop := ms.Pairwise fun a b => a.1 < b.1

/-- A printed member of a name comes from a member with that name. -/
theorem exists_of_named {o : Member} (ho : o ∈ ms.map writtenMember) (hname : o.Named name) :
    ∃ v, (name, v) ∈ ms := by
  obtain ⟨m, hm, rfl⟩ := List.mem_map.mp ho
  have hm1 : m.1 = name := (writtenMember_named m).unique hname
  exact ⟨m.2, hm1 ▸ hm⟩

/-- A name that the object does not have is not printed. -/
theorem absent_printed (h : ms.lookup name = none) : Absent (ms.map writtenMember) name := by
  intro o ho hname
  obtain ⟨v, hv⟩ := exists_of_named ho hname
  exact absurd (List.lookup_eq_none_iff.mp h _ hv) (by simp)

/-- A member of an object is the only one with its name. -/
theorem occurs_printed (hms : Ascending ms) {v : Json} (h : ms.lookup name = some v)
    {P : Bytes → Prop} (hP : P v.toBytes) : Occurs (ms.map writtenMember) name P := by
  obtain ⟨before, after, rfl, hbefore⟩ := List.lookup_eq_some_iff.mp h
  refine ⟨before.map writtenMember, writtenMember (name, v), after.map writtenMember, by simp,
    writtenMember_named _, hP, ?_⟩
  intro o ho hname
  rcases List.mem_append.mp ho with ho | ho
  · obtain ⟨u, hu⟩ := exists_of_named ho hname
    exact absurd (hbefore _ hu) (by simp)
  · obtain ⟨u, hu⟩ := exists_of_named ho hname
    have hlt : name < name := List.rel_of_pairwise_cons (List.pairwise_append.mp hms).2.1 hu
    exact absurd hlt (String.lt_irrefl name)

end Members

/-! ## Objects -/

section Records

variable {σ α : Type} {t : Record σ α} {ms : List (String × Json)} {f : Field σ} {v : Json}
  {path : Path}

/-- The field can be read from the value. -/
def Field.Accepts (f : Field σ) (v : Json) : Prop := ∃ change, f.read.Writes v.toBytes change

/-- A field accepts a value whose printed form its reader takes. -/
theorem Field.of_accepts_iff {β : Type} {name : String} {get : σ → Option β} {set : β → σ → σ}
    {r : Reader β} : (Field.of name get set r).Accepts v ↔ ∃ b, r.Writes v.toBytes b := by
  simp only [Field.Accepts, Field.of_writes_iff]
  constructor
  · rintro ⟨-, b, hb, -⟩
    exact ⟨b, hb⟩
  · rintro ⟨b, hb⟩
    exact ⟨set b, b, hb, rfl⟩

/-- A field refuses a value where its reader does. -/
theorem Field.of_refuses {β : Type} {name : String} {get : σ → Option β} {set : β → σ → σ}
    {r : Reader β} (h : r.Refuses v.toBytes path) :
    (Field.of name get set r).read.Refuses v.toBytes path := h.map set

/-- A record that starts with nothing and ends well just if nothing is missing, with its fields in
    ascending order of their names. -/
structure Record.Regular (t : Record σ α) : Prop where
  exact : t.Exact
  slotted : t.Slotted
  empty : ∀ f ∈ t.fields, f.filled t.start = false
  complete : ∀ st, (∃ a, t.finish st = .ok a) ↔ ∀ f ∈ t.fields, f.filled st = true
  ascending : t.fields.Pairwise fun f g => f.name < g.name

/-- A field is found by its name. -/
theorem Record.Regular.find (ht : t.Regular) (hf : f ∈ t.fields) :
    t.fields.find? (fun g => g.name == f.name) = some f := by
  obtain ⟨fs, gs, hfields⟩ := List.append_of_mem hf
  refine List.find?_eq_some_iff_append.mpr ⟨by simp, fs, gs, hfields, ?_⟩
  intro g hg
  have hasc := ht.ascending
  rw [hfields] at hasc
  have hlt : g.name < f.name := (List.pairwise_append.mp hasc).2.2 g hg f List.mem_cons_self
  simpa using String.ne_of_lt hlt

/-- Members that fit their fields are all collected, and exactly the fields with a member are
    filled. By induction over the members, in the order of their names. -/
theorem Record.Regular.exists_collects (ht : t.Regular) (hms : Ascending ms)
    (hfits : ∀ f ∈ t.fields, ∀ v, ms.lookup f.name = some v → f.Accepts v) :
    ∃ st, t.Collects t.start (ms.map writtenMember) st ∧
      ∀ f ∈ t.fields, f.filled st = (ms.lookup f.name).isSome := by
  have hready : t.Ready t.start (ms.map writtenMember) := by
    intro f hf
    cases hlookup : ms.lookup f.name with
    | none => exact .inl (absent_printed hlookup)
    | some v => exact .inr ⟨ht.empty f hf, occurs_printed hms hlookup (hfits f hf v hlookup)⟩
  have hnamed : AllNamed (ms.map writtenMember) := by
    intro o ho
    obtain ⟨m, -, rfl⟩ := List.mem_map.mp ho
    exact ⟨m.1, writtenMember_named m⟩
  have hvalues : ∀ o ∈ ms.map writtenMember, Value o.item.value := by
    intro o ho
    obtain ⟨m, -, rfl⟩ := List.mem_map.mp ho
    exact value_toBytes m.2
  obtain ⟨st, hst⟩ := Record.exists_collects ht.slotted hnamed hvalues hready
  refine ⟨st, hst, ?_⟩
  intro f hf
  obtain ⟨β, get, r, hslot, hfilled⟩ := ht.slotted f hf
  have hstart : get t.start = none := by
    have hempty := ht.empty f hf
    rw [hfilled] at hempty
    simpa using hempty
  -- what a slot holds in the end is what the only member with its name says
  rw [hfilled]
  cases hlookup : ms.lookup f.name with
  | none =>
    rcases hst.slot hslot hstart with ⟨hnone, -⟩ | ⟨b, -, hoccurs⟩
    · rw [hnone]
      rfl
    · exact absurd (absent_printed hlookup) hoccurs.not_absent
  | some v =>
    rcases hst.slot hslot hstart with ⟨-, habsent⟩ | ⟨b, hb, -⟩
    · have hoccurs := occurs_printed hms hlookup (P := fun _ => True) trivial
      exact absurd habsent hoccurs.not_absent
    · rw [hb]
      rfl

/-- An object that has every field is read. -/
theorem Record.Regular.written (ht : t.Regular) (hms : Ascending ms)
    (hfits : ∀ f ∈ t.fields, ∀ v, ms.lookup f.name = some v → f.Accepts v)
    (hall : ∀ f ∈ t.fields, (ms.lookup f.name).isSome = true) :
    ∃ a, (Reader.record t).Writes (Json.object ms).toBytes a := by
  obtain ⟨st, hst, hfilled⟩ := ht.exists_collects hms hfits
  obtain ⟨a, ha⟩ := (ht.complete st).mpr fun f hf => (hfilled f hf).trans (hall f hf)
  exact ⟨a, (record_reads ht.exact).writes_iff.mpr
    (.inl ⟨_, st, object_printed ms, hst, ha⟩)⟩

/-- An object that lacks a field is refused as a whole. -/
theorem Record.Regular.refuses_missing (ht : t.Regular) (hms : Ascending ms)
    (hfits : ∀ f ∈ t.fields, ∀ v, ms.lookup f.name = some v → f.Accepts v)
    (hf : f ∈ t.fields) (hnone : ms.lookup f.name = none) :
    (Reader.record t).Refuses (Json.object ms).toBytes [] := by
  obtain ⟨st, hst, hfilled⟩ := ht.exists_collects hms hfits
  have hobject := object_printed ms
  cases hfinish : t.finish st with
  | error name => exact record_refuses_missing ht.exact hobject hst hfinish
  | ok a =>
    have hall := (ht.complete st).mp ⟨a, hfinish⟩ f hf
    rw [hfilled f hf, hnone] at hall
    cases hall

/-- Otherwise an object is refused at the first field that cannot be read. -/
theorem Record.Regular.refuses_first (ht : t.Regular) (hms : Ascending ms) (fs gs : List (Field σ))
    (hfields : t.fields = fs ++ f :: gs)
    (hfs : ∀ g ∈ fs, ∀ v, ms.lookup g.name = some v → g.Accepts v)
    (hv : ms.lookup f.name = some v) (hbad : f.read.Refuses v.toBytes path) :
    (Reader.record t).Refuses (Json.object ms).toBytes (.member f.name :: path) := by
  have hf : f ∈ t.fields := by simp [hfields]
  have hasc := ht.ascending
  rw [hfields] at hasc
  have hgs : ∀ g ∈ gs, f.name < g.name := fun g hg =>
    List.rel_of_pairwise_cons (List.pairwise_append.mp hasc).2.1 hg
  obtain ⟨before, after, rfl, hother⟩ := List.lookup_eq_some_iff.mp hv
  obtain ⟨hbefore, -, hlt⟩ := List.pairwise_append.mp hms
  have hlookup : before.lookup f.name = none := List.lookup_eq_none_iff.mpr hother
  -- the fields in front of the refused one are those with lesser names
  have hfits : ∀ g ∈ t.fields, ∀ u, before.lookup g.name = some u → g.Accepts u := by
    intro g hg u hu
    rw [hfields] at hg
    rcases List.mem_append.mp hg with hg | hg
    · refine hfs g hg u ?_
      rw [List.lookup_append, hu]
      rfl
    rcases List.mem_cons.mp hg with rfl | hg
    · rw [hlookup] at hu
      cases hu
    · have hless : g.name < f.name := by
        obtain ⟨l₁, l₂, rfl, -⟩ := List.lookup_eq_some_iff.mp hu
        exact hlt (g.name, u) (by simp) _ List.mem_cons_self
      exact absurd (hgs g hg) (String.lt_asymm hless)
  obtain ⟨st, hst, hfilled⟩ := ht.exists_collects hbefore hfits
  have hobject := object_printed (before ++ (f.name, v) :: after)
  rw [List.map_append, List.map_cons] at hobject
  refine record_refuses_member ht.exact hobject hst (writtenMember_named _) (ht.find hf) ?_ hbad
  rw [hfilled f hf, hlookup]
  rfl

end Records

end PlatformClient.Json
