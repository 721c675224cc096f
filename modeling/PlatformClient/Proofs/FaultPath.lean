/-
  Where a v3 envelope is at fault.

  An entry of a v3 envelope has a code, a detail and a title, each of its type, and may have more.
  If one has not, then the path in the error leads to the first such entry by its index; and there to
  the first of the three, in this order, that is of another type, or to the entry as a whole if it
  only lacks some of them.

  1. **Values.**  `isEntry`, `firstWrong` and `faultPath` say this about values, without reading.
  2. **Records.**  A field accepts the values that suit it and refuses all others, so that the record
     refuses an entry with the path that its values tell (`entry_refuses`).
  3. **Payloads.**  A printed payload is refused with this path, whether it is decoded as an error
     payload or read as an envelope (`fault_path`).
-/
import PlatformClient.Http.Request
import PlatformClient.Proofs.Front
import PlatformClient.Proofs.Json.PrintedContainers

namespace PlatformClient

open Json Grammar

namespace Envelope

/-! ## Entries as values -/

/-- The fields of an entry in their order. -/
def entryFields : List String := ["code", "detail", "title"]

/-- Whether a value is of a field's type: a code is an integer of 64 bits, the others are texts. -/
def suits (field : String) : Json → Bool
  | .number (.int n) => field == "code" && decide (int64.least ≤ n ∧ n ≤ int64.greatest)
  | .text _ => field != "code"
  | _ => false

/-- Whether a value is an object that has every field; it may have other members. -/
def isEntry (v : Json) : Bool := entryFields.all fun field => (v.get? field).any (suits field)

/-- Whether a field is there, but not of its type. -/
def isWrong (v : Json) (field : String) : Bool := (v.get? field).any fun a => !suits field a

/-- The first field that is there, but not of its type. -/
def firstWrong (v : Json) : Option String := entryFields.find? (isWrong v)

/-- The path, in writing, to what is wrong with the entry of an index. -/
def faultPath (index : Nat) (v : Json) : String :=
  match firstWrong v with
  | some field => s!"errors[{index}].{field}"
  | none => s!"errors[{index}]"

/-- The steps from an entry to what is wrong with it. -/
def faultSteps (v : Json) : Path := (firstWrong v).toList.map Step.member

/-- A fault in an entry is written with the entry's index and, if one field is to blame, its
    name. -/
theorem pathText_fault (index : Nat) (v : Json) :
    pathText (.member "errors" :: .index index :: faultSteps v) = faultPath index v := by
  have hentry : pathText [.member "errors", .index index] = s!"errors[{index}]" := by
    show "errors" ++ "" ++ ("[" ++ toString index ++ "]") = _
    rw [String.append_empty, ← String.append_assoc, ← String.append_assoc]
    rfl
  unfold faultPath faultSteps
  cases firstWrong v with
  | none => exact hentry
  | some field =>
    show pathText [.member "errors", .index index] ++ "." ++ field = _
    rw [hentry, String.append_assoc]
    show _ = "errors[" ++ toString index ++ ("]" ++ ".") ++ field
    simp only [String.append_assoc]
    rfl

/-- An entry has all three fields, and each suits. -/
theorem isEntry_iff {v : Json} : isEntry v = true ↔
    ∀ field ∈ entryFields, ∃ a, v.get? field = some a ∧ suits field a = true := by
  simp only [isEntry, List.all_eq_true, Option.any_eq_true]

/-- A wrong field is one that is there and does not suit. -/
theorem isWrong_iff {v : Json} {field : String} : isWrong v field = true ↔
    ∃ a, v.get? field = some a ∧ suits field a = false := by
  simp only [isWrong, Option.any_eq_true, Bool.not_eq_true']

/-- A value with all fields, none of them wrong, is an entry. -/
theorem isEntry_of_right {v : Json} (hthere : ∀ field ∈ entryFields, v.get? field ≠ none)
    (hright : ∀ field ∈ entryFields, isWrong v field = false) : isEntry v = true := by
  refine isEntry_iff.mpr ?_
  intro field hfield
  obtain ⟨a, ha⟩ := Option.ne_none_iff_exists'.mp (hthere field hfield)
  refine ⟨a, ha, ?_⟩
  cases hsuits : suits field a with
  | true => rfl
  | false =>
    have hwrong := hright field hfield
    rw [isWrong_iff.mpr ⟨a, ha, hsuits⟩] at hwrong
    cases hwrong

/-- Only an object has fields. -/
theorem exists_members {v : Json} (h : isEntry v = true) : ∃ ms, v = .object ms := by
  cases v with
  | object ms => exact ⟨ms, rfl⟩
  | _ => cases h

/-! ## Records -/

/-- A code is a whole number within 64 bits, as the reader takes it. -/
theorem suits_code_iff {v : Json} :
    suits "code" v = true ↔ ∃ n, IntegerForm int64 v.toBytes n := by
  simp only [IntegerForm, integer_toBytes_iff]
  cases v with
  | number n => cases n <;> simp [suits]
  | _ => simp [suits]

/-- The other fields are texts. -/
theorem suits_text_iff {field : String} (hfield : field ≠ "code") {v : Json} :
    suits field v = true ↔ ∃ t, TextForm v.toBytes t := by
  simp only [textForm_toBytes_iff]
  cases v with
  | number n => cases n <;> simp [suits, hfield]
  | _ => simp [suits, hfield]

/-- The record of an entry meets the demands of `Record.Regular`. Its fields stand in the order of
    their names, which is also the order in which a canonical object lists them: so the first wrong
    field is the first that the reader meets. -/
theorem v3EntryRecord_regular : v3EntryRecord.Regular where
  exact := v3EntryRecord_exact
  slotted := v3EntryRecord_slotted
  empty := by
    simp only [v3EntryRecord, codedRecord, List.forall_mem_cons]
    exact ⟨rfl, rfl, rfl, by simp⟩
  complete st := by
    obtain ⟨code, detail, title⟩ := st
    cases code <;> cases detail <;> cases title <;>
      simp [v3EntryRecord, codedRecord, Field.of, required, bind, Except.bind, pure, Except.pure]
  ascending := by decide +kernel

/-- So does the record of the whole payload. -/
theorem v3Record_regular : v3Record.Regular where
  exact := v3Record_exact
  slotted := v3Record_slotted
  empty := by
    simp only [v3Record, List.forall_mem_cons]
    exact ⟨rfl, by simp⟩
  complete st := by
    cases st <;> simp [v3Record, Field.of, required]
  ascending := List.pairwise_singleton _ _

/-- A field accepts what suits it. -/
theorem entry_accepts : ∀ f ∈ v3EntryRecord.fields, ∀ v : Json,
    suits f.name v = true → f.Accepts v := by
  simp only [v3EntryRecord, codedRecord, List.forall_mem_cons]
  refine ⟨?_, ?_, ?_, by simp⟩
  · intro v h
    obtain ⟨n, hn⟩ := suits_code_iff.mp h
    exact Field.of_accepts_iff.mpr ⟨n, int64_reads.writes_iff.mpr hn⟩
  · intro v h
    obtain ⟨t, ht⟩ := (suits_text_iff (by decide)).mp h
    exact Field.of_accepts_iff.mpr ⟨t, text_reads.writes_iff.mpr ht⟩
  · intro v h
    obtain ⟨t, ht⟩ := (suits_text_iff (by decide)).mp h
    exact Field.of_accepts_iff.mpr ⟨t, text_reads.writes_iff.mpr ht⟩

/-- A field refuses what does not. -/
theorem entry_refuses_field : ∀ f ∈ v3EntryRecord.fields, ∀ v : Json,
    suits f.name v = false → f.read.Refuses v.toBytes [] := by
  have code {v : Json} (h : suits "code" v = false) :
      (Reader.integer int64).Refuses v.toBytes [] := by
    refine integer_refuses (by decide) (by decide) (value_toBytes v) ?_
    intro n hn
    rw [suits_code_iff.mpr ⟨n, hn⟩] at h
    cases h
  have text {field : String} (hfield : field ≠ "code") {v : Json} (h : suits field v = false) :
      Reader.text.Refuses v.toBytes [] := by
    refine text_refuses (value_toBytes v) ?_
    intro t ht
    rw [(suits_text_iff hfield).mpr ⟨t, ht⟩] at h
    cases h
  simp only [v3EntryRecord, codedRecord, List.forall_mem_cons]
  exact ⟨fun v h => Field.of_refuses (code h), fun v h => Field.of_refuses (text (by decide) h),
    fun v h => Field.of_refuses (text (by decide) h), by simp⟩

/-- The fields are those of the record. -/
theorem entryFields_eq : entryFields = v3EntryRecord.fields.map Field.name := rfl

/-- A statement about the field names is one about the record's fields. -/
theorem forall_entryFields_iff {P : String → Prop} :
    (∀ field ∈ entryFields, P field) ↔ ∀ f ∈ v3EntryRecord.fields, P f.name := by
  rw [entryFields_eq, List.forall_mem_map]

/-- The first wrong field is found among the record's fields. -/
theorem firstWrong_eq (v : Json) : firstWrong v =
    (v3EntryRecord.fields.find? fun f => isWrong v f.name).map Field.name := by
  rw [firstWrong, entryFields_eq, List.find?_map]
  rfl

variable {ms : List (String × Json)}

/-- A field that is not wrong is read, or absent. -/
theorem accepts_of_not_wrong {f : Json.Field CodedParts} (hf : f ∈ v3EntryRecord.fields)
    (h : isWrong (.object ms) f.name = false) : ∀ v, ms.lookup f.name = some v → f.Accepts v := by
  intro v hv
  refine entry_accepts f hf v ?_
  rw [isWrong, Json.get?, hv] at h
  simpa using h

/-- An entry is read. -/
theorem entry_written (hms : Ascending ms) (h : isEntry (.object ms) = true) :
    ∃ e, (Reader.record v3EntryRecord).Writes (Json.object ms).toBytes e := by
  have hfields : ∀ f ∈ v3EntryRecord.fields, ∃ v, ms.lookup f.name = some v ∧
      suits f.name v = true := forall_entryFields_iff.mp (isEntry_iff.mp h)
  refine v3EntryRecord_regular.written hms ?_ ?_
  · intro f hf v hv
    obtain ⟨u, hu, hsuits⟩ := hfields f hf
    rw [hv] at hu
    cases hu
    exact entry_accepts f hf v hsuits
  · intro f hf
    obtain ⟨u, hu, -⟩ := hfields f hf
    rw [hu]
    rfl

/-- What is no entry is refused where its values say. -/
theorem entry_refuses (hms : Ascending ms) (h : isEntry (.object ms) = false) :
    (Reader.record v3EntryRecord).Refuses (Json.object ms).toBytes (faultSteps (.object ms)) := by
  rw [faultSteps, firstWrong_eq]
  cases hfind : v3EntryRecord.fields.find? fun f => isWrong (.object ms) f.name with
  | some f =>
    obtain ⟨hwrong, fs, gs, hfields, hfs⟩ := List.find?_eq_some_iff_append.mp hfind
    obtain ⟨v, hv, hsuits⟩ := isWrong_iff.mp hwrong
    refine v3EntryRecord_regular.refuses_first hms fs gs hfields ?_ hv
      (entry_refuses_field f (List.mem_of_find?_eq_some hfind) v hsuits)
    intro g hg
    exact accepts_of_not_wrong (by simp [hfields, hg]) (by simpa using hfs g hg)
  | none =>
    have hright : ∀ f ∈ v3EntryRecord.fields, isWrong (.object ms) f.name = false := by
      simpa using hfind
    -- some field is missing, since none is wrong
    obtain ⟨f, hf, hnone⟩ : ∃ f ∈ v3EntryRecord.fields, ms.lookup f.name = none := by
      by_contra hall
      push Not at hall
      have hentry : isEntry (.object ms) = true :=
        isEntry_of_right (forall_entryFields_iff.mpr hall) (forall_entryFields_iff.mpr hright)
      rw [h] at hentry
      cases hentry
    exact v3EntryRecord_regular.refuses_missing hms
      (fun g hg => accepts_of_not_wrong hg (hright g hg)) hf hnone

/-! ## Payloads -/

/-- The members of a canonical object stand in the order of their names. -/
theorem ascending_of_canonical (h : (Json.object ms).Canonical) : Ascending ms := by
  cases h
  assumption

/-- Values inside a canonical one are canonical. -/
theorem canonical_of_lookup {name : String} {v : Json} (h : (Json.object ms).Canonical)
    (hv : ms.lookup name = some v) : v.Canonical := by
  obtain ⟨before, after, rfl, -⟩ := List.lookup_eq_some_iff.mp hv
  cases h with
  | object _ _ hvalues => exact hvalues (name, v) (by simp)

theorem canonical_of_mem {vs : List Json} {v : Json} (h : (Json.array vs).Canonical) (hv : v ∈ vs) :
    v.Canonical := by
  cases h with
  | array _ hitems => exact hitems v hv

/-- What has no entry at an index is refused there, whatever stands behind it and beside it. -/
theorem v3_refuses {members : List (String × Json)} {es rest : List Json}
    (hcanonical : (Json.object members).Canonical)
    (herrors : members.lookup "errors" = some (.array (es ++ .object ms :: rest)))
    (hes : ∀ e ∈ es, isEntry e = true) (hbad : isEntry (.object ms) = false) :
    Schema.v3.reader.Refuses (Json.object members).toBytes
      (.member "errors" :: .index es.length :: faultSteps (.object ms)) := by
  have harray := canonical_of_lookup hcanonical herrors
  have hread : ∀ e ∈ es, ∃ a, (Reader.record v3EntryRecord).Writes e.toBytes a := by
    intro e he
    have hentry := hes e he
    obtain ⟨ms', rfl⟩ := exists_members hentry
    exact entry_written (ascending_of_canonical (canonical_of_mem harray (by simp [he]))) hentry
  have hrefuses := entry_refuses (ascending_of_canonical (canonical_of_mem harray (by simp))) hbad
  have hitems := array_refuses_printed v3Entry_reads.exact hread hrefuses rest
  have hobject := v3Record_regular.refuses_first
    (ascending_of_canonical hcanonical) [] [] rfl (by simp) herrors (Field.of_refuses hitems)
  exact hobject.map _

/-- The error of a printed payload leads to the first entry that is none, and there to the first
    field that is wrong. -/
theorem fault_path {members : List (String × Json)} (es rest : List Json)
    (hcanonical : (Json.object members).Canonical)
    (herrors : (Json.object members).get? "errors" = some (.array (es ++ .object ms :: rest)))
    (hes : ∀ e ∈ es, isEntry e = true) (hbad : isEntry (.object ms) = false) :
    ∃ text m, writeJson (.value (.object members)) = .ok text ∧
      decode .v3 text = .error (.json m) ∧
      pathText m.path = faultPath es.length (.object ms) ∧
      readJson Schema.v3.reader text =
        .error (.jsonReading (faultPath es.length (.object ms)) m.problem.message) := by
  have hobject := object_printed members
  generalize htext : (Json.object members).toBytes = text at hobject
  obtain ⟨f, hf, hpath⟩ := v3_refuses hcanonical herrors hes hbad blank_nil stops_nil
  rw [htext, List.nil_append, List.append_nil] at hf
  have hlocated : pathText (f.misread text).path = faultPath es.length (.object ms) := by
    rw [← pathText_fault, ← hpath]
    rfl
  -- the text starts with a brace, so with no mark
  have hmark : dropMark text = text := by
    have hnone : byteOrderMark.isPrefixOf ([] ++ text ++ []) = false :=
      not_mark_prefix blank_nil hobject.head
    rw [List.nil_append, List.append_nil] at hnone
    exact (dropMark_eq_iff hnone).mpr (.inl rfl)
  have hholds : Holds text (members.map writtenMember) :=
    ⟨text, hobject, [], [], blank_nil, blank_nil, by rw [List.nil_append, List.append_nil]⟩
  have hfirst : firstByte? text = some 0x7B := opensObject_iff_firstByte.mp hholds.opensObject
  refine ⟨text, f.misread text, by rw [← htext]; rfl, ?_, hlocated, ?_⟩
  · rw [decode, hmark]
    exact decodeObject_of_fault hfirst hf
  · rw [readJson, Reader.read, hf, ← hlocated]
    rfl

/-- A code beyond the integers of 64 bits is named, and a missing detail is not. -/
theorem fault_path_code_and_detail :
    let entry := Json.object [("code", .number (.int 1)), ("detail", .text "d"), ("extra", .null),
      ("title", .text "t")]
    let great := [("code", Json.number (.int 0x8000000000000000)), ("title", .null)]
    let small := [("code", Json.number (.int 1)), ("title", .text "t")]
    (∃ text m,
      writeJson (.value (.object [("errors", .array [entry, .object great, .null])])) = .ok text ∧
        decode .v3 text = .error (.json m) ∧ pathText m.path = "errors[1].code" ∧
        readJson Schema.v3.reader text =
          .error (.jsonReading "errors[1].code" m.problem.message)) ∧
      ∃ text m,
        writeJson (.value (.object [("errors", .array [.object small])])) = .ok text ∧
          decode .v3 text = .error (.json m) ∧ pathText m.path = "errors[0]" ∧
          readJson Schema.v3.reader text = .error (.jsonReading "errors[0]" m.problem.message) := by
  intro entry great small
  -- the members stand in the order of their names, as canonical objects have them
  have hentry : entry.Canonical := .object _ (by decide +kernel) (by
    simp only [List.forall_mem_cons]
    exact ⟨.int 1 (by decide), .text "d", .null, .text "t", by simp⟩)
  have hgreat : (Json.object great).Canonical := .object _ (by decide +kernel) (by
    simp only [great, List.forall_mem_cons]
    exact ⟨.int _ (by decide), .null, by simp⟩)
  have hsmall : (Json.object small).Canonical := .object _ (by decide +kernel) (by
    simp only [small, List.forall_mem_cons]
    exact ⟨.int 1 (by decide), .text "t", by simp⟩)
  have henvelope {vs : List Json} (hvs : ∀ v ∈ vs, v.Canonical) :
      (Json.object [("errors", .array vs)]).Canonical :=
    .object _ (List.pairwise_singleton _ _) (by simpa using Canonical.array vs hvs)
  constructor
  · have hpath : faultPath 1 (.object great) = "errors[1].code" := by decide +kernel
    rw [← hpath]
    refine fault_path [entry] [.null] (henvelope ?_) rfl ?_ ?_
    · simp only [List.forall_mem_cons]
      exact ⟨hentry, hgreat, .null, by simp⟩
    · simp only [List.forall_mem_cons]
      exact ⟨by decide +kernel, by simp⟩
    · decide +kernel
  · have hpath : faultPath 0 (.object small) = "errors[0]" := by decide +kernel
    rw [← hpath]
    refine fault_path [] [] (henvelope ?_) rfl (by simp) ?_
    · simp only [List.forall_mem_cons]
      exact ⟨hsmall, by simp⟩
    · decide +kernel

end Envelope

end PlatformClient
