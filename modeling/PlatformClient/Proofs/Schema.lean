/-
  What the readers of the envelopes take.

  Each record has a slot for each of its fields, so it is read from an object just if the members
  give every field once.  An entry of a v3 envelope is a record inside an array, and there nothing
  keeps it from being written as an array itself: `V3Error.WrittenAs` has both forms.
-/
import PlatformClient.Envelope
import PlatformClient.Proofs.Json.Record

namespace PlatformClient

open Json Grammar

/-! ## Integers and texts of a record -/

/-- One member, and only one, has the name, and its value is an integer of 64 bits. -/
def GivesInteger (members : List Member) (name : String) (n : Int) : Prop :=
  Occurs members name (IntegerForm int64 · n)

/-- One member, and only one, has the name, and its value is a text. -/
def GivesText (members : List Member) (name : String) (t : String) : Prop :=
  Occurs members name (TextForm · t)

/-- The code is read as a signed number of 64 bits. -/
theorem int64_reads : (Reader.integer int64).Reads (IntegerForm int64) :=
  integer_reads (by decide) (by decide)

/-- The grammar's word for a member with an integer, in terms of the reader of integers. -/
theorem givesInteger_iff {members : List Member} {name : String} {n : Int} :
    GivesInteger members name n ↔ Occurs members name ((Reader.integer int64).Writes · n) :=
  occurs_congr fun _ => int64_reads.writes_iff.symm

/-- And for a member with a text. -/
theorem givesText_iff {members : List Member} {name : String} {t : String} :
    GivesText members name t ↔ Occurs members name (Reader.text.Writes · t) :=
  occurs_congr fun _ => text_reads.writes_iff.symm

/-- A required field is there when it was filled. -/
theorem required_ok_iff {α : Type} {name : String} {o : Option α} {a : α} :
    required name o = .ok a ↔ o = some a := by
  cases o <;> simp [required]

/-! ## Records of an integer and two texts

What v2 envelopes and v3 entries share is proved once, for any three names that differ. -/

/-- The members give the fields of a coded record, each once. -/
def GivesCoded (first second : String) (members : List Member) (code : Int) (a b : String) : Prop :=
  GivesInteger members "code" code ∧ GivesText members first a ∧ GivesText members second b

section Coded

variable {α : Type} {name first second : String} {make : Int → String → String → α}

/-- Each field is read by a reader that takes no more than a value. -/
theorem codedRecord_exact : (codedRecord name first second make).Exact := by
  simp only [Record.Exact, codedRecord, List.forall_mem_cons]
  exact ⟨Field.of_exact int64_reads.exact, Field.of_exact text_reads.exact,
    Field.of_exact text_reads.exact, by simp⟩

/-- The code has its own place among the parts. -/
theorem codedRecord_code :
    (codedRecord name first second make).HasSlot "code" CodedParts.code (.integer int64) where
  found := ⟨_, rfl, fun _ _ => rfl⟩
  others := by
    simp only [codedRecord, List.forall_mem_cons]
    exact ⟨.inl rfl, .inr (Field.of_frame fun _ _ => rfl), .inr (Field.of_frame fun _ _ => rfl),
      by simp⟩

/-- The first text is looked up behind the integer, whose name is another one. -/
theorem codedRecord_first (hdistinct : ["code", first, second].Nodup) :
    (codedRecord name first second make).HasSlot first CodedParts.first .text where
  found := by
    refine ⟨fun t st => { st with first := some t }, ?_, fun _ _ => rfl⟩
    have hcode : "code" ≠ first := by simp at hdistinct; tauto
    rw [codedRecord, List.find?_cons_of_neg (by simpa [Field.of] using hcode),
      List.find?_cons_of_pos (by simp [Field.of])]
  others := by
    simp only [codedRecord, List.forall_mem_cons]
    exact ⟨.inr (Field.of_frame fun _ _ => rfl), .inl rfl, .inr (Field.of_frame fun _ _ => rfl),
      by simp⟩

/-- The second text is looked up behind both. -/
theorem codedRecord_second (hdistinct : ["code", first, second].Nodup) :
    (codedRecord name first second make).HasSlot second CodedParts.second .text where
  found := by
    refine ⟨fun t st => { st with second := some t }, ?_, fun _ _ => rfl⟩
    have hcode : "code" ≠ second := by simp at hdistinct; tauto
    have hfirst : first ≠ second := by simp at hdistinct; tauto
    rw [codedRecord, List.find?_cons_of_neg (by simpa [Field.of] using hcode),
      List.find?_cons_of_neg (by simpa [Field.of] using hfirst),
      List.find?_cons_of_pos (by simp [Field.of])]
  others := by
    simp only [codedRecord, List.forall_mem_cons]
    exact ⟨.inr (Field.of_frame fun _ _ => rfl), .inr (Field.of_frame fun _ _ => rfl), .inl rfl,
      by simp⟩

/-- With three distinct names each field has a place of its own, which only the member of its name
    fills. -/
theorem codedRecord_slotted (hdistinct : ["code", first, second].Nodup) :
    (codedRecord name first second make).Slotted := by
  have hfirst := @codedRecord_first α name first second make hdistinct
  have hsecond := @codedRecord_second α name first second make hdistinct
  intro f hf
  simp only [codedRecord, List.mem_cons, List.not_mem_nil, or_false] at hf
  rcases hf with rfl | rfl | rfl
  · exact ⟨_, _, _, codedRecord_code, fun _ => rfl⟩
  · exact ⟨_, _, _, hfirst, fun _ => rfl⟩
  · exact ⟨_, _, _, hsecond, fun _ => rfl⟩

/-- The record ends well just if all three fields came in, and is made of them. -/
theorem codedRecord_finish_iff {st : CodedParts} {x : α} :
    (codedRecord name first second make).finish st = .ok x ↔
      ∃ code a b, st.code = some code ∧ st.first = some a ∧ st.second = some b ∧
        make code a b = x := by
  obtain ⟨code, a, b⟩ := st
  cases code <;> cases a <;> cases b <;>
    simp [codedRecord, required, bind, Except.bind, pure, Except.pure]

/-- A coded record in braces: an object whose members give the fields, each once. -/
theorem codedRecord_objectForm_iff (hdistinct : ["code", first, second].Nodup) {v : Bytes} {x : α} :
    (codedRecord name first second make).ObjectForm v x ↔
      ∃ members, Object members v ∧ AllNamed members ∧
        ∃ code a b, GivesCoded first second members code a b ∧ make code a b = x := by
  have hfirst := @codedRecord_first α name first second make hdistinct
  have hsecond := @codedRecord_second α name first second make hdistinct
  refine Record.objectForm_iff (codedRecord_slotted hdistinct)
    (fun members x => ∃ code a b, GivesCoded first second members code a b ∧ make code a b = x)
    ?_ ?_
  · intro members st x hc
    simp only [codedRecord_finish_iff, hc.get_eq_some_iff codedRecord_code rfl,
      hc.get_eq_some_iff hfirst rfl, hc.get_eq_some_iff hsecond rfl, GivesCoded, givesInteger_iff,
      givesText_iff, and_assoc]
  · rintro members x ⟨code, a, b, ⟨h1, h2, h3⟩, -⟩
    rw [givesInteger_iff] at h1
    rw [givesText_iff] at h2 h3
    simp only [codedRecord, List.forall_mem_cons]
    exact ⟨Field.of_readable rfl h1, Field.of_readable rfl h2, Field.of_readable rfl h3, by simp⟩

/-- A coded record in brackets: an array of the fields in their order, and no more. -/
theorem codedRecord_arrayForm_iff {v : Bytes} {x : α} :
    (codedRecord name first second make).ArrayForm v x ↔
      ∃ i j k code a b, Grammar.Array [i, j, k] v ∧ IntegerForm int64 i.value code ∧
        TextForm j.value a ∧ TextForm k.value b ∧ make code a b = x := by
  constructor
  · rintro ⟨items, st, harray, hfills, hf⟩
    obtain ⟨code, a, b, h1, h2, h3, rfl⟩ := codedRecord_finish_iff.mp hf
    -- one item for each field, in the order of the fields
    cases hfills with
    | @cons _ _ _ _ i is c1 hc1 hrest =>
    cases hrest with
    | @cons _ _ _ _ j js c2 hc2 hrest =>
    cases hrest with
    | @cons _ _ _ _ k ks c3 hc3 hrest =>
    cases hrest
    obtain ⟨n, hn, rfl⟩ := Field.of_writes_iff.mp hc1
    obtain ⟨t, ht, rfl⟩ := Field.of_writes_iff.mp hc2
    obtain ⟨u, hu, rfl⟩ := Field.of_writes_iff.mp hc3
    cases h1
    cases h2
    cases h3
    exact ⟨i, j, k, code, a, b, harray, int64_reads.writes_iff.mp hn, text_reads.writes_iff.mp ht,
      text_reads.writes_iff.mp hu, rfl⟩
  · rintro ⟨i, j, k, code, a, b, harray, hcode, ha, hb, rfl⟩
    refine ⟨[i, j, k], ⟨some code, some a, some b⟩, harray, ?_, rfl⟩
    refine .cons (Field.of_writes_iff.mpr ⟨code, int64_reads.writes_iff.mpr hcode, rfl⟩) ?_
    refine .cons (Field.of_writes_iff.mpr ⟨a, text_reads.writes_iff.mpr ha, rfl⟩) ?_
    refine .cons (Field.of_writes_iff.mpr ⟨b, text_reads.writes_iff.mpr hb, rfl⟩) ?_
    exact .nil

end Coded

/-! ## The record of a v2 envelope -/

/-- The members say what the error is. -/
def V2Error.GivenBy (e : V2Error) (members : List Member) : Prop :=
  GivesInteger members "code" e.code ∧ GivesText members "description" e.description ∧
    GivesText members "error_code" e.errorCode

theorem v2Record_exact : v2Record.Exact := codedRecord_exact

/-- A v2 envelope in braces, by its members. -/
theorem v2Record_objectForm_iff {v : Bytes} {e : V2Error} :
    v2Record.ObjectForm v e ↔
      ∃ members, Object members v ∧ AllNamed members ∧ e.GivenBy members := by
  rw [v2Record, codedRecord_objectForm_iff (by decide)]
  constructor
  · rintro ⟨members, hobject, hnamed, code, a, b, hgives, rfl⟩
    exact ⟨members, hobject, hnamed, hgives⟩
  · rintro ⟨members, hobject, hnamed, hgives⟩
    exact ⟨members, hobject, hnamed, e.code, e.description, e.errorCode, hgives, rfl⟩

/-! ## The record of a uaa envelope -/

/-- The members say what the error is. -/
def UaaError.GivenBy (e : UaaError) (members : List Member) : Prop :=
  GivesText members "error" e.error ∧ GivesText members "error_description" e.description

theorem uaaRecord_exact : uaaRecord.Exact := by
  simp only [Record.Exact, uaaRecord, List.forall_mem_cons]
  exact ⟨Field.of_exact text_reads.exact, Field.of_exact text_reads.exact, by simp⟩

theorem uaaRecord_error : uaaRecord.HasSlot "error" UaaParts.error .text where
  found := ⟨_, rfl, fun _ _ => rfl⟩
  others := by
    simp only [uaaRecord, List.forall_mem_cons]
    exact ⟨.inl rfl, .inr (Field.of_frame fun _ _ => rfl), by simp⟩

theorem uaaRecord_description :
    uaaRecord.HasSlot "error_description" UaaParts.description .text where
  found := ⟨_, rfl, fun _ _ => rfl⟩
  others := by
    simp only [uaaRecord, List.forall_mem_cons]
    exact ⟨.inr (Field.of_frame fun _ _ => rfl), .inl rfl, by simp⟩

/-- The two fields of the uaa schema have their own places. -/
theorem uaaRecord_slotted : uaaRecord.Slotted := by
  simp only [Record.Slotted, uaaRecord, List.forall_mem_cons]
  exact ⟨⟨_, _, _, uaaRecord_error, fun _ => rfl⟩, ⟨_, _, _, uaaRecord_description, fun _ => rfl⟩,
    by simp⟩

/-- Both texts are required. -/
theorem uaaRecord_finish_iff {st : UaaParts} {e : UaaError} :
    uaaRecord.finish st = .ok e ↔
      st.error = some e.error ∧ st.description = some e.description := by
  obtain ⟨error, description⟩ := st
  cases e
  cases error <;> cases description <;>
    simp [uaaRecord, required, bind, Except.bind, pure, Except.pure]

/-- A uaa object gives each of the two names once, as a text, and whatever else it likes. -/
theorem uaaRecord_objectForm_iff {v : Bytes} {e : UaaError} :
    uaaRecord.ObjectForm v e ↔
      ∃ members, Object members v ∧ AllNamed members ∧ e.GivenBy members := by
  refine Record.objectForm_iff uaaRecord_slotted (fun members e => e.GivenBy members) ?_ ?_
  · intro members st e hc
    rw [uaaRecord_finish_iff, hc.get_eq_some_iff uaaRecord_error rfl,
      hc.get_eq_some_iff uaaRecord_description rfl, UaaError.GivenBy, givesText_iff, givesText_iff]
  · rintro members e ⟨h1, h2⟩
    rw [givesText_iff] at h1 h2
    simp only [uaaRecord, List.forall_mem_cons]
    exact ⟨Field.of_readable rfl h1, Field.of_readable rfl h2, by simp⟩

/-! ## The record of a v3 entry -/

/-- The members say what the entry is. -/
def V3Error.GivenBy (e : V3Error) (members : List Member) : Prop :=
  GivesInteger members "code" e.code ∧ GivesText members "detail" e.detail ∧
    GivesText members "title" e.title

/-- The entry, written as an object. -/
def V3Error.ObjectForm (e : V3Error) (v : Bytes) : Prop :=
  ∃ members, Object members v ∧ AllNamed members ∧ e.GivenBy members

/-- The entry, written as an array of code, detail and title. -/
def V3Error.ArrayForm (e : V3Error) (v : Bytes) : Prop :=
  ∃ code detail title, Grammar.Array [code, detail, title] v ∧
    IntegerForm int64 code.value e.code ∧ TextForm detail.value e.detail ∧
    TextForm title.value e.title

/-- No value has both forms. -/
theorem V3Error.not_both {v : Bytes} {e e' : V3Error} (h : e.ObjectForm v) : ¬ e'.ArrayForm v := by
  obtain ⟨members, hobject, -⟩ := h
  rintro ⟨code, detail, title, harray, -⟩
  have hhead := hobject.head
  rw [harray.head] at hhead
  cases hhead

theorem v3EntryRecord_exact : v3EntryRecord.Exact := codedRecord_exact

theorem v3EntryRecord_slotted : v3EntryRecord.Slotted := codedRecord_slotted (by decide)

/-- An entry in braces, by its members. -/
theorem v3EntryRecord_objectForm_iff {v : Bytes} {e : V3Error} :
    v3EntryRecord.ObjectForm v e ↔ e.ObjectForm v := by
  rw [v3EntryRecord, codedRecord_objectForm_iff (by decide)]
  constructor
  · rintro ⟨members, hobject, hnamed, code, a, b, hgives, rfl⟩
    exact ⟨members, hobject, hnamed, hgives⟩
  · rintro ⟨members, hobject, hnamed, hgives⟩
    exact ⟨members, hobject, hnamed, e.code, e.detail, e.title, hgives, rfl⟩

/-- An entry in brackets, item by item. -/
theorem v3EntryRecord_arrayForm_iff {v : Bytes} {e : V3Error} :
    v3EntryRecord.ArrayForm v e ↔ e.ArrayForm v := by
  rw [v3EntryRecord, codedRecord_arrayForm_iff]
  constructor
  · rintro ⟨i, j, k, code, a, b, harray, hcode, ha, hb, rfl⟩
    exact ⟨i, j, k, harray, hcode, ha, hb⟩
  · rintro ⟨i, j, k, harray, hcode, hdetail, htitle⟩
    exact ⟨i, j, k, e.code, e.detail, e.title, harray, hcode, hdetail, htitle, rfl⟩

/-! ## The record of a v3 envelope -/

/-- An entry in writing; nothing keeps it from being an array. -/
def V3Error.WrittenAs (v : Bytes) (e : V3Error) : Prop := e.ObjectForm v ∨ e.ArrayForm v

/-- The members say what the entries are. -/
def V3EntriesGivenBy (entries : List V3Error) (members : List Member) : Prop :=
  Occurs members "errors" (ArrayForm V3Error.WrittenAs · entries)

/-- An entry of the v3 schema is read from an object or, as every record, from an array of its three
    fields. -/
theorem v3Entry_reads : (Reader.record v3EntryRecord).Reads V3Error.WrittenAs := by
  refine ⟨(record_reads v3EntryRecord_exact).exact, ?_⟩
  intro v e
  rw [(record_reads v3EntryRecord_exact).writes_iff, v3EntryRecord_objectForm_iff,
    v3EntryRecord_arrayForm_iff, V3Error.WrittenAs]

/-- The grammar's word for the list of entries, in terms of the reader of lists. -/
theorem v3EntriesGivenBy_iff {entries : List V3Error} {members : List Member} :
    V3EntriesGivenBy entries members ↔
      Occurs members "errors" ((Reader.array (.record v3EntryRecord)).Writes · entries) :=
  occurs_congr fun _ => (array_reads v3Entry_reads).writes_iff.symm

theorem v3Record_exact : v3Record.Exact := by
  simp only [Record.Exact, v3Record, List.forall_mem_cons]
  exact ⟨Field.of_exact (array_reads v3Entry_reads).exact, by simp⟩

theorem v3Record_errors :
    v3Record.HasSlot "errors" id (.array (.record v3EntryRecord)) where
  found := ⟨_, rfl, fun _ _ => rfl⟩
  others := by
    simp only [v3Record, List.forall_mem_cons]
    exact ⟨.inl rfl, by simp⟩

theorem v3Record_slotted : v3Record.Slotted := by
  simp only [Record.Slotted, v3Record, List.forall_mem_cons]
  exact ⟨⟨_, _, _, v3Record_errors, fun _ => rfl⟩, by simp⟩

/-- A v3 object gives `errors` once, as a list of entries. -/
theorem v3Record_objectForm_iff {v : Bytes} {entries : List V3Error} :
    v3Record.ObjectForm v entries ↔
      ∃ members, Object members v ∧ AllNamed members ∧ V3EntriesGivenBy entries members := by
  refine Record.objectForm_iff v3Record_slotted
    (fun members entries => V3EntriesGivenBy entries members) ?_ ?_
  · intro members st entries hc
    rw [v3EntriesGivenBy_iff, ← hc.get_eq_some_iff v3Record_errors rfl]
    exact required_ok_iff
  · intro members entries h
    rw [v3EntriesGivenBy_iff] at h
    simp only [v3Record, List.forall_mem_cons]
    exact ⟨Field.of_readable rfl h, by simp⟩

/-! ## Envelopes -/

/-- The members say what the envelope is. -/
def Envelope.GivenBy (members : List Member) : Envelope → Prop
  | .v2 e => e.GivenBy members
  | .v3 entries => V3EntriesGivenBy entries members
  | .uaa e => e.GivenBy members

/-- The reader of every schema is exact, so a payload is accepted by its written form alone. -/
theorem Schema.reader_exact (schema : Schema) : schema.reader.Exact := by
  cases schema with
  | v2 => exact (record_reads v2Record_exact).exact.map _
  | v3 => exact (record_reads v3Record_exact).exact.map _
  | uaa => exact (record_reads uaaRecord_exact).exact.map _

/-- What is read as an envelope starts with a brace or a bracket. -/
theorem Schema.head_of_writes {schema : Schema} {v : Bytes} {e : Envelope}
    (h : schema.reader.Writes v e) : v.head? = some 0x7B ∨ v.head? = some 0x5B := by
  have record {σ α : Type} {t : Record σ α} (ht : t.Exact) {f : α → Envelope}
      (h : ((Reader.record t).map f).Writes v e) :
      v.head? = some 0x7B ∨ v.head? = some 0x5B := by
    obtain ⟨a, ha, -⟩ := Reader.writes_map_iff.mp h
    rcases (record_reads ht).writes_iff.mp ha with h | h
    · obtain ⟨members, st, hobject, -⟩ := h
      exact .inl hobject.head
    · obtain ⟨items, st, harray, -⟩ := h
      exact .inr harray.head
  cases schema with
  | v2 => exact record v2Record_exact h
  | v3 => exact record v3Record_exact h
  | uaa => exact record uaaRecord_exact h

/-- A form in braces is no array. -/
theorem record_writes_brace_iff {σ α : Type} {t : Record σ α} (ht : t.Exact) {v : Bytes} {a : α}
    (hv : v.head? = some 0x7B) : (Reader.record t).Writes v a ↔ t.ObjectForm v a := by
  rw [(record_reads ht).writes_iff]
  refine or_iff_left ?_
  rintro ⟨items, st, harray, -⟩
  rw [harray.head] at hv
  cases hv

/-- What starts with a brace is read as an envelope just if it is an object whose members say what
    the envelope is. -/
theorem Schema.reader_writes_iff {schema : Schema} {v : Bytes} {e : Envelope}
    (hv : v.head? = some 0x7B) :
    schema.reader.Writes v e ↔
      e.schema = schema ∧ ∃ members, Object members v ∧ AllNamed members ∧ e.GivenBy members := by
  cases schema with
  | v2 =>
    simp only [Schema.reader, Reader.writes_map_iff, record_writes_brace_iff v2Record_exact hv,
      v2Record_objectForm_iff]
    cases e <;> simp [Envelope.schema, Envelope.GivenBy]
  | v3 =>
    simp only [Schema.reader, Reader.writes_map_iff, record_writes_brace_iff v3Record_exact hv,
      v3Record_objectForm_iff]
    cases e <;> simp [Envelope.schema, Envelope.GivenBy]
  | uaa =>
    simp only [Schema.reader, Reader.writes_map_iff, record_writes_brace_iff uaaRecord_exact hv,
      uaaRecord_objectForm_iff]
    cases e <;> simp [Envelope.schema, Envelope.GivenBy]

end PlatformClient
