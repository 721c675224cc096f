/-
  Decoding a payload, and reading an envelope from the front of a text.

  The two use the same reader.  Reading stops behind the envelope and looks at nothing else; decoding
  drops a byte order mark, wants a brace in front and the end of the text behind, and a v3 envelope
  that says something.

  1. **Locality.**  An envelope is written in braces or brackets, which say themselves where they
     end: what is read does not depend on what follows (`Schema.reader_selfDelimiting`).
  2. **Both readings.**  So a text that is read is white space, a written form and a rest, in one
     way only (`Leads`), and decoding asks about the parts in a fixed order (`Compared`).
-/
import PlatformClient.Error
import PlatformClient.Proofs.Envelope

namespace PlatformClient

open Json Grammar

/-! ## Locality -/

/-- The reader finds the end of a written form without looking behind it. -/
def Json.Reader.SelfDelimiting {α : Type} (r : Reader α) : Prop :=
  ∀ ⦃w v rest : Bytes⦄ ⦃a : α⦄, Blank w → r.Writes v a → r.run (w ++ v ++ rest) = .ok (a, rest)

/-- A reader stays so if something is made of what it reads. -/
theorem Json.Reader.SelfDelimiting.map {α β : Type} {r : Reader α} (h : r.SelfDelimiting)
    (f : α → β) : (r.map f).SelfDelimiting := by
  intro w v rest b hw hb
  obtain ⟨a, ha, rfl⟩ := Reader.writes_map_iff.mp hb
  exact Reader.map_run_ok_iff.mpr ⟨a, h hw ha, rfl⟩

/-- A record is written in braces or brackets. -/
theorem record_selfDelimiting {σ α : Type} {t : Record σ α} (ht : t.Exact) :
    (Reader.record t).SelfDelimiting := by
  intro w v rest a hw hv
  have head : ∀ {b : UInt8} {u : Bytes}, v = b :: u → isBlank b = false →
      t.head b (u ++ rest) = .ok (a, rest) →
      (Reader.record t).run (w ++ v ++ rest) = .ok (a, rest) := by
    rintro b u rfl hb hread
    exact ofHead_ok_iff.mpr ⟨w, b, u ++ rest, hw, hb, by simp, hread⟩
  rcases (record_reads ht).writes_iff.mp hv with hform | hform
  · have hobject := hform
    obtain ⟨members, st, ⟨-, inside, -, rfl⟩, -⟩ := hobject
    exact head rfl (by decide) ((Record.head_brace_ok_iff ht).mpr ⟨_, hform, rfl⟩)
  · have harray := hform
    obtain ⟨items, st, ⟨-, inside, -, rfl⟩, -⟩ := harray
    exact head rfl (by decide) ((Record.head_bracket_ok_iff ht).mpr ⟨_, hform, rfl⟩)

/-- Envelopes end where they end, whatever follows. -/
theorem Schema.reader_selfDelimiting (schema : Schema) : schema.reader.SelfDelimiting := by
  cases schema with
  | v2 => exact (record_selfDelimiting v2Record_exact).map _
  | v3 => exact (record_selfDelimiting v3Record_exact).map _
  | uaa => exact (record_selfDelimiting uaaRecord_exact).map _

namespace Envelope

/-! ## What is read from the front -/

/-- The text is white space, a written form of the envelope, and the rest. -/
def Leads (schema : Schema) (s : Bytes) (e : Envelope) (rest : Bytes) : Prop :=
  ∃ w v, Blank w ∧ schema.reader.Writes v e ∧ s = w ++ v ++ rest

variable {schema : Schema} {s rest : Bytes} {e : Envelope}

/-- The reader takes what leads: white space, the written form of an envelope, and no more. -/
theorem run_ok_iff : schema.reader.run s = .ok (e, rest) ↔ Leads schema s e rest := by
  constructor
  · exact schema.reader_exact.sound
  · rintro ⟨w, v, hw, hv, rfl⟩
    exact schema.reader_selfDelimiting hw hv

/-- A text leads to one envelope and one rest. -/
theorem Leads.unique {e' : Envelope} {rest' : Bytes} (h : Leads schema s e rest)
    (h' : Leads schema s e' rest') : e = e' ∧ rest = rest' := by
  have hrun := run_ok_iff.mpr h
  rw [run_ok_iff.mpr h'] at hrun
  cases hrun
  exact ⟨rfl, rfl⟩

/-- What leads a text still leads it with more behind. -/
theorem Leads.append (h : Leads schema s e rest) (t : Bytes) :
    Leads schema (s ++ t) e (rest ++ t) := by
  obtain ⟨w, v, hw, hv, rfl⟩ := h
  exact ⟨w, v, hw, hv, List.append_assoc _ _ _⟩

/-- The lenient reader accepts a text just if an envelope leads it. -/
theorem readJson_ok_iff :
    readJson schema.reader s = .ok e ↔ ∃ rest, Leads schema s e rest := by
  have hrun : readJson schema.reader s = .ok e ↔ ∃ rest, schema.reader.run s = .ok (e, rest) := by
    unfold readJson Reader.read
    cases schema.reader.run s with
    | error f => simp [Except.mapError]
    | ok p => simp [Except.mapError, Prod.ext_iff]
  rw [hrun]
  exact exists_congr fun _ => run_ok_iff

/-! ## What decoding asks -/

/-- The first byte that is no ASCII white space. -/
def firstByte? (s : Bytes) : Option UInt8 :=
  s.find? fun b => b ∉ [0x20, 0x09, 0x0A, 0x0C, 0x0D]

/-- Five bytes count as white space in front of a payload; form feed is the one that JSON does not
    have. -/
theorem isLeadingBlank_iff {b : UInt8} :
    isLeadingBlank b = true ↔ b ∈ [0x20, 0x09, 0x0A, 0x0C, 0x0D] := by
  simp [isLeadingBlank, or_assoc]

/-- The front of a payload is decided by its first byte behind such white space. -/
theorem opensObject_iff_firstByte : opensObject s = true ↔ firstByte? s = some 0x7B := by
  have hhead : (s.dropWhile isLeadingBlank).head? = firstByte? s := by
    induction s with
    | nil => rfl
    | cons b s ih =>
      rw [firstByte?]
      by_cases hb : isLeadingBlank b = true
      · have hmem := isLeadingBlank_iff.mp hb
        rw [List.dropWhile_cons_of_pos hb, ih, firstByte?,
          List.find?_cons_of_neg (by simpa only [decide_eq_true_eq, not_not] using hmem)]
      · have hmem := mt isLeadingBlank_iff.mpr hb
        rw [List.dropWhile_cons_of_neg hb, List.head?_cons,
          List.find?_cons_of_pos (by simpa only [decide_eq_true_eq] using hmem)]
  rw [opensObject, hhead, beq_iff_eq]

/-- The first check: a payload that does not go on with a brace is no object. -/
theorem decodeObject_of_front (h : firstByte? s ≠ some 0x7B) :
    decodeObject schema s = .error .notAnObject := by
  rw [decodeObject, if_neg fun hopens => h (opensObject_iff_firstByte.mp hopens)]

/-- The second check: behind a brace, a fault of the reader is the fault that is told. -/
theorem decodeObject_of_fault {f : Fault} (h : firstByte? s = some 0x7B)
    (hrun : schema.reader.run s = .error f) :
    decodeObject schema s = .error (.json (f.misread s)) := by
  rw [decodeObject, if_pos (opensObject_iff_firstByte.mpr h), Reader.readWhole, hrun]

/-- What is left to check where an envelope leads: nothing may follow it, and it must say
    something. -/
theorem decodeObject_of_leads (h : firstByte? s = some 0x7B) (hleads : Leads schema s e rest) :
    decodeObject schema s =
      match endOfText rest with
      | .error f => .error (.json (f.misread s))
      | .ok () => e.validate := by
  rw [decodeObject, if_pos (opensObject_iff_firstByte.mpr h), Reader.readWhole,
    run_ok_iff.mpr hleads]
  dsimp only
  cases endOfText rest with
  | error f => rfl
  | ok u => rfl

/-- How decoding a text behind its byte order mark compares with reading its front. -/
structure Compared (schema : Schema) (s : Bytes) (decoded : Except DecodeError Envelope) :
    Prop where
  /-- What is decoded is what is read. -/
  read : ∀ e, decoded = .ok e → readJson schema.reader s = .ok e
  /-- What is read stands in front, and one rest follows it. -/
  leads : ∀ e, readJson schema.reader s = .ok e →
    ∃ rest, Leads schema s e rest ∧ ∀ e' rest', Leads schema s e' rest' → e' = e ∧ rest' = rest
  /-- A text that does not start with a brace is refused first. -/
  not_object : ∀ e rest, Leads schema s e rest → firstByte? s ≠ some 0x7B →
    decoded = .error .notAnObject
  /-- Next, one whose rest is more than white space: the message tells the byte that is too much. -/
  trailing : ∀ e w c t, Leads schema s e (w ++ c :: t) → firstByte? s = some 0x7B → Blank w →
    isBlank c = false →
      let place := Place.of s t.length
      ∃ m, decoded = .error (.json m) ∧ pathText m.path = "." ∧
        m.problem.message = s!"trailing characters at line {place.line} column {place.column}"
  /-- Next, one without entries. -/
  empty : ∀ rest, Leads schema s (.v3 []) rest → firstByte? s = some 0x7B → Blank rest →
    decoded = .error .emptyErrors
  /-- And nothing else. -/
  accepted : ∀ e rest, Leads schema s e rest → firstByte? s = some 0x7B → Blank rest →
    e ≠ .v3 [] → decoded = .ok e
  /-- Where reading fails, decoding does not get as far, or fails alike. -/
  failed : ∀ error, readJson schema.reader s = .error error →
    ∃ path reason, error = .jsonReading path reason ∧
      (firstByte? s ≠ some 0x7B → decoded = .error .notAnObject) ∧
      (firstByte? s = some 0x7B → ∃ m, decoded = .error (.json m) ∧ pathText m.path = path ∧
        m.problem.message = reason)
  /-- Reading looks at nothing behind the envelope. -/
  stable : ∀ e, readJson schema.reader s = .ok e → ∀ t, readJson schema.reader (s ++ t) = .ok e

/-- What is decoded would be read leniently as well, to the same envelope. -/
theorem decodeObject_ok_read (h : decodeObject schema s = .ok e) :
    readJson schema.reader s = .ok e := by
  by_cases hfront : firstByte? s = some 0x7B
  · cases hrun : schema.reader.run s with
    | error f =>
      rw [decodeObject_of_fault hfront hrun] at h
      cases h
    | ok p =>
      obtain ⟨e', rest⟩ := p
      have hleads := run_ok_iff.mp hrun
      rw [decodeObject_of_leads hfront hleads] at h
      split at h
      · cases h
      · obtain ⟨rfl, -⟩ := validate_ok_iff.mp h
        exact readJson_ok_iff.mpr ⟨rest, hleads⟩
  · rw [decodeObject_of_front hfront] at h
    cases h

/-- A byte behind the envelope that is no white space is told where it stands, on the path of the
    whole. -/
theorem decodeObject_trailing {w t : Bytes} {c : UInt8} (hleads : Leads schema s e (w ++ c :: t))
    (hfront : firstByte? s = some 0x7B) (hw : Blank w) (hc : isBlank c = false) :
    decodeObject schema s =
      .error (.json ⟨[], ⟨.trailingCharacters, some (Place.of s t.length)⟩⟩) := by
  have hend : endOfText (w ++ c :: t) = .error (.peek .trailingCharacters (c :: t)) := by
    rw [endOfText, skipBlank_eq_cons_iff.mpr ⟨hc, w, hw, rfl⟩]
  rw [decodeObject_of_leads hfront hleads, hend]
  rfl

/-- White space behind an envelope leaves it to the last check. -/
theorem decodeObject_of_blank (hleads : Leads schema s e rest) (hfront : firstByte? s = some 0x7B)
    (hrest : Blank rest) : decodeObject schema s = e.validate := by
  rw [decodeObject_of_leads hfront hleads, endOfText_ok_iff.mpr hrest]

/-- What is not even read leniently is not decoded either: it is no object, or the fault is the
    same. -/
theorem decodeObject_failed {error : Error} (h : readJson schema.reader s = .error error) :
    ∃ path reason, error = .jsonReading path reason ∧
      (firstByte? s ≠ some 0x7B → decodeObject schema s = .error .notAnObject) ∧
      (firstByte? s = some 0x7B → ∃ m, decodeObject schema s = .error (.json m) ∧
        pathText m.path = path ∧ m.problem.message = reason) := by
  cases hrun : schema.reader.run s with
  | ok p =>
    rw [readJson_ok_iff.mpr ⟨p.2, run_ok_iff.mp hrun⟩] at h
    cases h
  | error f =>
    rw [readJson, Reader.read, hrun] at h
    cases h
    exact ⟨_, _, rfl, decodeObject_of_front,
      fun hfront => ⟨_, decodeObject_of_fault hfront hrun, rfl, rfl⟩⟩

/-- Decoding a payload and reading an envelope from the front of the text behind its byte order mark
    agree, but for what decoding asks besides. -/
theorem decode_compared (schema : Schema) (payload : Bytes) :
    Compared schema (dropMark payload) (decode schema payload) where
  read _ h := decodeObject_ok_read h
  leads _ h := by
    obtain ⟨rest, hleads⟩ := readJson_ok_iff.mp h
    exact ⟨rest, hleads, fun _ _ hother => hother.unique hleads⟩
  not_object _ _ _ hfront := decodeObject_of_front hfront
  trailing _ _ _ _ hleads hfront hw hc :=
    ⟨_, decodeObject_trailing hleads hfront hw hc, rfl, rfl⟩
  empty _ hleads hfront hrest := decodeObject_of_blank hleads hfront hrest
  accepted _ _ hleads hfront hrest hne := by
    rw [decode, decodeObject_of_blank hleads hfront hrest]
    exact validate_ok_iff.mpr ⟨rfl, hne⟩
  failed _ h := decodeObject_failed h
  stable _ h t := by
    obtain ⟨rest, hleads⟩ := readJson_ok_iff.mp h
    exact readJson_ok_iff.mpr ⟨rest ++ t, hleads.append t⟩

end Envelope

end PlatformClient
