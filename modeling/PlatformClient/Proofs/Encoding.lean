/-
  Payloads that are not UTF-8.

  Names and the fields of an envelope are read as texts, and bytes that are no text are refused
  there.  A value that nobody asks for is passed over without being read, and inside its quotes any
  byte will do.  So an envelope may come out of bytes that are no text, but only in this one way.

  1. **Fields.**  What is read as an integer, a text or an entry is a text, apart from the values
     that an entry passes over.
  2. **Payloads.**  A payload that decodes is a text just if the values passed over are
     (`PayloadOf.wellFormed_iff`).
-/
import PlatformClient.Proofs.Truncation

namespace PlatformClient

open Json Grammar

/-! ## Fields -/

/-- A member that is read is well-formed. -/
theorem GivesInteger.wellFormed {members : List Member} {name : String} {n : Int}
    (h : GivesInteger members name n) : ∀ m ∈ members, m.Named name → Utf8.WellFormed m.item.value :=
  fun _ hm hname => (h.of_named hm hname).1.wellFormed

theorem GivesText.wellFormed {members : List Member} {name t : String}
    (h : GivesText members name t) : ∀ m ∈ members, m.Named name → Utf8.WellFormed m.item.value :=
  fun _ hm hname => (h.of_named hm hname).wellFormed

/-! ## Values that are passed over -/

/-- The names a record reads. -/
def Json.Record.names {σ α : Type} (t : Record σ α) : List String := t.fields.map Field.name

/-- The value is that of a member with none of the names. -/
def Unasked (names : List String) (members : List Member) (v : Bytes) : Prop :=
  ∃ m ∈ members, m.item.value = v ∧ ∀ n ∈ names, ¬ m.Named n

/-- An object whose named values are texts is a text just if its other values are. -/
theorem Json.Grammar.Object.wellFormed_iff_unasked {names : List String} {members : List Member}
    {v : Bytes} (h : Object members v) (hnamed : AllNamed members)
    (hvalues : ∀ n ∈ names, ∀ m ∈ members, m.Named n → Utf8.WellFormed m.item.value) :
    Utf8.WellFormed v ↔ ∀ u, Unasked names members u → Utf8.WellFormed u := by
  rw [h.wellFormed_iff]
  constructor
  · rintro hall u ⟨m, hm, rfl, -⟩
    exact (hall m hm).2
  · intro hothers m hm
    obtain ⟨name, hname⟩ := hnamed m hm
    refine ⟨hname.wellFormed, ?_⟩
    by_cases hread : ∃ n ∈ names, m.Named n
    · obtain ⟨n, hn, hmn⟩ := hread
      exact hvalues n hn m hm hmn
    · refine hothers _ ⟨m, hm, rfl, fun n hn hmn => hread ⟨n, hn, hmn⟩⟩

/-- The value is passed over in an entry. -/
def V3Error.PassedOver (entry v : Bytes) : Prop :=
  ∃ members, Object members entry ∧ Unasked v3EntryRecord.names members v

/-- An entry is a text just if what is passed over in it is. -/
theorem V3Error.WrittenAs.wellFormed_iff {v : Bytes} {e : V3Error} (h : e.WrittenAs v) :
    Utf8.WellFormed v ↔ ∀ u, V3Error.PassedOver v u → Utf8.WellFormed u := by
  rcases h with ⟨members, hobject, hnamed, hcode, hdetail, htitle⟩ |
    ⟨code, detail, title, harray, hcode, hdetail, htitle⟩
  · have hvalues : ∀ n ∈ v3EntryRecord.names, ∀ m ∈ members, m.Named n →
        Utf8.WellFormed m.item.value := by
      simp only [Record.names, v3EntryRecord, codedRecord, Field.of, List.map_cons, List.forall_mem_cons]
      exact ⟨hcode.wellFormed, hdetail.wellFormed, htitle.wellFormed, by simp⟩
    rw [hobject.wellFormed_iff_unasked hnamed hvalues]
    constructor
    · rintro hall u ⟨members', hobject', hu⟩
      have := hobject.unique hobject'
      subst this
      exact hall u hu
    · intro hall u hu
      exact hall u ⟨members, hobject, hu⟩
  · -- an entry in brackets passes nothing over
    have hw : Utf8.WellFormed v := by
      rw [harray.wellFormed_iff]
      simp only [List.forall_mem_cons]
      exact ⟨hcode.1.wellFormed, hdetail.wellFormed, htitle.wellFormed, by simp⟩
    refine iff_of_true hw ?_
    rintro u ⟨members, ⟨-, inside, -, rfl⟩, -⟩
    obtain ⟨-, inside', -, hv⟩ := harray
    cases hv

/-- The names that the object of an envelope is asked for. -/
def Schema.names : Schema → List String
  | .v2 => v2Record.names
  | .v3 => v3Record.names
  | .uaa => uaaRecord.names

namespace Envelope

/-- The value is passed over in an envelope with these members: it is that of a member that no
    field of the envelope is named by, or it is passed over in an entry. -/
def PassedOver (schema : Schema) (members : List Member) (v : Bytes) : Prop :=
  Unasked schema.names members v ∨
    schema = .v3 ∧ ∃ items, Occurs members "errors" (Grammar.Array items) ∧
      ∃ i ∈ items, V3Error.PassedOver i.value v

/-! ## Payloads -/

/-- An object of one error is a text just if what is passed over in it is. -/
theorem wellFormed_iff_of_fields {schema : Schema} {members : List Member} {v : Bytes}
    (hs : schema ≠ .v3) (h : Object members v) (hnamed : AllNamed members)
    (hvalues : ∀ n ∈ schema.names, ∀ m ∈ members, m.Named n → Utf8.WellFormed m.item.value) :
    Utf8.WellFormed v ↔ ∀ u, PassedOver schema members u → Utf8.WellFormed u := by
  rw [h.wellFormed_iff_unasked hnamed hvalues]
  refine forall_congr' fun u => imp_congr_left ?_
  rw [PassedOver, or_iff_left fun h => hs h.1]

/-- An object of entries is a text just if what is passed over in it and in its entries is. -/
theorem wellFormed_iff_of_entries {entries : List V3Error} {members : List Member} {v : Bytes}
    (h : Object members v) (hnamed : AllNamed members) (hg : V3EntriesGivenBy entries members) :
    Utf8.WellFormed v ↔ ∀ u, PassedOver .v3 members u → Utf8.WellFormed u := by
  obtain ⟨before, errors, after, hms, herrors, ⟨items, harray, hlisted⟩, hothers⟩ := hg
  have hitems : Occurs members "errors" (Grammar.Array items) :=
    ⟨before, errors, after, hms, herrors, harray, hothers⟩
  have hentries : (∀ i ∈ items, Utf8.WellFormed i.value) ↔
      ∀ i ∈ items, ∀ u, V3Error.PassedOver i.value u → Utf8.WellFormed u := by
    refine forall₂_congr fun i hi => ?_
    obtain ⟨e, he⟩ := hlisted.exists_form i hi
    exact he.wellFormed_iff
  constructor
  · rintro hw u (⟨m, hm, rfl, -⟩ | ⟨-, items', hitems', i, hi, hu⟩)
    · exact (h.wellFormed_iff.mp hw m hm).2
    · -- the entries are those of the only array there is
      obtain ⟨v, hv, hv'⟩ := hitems.exists_both hitems'
      have := hv.unique hv'
      subst this
      have hm : errors ∈ members := by rw [hms]; simp
      have harrayText : Utf8.WellFormed errors.item.value := (h.wellFormed_iff.mp hw errors hm).2
      exact hentries.mp (harray.wellFormed_iff.mp harrayText) i hi u hu
  · intro hall
    have hvalues : ∀ n ∈ v3Record.names, ∀ m ∈ members, m.Named n →
        Utf8.WellFormed m.item.value := by
      simp only [Record.names, v3Record, Field.of, List.map_cons, List.forall_mem_cons]
      refine ⟨fun m hm hname => ?_, by simp⟩
      rw [(hitems.of_named hm hname).wellFormed_iff, hentries]
      exact fun i hi u hu => hall u (.inr ⟨rfl, items, hitems, i, hi, hu⟩)
    rw [h.wellFormed_iff_unasked hnamed hvalues]
    exact fun u hu => hall u (.inl hu)

/-- What is read as an envelope is a text just if what is passed over in it is. -/
theorem GivenBy.wellFormed_iff {e : Envelope} {members : List Member} {v : Bytes}
    (hg : e.GivenBy members) (h : Object members v) (hnamed : AllNamed members) :
    Utf8.WellFormed v ↔ ∀ u, PassedOver e.schema members u → Utf8.WellFormed u := by
  cases e with
  | v2 e =>
    obtain ⟨hcode, hdescription, herror⟩ := hg
    refine wellFormed_iff_of_fields (by simp [Envelope.schema]) h hnamed ?_
    simp only [Envelope.schema, Schema.names, Record.names, v2Record, codedRecord, Field.of, List.map_cons,
      List.forall_mem_cons]
    exact ⟨hcode.wellFormed, hdescription.wellFormed, herror.wellFormed, by simp⟩
  | v3 entries => exact wellFormed_iff_of_entries h hnamed hg
  | uaa e =>
    obtain ⟨herror, hdescription⟩ := hg
    refine wellFormed_iff_of_fields (by simp [Envelope.schema]) h hnamed ?_
    simp only [Envelope.schema, Schema.names, Record.names, uaaRecord, Field.of, List.map_cons,
      List.forall_mem_cons]
    exact ⟨herror.wellFormed, hdescription.wellFormed, by simp⟩

/-- **A payload that is read as an envelope is a text just if what is passed over in it is.** -/
theorem PayloadOf.wellFormed_iff {payload : Bytes} {members : List Member} {e : Envelope}
    (h : PayloadOf members payload) (hnamed : AllNamed members) (hg : e.GivenBy members) :
    Utf8.WellFormed payload ↔ ∀ v, PassedOver e.schema members v → Utf8.WellFormed v := by
  obtain ⟨v, hobject, hpayload⟩ := h.exists_object
  rw [hpayload, hg.wellFormed_iff hobject hnamed]

/-- A payload that is no text is refused, and classified by its text as far as it has one, unless it
    is an envelope in all that is read of it: an object whose names resolve and whose members say
    what the envelope is, where the bytes that are no text stand in values that are passed over. -/
theorem ill_formed_refused_iff (schema : Schema) (payload : Bytes) :
    (¬ Utf8.WellFormed payload →
      (∃ reason, decode schema payload = .error reason) ∧
        ∀ status, classify schema status payload = .unknown status (Utf8.lossy payload)) ↔
    ¬ ∃ (e : Envelope) (members : List Member) (v : Bytes),
        e.schema = schema ∧ e ≠ .v3 [] ∧ PayloadOf members payload ∧ AllNamed members ∧
          e.GivenBy members ∧ PassedOver schema members v ∧ ¬ Utf8.WellFormed v := by
  constructor
  · -- such a payload is no text, and still it decodes
    rintro hrefused ⟨e, members, v, rfl, hne, hp, hnamed, hg, hv, hill⟩
    have hnotText : ¬ Utf8.WellFormed payload := fun hw =>
      hill ((hp.wellFormed_iff hnamed hg).mp hw v hv)
    obtain ⟨⟨reason, hreason⟩, -⟩ := hrefused hnotText
    rw [decode_ok_iff.mpr ⟨rfl, hne, members, hp, hnamed, hg⟩] at hreason
    cases hreason
  · -- a payload that decodes would be such a one
    intro hnone hill
    cases hdecode : decode schema payload with
    | error reason => exact ⟨⟨reason, rfl⟩, classify_of_error hdecode⟩
    | ok e =>
      exfalso
      obtain ⟨rfl, hne, members, hp, hnamed, hg⟩ := decode_ok_iff.mp hdecode
      apply hill
      rw [hp.wellFormed_iff hnamed hg]
      intro v hv
      by_contra hillv
      exact hnone ⟨e, members, v, rfl, hne, hp, hnamed, hg, hv, hillv⟩

/-- A byte that occurs in no text, in the value of a member that nobody asks for. -/
theorem uaa_accepts_ill_formed :
    let payload := Utf8.encode "\x7b\"error\":\"e\",\"error_description\":\"d\",\"x\":\"" ++
      0xFF :: Utf8.encode "\"\x7d"
    ¬ Utf8.WellFormed payload ∧ decode .uaa payload = .ok (.uaa ⟨"e", "d"⟩) ∧
      classify .uaa 401 payload = .known 401 (.uaa ⟨"e", "d"⟩) := by
  intro payload
  have hdecode : decode .uaa payload = .ok (.uaa ⟨"e", "d"⟩) := by decide +kernel
  refine ⟨?_, hdecode, ?_⟩
  · intro hw
    obtain ⟨text, htext⟩ := hw.exists_text
    have hread : Utf8.decode payload = .ok text := Utf8.decode_eq_ok_iff.mpr htext
    have hfault : Utf8.decode payload = .error (.malformed 42 1) := by decide +kernel
    rw [hfault] at hread
    cases hread
  · rw [classify, hdecode]

end Envelope

end PlatformClient
