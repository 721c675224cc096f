/-
  Which payloads decode, and to what.

  A payload decodes just if it is an object, with white space around it and at most one byte order
  mark in front, whose members say what the envelope is (`decode_ok_iff`).

  In a payload that is text the names of the members are text as well, so that they resolve as soon
  as their surrogates are paired (`PayloadOf.allNamed_iff`).
-/
import PlatformClient.Envelope
import PlatformClient.Proofs.Json.Encoding
import PlatformClient.Proofs.Json.Unambiguous
import PlatformClient.Proofs.Schema

namespace PlatformClient

open Json Grammar

/-! ## Members written as they stand -/

/-- A member without white space whose name spells itself. -/
def compact (name : String) (value : Bytes) : Member :=
  ⟨[], Utf8.encode name, [], ⟨[], value, []⟩⟩

/-- A member written plainly has its name. -/
theorem compact_named {name : String} (h : (Utf8.encode name).all isPlain = true)
    (value : Bytes) : (compact name value).Named name :=
  spells_self h

/-- And it is a member, with no white space around its parts. -/
theorem compact_wellFormed {name : String} {value : Bytes}
    (h : (Utf8.encode name).all isPlain = true) (hv : Value value) :
    (compact name value).Spaced ∧ Spelled (compact name value).name ∧
      Value (compact name value).item.value :=
  ⟨⟨blank_nil, blank_nil, blank_nil, blank_nil⟩, (spells_self h).spelled, hv⟩

/-- Members in braces, with commas between them, are an object. -/
theorem object_of_members {members : List Member} (hne : members ≠ [])
    (h : WellFormedMembers members) :
    Object members (0x7B :: separated (members.map Member.text) ++ [0x7D]) :=
  ⟨h, _, .inr ⟨by simpa using hne, rfl⟩, rfl⟩

/-- Items in brackets, with commas between them, are an array. -/
theorem array_of_items {items : List Item} (hne : items ≠ [])
    (h : ∀ i ∈ items, i.Spaced ∧ Value i.value) :
    Grammar.Array items (0x5B :: separated (items.map Item.text) ++ [0x5D]) :=
  ⟨h, _, .inr ⟨by simpa using hne, rfl⟩, rfl⟩

/-- An item without white space. -/
def bare (value : Bytes) : Item := ⟨[], value, []⟩

theorem bare_spaced (value : Bytes) : (bare value).Spaced := ⟨blank_nil, blank_nil⟩

namespace Envelope

/-! ## The front of a payload -/

/-- White space of JSON counts as white space in front of a payload. -/
theorem isLeadingBlank_of_isBlank {b : UInt8} (h : isBlank b = true) : isLeadingBlank b = true := by
  simp only [isBlank, Bool.or_eq_true, decide_eq_true_eq] at h
  rcases h with ((rfl | rfl) | rfl) | rfl <;> decide

/-- Behind white space the first byte of a value decides whether a payload is taken for an
    object. -/
theorem opensObject_iff {w v rest : Bytes} {b : UInt8} (hw : Blank w) (hv : v.head? = some b)
    (hb : isLeadingBlank b = false) : opensObject (w ++ v ++ rest) = true ↔ b = 0x7B := by
  have hdrop : (w ++ (v ++ rest)).dropWhile isLeadingBlank = v ++ rest := by
    refine dropWhile_run (fun c hc => isLeadingBlank_of_isBlank (hw c hc)) ?_
    intro c hc
    rw [List.head?_append, hv] at hc
    cases hc
    exact hb
  rw [opensObject, List.append_assoc, hdrop, List.head?_append, hv]
  simp

/-- A payload with one byte order mark in front is decoded like one without. -/
theorem dropMark_eq_iff {payload s : Bytes} (hs : byteOrderMark.isPrefixOf s = false) :
    dropMark payload = s ↔ payload = s ∨ payload = byteOrderMark ++ s := by
  unfold dropMark
  constructor
  · intro h
    split at h
    · rename_i hp
      obtain ⟨t, rfl⟩ := List.isPrefixOf_iff_prefix.mp hp
      rw [List.drop_left] at h
      exact .inr (by rw [h])
    · exact .inl h
  · rintro (rfl | rfl)
    · rw [if_neg (by rw [hs]; decide)]
    · rw [if_pos (List.isPrefixOf_iff_prefix.mpr (List.prefix_append _ _)), List.drop_left]

/-- No payload that starts with white space and a brace starts with a byte order mark. -/
theorem not_mark_prefix {w v rest : Bytes} (hw : Blank w) (hv : v.head? = some 0x7B) :
    byteOrderMark.isPrefixOf (w ++ v ++ rest) = false := by
  cases w with
  | nil =>
    cases v with
    | nil => cases hv
    | cons b v =>
      cases hv
      rfl
  | cons b w =>
    have hb : b ≠ 0xEF := by
      rintro rfl
      exact absurd (hw 0xEF (by simp)) (by decide)
    simp [byteOrderMark, List.isPrefixOf, hb.symm]

/-! ## What decodes -/

/-- The text is an object, with white space around it, that has these members. -/
def Holds (s : Bytes) (members : List Member) : Prop :=
  ∃ object, Object members object ∧ Text object s

/-- Only an envelope without entries is refused after it was read. -/
theorem validate_ok_iff {e e' : Envelope} : e.validate = .ok e' ↔ e' = e ∧ e ≠ .v3 [] := by
  unfold validate
  split
  · simp
  · rename_i h
    have : e ≠ .v3 [] := fun he => h he
    simp [this, eq_comm]

/-- Behind a brace, a text is read as an envelope just if it is an object whose members say what the
    envelope is: a record may be written as an array as well, but not there. -/
theorem readWhole_ok_iff {schema : Schema} {s : Bytes} {e : Envelope}
    (hopens : opensObject s = true) :
    schema.reader.readWhole s = .ok e ↔
      e.schema = schema ∧ ∃ members, Holds s members ∧ AllNamed members ∧ e.GivenBy members := by
  rw [schema.reader_exact.readWhole_ok_iff]
  constructor
  · rintro ⟨v, hv, w, rest, hw, hrest, rfl⟩
    have hhead : v.head? = some 0x7B := by
      rcases Schema.head_of_writes hv with h | h
      · exact h
      · have := (opensObject_iff hw h (by decide)).mp hopens
        cases this
    obtain ⟨hs, members, hobject, hnamed, hgiven⟩ := (Schema.reader_writes_iff hhead).mp hv
    exact ⟨hs, members, ⟨v, hobject, w, rest, hw, hrest, rfl⟩, hnamed, hgiven⟩
  · rintro ⟨hs, members, ⟨v, hobject, w, rest, hw, hrest, rfl⟩, hnamed, hgiven⟩
    have hhead : v.head? = some 0x7B := hobject.head
    have hv := (Schema.reader_writes_iff hhead).mpr ⟨hs, members, hobject, hnamed, hgiven⟩
    exact ⟨v, hv, w, rest, hw, hrest, rfl⟩

/-- A text that holds an object is taken for one. -/
theorem Holds.opensObject {s : Bytes} {members : List Member} (h : Holds s members) :
    opensObject s = true := by
  obtain ⟨v, hobject, w, rest, hw, -, rfl⟩ := h
  exact (opensObject_iff hw hobject.head (by decide)).mpr rfl

/-- Without byte order mark a text decodes to an envelope just if it holds an object whose names
    resolve and whose members say what the envelope is, and the envelope has an entry if it
    should. -/
theorem decodeObject_ok_iff {schema : Schema} {s : Bytes} {e : Envelope} :
    decodeObject schema s = .ok e ↔
      e.schema = schema ∧ e ≠ .v3 [] ∧
        ∃ members, Holds s members ∧ AllNamed members ∧ e.GivenBy members := by
  unfold decodeObject
  constructor
  · intro h
    split at h
    · rename_i hopens
      split at h
      · cases h
      rename_i e' hread
      obtain ⟨rfl, hne⟩ := validate_ok_iff.mp h
      obtain ⟨hs, hmembers⟩ := (readWhole_ok_iff hopens).mp hread
      exact ⟨hs, hne, hmembers⟩
    · cases h
  · rintro ⟨hs, hne, members, hholds, hgiven⟩
    have hopens : Envelope.opensObject s = true := hholds.opensObject
    rw [if_pos hopens, (readWhole_ok_iff hopens).mpr ⟨hs, members, hholds, hgiven⟩]
    exact validate_ok_iff.mpr ⟨rfl, hne⟩

/-- A text that holds an object has no byte order mark of its own left in front. -/
theorem Holds.not_mark_prefix {s : Bytes} {members : List Member} (h : Holds s members) :
    byteOrderMark.isPrefixOf s = false := by
  obtain ⟨v, hobject, w, rest, hw, -, rfl⟩ := h
  exact Envelope.not_mark_prefix hw hobject.head

/-- The payload, behind at most one byte order mark, is an object that has these members. -/
def PayloadOf (members : List Member) (payload : Bytes) : Prop :=
  ∃ s, (payload = s ∨ payload = byteOrderMark ++ s) ∧ Holds s members

/-- A payload is that of members just if it holds them once a mark in front is dropped. -/
theorem payloadOf_iff {members : List Member} {payload : Bytes} :
    PayloadOf members payload ↔ Holds (dropMark payload) members := by
  constructor
  · rintro ⟨s, hs, hholds⟩
    rwa [(dropMark_eq_iff hholds.not_mark_prefix).mpr hs]
  · intro hholds
    exact ⟨_, (dropMark_eq_iff hholds.not_mark_prefix).mp rfl, hholds⟩

/-- **What decodes.** A payload decodes to an envelope just if, behind at most one byte order mark,
    it is an object in white space whose names resolve and whose members say what the envelope
    is. -/
theorem decode_ok_iff {schema : Schema} {payload : Bytes} {e : Envelope} :
    decode schema payload = .ok e ↔
      e.schema = schema ∧ e ≠ .v3 [] ∧
        ∃ members, PayloadOf members payload ∧ AllNamed members ∧ e.GivenBy members := by
  simp only [decode, decodeObject_ok_iff, payloadOf_iff]

/-- A mark in front changes nothing about whether bytes are a text. -/
theorem wellFormed_mark_append_iff {s : Bytes} :
    Utf8.WellFormed (byteOrderMark ++ s) ↔ Utf8.WellFormed s :=
  Utf8.wellFormed_encodeChar_append_iff (c := '\uFEFF')

/-- A payload is a text just if its object is. -/
theorem PayloadOf.exists_object {members : List Member} {payload : Bytes}
    (h : PayloadOf members payload) :
    ∃ v, Object members v ∧ (Utf8.WellFormed payload ↔ Utf8.WellFormed v) := by
  obtain ⟨s, hs, v, hobject, htext⟩ := h
  refine ⟨v, hobject, ?_⟩
  rcases hs with rfl | rfl
  · exact htext.wellFormed_iff
  · exact wellFormed_mark_append_iff.trans htext.wellFormed_iff

/-- In a payload that is text, names only have to pair their surrogates. -/
theorem PayloadOf.allNamed_iff {members : List Member} {text : String}
    (h : PayloadOf members (Utf8.encode text)) :
    AllNamed members ↔ ∀ m ∈ members, ∃ t, Spells m.name t := by
  obtain ⟨v, hobject, hpayload⟩ := h.exists_object
  exact hobject.allNamed_iff (hpayload.mp (Utf8.wellFormed_encode text))

/-- A payload has one list of members. -/
theorem PayloadOf.unique {members members' : List Member} {payload : Bytes}
    (h : PayloadOf members payload) (h' : PayloadOf members' payload) : members = members' := by
  obtain ⟨v, hv, htext⟩ := payloadOf_iff.mp h
  obtain ⟨v', hv', htext'⟩ := payloadOf_iff.mp h'
  have hvv := Text.unique hv.value hv'.value htext htext'
  subst hvv
  exact Object.unique hv hv'

/-! ## Envelopes of one error -/

/-- **Which texts are envelopes.** A text decodes under v2 or uaa just if it is an object in white
    space, behind at most one byte order mark, that gives each field once and in its form. All of
    this is said by the grammar of JSON, without any reader: unknown members, the order of members
    and the spelling of names and texts make no difference. -/
theorem decode_text_ok_iff {schema : Schema} (hs : schema ≠ .v3) (text : String) (e : Envelope) :
    decode schema (Utf8.encode text) = .ok e ↔
      e.schema = schema ∧ ∃ members, PayloadOf members (Utf8.encode text) ∧
        (∀ m ∈ members, ∃ t, Spells m.name t) ∧ e.GivenBy members := by
  rw [decode_ok_iff]
  constructor
  · rintro ⟨h, -, members, hp, hn, hg⟩
    exact ⟨h, members, hp, hp.allNamed_iff.mp hn, hg⟩
  · rintro ⟨h, members, hp, hn, hg⟩
    refine ⟨h, ?_, members, hp, hp.allNamed_iff.mpr hn, hg⟩
    rintro rfl
    exact hs h.symm

/-- The shortest uaa envelope, spelled out member by member. -/
theorem decode_uaa_compact :
    Schema.uaa ≠ .v3 ∧
      decode .uaa (Utf8.encode "\x7b\"error\":\"e\",\"error_description\":\"d\"\x7d") =
        .ok (.uaa ⟨"e", "d"⟩) := by
  have hs : Schema.uaa ≠ .v3 := by decide
  have he : TextForm (0x22 :: Utf8.encode "e" ++ [0x22]) "e" := textForm_self (by decide)
  have hd : TextForm (0x22 :: Utf8.encode "d" ++ [0x22]) "d" := textForm_self (by decide)
  have hne : (Utf8.encode "error").all isPlain = true := by decide
  have hnd : (Utf8.encode "error_description").all isPlain = true := by decide
  have hfirst := compact_named hne (0x22 :: Utf8.encode "e" ++ [0x22])
  have hsecond := compact_named hnd (0x22 :: Utf8.encode "d" ++ [0x22])
  have hobject := object_of_members (List.cons_ne_nil _ _) (List.forall_mem_cons.mpr
    ⟨compact_wellFormed hne he.value, List.forall_mem_singleton.mpr
      (compact_wellFormed hnd hd.value)⟩)
  refine ⟨hs, (decode_text_ok_iff hs _ _).mpr ⟨rfl, _, ⟨_, .inl rfl, _, hobject, [], [], blank_nil,
    blank_nil, by decide⟩, ?_, ?_, ?_⟩⟩
  · simp only [List.forall_mem_cons]
    exact ⟨⟨_, hfirst⟩, ⟨_, hsecond⟩, by simp⟩
  · refine occurs_cons_iff.mpr (.inl ⟨hfirst, he, ?_⟩)
    simp only [Absent, List.forall_mem_cons]
    exact ⟨fun h => absurd (h.unique hsecond) (by decide), by simp⟩
  · refine occurs_cons_iff.mpr (.inr ⟨fun h => absurd (h.unique hfirst) (by decide), ?_⟩)
    exact occurs_cons_iff.mpr (.inl ⟨hsecond, hd, by simp [Absent]⟩)

/-! ## Entries of a v3 envelope -/

/-- The payload is an object in which one member, and only one, is named `errors`, and its value is
    an array of these items. -/
def ErrorsOf (items : List Item) (payload : Bytes) : Prop :=
  ∃ members, PayloadOf members payload ∧ AllNamed members ∧
    Occurs members "errors" (Grammar.Array items)

/-- A payload decodes under v3 just if it lists entries, one at least, each written as an object or
    — nothing keeps it from that — as an array. -/
theorem decode_v3_ok_iff {payload : Bytes} {e : Envelope} :
    decode .v3 payload = .ok e ↔
      ∃ items entries, ErrorsOf items payload ∧ Listed V3Error.WrittenAs items entries ∧
        entries ≠ [] ∧ e = .v3 entries := by
  rw [decode_ok_iff]
  constructor
  · rintro ⟨hs, hne, members, hp, hn, hg⟩
    cases e with
    | v2 => cases hs
    | uaa => cases hs
    | v3 entries =>
      -- the member that gives the entries is the one that holds the array
      obtain ⟨before, m, after, hms, hm, ⟨items, harray, hlisted⟩, hothers⟩ := hg
      refine ⟨items, entries, ⟨members, hp, hn, before, m, after, hms, hm, harray, hothers⟩,
        hlisted, ?_, rfl⟩
      rintro rfl
      exact hne rfl
  · rintro ⟨items, entries, ⟨members, hp, hn, hoccurs⟩, hlisted, hne, rfl⟩
    have hgiven : V3EntriesGivenBy entries members :=
      hoccurs.mono fun v hv => ⟨items, hv, hlisted⟩
    refine ⟨rfl, ?_, members, hp, hn, hgiven⟩
    intro h
    cases h
    exact hne rfl

/-- A payload has one list of entries in writing. -/
theorem ErrorsOf.unique {items items' : List Item} {payload : Bytes} (h : ErrorsOf items payload)
    (h' : ErrorsOf items' payload) : items = items' := by
  obtain ⟨members, hp, -, ho⟩ := h
  obtain ⟨members', hp', -, ho'⟩ := h'
  have := hp.unique hp'
  subst this
  obtain ⟨v, hv, hv'⟩ := ho.exists_both ho'
  exact Array.unique hv hv'

/-- A payload is accepted just if every item of its `errors` is an entry, in either form. -/
theorem decode_v3_accepts_iff {items : List Item} {payload : Bytes} (h : ErrorsOf items payload) :
    (∃ e, decode .v3 payload = .ok e) ↔
      items ≠ [] ∧ ∀ i ∈ items, ∃ e : V3Error, e.WrittenAs i.value := by
  constructor
  · rintro ⟨e, he⟩
    obtain ⟨items', entries, h', hlisted, hne, rfl⟩ := decode_v3_ok_iff.mp he
    have := h.unique h'
    subst this
    refine ⟨?_, hlisted.exists_form⟩
    rintro rfl
    cases hlisted
    exact hne rfl
  · rintro ⟨hne, hforms⟩
    obtain ⟨entries, hlisted⟩ := exists_listed hforms
    refine ⟨.v3 entries, decode_v3_ok_iff.mpr ⟨items, entries, h, hlisted, ?_, rfl⟩⟩
    rintro rfl
    cases hlisted
    exact hne rfl

/-- **When the entries of a decoded payload are objects.** An entry may be written as an array of
    code, detail and title. So whatever decodes has objects for entries just if no payload whose
    items can all be read has an item written as an array. -/
theorem v3_entries_are_objects_iff (payload : Bytes) :
    (∀ e, decode .v3 payload = .ok e →
      ∃ items, ErrorsOf items payload ∧ ∀ i ∈ items, ∃ e : V3Error, e.ObjectForm i.value) ↔
    ∀ items, ErrorsOf items payload → (∀ i ∈ items, ∃ e : V3Error, e.WrittenAs i.value) →
      ∀ i ∈ items, ¬ ∃ e : V3Error, e.ArrayForm i.value := by
  constructor
  · -- entries in either form are accepted, and then all of them would have to be objects
    rintro h items herrors hforms i hi ⟨e, harray⟩
    obtain ⟨e', he'⟩ := (decode_v3_accepts_iff herrors).mpr ⟨List.ne_nil_of_mem hi, hforms⟩
    obtain ⟨items', herrors', hobjects⟩ := h e' he'
    have := herrors.unique herrors'
    subst this
    obtain ⟨e'', hobject⟩ := hobjects i hi
    exact V3Error.not_both hobject harray
  · -- what is accepted has entries in either form, and none of them is an array
    rintro h e he
    obtain ⟨items, entries, herrors, hlisted, -, rfl⟩ := decode_v3_ok_iff.mp he
    refine ⟨items, herrors, fun i hi => ?_⟩
    obtain ⟨e, hobject | harray⟩ := hlisted.exists_form i hi
    · exact ⟨e, hobject⟩
    · exact absurd ⟨e, harray⟩ (h items herrors hlisted.exists_form i hi)

/-- The entry of this payload is an array, and the payload decodes. -/
theorem v3_accepts_array_entry :
    decode .v3 (Utf8.encode "\x7b\"errors\":[[7,\"d\",\"t\"]]\x7d") = .ok (.v3 [⟨7, "d", "t"⟩]) ∧
      ¬ ∃ items, ErrorsOf items (Utf8.encode "\x7b\"errors\":[[7,\"d\",\"t\"]]\x7d") ∧
        ∀ i ∈ items, ∃ e : V3Error, e.ObjectForm i.value := by
  have hcode : IntegerForm int64 [0x37] 7 :=
    ⟨.inl ⟨.inr ⟨⟨by decide, by simp [isDigit]⟩, by decide⟩, by decide⟩, by decide, by decide⟩
  have hd : TextForm (0x22 :: Utf8.encode "d" ++ [0x22]) "d" := textForm_self (by decide)
  have ht : TextForm (0x22 :: Utf8.encode "t" ++ [0x22]) "t" := textForm_self (by decide)
  have hname : (Utf8.encode "errors").all isPlain = true := by decide
  have hentry := array_of_items (List.cons_ne_nil _ _) (List.forall_mem_cons.mpr
    ⟨⟨bare_spaced _, hcode.1.value⟩, List.forall_mem_cons.mpr
      ⟨⟨bare_spaced _, hd.value⟩, List.forall_mem_singleton.mpr ⟨bare_spaced _, ht.value⟩⟩⟩)
  have hform : V3Error.ArrayForm ⟨7, "d", "t"⟩ _ := ⟨_, _, _, hentry, hcode, hd, ht⟩
  have harray := array_of_items (List.cons_ne_nil _ _)
    (List.forall_mem_singleton.mpr ⟨bare_spaced _, hentry.value⟩)
  have hobject := object_of_members (List.cons_ne_nil _ _)
    (List.forall_mem_singleton.mpr (compact_wellFormed hname harray.value))
  have herrors : ErrorsOf _ (Utf8.encode "\x7b\"errors\":[[7,\"d\",\"t\"]]\x7d") :=
    ⟨_, ⟨_, .inl rfl, _, hobject, [], [], blank_nil, blank_nil, by decide⟩,
      List.forall_mem_singleton.mpr ⟨_, compact_named hname _⟩,
      occurs_cons_iff.mpr (.inl ⟨compact_named hname _, harray, by simp [Absent]⟩)⟩
  refine ⟨decode_v3_ok_iff.mpr ⟨_, _, herrors, .cons (.inr hform) .nil, by simp, rfl⟩, ?_⟩
  rintro ⟨items, herrors', hobjects⟩
  have := herrors.unique herrors'
  subst this
  obtain ⟨e, he⟩ := hobjects _ (List.mem_singleton_self _)
  exact V3Error.not_both he hform

end Envelope

end PlatformClient
