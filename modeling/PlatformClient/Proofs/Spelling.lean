/-
  Every spelling of v3 entries decodes to them.

  How a payload is spelled is said here without any reader: its members, its white space, and names
  whose surrogates are paired.  The readers ask for more, that names resolve to texts.  In a payload
  that is text this comes by itself, at each level: the values of an object that is a text are texts
  again, and so are the items of an array.

  1. **Levels.**  From the payload to its object, on to the array of its entries, and to each entry,
     paired surrogates become names (`SpelledBy.objectForm`, `Lists.givenBy`).
  2. **Wording.**  Entries are written one after the other with a separator before each but the
     first, so that they are joined by it (`messages_eq_intercalate`).
  3. **Mapping.**  The mapper then fails with the entries in their order, however the payload was
     cut into chunks.
-/
import PlatformClient.Proofs.Envelope
import PlatformClient.Proofs.Mapping

namespace PlatformClient

open Json Grammar

/-! ## Spelled entries -/

/-- The names of the members have their surrogates in pairs. -/
def Paired (members : List Member) : Prop := ∀ m ∈ members, ∃ t, Spells m.name t

/-- The value is an object whose members say what the entry is, each field once and in any order. -/
def V3Error.SpelledBy (v : Bytes) (e : V3Error) : Prop :=
  ∃ members, Object members v ∧ Paired members ∧ e.GivenBy members

/-- One member, and only one, is named `errors`, and its value is an array of these entries. -/
def Lists (members : List Member) (entries : List V3Error) : Prop :=
  Occurs members "errors" (ArrayForm V3Error.SpelledBy · entries)

/-- Names are paired if they resolve. -/
theorem Json.AllNamed.paired {members : List Member} (h : AllNamed members) : Paired members := by
  intro m hm
  obtain ⟨name, hname⟩ := h m hm
  exact ⟨_, hname⟩

/-- A spelled entry in a text is an entry that is read. -/
theorem V3Error.SpelledBy.objectForm {v : Bytes} {e : V3Error} (h : e.SpelledBy v)
    (hw : Utf8.WellFormed v) : e.ObjectForm v := by
  obtain ⟨members, hobject, hpaired, hgiven⟩ := h
  have hnamed : AllNamed members := (hobject.allNamed_iff hw).mpr hpaired
  exact ⟨members, hobject, hnamed, hgiven⟩

/-- Listed entries in a text are entries that are read. -/
theorem Lists.givenBy {members : List Member} {entries : List V3Error} {v : Bytes}
    (h : Lists members entries) (hobject : Object members v) (hw : Utf8.WellFormed v) :
    V3EntriesGivenBy entries members := by
  obtain ⟨before, m, after, rfl, hname, ⟨items, harray, hlisted⟩, hothers⟩ := h
  have hm : m ∈ before ++ m :: after := by simp
  have hvalue : Utf8.WellFormed m.item.value := (hobject.wellFormed_iff.mp hw m hm).2
  refine ⟨before, m, after, rfl, hname, ⟨items, harray, ?_⟩, hothers⟩
  refine hlisted.mono fun i hi e he => ?_
  have hentry : Utf8.WellFormed i.value := harray.wellFormed_iff.mp hvalue i hi
  exact .inl (he.objectForm hentry)

/-! ## Entries in one text -/

namespace V3Error

/-- A front that is put before a joined text belongs to its first piece. -/
theorem intercalate_append (s a b : String) (rest : List String) :
    s.intercalate ((a ++ b) :: rest) = a ++ s.intercalate (b :: rest) := by
  cases rest with
  | nil => rw [String.intercalate_singleton, String.intercalate_singleton]
  | cons c rest =>
    rw [String.intercalate_cons_cons, String.intercalate_cons_cons, String.append_assoc,
      String.append_assoc, String.append_assoc]

/-- Behind what is written already, entries that are not the first come with a separator each. -/
theorem foldl_append_succ (entries : List V3Error) (k : Nat) (written : String) :
    (entries.zipIdx (k + 1)).foldl append written =
      separator.intercalate (written :: entries.map message) := by
  induction entries generalizing k written with
  | nil => exact String.intercalate_singleton.symm
  | cons e entries ih =>
    have hstep : append written (e, k + 1) = written ++ separator ++ e.message := by
      rw [append, if_pos (Nat.succ_pos k)]
    rw [List.zipIdx_cons, List.foldl_cons, ih, hstep, intercalate_append, List.map_cons,
      String.intercalate_cons_cons]

/-- Writing entry by entry joins the entries. -/
theorem messages_eq_intercalate (entries : List V3Error) :
    messages entries = separator.intercalate (entries.map message) := by
  cases entries with
  | nil => rfl
  | cons e entries =>
    have hfirst : append "" (e, 0) = e.message := String.empty_append
    rw [messages, List.zipIdx_cons, List.foldl_cons, hfirst, foldl_append_succ, List.map_cons]

end V3Error

namespace Envelope

/-! ## Payloads that spell entries -/

/-- A text that spells v3 entries, at least one, decodes to them. -/
theorem decode_v3_spelled {entries : List V3Error} (hne : entries ≠ []) {text : String}
    {members : List Member} (hp : PayloadOf members (Utf8.encode text)) (hpaired : Paired members)
    (hlists : Lists members entries) :
    decode .v3 (Utf8.encode text) = .ok (.v3 entries) := by
  obtain ⟨v, hobject, hpayload⟩ := hp.exists_object
  have hw : Utf8.WellFormed v := hpayload.mp (Utf8.wellFormed_encode text)
  have hnamed : AllNamed members := hp.allNamed_iff.mpr hpaired
  have hentries : Envelope.v3 entries ≠ .v3 [] := fun h => hne (Envelope.v3.inj h)
  exact decode_ok_iff.mpr ⟨rfl, hentries, members, hp, hnamed, hlists.givenBy hobject hw⟩

/-- A text that spells v3 entries, in whatever way, decodes to these entries in their order; and the
    mapper, given the text in whatever chunks, fails with all of them, and says so. -/
theorem v3_spelled_mapped {entries : List V3Error} (hne : entries ≠ []) {text : String}
    {members : List Member} (hp : PayloadOf members (Utf8.encode text)) (hpaired : Paired members)
    (hlists : Lists members entries) :
    decode .v3 (Utf8.encode text) = .ok (.v3 entries) ∧
      ∀ (status : Nat) (headers : Headers) (chunks : List Bytes), 400 ≤ status →
        chunks.flatten = Utf8.encode text →
        Mapper.map ⟨.v3⟩ ⟨status, headers, .stream (chunks.map .ok)⟩ =
            ⟨.error (.api (.known status (.v3 entries))), chunks.length, [], []⟩ ∧
          (Failure.known status (.v3 entries)).message =
            ", ".intercalate (entries.map fun e => s!"{e.title}({e.code}): {e.detail}") ∧
          (Error.api (.known status (.v3 entries))).message =
            ", ".intercalate (entries.map fun e => s!"{e.title}({e.code}): {e.detail}") := by
  have hdecode := decode_v3_spelled hne hp hpaired hlists
  refine ⟨hdecode, ?_⟩
  intro status headers chunks hstatus hchunks
  have hmap := (Mapper.treats_map ⟨.v3⟩ ⟨status, headers, .stream (chunks.map .ok)⟩).classifies
    hstatus _ _ (.whole chunks)
  have hmessage : (Envelope.v3 entries).message =
      ", ".intercalate (entries.map fun e => s!"{e.title}({e.code}): {e.detail}") :=
    V3Error.messages_eq_intercalate entries
  refine ⟨?_, hmessage, hmessage⟩
  rw [hmap, hchunks, classify, classifyReport]
  dsimp only
  rw [hdecode]

/-! ## Spellings that are found by running the readers -/

/-- An object that is read as an entry spells it. -/
theorem spelledBy_of_read {v : Bytes} {e : V3Error} (hbrace : v.head? = some 0x7B)
    (h : (Reader.record v3EntryRecord).Writes v e) : e.SpelledBy v := by
  rw [record_writes_brace_iff v3EntryRecord_exact hbrace, v3EntryRecord_objectForm_iff] at h
  obtain ⟨members, hobject, hnamed, hgiven⟩ := h
  exact ⟨members, hobject, hnamed.paired, hgiven⟩

/-- What is passed over to its end, and has no white space in front, is a value. -/
theorem value_of_skipped {v : Bytes} (hfront : skipBlank v = v) (h : skipValue v = .ok []) :
    Value v := by
  obtain ⟨w, u, hw, hu, heq⟩ := skipValue_sound h
  obtain ⟨b, t, rfl, hb, -⟩ := hu.first
  rw [List.append_nil] at heq
  have hv : v = b :: t := by
    rw [← hfront, heq, skipBlank_append hw, skipBlank_cons hb]
  exact hv ▸ hu

/-- What is read as a text up to its quote spells it. -/
theorem spells_of_read {form : Bytes} {t : String} (h : readText (form ++ [0x22]) = .ok (t, [])) :
    Spells form (Utf8.encode t) := by
  obtain ⟨form', hform, heq⟩ := readText_ok_iff.mp h
  exact List.append_cancel_right heq ▸ hform

/-- A mark, white space, an escaped name, members nobody asked for, and a pair of surrogates. -/
theorem v3_spelled_mapped_escaped :
    let text := "\uFEFF \x7b\"x\" :[1e999 ],\"err\\u006frs\":[" ++
      "\x7b\"title\":\"\\ud83d\\ude00\",\"more\":\x7b\x7d,\"code\":-7,\"detail\":\"é\"\x7d ," ++
      "\x7b\"code\":0,\"detail\":\"\",\"title\":\"u\"\x7d]\x7d\n"
    let entries : List V3Error := [⟨-7, "é", "😀"⟩, ⟨0, "", "u"⟩]
    ∃ members, entries ≠ [] ∧ PayloadOf members (Utf8.encode text) ∧ Paired members ∧
      Lists members entries ∧ decode .v3 (Utf8.encode text) = .ok (.v3 entries) ∧
      Mapper.map ⟨.v3⟩ ⟨503, .empty, .stream ([Utf8.encode text, []].map .ok)⟩ =
        ⟨.error (.api (.known 503 (.v3 entries))), 2, [], []⟩ ∧
      (Failure.known 503 (.v3 entries)).message = "😀(-7): é, u(0): " := by
  intro text entries
  let first := Utf8.encode
    "\x7b\"title\":\"\\ud83d\\ude00\",\"more\":\x7b\x7d,\"code\":-7,\"detail\":\"é\"\x7d"
  let second := Utf8.encode "\x7b\"code\":0,\"detail\":\"\",\"title\":\"u\"\x7d"
  have hvfirst : Value first := value_of_skipped (by decide +kernel) (by decide +kernel)
  have hvsecond : Value second := value_of_skipped (by decide +kernel) (by decide +kernel)
  have hfirst : V3Error.SpelledBy first ⟨-7, "é", "😀"⟩ :=
    spelledBy_of_read (by decide) ⟨hvfirst, by decide +kernel⟩
  have hsecond : V3Error.SpelledBy second ⟨0, "", "u"⟩ :=
    spelledBy_of_read (by decide) ⟨hvsecond, by decide +kernel⟩
  have hspace : Blank [0x20] := by simp [Blank, isBlank]
  have hline : Blank [0x0A] := by simp [Blank, isBlank]
  have harray : Grammar.Array [⟨[], first, [0x20]⟩, bare second]
      (0x5B :: separated ([⟨[], first, [0x20]⟩, bare second].map Item.text) ++ [0x5D]) := by
    refine array_of_items (List.cons_ne_nil _ _) ?_
    simp only [List.forall_mem_cons]
    exact ⟨⟨⟨blank_nil, hspace⟩, hvfirst⟩, ⟨bare_spaced _, hvsecond⟩, by simp⟩
  -- the members around them
  let extra : Member := ⟨[], Utf8.encode "x", [0x20], bare (Utf8.encode "[1e999 ]")⟩
  let errors : Member := ⟨[], Utf8.encode "err\\u006frs", [],
    bare (0x5B :: separated ([⟨[], first, [0x20]⟩, bare second].map Item.text) ++ [0x5D])⟩
  have hextra : extra.Named "x" := spells_of_read (by decide +kernel)
  have herrors : errors.Named "errors" := spells_of_read (by decide +kernel)
  have hformed : WellFormedMembers [extra, errors] := by
    simp only [WellFormedMembers, List.forall_mem_cons]
    exact ⟨⟨⟨blank_nil, hspace, bare_spaced _⟩, hextra.spelled,
        value_of_skipped (by decide +kernel) (by decide +kernel)⟩,
      ⟨⟨blank_nil, blank_nil, bare_spaced _⟩, herrors.spelled, harray.value⟩, by simp⟩
  have hobject := object_of_members (List.cons_ne_nil _ _) hformed
  have hp : PayloadOf [extra, errors] (Utf8.encode text) :=
    ⟨_, .inr (by decide +kernel), _, hobject, [0x20], [0x0A], hspace, hline, rfl⟩
  have hpaired : Paired [extra, errors] := by
    simp only [Paired, List.forall_mem_cons]
    exact ⟨⟨_, hextra⟩, ⟨_, herrors⟩, by simp⟩
  have hlists : Lists [extra, errors] entries := by
    refine occurs_cons_iff.mpr (.inr ⟨fun h => absurd (h.unique hextra) (by decide), ?_⟩)
    refine occurs_cons_iff.mpr (.inl ⟨herrors, ⟨_, harray, .cons hfirst (.cons hsecond .nil)⟩, ?_⟩)
    simp [Absent]
  have hne : entries ≠ [] := List.cons_ne_nil _ _
  obtain ⟨hdecode, hmap⟩ := v3_spelled_mapped hne hp hpaired hlists
  obtain ⟨hrun, hmessage, -⟩ := hmap 503 .empty [Utf8.encode text, []] (by decide) (by simp)
  exact ⟨_, hne, hp, hpaired, hlists, hdecode, hrun, hmessage.trans (by decide +kernel)⟩

end Envelope

end PlatformClient
