/-
  Which values are texts.

  This is where the grammar of bytes meets that of characters.  Brackets, braces, commas, colons,
  quotes and white space are ASCII, and no character of a text straddles such a byte.  So an object
  is a text just if its names and values are, and an array just if its items are.  Integers are
  ASCII, and what is read as a text is one.
-/
import PlatformClient.Proofs.Json.Record

namespace PlatformClient.Json

open Grammar

/-! ## Containers -/

/-- White space is ASCII. -/
theorem Grammar.Blank.ascii {w : Bytes} (h : Blank w) : ∀ b ∈ w, b < 0x80 := by
  intro b hb
  have hblank := h b hb
  simp only [isBlank, Bool.or_eq_true, decide_eq_true_eq] at hblank
  rcases hblank with ((rfl | rfl) | rfl) | rfl <;> decide

/-- Parts with commas between them are well-formed together exactly when each is. -/
theorem wellFormed_append_further_iff {p : Bytes} {ps : List Bytes} :
    Utf8.WellFormed (p ++ further ps) ↔ ∀ q ∈ p :: ps, Utf8.WellFormed q := by
  induction ps generalizing p with
  | nil => simp [further]
  | cons q ps ih =>
    rw [further_cons, Utf8.wellFormed_append_cons_iff (by decide), ih, List.forall_mem_cons,
      List.forall_mem_cons, List.forall_mem_cons]

/-- A container is a text inside just if its parts are. -/
theorem Grammar.Inside.wellFormed_iff {parts : List Bytes} {s : Bytes} (h : Inside parts s) :
    Utf8.WellFormed s ↔ ∀ p ∈ parts, Utf8.WellFormed p := by
  rcases h with ⟨rfl, hblank⟩ | ⟨hne, rfl⟩
  · simpa using Utf8.wellFormed_of_ascii hblank.ascii
  · cases parts with
    | nil => exact absurd rfl hne
    | cons p ps => rw [separated_cons, wellFormed_append_further_iff]

/-- White space around a value does not matter. -/
theorem Grammar.Item.wellFormed_text_iff {i : Item} (h : i.Spaced) :
    Utf8.WellFormed i.text ↔ Utf8.WellFormed i.value := by
  rw [Item.text, Utf8.wellFormed_append_ascii_iff h.2.ascii,
    Utf8.wellFormed_ascii_append_iff h.1.ascii]

/-- A member is well-formed when its name and its value are. -/
theorem Grammar.Member.wellFormed_text_iff {m : Member} (h : m.Spaced) :
    Utf8.WellFormed m.text ↔ Utf8.WellFormed m.name ∧ Utf8.WellFormed m.item.value := by
  obtain ⟨hbefore, hbetween, hitem⟩ := h
  have hfront : Utf8.WellFormed m.before := Utf8.wellFormed_of_ascii hbefore.ascii
  have hmiddle : Utf8.WellFormed m.between := Utf8.wellFormed_of_ascii hbetween.ascii
  rw [Member.text, Utf8.wellFormed_append_cons_iff (by decide),
    Utf8.wellFormed_append_cons_iff (by decide), Utf8.wellFormed_append_cons_iff (by decide),
    and_iff_right hfront, and_iff_left hmiddle, Item.wellFormed_text_iff hitem]

/-- White space around a value changes nothing. -/
theorem Grammar.Text.wellFormed_iff {v s : Bytes} (h : Text v s) :
    Utf8.WellFormed s ↔ Utf8.WellFormed v := by
  obtain ⟨before, after, hbefore, hafter, rfl⟩ := h
  rw [Utf8.wellFormed_append_ascii_iff hafter.ascii,
    Utf8.wellFormed_ascii_append_iff hbefore.ascii]

/-- What stands between an opening and a closing byte. -/
theorem wellFormed_enclosed_iff {a b : UInt8} {inside : Bytes} (ha : a < 0x80) (hb : b < 0x80) :
    Utf8.WellFormed (a :: inside ++ [b]) ↔ Utf8.WellFormed inside := by
  rw [List.cons_append, Utf8.wellFormed_cons_iff ha, Utf8.wellFormed_append_cons_iff hb,
    and_iff_left Utf8.wellFormed_nil]

/-- An array is a text just if its items are. -/
theorem Grammar.Array.wellFormed_iff {items : List Item} {v : Bytes}
    (h : Grammar.Array items v) :
    Utf8.WellFormed v ↔ ∀ i ∈ items, Utf8.WellFormed i.value := by
  obtain ⟨hitems, inside, hinside, rfl⟩ := h
  rw [wellFormed_enclosed_iff (by decide) (by decide), hinside.wellFormed_iff, List.forall_mem_map]
  exact forall₂_congr fun i hi => Item.wellFormed_text_iff (hitems i hi).1

/-- An object is a text just if its names and values are. -/
theorem Grammar.Object.wellFormed_iff {members : List Member} {v : Bytes}
    (h : Object members v) :
    Utf8.WellFormed v ↔
      ∀ m ∈ members, Utf8.WellFormed m.name ∧ Utf8.WellFormed m.item.value := by
  obtain ⟨hmembers, inside, hinside, rfl⟩ := h
  rw [wellFormed_enclosed_iff (by decide) (by decide), hinside.wellFormed_iff, List.forall_mem_map]
  exact forall₂_congr fun m hm => Member.wellFormed_text_iff (hmembers m hm).1

/-- A name that resolves is a text. -/
theorem Grammar.Member.Named.wellFormed {m : Member} {name : String} (h : m.Named name) :
    Utf8.WellFormed m.name :=
  Spells.wellFormed_iff h |>.mpr (Utf8.wellFormed_encode name)

/-! ## Single values -/

/-- A text that is read is well-formed, or it would have been refused. -/
theorem TextForm.wellFormed {v : Bytes} {t : String} (h : TextForm v t) :
    Utf8.WellFormed v := by
  obtain ⟨form, hform, rfl⟩ := h
  rw [wellFormed_enclosed_iff (by decide) (by decide), hform.wellFormed_iff]
  exact Utf8.wellFormed_encode t

theorem isDigit_ascii {b : UInt8} (h : isDigit b = true) : b < 0x80 := by
  have hb : 0x30 ≤ b ∧ b ≤ 0x39 := by simpa [isDigit] using h
  exact UInt8.lt_of_le_of_lt hb.2 (by decide)

theorem Grammar.Whole.ascii {ds : Bytes} (h : Whole ds) : ∀ b ∈ ds, b < 0x80 :=
  fun b hb => isDigit_ascii (h.digit b hb)

/-- Numbers are ASCII. -/
theorem Grammar.Integer.wellFormed {v : Bytes} {n : Int} (h : Integer v n) :
    Utf8.WellFormed v := by
  rcases h with ⟨hw, -⟩ | ⟨ds, hw, -, rfl, -⟩
  · exact Utf8.wellFormed_of_ascii hw.ascii
  · rw [Utf8.wellFormed_cons_iff (by decide)]
    exact Utf8.wellFormed_of_ascii hw.ascii

/-- In an object that is a text, names resolve if their surrogates are paired. -/
theorem Grammar.Object.allNamed_iff {members : List Member} {v : Bytes} (h : Object members v)
    (hw : Utf8.WellFormed v) : AllNamed members ↔ ∀ m ∈ members, ∃ t, Spells m.name t := by
  constructor
  · intro hn m hm
    obtain ⟨name, hname⟩ := hn m hm
    exact ⟨_, hname⟩
  · intro hs m hm
    obtain ⟨t, ht⟩ := hs m hm
    have hname : Utf8.WellFormed m.name := (h.wellFormed_iff.mp hw m hm).1
    obtain ⟨name, rfl⟩ := (ht.wellFormed_iff.mp hname).exists_text
    exact ⟨name, ht⟩

end PlatformClient.Json
