/-
  What a reader takes, as a relation between values and their written forms.

  `Reader.Writes r v a` says that `v`, a value without white space around it, is read as `a`.  A
  reader is `Exact` if this tells everything about it: it takes white space and then a written form,
  and it takes every written form that does not go on behind its end.

  A reader need not be exact to have a form that it takes wherever it stands (`Reader.Takes`); of an
  exact reader these are the written forms again.

  1. **Single values** have the forms of the grammar.
  2. **Turns.**  What is still to come of a container is told by its parts: `Remaining`.  The first
     part stands for itself, each further one behind a comma.
  3. **Arrays** are read item by item.
  4. **Whole texts** are a written form with white space around it.
-/
import Mathlib.Data.List.Forall2
import PlatformClient.Json.Value
import PlatformClient.Proofs.Json.Skip

namespace PlatformClient.Json

open Grammar

/-! ## Readers and written forms -/

/-- The value in this written form, read as `a`. -/
def Reader.Writes {α : Type} (r : Reader α) (v : Bytes) (a : α) : Prop :=
  Value v ∧ r.run v = .ok (a, [])

/-- The reader takes written forms, and takes every written form. -/
structure Reader.Exact {α : Type} (r : Reader α) : Prop where
  sound : ∀ {s : Bytes} {a : α} {rest : Bytes}, r.run s = .ok (a, rest) →
    ∃ w v, Blank w ∧ r.Writes v a ∧ s = w ++ v ++ rest
  complete : ∀ {w v rest : Bytes} {a : α}, Blank w → r.Writes v a → Stops rest →
    r.run (w ++ v ++ rest) = .ok (a, rest)

/-- The reader is exact, and this relation tells its written forms. -/
structure Reader.Reads {α : Type} (r : Reader α) (form : Bytes → α → Prop) : Prop where
  exact : r.Exact
  writes_iff : ∀ {v : Bytes} {a : α}, r.Writes v a ↔ form v a

/-- The value in this written form is read as `a`, whatever stands around it. -/
def Reader.Takes {α : Type} (r : Reader α) (v : Bytes) (a : α) : Prop :=
  Value v ∧ ∀ ⦃w rest : Bytes⦄, Blank w → Stops rest → r.run (w ++ v ++ rest) = .ok (a, rest)

theorem stops_nil : Stops [] := fun b hb => by cases hb

/-- An exact reader takes its written forms wherever they stand. -/
theorem Reader.Exact.takes {α : Type} {r : Reader α} (hr : r.Exact) {v : Bytes} {a : α}
    (h : r.Writes v a) : r.Takes v a :=
  ⟨h.1, fun _ _ hw hs => hr.complete hw h hs⟩

/-- A written form is read in one way only. -/
theorem Reader.Writes.unique {α : Type} {r : Reader α} {v : Bytes} {a b : α} (ha : r.Writes v a)
    (hb : r.Writes v b) : a = b := by
  have h := ha.2.symm.trans hb.2
  simp only [Except.ok.injEq, Prod.mk.injEq, and_true] at h
  exact h

/-- A value has no white space in front. -/
theorem Grammar.Value.blank_eq_nil {w v u : Bytes} (h : Value v) (hw : Blank w)
    (hv : v = w ++ u) : w = [] := by
  obtain ⟨b, t, rfl, hb, -⟩ := h.first
  cases w with
  | nil => rfl
  | cons c w =>
    rw [List.cons_append, List.cons.injEq] at hv
    have := hw c (by simp)
    rw [← hv.1, hb] at this
    cases this

/-- A relation that says what a reader takes tells its written forms. -/
theorem Reader.reads_of {α : Type} {r : Reader α} {form : Bytes → α → Prop}
    (value : ∀ {v : Bytes} {a : α}, form v a → Value v)
    (sound : ∀ {s : Bytes} {a : α} {rest : Bytes}, r.run s = .ok (a, rest) →
      ∃ w v, Blank w ∧ form v a ∧ s = w ++ v ++ rest)
    (complete : ∀ {w v rest : Bytes} {a : α}, Blank w → form v a → Stops rest →
      r.run (w ++ v ++ rest) = .ok (a, rest)) :
    r.Reads form := by
  have writes : ∀ {v : Bytes} {a : α}, r.Writes v a ↔ form v a := by
    intro v a
    constructor
    · rintro ⟨hv, hr⟩
      -- a value has no white space in front, so it is the form itself
      obtain ⟨w, u, hw, hu, huv⟩ := sound hr
      rw [List.append_nil] at huv
      rw [hv.blank_eq_nil hw huv, List.nil_append] at huv
      exact huv ▸ hu
    · intro h
      refine ⟨value h, ?_⟩
      have := complete blank_nil h stops_nil
      rwa [List.nil_append, List.append_nil] at this
  refine ⟨⟨fun h => ?_, fun hw h hs => complete hw (writes.mp h) hs⟩, writes⟩
  obtain ⟨w, v, hw, hv, rfl⟩ := sound h
  exact ⟨w, v, hw, writes.mpr hv, rfl⟩

/-- A value is read from its first byte on. -/
theorem startValue_blank {α : Type} (head : UInt8 → Bytes → Read α) {w : Bytes} {b : UInt8}
    (hw : Blank w) (hb : isBlank b = false) (u : Bytes) :
    startValue head (w ++ b :: u) = head b u := by
  rw [startValue, skipBlank_eq_cons_iff.mpr ⟨hb, w, hw, rfl⟩]

/-- A reader made from its first byte skips white space, and is given a byte that is none. -/
theorem ofHead_ok_iff {α : Type} {head : UInt8 → Bytes → Read α}
    {fits : ∀ {b : UInt8} {s : Bytes} {a : α} {rest : Bytes},
      head b s = .ok (a, rest) → rest.length ≤ s.length} {s rest : Bytes} {a : α} :
    (Reader.ofHead head fits).run s = .ok (a, rest) ↔
      ∃ w b u, Blank w ∧ isBlank b = false ∧ s = w ++ b :: u ∧ head b u = .ok (a, rest) := by
  show startValue head s = _ ↔ _
  constructor
  · intro h
    unfold startValue at h
    split at h
    · cases h
    · rename_i b u hb
      obtain ⟨hn, w, hw, rfl⟩ := skipBlank_eq_cons_iff.mp hb
      exact ⟨w, b, u, hw, hn, rfl, h⟩
  · rintro ⟨w, b, u, hw, hn, rfl, h⟩
    rw [startValue_blank head hw hn]
    exact h

/-- A reader by the first byte takes a form that it takes from that byte on. -/
theorem Reader.takes_ofHead {α : Type} {head : UInt8 → Bytes → Read α}
    {fits : ∀ {b : UInt8} {s : Bytes} {a : α} {rest : Bytes},
      head b s = .ok (a, rest) → rest.length ≤ s.length} {b : UInt8} {u : Bytes} {a : α}
    (hv : Value (b :: u)) (h : ∀ rest, Stops rest → head b (u ++ rest) = .ok (a, rest)) :
    (Reader.ofHead head fits).Takes (b :: u) a := by
  refine ⟨hv, fun w rest hw hs => ?_⟩
  have hb : isBlank b = false := by
    obtain ⟨c, t, heq, hc, -⟩ := hv.first
    rw [(List.cons.inj heq).1]
    exact hc
  exact ofHead_ok_iff.mpr ⟨w, b, u ++ rest, hw, hb, by simp, h rest hs⟩

/-- A reader by the first byte is told by what it takes from that byte on. -/
theorem Reader.reads_ofHead {α : Type} {head : UInt8 → Bytes → Read α}
    {fits : ∀ {b : UInt8} {s : Bytes} {a : α} {rest : Bytes},
      head b s = .ok (a, rest) → rest.length ≤ s.length} {form : Bytes → α → Prop}
    (value : ∀ {v : Bytes} {a : α}, form v a → Value v)
    (sound : ∀ {b : UInt8} {s : Bytes} {a : α} {rest : Bytes}, head b s = .ok (a, rest) →
      ∃ v, form v a ∧ b :: s = v ++ rest)
    (complete : ∀ {b : UInt8} {u rest : Bytes} {a : α}, form (b :: u) a → Stops rest →
      head b (u ++ rest) = .ok (a, rest)) :
    (Reader.ofHead head fits).Reads form := by
  refine Reader.reads_of value ?_ ?_
  · intro s a rest h
    obtain ⟨w, b, u, hw, -, rfl, hu⟩ := ofHead_ok_iff.mp h
    obtain ⟨v, hv, hbu⟩ := sound hu
    exact ⟨w, v, hw, hv, by rw [hbu, List.append_assoc]⟩
  · intro w v rest a hw h hs
    obtain ⟨b, u, rfl, hb, -⟩ := (value h).first
    exact ofHead_ok_iff.mpr ⟨w, b, u ++ rest, hw, hb, by simp, complete h hs⟩

/-- Changing the result of a reader does not change what it takes. -/
theorem Reader.map_run_ok_iff {α β : Type} {f : α → β} {r : Reader α} {s rest : Bytes} {b : β} :
    (r.map f).run s = .ok (b, rest) ↔ ∃ a, r.run s = .ok (a, rest) ∧ b = f a :=
  read_map_ok_iff

/-- So the written forms of the changed results are those of the results. -/
theorem Reader.writes_map_iff {α β : Type} {f : α → β} {r : Reader α} {v : Bytes} {b : β} :
    (r.map f).Writes v b ↔ ∃ a, r.Writes v a ∧ b = f a := by
  constructor
  · rintro ⟨hv, h⟩
    obtain ⟨a, ha, rfl⟩ := Reader.map_run_ok_iff.mp h
    exact ⟨a, ⟨hv, ha⟩, rfl⟩
  · rintro ⟨a, ⟨hv, ha⟩, rfl⟩
    exact ⟨hv, Reader.map_run_ok_iff.mpr ⟨a, ha, rfl⟩⟩

/-- Exactness is about what is taken, and is kept. -/
theorem Reader.Exact.map {α β : Type} {r : Reader α} (h : r.Exact) (f : α → β) :
    (r.map f).Exact := by
  constructor
  · intro s b rest hb
    obtain ⟨a, ha, rfl⟩ := Reader.map_run_ok_iff.mp hb
    obtain ⟨w, v, hw, hv, rfl⟩ := h.sound ha
    exact ⟨w, v, hw, Reader.writes_map_iff.mpr ⟨a, hv, rfl⟩, rfl⟩
  · intro w v rest b hw hb hs
    obtain ⟨a, ha, rfl⟩ := Reader.writes_map_iff.mp hb
    exact Reader.map_run_ok_iff.mpr ⟨a, h.complete hw ha hs, rfl⟩

/-! ## Single values -/

theorem Grammar.Integer.numeral {v : Bytes} {n : Int} (h : Integer v n) : Numeral v := by
  rcases h with ⟨hw, -⟩ | ⟨ds, hw, -, rfl, -⟩
  · exact ⟨[], v, [], [], by simp, hw, .inl rfl, .inl rfl, by simp⟩
  · exact ⟨[0x2D], ds, [], [], by simp, hw, .inl rfl, .inl rfl, by simp⟩

theorem Grammar.Integer.value {v : Bytes} {n : Int} (h : Integer v n) : Value v :=
  .numeral h.numeral

/-- The reader of integers takes the written forms of the integers within its type, and nothing
    else. The bounds keep the type within what a number can hold. -/
theorem integer_reads {t : IntType} (hl : -0x8000000000000000 ≤ t.least)
    (hg : t.greatest < 0x10000000000000000) :
    (Reader.integer t).Reads (IntegerForm t) := by
  refine Reader.reads_ofHead (fun h => h.1.value) ?_ ?_
  · intro b s n rest h
    obtain ⟨v, hv, -, hs⟩ := IntType.head_sound h
    exact ⟨v, hv, hs⟩
  · intro b u rest n h hs
    obtain ⟨c, t', hc, ht⟩ := IntType.head_complete h ⟨by have := h.2.1; omega,
      by have := h.2.2; omega⟩ hs
    cases hc
    exact ht

/-- A text in quotes that means `t`. -/
def TextForm (v : Bytes) (t : String) : Prop :=
  ∃ form, Spells form (Utf8.encode t) ∧ v = 0x22 :: form ++ [0x22]

/-- Bytes that stand for themselves spell themselves. -/
theorem spells_self {s : Bytes} (h : s.all isPlain = true) : Spells s s := by
  have := spells_plain (List.all_eq_true.mp h) .nil
  rwa [List.append_nil] at this

/-- A text of such bytes, in quotes. -/
theorem textForm_self {t : String} (h : (Utf8.encode t).all isPlain = true) :
    TextForm (0x22 :: Utf8.encode t ++ [0x22]) t :=
  ⟨Utf8.encode t, spells_self h, rfl⟩

/-- The reader of texts takes the spellings of the text in quotes. -/
theorem text_reads : Reader.text.Reads TextForm := by
  refine Reader.reads_ofHead ?_ ?_ ?_
  · rintro v t ⟨form, h, rfl⟩
    exact .text h.spelled
  · intro b s t rest h
    unfold textHead at h
    split at h
    · rename_i hb
      subst hb
      obtain ⟨form, hf, rfl⟩ := readText_ok_iff.mp h
      exact ⟨_, ⟨form, hf, rfl⟩, by simp⟩
    · cases h
  · rintro b u rest t ⟨form, hf, hbu⟩ -
    rw [List.cons_append, List.cons.injEq] at hbu
    obtain ⟨rfl, rfl⟩ := hbu
    rw [textHead, if_pos rfl]
    exact readText_ok_iff.mpr ⟨form, hf, by simp⟩

/-- The skipping reader takes every value of the grammar. -/
theorem ignored_reads : Reader.ignored.Reads fun v _ => Value v := by
  refine Reader.reads_of (fun h => h) ?_ ?_
  · intro s a rest h
    exact skipValue_sound (rest_map_ok_iff.mp h).1
  · intro w v rest a hw hv hs
    show (skipValue _).map _ = _
    rw [skipValue_complete hw hv hs]
    rfl

theorem TextForm.value {v : Bytes} {t : String} (h : TextForm v t) : Value v :=
  (text_reads.writes_iff.mpr h).1

/-! ## Turns -/

/-- What stands before the next part of a container: nothing at the first, else a comma. -/
def Separator (first : Bool) (s : Bytes) : Prop :=
  if first then s = [] else ∃ w, Blank w ∧ s = w ++ [0x2C]

/-- What is still to come of a container with these parts, up to its end. -/
def Remaining (first : Bool) : List Bytes → Bytes → Prop
  | [], s => Blank s
  | p :: ps, s => ∃ comma, Separator first comma ∧ s = comma ++ p ++ further ps

/-- In front of the first part, what remains is the inside of the container. -/
theorem remaining_true_iff {parts : List Bytes} {s : Bytes} :
    Remaining true parts s ↔ Inside parts s := by
  cases parts with
  | nil => simp [Remaining, Inside]
  | cons p ps => simp [Remaining, Inside, Separator, separated_cons]

/-- Behind a part, what remains is white space and the further parts, each with its comma. -/
theorem remaining_false_iff {parts : List Bytes} {s : Bytes} :
    Remaining false parts s ↔ ∃ w, Blank w ∧ s = w ++ further parts := by
  cases parts with
  | nil => simp [Remaining, further]
  | cons p ps =>
    constructor
    · rintro ⟨comma, ⟨w, hw, rfl⟩, rfl⟩
      exact ⟨w, hw, by simp [further_cons]⟩
    · rintro ⟨w, hw, rfl⟩
      exact ⟨w ++ [0x2C], ⟨w, hw, rfl⟩, by simp [further_cons]⟩

/-- Behind a value, what is to come of a container does not go on with it. -/
theorem Remaining.stops {c : Container} {parts : List Bytes} {s : Bytes}
    (h : Remaining false parts s) (rest : Bytes) : Stops (s ++ c.closer :: rest) := by
  obtain ⟨w, hw, rfl⟩ := remaining_false_iff.mp h
  rw [List.append_assoc]
  exact stops_further hw parts rest

/-- The items end at a bracket, with white space in front of it. -/
theorem nextElement_done_iff {first : Bool} {s rest : Bytes} :
    nextElement first s = .ok (.done rest) ↔ ∃ w, Blank w ∧ s = w ++ 0x5D :: rest := by
  unfold nextElement
  constructor
  · intro h
    split at h
    · cases h
    rename_i b t hb
    obtain ⟨-, w, hw, rfl⟩ := skipBlank_eq_cons_iff.mp hb
    split at h
    · -- the bracket; every other branch ends in an item or in a fault
      rename_i hc
      subst hc
      cases h
      exact ⟨w, hw, rfl⟩
    split at h
    · cases h
    split at h
    · split at h
      · cases h
      · split at h <;> cases h
    · cases h
  · rintro ⟨w, hw, rfl⟩
    rw [skipBlank_eq_cons_iff.mpr ⟨by decide, w, hw, rfl⟩]
    dsimp only
    rw [if_pos rfl]

/-- An element that comes next has a comma in front, or is the first. -/
theorem nextElement_part_sound {first : Bool} {s start : Bytes}
    (h : nextElement first s = .ok (.part () start)) :
    ∃ comma w, Separator first comma ∧ Blank w ∧ s = comma ++ w ++ start := by
  unfold nextElement at h
  split at h
  · cases h
  rename_i b t hb
  obtain ⟨-, w, hw, rfl⟩ := skipBlank_eq_cons_iff.mp hb
  split at h
  · cases h
  split at h
  · -- the first element
    rename_i hfirst
    subst hfirst
    cases h
    exact ⟨[], w, rfl, hw, rfl⟩
  rename_i hfirst
  rw [Bool.not_eq_true] at hfirst
  subst hfirst
  split at h
  · -- a further one, behind its comma
    rename_i hcomma
    subst hcomma
    split at h
    · cases h
    rename_i c u hc
    obtain ⟨-, w', hw', rfl⟩ := skipBlank_eq_cons_iff.mp hc
    split at h
    · cases h
    cases h
    exact ⟨w ++ [0x2C], w', ⟨w, hw, rfl⟩, hw', by simp⟩
  · cases h

/-- A further item is found behind its comma, or at once when it is the first. -/
theorem nextElement_part_complete {first : Bool} {comma w : Bytes} {b : UInt8} (u : Bytes)
    (hcomma : Separator first comma) (hw : Blank w) (hb : isBlank b = false) (hne : b ≠ 0x5D) :
    nextElement first (comma ++ w ++ b :: u) = .ok (.part () (b :: u)) := by
  have hstart : skipBlank (w ++ b :: u) = b :: u := skipBlank_eq_cons_iff.mpr ⟨hb, w, hw, rfl⟩
  cases first with
  | true =>
    have hnone : comma = [] := hcomma
    rw [nextElement, hnone, List.nil_append, hstart]
    dsimp only
    rw [if_neg hne, if_pos rfl]
  | false =>
    obtain ⟨w', hw', rfl⟩ := hcomma
    have hfound : skipBlank (w' ++ [0x2C] ++ w ++ b :: u) = 0x2C :: (w ++ b :: u) :=
      skipBlank_eq_cons_iff.mpr ⟨by decide, w', hw', by simp⟩
    rw [nextElement, hfound]
    dsimp only
    rw [if_neg (by decide), if_neg (by decide), if_pos rfl, hstart]
    dsimp only
    rw [if_neg hne]

/-! ## Arrays -/

/-- The items are written forms of these values, in their order. -/
def Listed {α : Type} (form : Bytes → α → Prop) : List Item → List α → Prop :=
  List.Forall₂ fun i a => form i.value a

/-- Every item is a written form of something. -/
theorem Listed.exists_form {α : Type} {form : Bytes → α → Prop} {items : List Item} {as : List α}
    (h : Listed form items as) : ∀ i ∈ items, ∃ a, form i.value a := by
  induction h with
  | nil => intro i hi; cases hi
  | cons hv _ ih =>
    intro i hi
    rcases List.mem_cons.mp hi with rfl | hi
    · exact ⟨_, hv⟩
    · exact ih i hi

/-- Items that are written forms of something are so together. -/
theorem exists_listed {α : Type} {form : Bytes → α → Prop} {items : List Item}
    (h : ∀ i ∈ items, ∃ a, form i.value a) : ∃ as, Listed form items as := by
  induction items with
  | nil => exact ⟨[], .nil⟩
  | cons i is ih =>
    obtain ⟨a, ha⟩ := h i (by simp)
    obtain ⟨as, has⟩ := ih fun j hj => h j (by simp [hj])
    exact ⟨a :: as, .cons ha has⟩

/-- Items that are written forms in one way are so in another one, if each of them is. -/
theorem Listed.mono {α : Type} {form form' : Bytes → α → Prop} {items : List Item}
    {as : List α} (h : Listed form items as)
    (hform : ∀ i ∈ items, ∀ a, form i.value a → form' i.value a) : Listed form' items as := by
  induction h with
  | nil => exact .nil
  | @cons i a is as ha _ ih =>
    have htail : ∀ j ∈ is, ∀ b, form j.value b → form' j.value b :=
      fun j hj => hform j (List.mem_cons_of_mem i hj)
    exact .cons (hform i List.mem_cons_self a ha) (ih htail)

theorem Listed.takes {α : Type} {r : Reader α} {items : List Item} {as : List α}
    (h : Listed r.Writes items as) (hr : r.Exact) : Listed r.Takes items as :=
  h.mono fun _ _ _ hi => hr.takes hi

/-- Every item that an exact reader takes is a value. -/
theorem Listed.value {α : Type} {r : Reader α} {items : List Item} {as : List α}
    (h : Listed r.Writes items as) : ∀ i ∈ items, Value i.value := by
  intro i hi
  obtain ⟨a, ha⟩ := h.exists_form i hi
  exact ha.1

/-- An element is white space and a written form. -/
theorem element_sound {α : Type} {r : Reader α} (hr : r.Exact) {i : Nat} {s rest : Bytes} {a : α}
    (h : element r i s = .ok (a, rest)) :
    ∃ w v, Blank w ∧ r.Writes v a ∧ s = w ++ v ++ rest :=
  hr.sound (mapError_ok_iff.mp h)

/-- An item is read wherever something stops it. -/
theorem element_complete {α : Type} {r : Reader α} (i : Nat) {v rest : Bytes} {a : α}
    (h : r.Takes v a) (hs : Stops rest) : element r i (v ++ rest) = .ok (a, rest) := by
  have := h.2 blank_nil hs
  rw [List.nil_append] at this
  rw [element, this]
  rfl

/-- A part that was read and what remains of the container behind it. -/
theorem remaining_item {first : Bool} {comma w w' v t : Bytes} {items : List Item}
    (hc : Separator first comma) (hw : Blank w) (hw' : Blank w')
    (ht : Remaining false (items.map Item.text) t) :
    ∃ i : Item, i.value = v ∧ i.Spaced ∧
      Remaining first ((i :: items).map Item.text) (comma ++ w ++ (w' ++ v ++ t)) := by
  obtain ⟨w'', hw'', rfl⟩ := remaining_false_iff.mp ht
  exact ⟨⟨w ++ w', v, w''⟩, rfl, ⟨hw.append hw', hw''⟩, comma, hc, by simp [Item.text]⟩

/-- One round of the loop over the items. -/
theorem elements_eq {α : Type} (r : Reader α) (i : Nat) (done : List α) (s : Bytes) :
    elements r i done s =
      match nextElement (i == 0) s with
      | .error f => .error f
      | .ok (.done rest) => .ok (done.reverse, rest)
      | .ok (.part () start) =>
        match element r i start with
        | .error f => .error f
        | .ok (a, rest) => elements r (i + 1) (a :: done) rest := by
  rw [elements.eq_def]
  split
  · rename_i h
    rw [h]
  · rename_i h
    rw [h]
  · rename_i h
    rw [h]
    dsimp only
    split <;> rename_i he <;> rw [he]

/-- The loop over the items, read backwards: each round puts one item in front of those that the
    rest of the loop reads. What was read before stands in front, in order. -/
theorem elements_sound {α : Type} {r : Reader α} (hr : r.Exact) {i : Nat} {done as : List α}
    {s rest : Bytes} (h : elements r i done s = .ok (as, rest)) :
    ∃ items more inside, Listed r.Writes items more ∧ (∀ i ∈ items, i.Spaced) ∧
      as = done.reverse ++ more ∧ Remaining (i == 0) (items.map Item.text) inside ∧
      s = inside ++ 0x5D :: rest := by
  fun_induction elements r i done s with
  | case1 => cases h
  | case2 i done s t ht =>
    cases h
    obtain ⟨w, hw, rfl⟩ := nextElement_done_iff.mp ht
    exact ⟨[], [], w, .nil, by simp, by simp, hw, rfl⟩
  | case3 => cases h
  | case4 i done s start ht a t he ih =>
    -- the white space behind the value belongs to this item, not to what remains
    obtain ⟨items, more, inside, hitems, hspaced, rfl, hrem, rfl⟩ := ih h
    obtain ⟨comma, w, hc, hw, rfl⟩ := nextElement_part_sound ht
    obtain ⟨w', v, hw', hv, rfl⟩ := element_sound hr he
    obtain ⟨item, rfl, hi, hrem'⟩ := remaining_item (v := v) hc hw hw' hrem
    refine ⟨item :: items, a :: more, _, .cons hv hitems, ?_, by simp, hrem', by simp⟩
    intro j hj
    rcases List.mem_cons.mp hj with rfl | hj
    · exact hi
    · exact hspaced j hj

/-- An item that comes next is found and read. -/
theorem nextElement_item {first : Bool} {item : Item} {ps : List Bytes} {inside : Bytes}
    (rest : Bytes) (hv : Value item.value) (hi : item.Spaced)
    (h : Remaining first (item.text :: ps) inside) :
    ∃ after, Remaining false ps after ∧
      nextElement first (inside ++ 0x5D :: rest) =
        .ok (.part () (item.value ++ (after ++ 0x5D :: rest))) := by
  obtain ⟨comma, hc, rfl⟩ := h
  obtain ⟨b, u, hbu, hn, hne⟩ := hv.first
  refine ⟨item.after ++ further ps, remaining_false_iff.mpr ⟨_, hi.2, rfl⟩, ?_⟩
  have := nextElement_part_complete (u ++ (item.after ++ further ps ++ 0x5D :: rest)) hc hi.1 hn hne
  rw [hbu, List.cons_append, ← this]
  simp [Item.text, hbu]

/-- Items that are taken are read, and leave what remains of the array behind them. -/
theorem elements_listed {α : Type} {r : Reader α} {items more : List Item}
    {as : List α} (h : Listed r.Takes items as) (hspaced : ∀ i ∈ items, i.Spaced) (i : Nat)
    (done : List α) {inside : Bytes} (rest : Bytes)
    (hrem : Remaining (i == 0) ((items ++ more).map Item.text) inside) :
    ∃ inside', Remaining (i + items.length == 0) (more.map Item.text) inside' ∧
      elements r i done (inside ++ 0x5D :: rest) =
        elements r (i + items.length) (as.reverse ++ done) (inside' ++ 0x5D :: rest) := by
  induction h generalizing i done inside with
  | nil => exact ⟨inside, hrem, rfl⟩
  | @cons item a items as hv _ ih =>
    obtain ⟨after, hafter, hnext⟩ := nextElement_item rest hv.1
      (hspaced item (by simp)) hrem
    have hstops : Stops (after ++ 0x5D :: rest) := hafter.stops (c := .array) rest
    obtain ⟨inside', hinside, helements⟩ := ih (fun j hj => hspaced j (by simp [hj])) (i + 1)
      (a :: done) hafter
    rw [List.length_cons, ← Nat.add_assoc, Nat.add_right_comm, List.reverse_cons, List.append_assoc]
    refine ⟨inside', hinside, ?_⟩
    rw [elements_eq, hnext]
    dsimp only
    rw [element_complete i hv hstops]
    exact helements

/-- The loop over the items, forwards, by induction over the items. The index only serves to tell
    the first item from the others, and to name a fault. -/
theorem elements_complete {α : Type} {r : Reader α} {items : List Item}
    {as : List α} (h : Listed r.Takes items as) (hspaced : ∀ i ∈ items, i.Spaced) (i : Nat)
    (done : List α) {inside : Bytes} (rest : Bytes)
    (hrem : Remaining (i == 0) (items.map Item.text) inside) :
    elements r i done (inside ++ 0x5D :: rest) = .ok (done.reverse ++ as, rest) := by
  rw [← List.append_nil items] at hrem
  obtain ⟨w, hw, helements⟩ := elements_listed h hspaced i done rest hrem
  rw [helements, elements_eq, nextElement_done_iff.mpr ⟨w, hw, rfl⟩, List.reverse_append,
    List.reverse_reverse]

/-- An array whose items are written forms of these values. -/
def ArrayForm {α : Type} (form : Bytes → α → Prop) (v : Bytes) (as : List α) : Prop :=
  ∃ items, Grammar.Array items v ∧ Listed form items as

/-- An array is read exactly when its items are, one after another. -/
theorem array_reads_writes {α : Type} {r : Reader α} (hr : r.Exact) :
    r.array.Reads (ArrayForm r.Writes) := by
  refine Reader.reads_ofHead (fun ⟨_, h, _⟩ => h.value) ?_ ?_
  · intro b s as rest h
    unfold arrayHead at h
    split at h
    · rename_i hb
      subst hb
      obtain ⟨items, more, inside, hitems, hspaced, rfl, hrem, rfl⟩ := elements_sound hr h
      exact ⟨_, ⟨items, ⟨fun i hi => ⟨hspaced i hi, hitems.value i hi⟩, inside,
        remaining_true_iff.mp hrem, rfl⟩, hitems⟩, by simp⟩
    · cases h
  · rintro b u rest as ⟨items, ⟨hi, inside, hinside, hbu⟩, hitems⟩ -
    rw [List.cons_append, List.cons.injEq] at hbu
    obtain ⟨rfl, rfl⟩ := hbu
    have := elements_complete (hitems.takes hr) (fun i h => (hi i h).1) 0 [] rest
      (remaining_true_iff.mpr hinside)
    rw [arrayHead, if_pos rfl, List.append_assoc]
    exact this

/-- The written forms of an array come from those of its items. -/
theorem array_reads {α : Type} {r : Reader α} {form : Bytes → α → Prop} (hr : r.Reads form) :
    r.array.Reads (ArrayForm form) := by
  have h := array_reads_writes hr.exact
  have hform : r.Writes = form := by
    funext v a
    exact propext hr.writes_iff
  rwa [hform] at h

/-! ## Whole texts -/

/-- Behind the value, nothing but white space is allowed. -/
theorem endOfText_ok_iff {s : Bytes} : endOfText s = .ok () ↔ Blank s := by
  unfold endOfText
  rw [← skipBlank_eq_nil_iff]
  split
  · rename_i h
    simp [h]
  · rename_i h
    simp [h]

/-- A whole text is read exactly when it is one value with white space around it. -/
theorem Reader.Exact.readWhole_ok_iff {α : Type} {r : Reader α} (hr : r.Exact) {s : Bytes}
    {a : α} : r.readWhole s = .ok a ↔ ∃ v, r.Writes v a ∧ Text v s := by
  unfold Reader.readWhole
  constructor
  · intro h
    split at h
    · cases h
    rename_i b rest hrun
    split at h
    · cases h
    rename_i hend
    cases h
    obtain ⟨w, v, hw, hv, rfl⟩ := hr.sound hrun
    exact ⟨v, hv, w, rest, hw, endOfText_ok_iff.mp hend, rfl⟩
  · rintro ⟨v, hv, w, rest, hw, hrest, rfl⟩
    rw [hr.complete hw hv hrest.stops]
    dsimp only
    rw [endOfText_ok_iff.mpr hrest]

end PlatformClient.Json
