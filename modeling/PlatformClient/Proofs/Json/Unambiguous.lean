/-
  The grammar is unambiguous: a text is an object of these members, or an array of these items, in
  one way only.

  Each kind of part is recognised from the front.  White space ends where it ends; a value and a
  name end where the loop that passes over them stops, and that loop is a function.  What follows a
  part starts with a comma or closes its container, so that nothing there continues the part.
-/
import PlatformClient.Proofs.Json.Reading

namespace PlatformClient.Json

open Grammar

/-- A container goes on or ends here. -/
def Ends (t : Bytes) : Prop := ∃ b ∈ [0x2C, 0x5D, 0x7D], t.head? = some b

/-- A part ends at a comma or at the closing byte. -/
theorem ends_further (c : Container) (parts : List Bytes) (rest : Bytes) :
    Ends (further parts ++ c.closer :: rest) := by
  cases parts with
  | nil => cases c <;> exact ⟨_, by decide, rfl⟩
  | cons p ps =>
    rw [further_cons]
    exact ⟨0x2C, by decide, rfl⟩

theorem Ends.not_blank {t : Bytes} (h : Ends t) : ∀ b ∈ t.head?, isBlank b = false := by
  obtain ⟨c, hc, ht⟩ := h
  intro b hb
  rw [ht] at hb
  cases hb
  simp only [List.mem_cons, List.not_mem_nil, or_false] at hc
  rcases hc with rfl | rfl | rfl <;> decide

/-- Also with white space in front, what ends a part stops a value. -/
theorem Ends.stops {w t : Bytes} (h : Ends t) (hw : Blank w) : Stops (w ++ t) := by
  obtain ⟨c, hc, ht⟩ := h
  intro b hb
  cases w with
  | cons a w => exact hw.stops b hb
  | nil =>
    rw [List.nil_append, ht] at hb
    cases hb
    simp only [List.mem_cons, List.not_mem_nil, or_false] at hc
    rcases hc with rfl | rfl | rfl <;> decide

/-! ## Parts recognised from the front -/

/-- What starts with another byte does not start with white space. -/
theorem not_blank_cons {b : UInt8} {s : Bytes} (hb : isBlank b = false) :
    ∀ c ∈ (b :: s).head?, isBlank c = false := by
  rintro c ⟨⟩
  exact hb

/-- White space ends where something else begins. -/
theorem Grammar.Blank.unique {w w' s s' : Bytes} (hw : Blank w) (hw' : Blank w')
    (hs : ∀ b ∈ s.head?, isBlank b = false) (hs' : ∀ b ∈ s'.head?, isBlank b = false)
    (h : w ++ s = w' ++ s') : w = w' ∧ s = s' := by
  have hww : w = w' := by
    rw [← takeWhile_run hw hs, h, takeWhile_run hw' hs']
  subst hww
  exact ⟨rfl, List.append_cancel_left h⟩

/-- No value begins with white space. -/
theorem Grammar.Value.not_blank {v u : Bytes} (hv : Value v) :
    ∀ b ∈ (v ++ u).head?, isBlank b = false := by
  intro b hb
  obtain ⟨c, s, rfl, hc, -⟩ := hv.first
  cases hb
  exact hc

/-- The same bytes cannot be read as two values of different lengths. The reader that skips values
    decides it: both are skipped, and it stops in one place. -/
theorem Grammar.Value.unique {v v' s s' : Bytes} (hv : Value v) (hv' : Value v') (hs : Stops s)
    (hs' : Stops s') (h : v ++ s = v' ++ s') : v = v' ∧ s = s' := by
  have h1 := skipValue_complete blank_nil hv hs
  have h2 := skipValue_complete blank_nil hv' hs'
  rw [List.nil_append] at h1 h2
  rw [h, h2] at h1
  cases h1
  exact ⟨List.append_cancel_right h, rfl⟩

/-- Likewise a text ends at one quote only. -/
theorem Grammar.Spelled.unique {n n' s s' : Bytes} (hn : Spelled n) (hn' : Spelled n')
    (h : n ++ 0x22 :: s = n' ++ 0x22 :: s') : n = n' ∧ s = s' := by
  have h1 : skipText (n ++ 0x22 :: s) = .ok s := skipText_ok_iff.mpr ⟨n, hn, rfl⟩
  have h2 : skipText (n' ++ 0x22 :: s') = .ok s' := skipText_ok_iff.mpr ⟨n', hn', rfl⟩
  rw [h, h2] at h1
  cases h1
  exact ⟨List.append_cancel_right h, rfl⟩

/-- An item is its white space and its value, each fixed. -/
theorem Grammar.Item.unique {i j : Item} {t t' : Bytes} (hi : i.Spaced ∧ Value i.value)
    (hj : j.Spaced ∧ Value j.value) (ht : Ends t) (ht' : Ends t')
    (h : i.text ++ t = j.text ++ t') : i = j ∧ t = t' := by
  obtain ⟨wi, vi, ui⟩ := i
  obtain ⟨wj, vj, uj⟩ := j
  obtain ⟨⟨hwi, hui⟩, hvi⟩ := hi
  obtain ⟨⟨hwj, huj⟩, hvj⟩ := hj
  simp only [Item.text, List.append_assoc] at h
  obtain ⟨rfl, h1⟩ := Blank.unique hwi hwj hvi.not_blank hvj.not_blank h
  obtain ⟨rfl, h2⟩ := Value.unique hvi hvj (ht.stops hui) (ht'.stops huj) h1
  obtain ⟨rfl, h3⟩ := Blank.unique hui huj ht.not_blank ht'.not_blank h2
  exact ⟨rfl, h3⟩

/-- A member is fixed by its bytes, its name's spelling included. -/
theorem Grammar.Member.unique {m n : Member} {t t' : Bytes}
    (hm : m.Spaced ∧ Spelled m.name ∧ Value m.item.value)
    (hn : n.Spaced ∧ Spelled n.name ∧ Value n.item.value) (ht : Ends t) (ht' : Ends t')
    (h : m.text ++ t = n.text ++ t') : m = n ∧ t = t' := by
  obtain ⟨wm, am, um, im⟩ := m
  obtain ⟨wn, an, un, jn⟩ := n
  obtain ⟨⟨hwm, hum, him⟩, ham, hvm⟩ := hm
  obtain ⟨⟨hwn, hun, hjn⟩, han, hvn⟩ := hn
  have hquote : isBlank 0x22 = false := by decide
  have hcolon : isBlank 0x3A = false := by decide
  simp only [Member.text, List.append_assoc, List.cons_append] at h
  obtain ⟨rfl, h1⟩ := Blank.unique hwm hwn (not_blank_cons hquote) (not_blank_cons hquote) h
  obtain ⟨rfl, h2⟩ := Spelled.unique ham han (List.cons.inj h1).2
  obtain ⟨rfl, h3⟩ := Blank.unique hum hun (not_blank_cons hcolon) (not_blank_cons hcolon) h2
  obtain ⟨rfl, h4⟩ := Item.unique ⟨him, hvm⟩ ⟨hjn, hvn⟩ ht ht' (List.cons.inj h3).2
  exact ⟨rfl, h4⟩

/-! ## Containers -/

section Containers

variable {α : Type} {text : α → Bytes} (good : α → Prop) {c : Container}

/-- Parts behind the first are the same where their bytes are, by induction over one of the lists:
    at each step the comma or the closing byte says whether a further part follows. -/
theorem further_unique
    (one : ∀ {a b : α} {t t' : Bytes}, good a → good b → Ends t → Ends t' →
      text a ++ t = text b ++ t' → a = b ∧ t = t')
    {as bs : List α} (ha : ∀ a ∈ as, good a) (hb : ∀ b ∈ bs, good b) {s s' : Bytes}
    (h : further (as.map text) ++ c.closer :: s = further (bs.map text) ++ c.closer :: s') :
    as = bs ∧ s = s' := by
  have hne : c.closer ≠ 0x2C := by cases c <;> decide
  induction as generalizing bs with
  | nil =>
    cases bs with
    | nil => exact ⟨rfl, (List.cons.inj h).2⟩
    | cons b bs =>
      rw [List.map_cons, further_cons] at h
      -- one side ends where the other has a comma
      exact absurd (List.cons.inj h).1 hne
  | cons a as ih =>
    cases bs with
    | nil =>
      rw [List.map_cons, further_cons] at h
      exact absurd (List.cons.inj h).1.symm hne
    | cons b bs =>
      simp only [List.map_cons, further_cons, List.cons_append, List.append_assoc] at h
      obtain ⟨rfl, h1⟩ := one (ha a (by simp)) (hb b (by simp)) (ends_further c _ s)
        (ends_further c _ s') (List.cons.inj h).2
      obtain ⟨rfl, h2⟩ := ih (fun x hx => ha x (by simp [hx])) (fun x hx => hb x (by simp [hx])) h1
      exact ⟨rfl, h2⟩

/-- A container without parts does not go on like one that has some. -/
theorem blank_ne_separated (first : ∀ {a : α}, good a → Part Value c (text a)) {a : α}
    (ha : good a) (as : List α) {w : Bytes} (hw : Blank w) :
    w ++ [c.closer] ≠ separated ((a :: as).map text) ++ [c.closer] := by
  intro heq
  obtain ⟨w', b, u, hu, hw', hb, hne, -⟩ := (first ha).trim fun _ h => h
  rw [List.map_cons, separated_cons, hu, List.append_assoc, List.append_assoc] at heq
  have hclose : isBlank c.closer = false := by cases c <;> decide
  obtain ⟨-, h⟩ := Blank.unique hw hw' (not_blank_cons hclose) (not_blank_cons hb) heq
  exact hne (List.cons.inj h).1.symm

/-- So are all parts of a container. The first needs a case of its own: an empty container has only
    white space. -/
theorem inside_unique
    (one : ∀ {a b : α} {t t' : Bytes}, good a → good b → Ends t → Ends t' →
      text a ++ t = text b ++ t' → a = b ∧ t = t')
    (first : ∀ {a : α}, good a → Part Value c (text a))
    {as bs : List α} (ha : ∀ a ∈ as, good a) (hb : ∀ b ∈ bs, good b) {s s' : Bytes}
    (hs : Inside (as.map text) s) (hs' : Inside (bs.map text) s')
    (h : s ++ [c.closer] = s' ++ [c.closer]) : as = bs := by
  rcases hs with ⟨hnil, hw⟩ | ⟨hne, rfl⟩
  · -- without parts on one side there are none on the other
    obtain rfl := List.map_eq_nil_iff.mp hnil
    rcases hs' with ⟨hnil', -⟩ | ⟨hne', rfl⟩
    · exact (List.map_eq_nil_iff.mp hnil').symm
    · obtain ⟨b, bs, rfl⟩ := List.exists_cons_of_ne_nil (by simpa using hne')
      exact absurd h (blank_ne_separated good first (hb b (by simp)) bs hw)
  · obtain ⟨a, as, rfl⟩ := List.exists_cons_of_ne_nil (by simpa using hne)
    rcases hs' with ⟨hnil', hw⟩ | ⟨hne', rfl⟩
    · obtain rfl := List.map_eq_nil_iff.mp hnil'
      exact absurd h.symm (blank_ne_separated good first (ha a (by simp)) as hw)
    · obtain ⟨b, bs, rfl⟩ := List.exists_cons_of_ne_nil (by simpa using hne')
      simp only [List.map_cons, separated_cons, List.append_assoc] at h
      obtain ⟨rfl, h1⟩ := one (ha a (by simp)) (hb b (by simp)) (ends_further c _ [])
        (ends_further c _ []) h
      obtain ⟨rfl, -⟩ := further_unique good one (fun x hx => ha x (by simp [hx]))
        (fun x hx => hb x (by simp [hx])) h1
      rfl

end Containers

/-- An array has its items in one way. -/
theorem Grammar.Array.unique {items items' : List Item} {v : Bytes} (h : Grammar.Array items v)
    (h' : Grammar.Array items' v) : items = items' := by
  obtain ⟨hi, inside, hinside, rfl⟩ := h
  obtain ⟨hi', inside', hinside', heq⟩ := h'
  rw [List.cons_append, List.cons_append, List.cons.injEq] at heq
  exact inside_unique (c := .array) (fun i : Item => i.Spaced ∧ Value i.value) Item.unique
    (fun {i} hi => ⟨i, hi.1, hi.2, rfl⟩) hi hi' hinside hinside' heq.2

/-- An object has its members in one way. -/
theorem Grammar.Object.unique {members members' : List Member} {v : Bytes}
    (h : Object members v) (h' : Object members' v) : members = members' := by
  obtain ⟨hm, inside, hinside, rfl⟩ := h
  obtain ⟨hm', inside', hinside', heq⟩ := h'
  rw [List.cons_append, List.cons_append, List.cons.injEq] at heq
  exact inside_unique (c := .object)
    (fun m : Member => m.Spaced ∧ Spelled m.name ∧ Value m.item.value) Member.unique
    (fun {m} hm => ⟨m, hm.1, hm.2.1, hm.2.2, rfl⟩) hm hm' hinside hinside' heq.2

/-- No object is the front of another one. -/
theorem Grammar.Object.unique_front {members members' : List Member} {v v' s s' : Bytes}
    (h : Object members v) (h' : Object members' v') (heq : v ++ s = v' ++ s') :
    v = v' ∧ s = s' := by
  have h1 := h.closes [] [] s blank_nil
  have h2 := h'.closes [] [] s' blank_nil
  rw [List.nil_append, skipFrom_nil] at h1 h2
  rw [heq, h2] at h1
  cases h1
  exact ⟨List.append_cancel_right heq, rfl⟩

/-- A whole text has its value in one way. -/
theorem Grammar.Text.unique {v v' s : Bytes} (hv : Value v) (hv' : Value v') (h : Text v s)
    (h' : Text v' s) : v = v' := by
  obtain ⟨w, u, hw, hu, rfl⟩ := h
  obtain ⟨w', u', hw', hu', heq⟩ := h'
  rw [List.append_assoc, List.append_assoc] at heq
  obtain ⟨-, h1⟩ := Blank.unique hw hw' hv.not_blank hv'.not_blank heq
  exact (Value.unique hv hv' hu.stops hu'.stops h1).1

end PlatformClient.Json
