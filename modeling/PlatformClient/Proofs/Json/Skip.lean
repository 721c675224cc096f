/-
  Values that are passed over are exactly the values of the grammar, at any depth.

  1. **Parts.**  Arrays and objects are handled alike: what stands between two commas of a container
     is a `Part`, an item or a member.
  2. **Soundness.**  The loop keeps the open containers on a list.  However long that list is, the
     loop first takes one value and then goes on behind it (`skipFrom_sound`), by induction on the
     bytes that are left.
  3. **Completeness.**  A value in front makes the loop go on behind it, by induction on the value
     (`skipFrom_value`), and inside it on the parts of a container (`skipFrom_parts`).
-/
import PlatformClient.Json.Skip
import PlatformClient.Proofs.Json.Text

namespace PlatformClient.Json

open Grammar

/-! ## First bytes -/

/-- A digit is no other byte that a reader looks for at the front of a value. -/
theorem digit_first {b : UInt8} (h : isDigit b = true) :
    isBlank b = false ∧ opens? b = none ∧ ∀ c ∈ [0x6E, 0x74, 0x66, 0x2D, 0x5D], b ≠ c := by
  have hb : 0x30 ≤ b ∧ b ≤ 0x39 := by simpa [isDigit] using h
  refine ⟨?_, ?_, ?_⟩
  · simp only [isBlank, Bool.or_eq_false_iff, decide_eq_false_iff_not]
    refine ⟨⟨⟨?_, ?_⟩, ?_⟩, ?_⟩ <;> rintro rfl <;> exact absurd h (by decide)
  · rw [opens?, if_neg (by rintro rfl; exact absurd h (by decide)),
      if_neg (by rintro rfl; exact absurd h (by decide))]
  · simp only [List.mem_cons, List.not_mem_nil, or_false]
    rintro c (rfl | rfl | rfl | rfl | rfl) rfl <;> exact absurd h (by decide)

theorem Unsigned.first {s : Bytes} (h : Unsigned s) : ∃ b u, s = b :: u ∧ isDigit b = true := by
  obtain ⟨w, f, e, hw, -, -, rfl⟩ := h
  obtain ⟨b, t, rfl, hb⟩ := hw.exists_cons
  exact ⟨b, t ++ f ++ e, rfl, hb⟩

/-! ## Parts of containers -/

/-- The byte that opens a container. -/
def Container.opener : Container → UInt8
  | .array => 0x5B
  | .object => 0x7B

/-- What may stand between two commas of a container, with values of which `P` holds. -/
def Part (P : Bytes → Prop) : Container → Bytes → Prop
  | .array, p => ∃ i : Item, i.Spaced ∧ P i.value ∧ p = i.text
  | .object, p => ∃ m : Member, m.Spaced ∧ Spelled m.name ∧ P m.item.value ∧ p = m.text

/-- Further parts of a container, each behind its comma. -/
def further (parts : List Bytes) : Bytes := parts.flatMap (0x2C :: ·)

theorem separated_cons (p : Bytes) (ps : List Bytes) : separated (p :: ps) = p ++ further ps := by
  induction ps generalizing p with
  | nil => simp [separated, further, List.intercalate]
  | cons q qs ih =>
    have h : separated (p :: q :: qs) = p ++ 0x2C :: separated (q :: qs) := by
      simp [separated, List.intercalate]
    rw [h, ih]
    simp [further]

theorem further_cons (p : Bytes) (ps : List Bytes) :
    further (p :: ps) = 0x2C :: (p ++ further ps) := by
  simp [further]

/-- What has a preimage one by one has a list of preimages. -/
theorem exists_map {α β : Type} {f : α → β} {P : α → Prop} {bs : List β}
    (h : ∀ b ∈ bs, ∃ a, P a ∧ b = f a) : ∃ as : List α, bs = as.map f ∧ ∀ a ∈ as, P a := by
  induction bs with
  | nil => exact ⟨[], rfl, by simp⟩
  | cons b bs ih =>
    obtain ⟨a, ha, rfl⟩ := h b (by simp)
    obtain ⟨as, rfl, has⟩ := ih fun c hc => h c (by simp [hc])
    exact ⟨a :: as, rfl, by simpa using ⟨ha, has⟩⟩

/-- A container with well-formed parts is a value. -/
theorem value_of_parts {c : Container} (parts : List Bytes) {inside : Bytes}
    (hp : ∀ p ∈ parts, Part Value c p) (hi : Inside parts inside) :
    Value (c.opener :: inside ++ [c.closer]) := by
  cases c with
  | array =>
    obtain ⟨items, rfl, h⟩ := exists_map (P := fun i : Item => i.Spaced ∧ Value i.value)
      (fun p hpm => by obtain ⟨i, hs, hv, rfl⟩ := hp p hpm; exact ⟨i, ⟨hs, hv⟩, rfl⟩)
    exact Array.value ⟨h, inside, hi, rfl⟩
  | object =>
    obtain ⟨members, rfl, h⟩ := exists_map
      (P := fun m : Member => m.Spaced ∧ Spelled m.name ∧ Value m.item.value)
      (fun p hpm => by
        obtain ⟨m, hs, hn, hv, rfl⟩ := hp p hpm
        exact ⟨m, ⟨hs, hn, hv⟩, rfl⟩)
    exact Object.value ⟨h, inside, hi, rfl⟩

/-- White space may be added in front of a part. -/
theorem Part.blank_append {P : Bytes → Prop} {c : Container} {w p : Bytes} (hw : Blank w)
    (hp : Part P c p) : Part P c (w ++ p) := by
  cases c with
  | array =>
    obtain ⟨i, hs, hv, rfl⟩ := hp
    exact ⟨⟨w ++ i.before, i.value, i.after⟩, ⟨hw.append hs.1, hs.2⟩, hv, by simp [Item.text]⟩
  | object =>
    obtain ⟨m, hs, hn, hv, rfl⟩ := hp
    exact ⟨⟨w ++ m.before, m.name, m.between, m.item⟩, ⟨hw.append hs.1, hs.2⟩, hn, hv,
      by simp [Member.text]⟩

/-- A part stays one when more is allowed of its value. -/
theorem Part.mono {P Q : Bytes → Prop} (h : ∀ v, P v → Q v) {c : Container} {p : Bytes}
    (hp : Part P c p) : Part Q c p := by
  cases c with
  | array =>
    obtain ⟨i, hs, hv, rfl⟩ := hp
    exact ⟨i, hs, h _ hv, rfl⟩
  | object =>
    obtain ⟨m, hs, hn, hv, rfl⟩ := hp
    exact ⟨m, hs, hn, h _ hv, rfl⟩

/-- A value starts with a byte that is neither white space nor the end of an array. -/
theorem Grammar.Value.first {v : Bytes} (h : Value v) :
    ∃ b u, v = b :: u ∧ isBlank b = false ∧ b ≠ 0x5D := by
  cases h with
  | word h =>
    simp only [List.mem_cons, Prod.mk.injEq, List.not_mem_nil, or_false] at h
    rcases h with ⟨rfl, rfl⟩ | ⟨rfl, rfl⟩ | ⟨rfl, rfl⟩ <;> exact ⟨_, _, rfl, by decide, by decide⟩
  | numeral h =>
    rcases numeral_iff.mp h with hu | ⟨t, -, rfl⟩
    · obtain ⟨b, u, rfl, hb⟩ := hu.first
      obtain ⟨hblank, -, hne⟩ := digit_first hb
      exact ⟨b, u, rfl, hblank, hne 0x5D (by simp)⟩
    · exact ⟨0x2D, t, rfl, by decide, by decide⟩
  | text => exact ⟨_, _, rfl, by decide, by decide⟩
  | emptyArray => exact ⟨_, _, rfl, by decide, by decide⟩
  | array => exact ⟨_, _, rfl, by decide, by decide⟩
  | emptyObject => exact ⟨_, _, rfl, by decide, by decide⟩
  | object => exact ⟨_, _, rfl, by decide, by decide⟩

/-- Behind its leading white space a part starts with a byte that does not close its container. -/
theorem Part.trim {P : Bytes → Prop} (first : ∀ v, P v → Value v) {c : Container} {p : Bytes}
    (hp : Part P c p) :
    ∃ w b u, p = w ++ b :: u ∧ Blank w ∧ isBlank b = false ∧ b ≠ c.closer ∧ Part P c (b :: u) := by
  cases c with
  | array =>
    obtain ⟨i, hs, hv, rfl⟩ := hp
    obtain ⟨b, u, hbu, hb, hne⟩ := (first _ hv).first
    exact ⟨i.before, b, u ++ i.after, by simp [Item.text, hbu], hs.1, hb, hne,
      ⟨[], i.value, i.after⟩, ⟨blank_nil, hs.2⟩, hv, by simp [Item.text, hbu]⟩
  | object =>
    obtain ⟨m, hs, hn, hv, rfl⟩ := hp
    exact ⟨m.before, 0x22, m.name ++ 0x22 :: m.between ++ 0x3A :: m.item.text,
      by simp [Member.text], hs.1, by decide, by decide, ⟨[], m.name, m.between, m.item⟩,
      ⟨blank_nil, hs.2⟩, hn, hv, by simp [Member.text]⟩

/-! ## One step of the loop -/

/-- One round at a value: it is skipped at once, or a container is opened, in which case the next
    round is at its first part. -/
theorem skipFrom_value_eq (outer : List Container) (s : Bytes) :
    skipFrom true outer s =
      match skipBlank s with
      | [] => .error (.peek .endInValue [])
      | b :: rest =>
        match opens? b with
        | none => (skipScalar b rest).bind (skipFrom false outer)
        | some c =>
          match skipBlank rest with
          | [] => .error (.peek c.ended [])
          | d :: rest' =>
            if d = c.closer then skipFrom false outer rest'
            else (skipLabel c (d :: rest')).bind (skipFrom true (c :: outer)) := by
  -- the loop is by well-founded recursion, so its equation is unfolded once, branch by branch
  rw [skipFrom.eq_def, if_pos rfl]
  cases skipBlank s with
  | nil => rfl
  | cons b rest =>
    dsimp only
    cases opens? b with
    | none =>
      dsimp only
      cases skipScalar b rest <;> rfl
    | some c =>
      dsimp only
      cases skipBlank rest with
      | nil => rfl
      | cons d rest' =>
        dsimp only
        by_cases hd : d = c.closer
        · rw [if_pos hd, if_pos hd]
        · rw [if_neg hd, if_neg hd]
          cases skipLabel c (d :: rest') <;> rfl

theorem skipFrom_nil (s : Bytes) : skipFrom false [] s = .ok s := by
  rw [skipFrom.eq_def, if_neg (by decide)]

/-- One round behind a value: a comma leads to the next part, a closing byte out of the container.
    The stack of containers that are still open is what a recursive skipper would keep on the call
    stack. -/
theorem skipFrom_close_eq (c : Container) (outer : List Container) (s : Bytes) :
    skipFrom false (c :: outer) s =
      match skipBlank s with
      | [] => .error (.peek c.ended [])
      | b :: rest =>
        if b = 0x2C then (skipLabel c rest).bind (skipFrom true (c :: outer))
        else if b = c.closer then skipFrom false outer rest
        else .error (.peek c.unseparated (b :: rest)) := by
  rw [skipFrom.eq_def, if_neg (by decide)]
  cases skipBlank s with
  | nil => rfl
  | cons b rest =>
    dsimp only
    by_cases hb : b = 0x2C
    · rw [if_pos hb, if_pos hb]
      cases skipLabel c rest <;> rfl
    · rw [if_neg hb, if_neg hb]

/-! ## Labels and scalars -/

/-- What is passed over before a value makes the value a part. -/
theorem skipLabel_sound {c : Container} {s rest : Bytes} (h : skipLabel c s = .ok rest) :
    ∃ label, s = label ++ rest ∧ ∀ (P : Bytes → Prop) (w v w' : Bytes), Blank w → P v → Blank w' →
      Part P c (label ++ w ++ v ++ w') := by
  unfold skipLabel at h
  split at h
  · -- an item has no label
    cases h
    exact ⟨[], rfl, fun P w v w' hw hv hw' => ⟨⟨w, v, w'⟩, ⟨hw, hw'⟩, hv, rfl⟩⟩
  · -- a member has white space, its name in quotes, white space and a colon
    split at h
    · cases h
    rename_i b t hb
    split at h
    · cases h
    rename_i hq
    simp only [ne_eq, Decidable.not_not] at hq
    subst hq
    split at h
    · cases h
    rename_i u hu
    obtain ⟨name, hn, rfl⟩ := skipText_ok_iff.mp hu
    split at h
    · cases h
    rename_i d v hd
    split at h
    · rename_i hcolon
      subst hcolon
      -- an item has no label
      cases h
      obtain ⟨-, before, hbefore, rfl⟩ := skipBlank_eq_cons_iff.mp hb
      obtain ⟨-, between, hbetween, rfl⟩ := skipBlank_eq_cons_iff.mp hd
      refine ⟨before ++ 0x22 :: name ++ 0x22 :: between ++ [0x3A], by simp, ?_⟩
      intro P w x w' hw hx hw'
      exact ⟨⟨before, name, between, ⟨w, x, w'⟩⟩, ⟨hbefore, hbetween, hw, hw'⟩, hn, hx,
        by simp [Member.text, Item.text]⟩
    · cases h

/-- A part is a label that is passed over, and a value with white space around it. -/
theorem skipLabel_complete {P : Bytes → Prop} {c : Container} {p : Bytes} (h : Part P c p) :
    ∃ label w v w', p = label ++ (w ++ v ++ w') ∧ Blank w ∧ P v ∧ Blank w' ∧
      ∀ rest, skipLabel c (label ++ rest) = .ok rest := by
  cases c with
  | array =>
    obtain ⟨i, hs, hv, rfl⟩ := h
    exact ⟨[], i.before, i.value, i.after, rfl, hs.1, hv, hs.2, fun rest => rfl⟩
  | object =>
    obtain ⟨m, ⟨hb, hm, hi⟩, hn, hv, rfl⟩ := h
    -- the label of a member ends with its colon
    refine ⟨m.before ++ 0x22 :: m.name ++ 0x22 :: m.between ++ [0x3A], m.item.before,
      m.item.value, m.item.after, by simp [Member.text, Item.text], hi.1, hv, hi.2, ?_⟩
    intro rest
    have h1 : skipBlank (m.before ++ 0x22 :: m.name ++ 0x22 :: m.between ++ [0x3A] ++ rest) =
        0x22 :: (m.name ++ 0x22 :: (m.between ++ 0x3A :: rest)) :=
      skipBlank_eq_cons_iff.mpr ⟨by decide, m.before, hb, by simp⟩
    have h2 : skipText (m.name ++ 0x22 :: (m.between ++ 0x3A :: rest)) =
        .ok (m.between ++ 0x3A :: rest) := skipText_ok_iff.mpr ⟨m.name, hn, rfl⟩
    have h3 : skipBlank (m.between ++ 0x3A :: rest) = 0x3A :: rest :=
      skipBlank_eq_cons_iff.mpr ⟨by decide, m.between, hm, rfl⟩
    rw [skipLabel, h1]
    simp only [ne_eq, not_true, if_false]
    rw [h2]
    simp only
    rw [h3]
    rfl

/-- A value that is no container and that is skipped is a value of the grammar. -/
theorem skipScalar_sound {b : UInt8} {s rest : Bytes} (h : skipScalar b s = .ok rest) :
    ∃ v, Value v ∧ b :: s = v ++ rest := by
  unfold skipScalar at h
  split at h
  · -- the three words, each known by its first byte
    rename_i hb
    subst hb
    rw [word_ok_iff.mp h]
    exact ⟨0x6E :: nullTail, .word (by simp), rfl⟩
  split at h
  · rename_i hb
    subst hb
    rw [word_ok_iff.mp h]
    exact ⟨0x74 :: trueTail, .word (by simp), rfl⟩
  split at h
  · rename_i hb
    subst hb
    rw [word_ok_iff.mp h]
    exact ⟨0x66 :: falseTail, .word (by simp), rfl⟩
  split at h
  · -- a number behind its minus
    rename_i hb
    subst hb
    obtain ⟨form, hf, rfl⟩ := skipNumber_sound h
    exact ⟨0x2D :: form, .numeral (numeral_iff.mpr (.inr ⟨form, hf, rfl⟩)), rfl⟩
  split at h
  · obtain ⟨form, hf, hs⟩ := skipNumber_sound h
    exact ⟨form, .numeral (numeral_iff.mpr (.inl hf)), hs⟩
  split at h
  · -- a text behind its quote
    rename_i hb
    subst hb
    obtain ⟨form, hf, rfl⟩ := skipText_ok_iff.mp h
    exact ⟨0x22 :: form ++ [0x22], .text hf, by simp⟩
  · cases h

/-! ## Soundness -/

theorem opens?_eq {b : UInt8} {c : Container} (h : opens? b = some c) : b = c.opener := by
  unfold opens? at h
  split at h
  · cases h; assumption
  split at h
  · cases h; assumption
  · cases h

/-- What is left of a text is a value with white space in front, and the loop goes on behind it. -/
def TakesValue (outer : List Container) (s rest : Bytes) : Prop :=
  ∃ w v t, Blank w ∧ Value v ∧ s = w ++ v ++ t ∧ skipFrom false outer t = .ok rest

/-- What is left of a text is these parts of a container, each with the comma in front, and its end;
    and the loop goes on behind it. -/
def TakesParts (c : Container) (outer : List Container) (lead : Bytes) (parts : List Bytes)
    (s rest : Bytes) : Prop :=
  ∃ t, (∀ p ∈ parts, Part Value c p) ∧ s = lead ++ further parts ++ c.closer :: t ∧
    skipFrom false outer t = .ok rest

/-- The loop is sound on texts of at most this length. -/
structure SkipsSoundly (n : Nat) : Prop where
  value : ∀ {outer : List Container} {s rest : Bytes}, s.length ≤ n →
    skipFrom true outer s = .ok rest → TakesValue outer s rest
  parts : ∀ {c : Container} {outer : List Container} {s rest : Bytes}, s.length ≤ n →
    skipFrom false (c :: outer) s = .ok rest →
      ∃ w parts, Blank w ∧ TakesParts c outer w parts s rest

/-- White space behind the opening byte belongs to the first part. -/
theorem value_of_first {c : Container} {w p : Bytes} {parts : List Bytes} (hw : Blank w)
    (hp : Part Value c p) (hparts : ∀ q ∈ parts, Part Value c q) :
    Value (c.opener :: (w ++ p ++ further parts) ++ [c.closer]) := by
  have hall : ∀ q ∈ (w ++ p) :: parts, Part Value c q :=
    List.forall_mem_cons.mpr ⟨hp.blank_append hw, hparts⟩
  rw [← separated_cons]
  exact value_of_parts _ hall (.inr ⟨List.cons_ne_nil _ _, rfl⟩)

/-- A part, from its label on, and what is left of the container behind it. -/
theorem skipLabel_parts {n : Nat} (ih : ∀ m < n, SkipsSoundly m) {c : Container}
    {outer : List Container} {s t rest : Bytes} (hs : s.length < n) (hl : skipLabel c s = .ok t)
    (hv : skipFrom true (c :: outer) t = .ok rest) :
    ∃ p parts, Part Value c p ∧ TakesParts c outer p parts s rest := by
  obtain ⟨label, rfl, hlabel⟩ := skipLabel_sound hl
  rw [List.length_append] at hs
  obtain ⟨w, v, t, hw, hval, rfl, hc⟩ := (ih t.length (by omega)).value (Nat.le_refl _) hv
  simp only [List.length_append] at hs
  -- the white space behind the value is still part of this part
  obtain ⟨w', parts, hw', u, hparts, rfl, hu⟩ :=
    (ih t.length (by omega)).parts (Nat.le_refl _) hc
  exact ⟨label ++ w ++ v ++ w', parts, hlabel Value w v w' hw hval hw', u, hparts, by simp, hu⟩

/-- What is skipped from the start of a value begins with a value. The induction is on the length of
    what is left, since the loop goes through the bytes and not through the grammar's tree. -/
theorem skipFrom_takesValue {n : Nat} (ih : ∀ m < n, SkipsSoundly m) {outer : List Container}
    {s rest : Bytes} (hs : s.length ≤ n) (h : skipFrom true outer s = .ok rest) :
    TakesValue outer s rest := by
  rw [skipFrom_value_eq] at h
  split at h
  · cases h
  rename_i b r hb
  obtain ⟨-, w, hw, rfl⟩ := skipBlank_eq_cons_iff.mp hb
  split at h
  · -- a scalar
    cases hr : skipScalar b r with
    | error f => rw [hr] at h; cases h
    | ok t =>
      rw [hr] at h
      obtain ⟨v, hv, hbr⟩ := skipScalar_sound hr
      exact ⟨w, v, t, hw, hv, by rw [hbr, List.append_assoc], h⟩
  rename_i c ho
  have hopener := opens?_eq ho
  subst hopener
  split at h
  · cases h
  rename_i d r' hd
  obtain ⟨-, w', hw', rfl⟩ := skipBlank_eq_cons_iff.mp hd
  split at h
  · -- a container that ends at once
    rename_i hclose
    subst hclose
    exact ⟨w, c.opener :: w' ++ [c.closer], r', hw,
      value_of_parts [] (by simp) (.inl ⟨rfl, hw'⟩), by simp, h⟩
  · -- a container with parts
    cases hl : skipLabel c (d :: r') with
    | error f => rw [hl] at h; cases h
    | ok t =>
      rw [hl] at h
      have hlen : (d :: r').length < n := by
        simp only [List.length_append, List.length_cons] at hs ⊢
        omega
      obtain ⟨p, parts, hp, u, hparts, hsplit, hu⟩ := skipLabel_parts ih hlen hl h
      exact ⟨w, _, u, hw, value_of_first hw' hp hparts, by rw [hsplit]; simp, hu⟩

/-- Behind a value inside a container, the further parts are skipped and then the closing byte. -/
theorem skipFrom_takesParts {n : Nat} (ih : ∀ m < n, SkipsSoundly m) {c : Container}
    {outer : List Container} {s rest : Bytes} (hs : s.length ≤ n)
    (h : skipFrom false (c :: outer) s = .ok rest) :
    ∃ w parts, Blank w ∧ TakesParts c outer w parts s rest := by
  rw [skipFrom_close_eq] at h
  split at h
  · cases h
  rename_i b r hb
  obtain ⟨-, w, hw, rfl⟩ := skipBlank_eq_cons_iff.mp hb
  split at h
  · -- a comma, and a further part
    rename_i hcomma
    subst hcomma
    cases hl : skipLabel c r with
    | error f => rw [hl] at h; cases h
    | ok t =>
      rw [hl] at h
      have hlen : r.length < n := by
        simp only [List.length_append, List.length_cons] at hs
        omega
      obtain ⟨p, parts, hp, u, hparts, rfl, hu⟩ := skipLabel_parts ih hlen hl h
      exact ⟨w, p :: parts, hw, u, List.forall_mem_cons.mpr ⟨hp, hparts⟩,
        by simp [further_cons], hu⟩
  split at h
  · -- the end
    rename_i hclose
    subst hclose
    exact ⟨w, [], hw, r, by simp, by simp [further], h⟩
  · cases h

/-- The loop takes one value and goes on behind it; and behind a value it takes what is left of the
    innermost open container. -/
theorem skipFrom_sound (n : Nat) : SkipsSoundly n := by
  induction n using Nat.strongRecOn with
  | ind n ih => exact ⟨skipFrom_takesValue ih, skipFrom_takesParts ih⟩

/-! ## Completeness -/

/-- The form is passed over, whatever stands around it. -/
def Skips (v : Bytes) : Prop :=
  ∀ (outer : List Container) (w s : Bytes), Blank w → Stops s →
    skipFrom true outer (w ++ v ++ s) = skipFrom false outer s

/-- The form ends by itself: it is passed over even where what follows would continue a number. -/
def Closes (v : Bytes) : Prop :=
  ∀ (outer : List Container) (w s : Bytes), Blank w →
    skipFrom true outer (w ++ v ++ s) = skipFrom false outer s

theorem Closes.skips {v : Bytes} (h : Closes v) : Skips v := fun outer w s hw _ => h outer w s hw

/-- A value that is no container is skipped on the spot, whatever containers are open around it. -/
theorem skipFrom_scalar {b : UInt8} {u s w : Bytes} (hb : isBlank b = false)
    (ho : opens? b = none) (hw : Blank w) (h : skipScalar b (u ++ s) = .ok s)
    (outer : List Container) : skipFrom true outer (w ++ (b :: u) ++ s) = skipFrom false outer s := by
  have hblank : skipBlank (w ++ (b :: u) ++ s) = b :: (u ++ s) :=
    skipBlank_eq_cons_iff.mpr ⟨hb, w, hw, by simp⟩
  rw [skipFrom_value_eq, hblank]
  dsimp only
  rw [ho]
  dsimp only
  rw [h]
  rfl

theorem skips_scalar {b : UInt8} {u : Bytes} (hb : isBlank b = false) (ho : opens? b = none)
    (h : ∀ s, Stops s → skipScalar b (u ++ s) = .ok s) : Skips (b :: u) :=
  fun outer _ s hw hs => skipFrom_scalar hb ho hw (h s hs) outer

/-- Numbers are skipped. -/
theorem skips_numeral {v : Bytes} (h : Numeral v) : Skips v := by
  rcases numeral_iff.mp h with hu | ⟨t, hu, rfl⟩
  · obtain ⟨b, u, rfl, hb⟩ := hu.first
    obtain ⟨hblank, ho, hne⟩ := digit_first hb
    refine skips_scalar hblank ho fun s hs => ?_
    rw [skipScalar, if_neg (hne _ (by simp)), if_neg (hne _ (by simp)), if_neg (hne _ (by simp)),
      if_neg (hne _ (by simp)), if_pos hb, ← List.cons_append, skipNumber_complete hu hs]
  · refine skips_scalar (by decide) (by decide) fun s hs => ?_
    rw [skipScalar, if_neg (by decide), if_neg (by decide), if_neg (by decide), if_pos rfl,
      skipNumber_complete hu hs]

/-- A text ends with its quote. -/
theorem closes_text {form : Bytes} (h : Spelled form) : Closes (0x22 :: form ++ [0x22]) := by
  intro outer w s hw
  refine skipFrom_scalar (by decide) (by decide) hw ?_ outer
  rw [skipScalar, if_neg (by decide), if_neg (by decide), if_neg (by decide), if_neg (by decide),
    if_neg (by decide), if_pos rfl]
  exact skipText_ok_iff.mpr ⟨form, h, by simp⟩

/-- The three literal words are skipped. -/
theorem skips_word {first : UInt8} {tail : Bytes}
    (h : (first, tail) ∈ [(0x6E, nullTail), (0x74, trueTail), (0x66, falseTail)]) :
    Skips (first :: tail) := by
  simp only [List.mem_cons, Prod.mk.injEq, List.not_mem_nil, or_false] at h
  rcases h with ⟨rfl, rfl⟩ | ⟨rfl, rfl⟩ | ⟨rfl, rfl⟩
  · exact skips_scalar (by decide) (by decide) fun s _ => word_ok_iff.mpr rfl
  · exact skips_scalar (by decide) (by decide) fun s _ => word_ok_iff.mpr rfl
  · exact skips_scalar (by decide) (by decide) fun s _ => word_ok_iff.mpr rfl

/-- A number does not go on with white space. -/
theorem Grammar.Blank.stops {w : Bytes} (hw : Blank w) : Stops w := by
  intro b hb
  have h := hw b (List.mem_of_mem_head? hb)
  simp only [isBlank, Bool.or_eq_true, decide_eq_true_eq] at h
  rcases h with ((rfl | rfl) | rfl) | rfl <;> decide

/-- A number does not go on where a container goes on or ends. -/
theorem stops_further {c : Container} {w : Bytes} (hw : Blank w) (parts : List Bytes) (s : Bytes) :
    Stops (w ++ (further parts ++ c.closer :: s)) := by
  intro b hb
  cases w with
  | cons a w => exact hw.stops b hb
  | nil =>
    cases parts with
    | nil => cases hb; cases c <;> decide
    | cons p ps =>
      rw [further_cons] at hb
      cases hb
      decide

/-- The rest of a container is passed over part by part. -/
theorem skipFrom_parts {c : Container} {parts : List Bytes} (hp : ∀ p ∈ parts, Part Skips c p)
    (outer : List Container) {w : Bytes} (hw : Blank w) (s : Bytes) :
    skipFrom false (c :: outer) (w ++ (further parts ++ c.closer :: s)) =
      skipFrom false outer s := by
  induction parts generalizing w with
  | nil =>
    have hb : skipBlank (w ++ (further [] ++ c.closer :: s)) = c.closer :: s :=
      skipBlank_eq_cons_iff.mpr ⟨by cases c <;> decide, w, hw, rfl⟩
    rw [skipFrom_close_eq, hb]
    dsimp only
    rw [if_neg (by cases c <;> decide), if_pos rfl]
  | cons p ps ih =>
    -- behind the comma and the label a value is passed over, and then the parts behind it
    obtain ⟨label, w1, v, w2, rfl, hw1, hv, hw2, hl⟩ := skipLabel_complete (hp p (by simp))
    have hb : skipBlank (w ++ (further ((label ++ (w1 ++ v ++ w2)) :: ps) ++ c.closer :: s)) =
        0x2C :: (label ++ (w1 ++ v ++ (w2 ++ (further ps ++ c.closer :: s)))) :=
      skipBlank_eq_cons_iff.mpr ⟨by decide, w, hw, by simp [further_cons]⟩
    rw [skipFrom_close_eq, hb]
    dsimp only
    rw [if_pos rfl, hl]
    show skipFrom true (c :: outer) _ = _
    rw [hv _ _ _ hw1 (stops_further hw2 ps s), ih (fun q hq => hp q (by simp [hq])) hw2]

theorem opens?_opener (c : Container) : opens? c.opener = some c := by cases c <;> decide

theorem isBlank_opener (c : Container) : isBlank c.opener = false := by cases c <;> decide

/-- An empty container is skipped, white space or not between its brackets. -/
theorem closes_empty (c : Container) {w : Bytes} (hw : Blank w) :
    Closes (c.opener :: w ++ [c.closer]) := by
  intro outer before s hbefore
  have h1 : skipBlank (before ++ (c.opener :: w ++ [c.closer]) ++ s) =
      c.opener :: (w ++ c.closer :: s) :=
    skipBlank_eq_cons_iff.mpr ⟨isBlank_opener c, before, hbefore, by simp⟩
  have h2 : skipBlank (w ++ c.closer :: s) = c.closer :: s :=
    skipBlank_eq_cons_iff.mpr ⟨by cases c <;> decide, w, hw, rfl⟩
  rw [skipFrom_value_eq, h1]
  dsimp only
  rw [opens?_opener]
  dsimp only
  rw [h2]
  dsimp only
  rw [if_pos rfl]

/-- A container is skipped when its parts' values are, by induction over the parts. -/
theorem closes_parts {c : Container} {p : Bytes} {ps : List Bytes}
    (hp : ∀ q ∈ p :: ps, Part (fun v => Value v ∧ Skips v) c q) :
    Closes (c.opener :: separated (p :: ps) ++ [c.closer]) := by
  intro outer before s hbefore
  -- behind the opening byte the loop skips white space before it looks for a label
  obtain ⟨w, b, u, rfl, hw, hb, hne, hpart⟩ := (hp p (by simp)).trim fun _ h => h.1
  obtain ⟨label, w1, v, w2, hlabel, hw1, hv, hw2, hl⟩ :=
    skipLabel_complete (hpart.mono fun _ h => h.2)
  have h1 : skipBlank (before ++ (c.opener :: separated ((w ++ b :: u) :: ps) ++ [c.closer]) ++ s) =
      c.opener :: (w ++ b :: (u ++ (further ps ++ c.closer :: s))) :=
    skipBlank_eq_cons_iff.mpr ⟨isBlank_opener c, before, hbefore, by simp [separated_cons]⟩
  have h2 : skipBlank (w ++ b :: (u ++ (further ps ++ c.closer :: s))) =
      b :: (u ++ (further ps ++ c.closer :: s)) :=
    skipBlank_eq_cons_iff.mpr ⟨hb, w, hw, rfl⟩
  have h3 : b :: (u ++ (further ps ++ c.closer :: s)) =
      label ++ (w1 ++ v ++ (w2 ++ (further ps ++ c.closer :: s))) := by
    rw [← List.cons_append, hlabel]
    simp
  rw [skipFrom_value_eq, h1]
  dsimp only
  rw [opens?_opener]
  dsimp only
  rw [h2]
  dsimp only
  rw [if_neg hne, h3, hl]
  show skipFrom true (c :: outer) _ = _
  rw [hv _ _ _ hw1 (stops_further hw2 ps s)]
  exact skipFrom_parts (fun q hq => (hp q (by simp [hq])).mono fun _ h => h.2) outer hw2 s

/-- Every value is passed over. -/
theorem Grammar.Value.skips {v : Bytes} (h : Value v) : Skips v := by
  -- the parts of a container are values again, and the hypotheses say that they are passed over
  induction h with
  | word h => exact skips_word h
  | numeral h => exact skips_numeral h
  | text h => exact (closes_text h).skips
  | emptyArray h => exact (closes_empty .array h).skips
  | emptyObject h => exact (closes_empty .object h).skips
  | @array items hne hs hv ih =>
    cases items with
    | nil => exact absurd rfl hne
    | cons i is =>
      refine (closes_parts (c := .array) fun q hq => ?_).skips
      rw [← List.map_cons] at hq
      obtain ⟨j, hj, rfl⟩ := List.mem_map.mp hq
      exact ⟨j, hs j hj, ⟨hv j hj, ih j hj⟩, rfl⟩
  | @object members hne hs hv ih =>
    cases members with
    | nil => exact absurd rfl hne
    | cons m ms =>
      refine (closes_parts (c := .object) fun q hq => ?_).skips
      rw [← List.map_cons] at hq
      obtain ⟨j, hj, rfl⟩ := List.mem_map.mp hq
      exact ⟨j, (hs j hj).1, (hs j hj).2, ⟨hv j hj, ih j hj⟩, rfl⟩

/-- An object ends with its brace. -/
theorem Grammar.Object.closes {members : List Member} {v : Bytes} (h : Object members v) :
    Closes v := by
  obtain ⟨hm, inside, ⟨hnil, hw⟩ | ⟨hne, rfl⟩, rfl⟩ := h
  · exact closes_empty .object hw
  · cases members with
    | nil => exact absurd rfl hne
    | cons m ms =>
      refine closes_parts (c := .object) fun q hq => ?_
      rw [← List.map_cons] at hq
      obtain ⟨j, hj, rfl⟩ := List.mem_map.mp hq
      obtain ⟨hs, hn, hv⟩ := hm j hj
      exact ⟨j, hs, hn, ⟨hv, hv.skips⟩, rfl⟩

/-! ## Values that are passed over -/

/-- What is skipped is one value of the grammar, with white space in front of it. -/
theorem skipValue_sound {s rest : Bytes} (h : skipValue s = .ok rest) :
    ∃ w v, Blank w ∧ Value v ∧ s = w ++ v ++ rest := by
  obtain ⟨w, v, t, hw, hv, rfl, ht⟩ := (skipFrom_sound s.length).value (Nat.le_refl _) h
  rw [skipFrom_nil] at ht
  cases ht
  exact ⟨w, v, hw, hv, rfl⟩

/-- Every value of the grammar is skipped, as deep as it may go: there is no limit on the nesting of
    what is ignored. -/
theorem skipValue_complete {w v rest : Bytes} (hw : Blank w) (hv : Value v) (hs : Stops rest) :
    skipValue (w ++ v ++ rest) = .ok rest := by
  rw [skipValue, hv.skips [] w rest hw hs, skipFrom_nil]

end PlatformClient.Json
