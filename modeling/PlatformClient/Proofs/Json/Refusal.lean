/-
  Where a reader refuses a value.

  1. **Single values.**  Whatever goes wrong with a number or a text, or with a value of another
     type, lies in no part of a container (`Unnested`).
  2. **Refusing.**  A reader refuses a value with a path if it fails at it with that path, whatever
     stands around it (`Reader.Refuses`, a case of `Reader.Fails`).  A reader of single values refuses
     every value that is none of its written forms: what it took instead would be passed over up to
     another place.
  3. **Containers** read the parts in front of a refused one and then fail with its path behind a
     step of their own: the index of an item, the name of a member.  A record that lacks a field is
     refused as a whole.
-/
import PlatformClient.Proofs.Json.Record
import PlatformClient.Proofs.Json.Unambiguous

namespace PlatformClient.Json

open Grammar

/-! ## Faults of single values -/

/-- A failure, if it is one, that lies in no part of a container. -/
def Unnested {α : Type} (e : Except Fault α) : Prop := ∀ f, e = .error f → f.path = []

section Unnested

variable {α : Type}

theorem unnested_ok (a : α) : Unnested (.ok a) := by
  intro f hf
  cases hf

/-- An error raised on the spot names no place inside the value. -/
theorem unnested_here (cause : Cause) (rest : Bytes) :
    Unnested (.error (.here cause rest) : Except Fault α) := by
  intro f hf
  cases hf
  rfl

/-- Nor does one raised at the byte to be read next. -/
theorem unnested_peek (cause : Cause) (rest : Bytes) :
    Unnested (.error (.peek cause rest) : Except Fault α) := by
  intro f hf
  cases hf
  rfl

/-- What is done with a result does not change where an error is. -/
theorem Unnested.map {β : Type} {e : Except Fault α} (h : Unnested e) (g : α → β) :
    Unnested (e.map g) := by
  intro f hf
  cases e with
  | ok a => cases hf
  | error f' =>
    cases hf
    exact h f rfl

/-- A failure is handed on. -/
theorem Unnested.error {β : Type} {e : Except Fault α} {f : Fault} (h : Unnested e)
    (hf : e = .error f) : Unnested (.error f : Except Fault β) := by
  intro f' hf'
  cases hf'
  exact h f hf

theorem unnested_word (expected s : Bytes) : Unnested (word expected s) := by
  fun_induction word expected s with
  | case1 s => exact unnested_ok s
  | case2 w ws => exact unnested_here _ _
  | case3 w ws rest ih => exact ih
  | case4 w ws b rest hne => exact unnested_here _ _

/-! ### Numbers -/

/-- The readers of numbers never go into a value, so none of their errors is nested. One lemma for
    each of them, in the order of their calls. -/
theorem unnested_finishFloat (negative : Bool) (digits : Nat) (exponent : Int) (rest : Bytes) :
    Unnested (finishFloat negative digits exponent rest) := by
  unfold finishFloat
  split
  · exact unnested_ok _
  · exact unnested_here _ _

theorem unnested_readExponent (negative : Bool) (digits : Nat) (exponent : Int) (s : Bytes) :
    Unnested (readExponent negative digits exponent s) := by
  unfold readExponent
  generalize exponentSign s = p
  obtain ⟨down, t⟩ := p
  dsimp only
  split
  · exact unnested_here _ _
  split
  · split
    · exact unnested_finishFloat _ _ _ _
    · split
      · exact unnested_here _ _
      · exact unnested_ok _
  · exact unnested_here _ _

theorem unnested_readFraction (negative : Bool) (digits : Nat) (exponent : Int) (s : Bytes) :
    Unnested (readFraction negative digits exponent s) := by
  unfold readFraction
  dsimp only
  split
  · exact unnested_peek _ _
  split
  · exact unnested_finishFloat _ _ _ _
  split
  · exact unnested_readExponent _ _ _ _
  · exact unnested_finishFloat _ _ _ _

theorem unnested_finishWhole (negative : Bool) (digits dropped : Nat) (rest : Bytes) :
    Unnested (finishWhole negative digits dropped rest) := by
  unfold finishWhole
  split
  · exact unnested_finishFloat _ _ _ _
  split
  · exact unnested_ok _
  split
  · exact unnested_ok _
  · exact unnested_finishFloat _ _ _ _

theorem unnested_afterWhole (negative : Bool) (digits dropped : Nat) (s : Bytes) :
    Unnested (afterWhole negative digits dropped s) := by
  unfold afterWhole
  split
  · exact unnested_finishWhole _ _ _ _
  split
  · exact unnested_readFraction _ _ _ _
  split
  · exact unnested_readExponent _ _ _ _
  · exact unnested_finishWhole _ _ _ _

theorem unnested_readNumber (negative : Bool) (s : Bytes) : Unnested (readNumber negative s) := by
  unfold readNumber
  split
  · exact unnested_here _ _
  split
  · split
    · exact unnested_peek _ _
    · exact unnested_afterWhole _ _ _ _
  split
  · exact unnested_afterWhole _ _ _ _
  · exact unnested_here _ _

/-! ### Texts -/

/-- The readers of texts do not go into a value either. -/
theorem unnested_hexQuad (s : Bytes) : Unnested (hexQuad s) := by
  unfold hexQuad
  split
  · split
    · exact unnested_ok _
    · exact unnested_here _ _
  · exact unnested_here _ _

theorem unnested_trailingEscape (leading : Nat) (s : Bytes) :
    Unnested (trailingEscape leading s) := by
  unfold trailingEscape
  split
  · exact unnested_here _ _
  split
  · exact unnested_here _ _
  split
  · exact unnested_here _ _
  split
  · exact unnested_here _ _
  split
  · rename_i hf
    exact (unnested_hexQuad _).error hf
  · split
    · exact unnested_ok _
    · exact unnested_here _ _

theorem unnested_longEscape (s : Bytes) : Unnested (longEscape s) := by
  unfold longEscape
  split
  · rename_i hf
    exact (unnested_hexQuad _).error hf
  split
  · exact unnested_here _ _
  split
  · exact unnested_trailingEscape _ _
  · exact unnested_ok _

theorem unnested_escape (s : Bytes) : Unnested (escape s) := by
  unfold escape
  split
  · exact unnested_here _ _
  split
  · exact unnested_ok _
  split
  · exact (unnested_longEscape _).map _
  · exact unnested_here _ _

theorem unnested_textBytes (done s : Bytes) : Unnested (textBytes done s) := by
  fun_induction textBytes done s with
  | case1 => exact unnested_here _ _
  | case2 => exact unnested_ok _
  | case3 done s rest f he hs hquote => exact (unnested_escape _).error he
  | case4 done s rest done' bs rest' he hs hquote ih => exact ih
  | case5 => exact unnested_here _ _

theorem unnested_readText (s : Bytes) : Unnested (readText s) := by
  unfold readText
  split
  · rename_i hf
    exact (unnested_textBytes _ _).error hf
  split
  · exact unnested_ok _
  · exact unnested_here _ _

/-! ### Values of another type -/

/-- A value of the wrong kind is reported at the value itself. -/
theorem mismatch_path (expected : String) (b : UInt8) (rest : Bytes) :
    (mismatch expected b rest).path = [] := by
  -- what is found is read first, and may be at fault itself
  have word_found {w s : Bytes} {f : Fault} (h : word w s = .error f) : f.path = [] :=
    unnested_word w s f h
  have number_found {negative : Bool} {s : Bytes} {f : Fault}
      (h : readNumber negative s = .error f) : f.path = [] := unnested_readNumber negative s f h
  unfold mismatch
  dsimp only
  split
  · split
    · exact word_found ‹_›
    · rfl
  split
  · split
    · exact word_found ‹_›
    · rfl
  split
  · split
    · exact word_found ‹_›
    · rfl
  split
  · split
    · exact number_found ‹_›
    · rfl
  split
  · split
    · exact number_found ‹_›
    · rfl
  split
  · split
    · rename_i f hf
      exact unnested_readText _ f hf
    · rfl
  split
  · rfl
  split
  · rfl
  · rfl

theorem unnested_ofNumber (t : IntType) {r : Read Number} (h : Unnested r) :
    Unnested (t.ofNumber r) := by
  unfold IntType.ofNumber
  split
  · exact h.error rfl
  · split
    · exact unnested_ok _
    · exact unnested_here _ _
  · exact unnested_here _ _

/-- A reader that starts at the first byte of a value raises nested errors only if its branches
    do. -/
theorem unnested_startValue {head : UInt8 → Bytes → Read α}
    (h : ∀ b rest, Unnested (head b rest)) (s : Bytes) : Unnested (startValue head s) := by
  unfold startValue
  split
  · exact unnested_peek _ _
  · exact h _ _

/-- Errors of an integer are about the integer as a whole. -/
theorem unnested_integer (t : IntType) (s : Bytes) : Unnested ((Reader.integer t).run s) := by
  refine unnested_startValue ?_ s
  intro b rest
  unfold IntType.head
  split
  · exact unnested_ofNumber t (unnested_readNumber _ _)
  split
  · exact unnested_ofNumber t (unnested_readNumber _ _)
  · intro f hf
    cases hf
    exact mismatch_path _ _ _

/-- Errors of a text are about the text as a whole. -/
theorem unnested_text (s : Bytes) : Unnested (Reader.text.run s) := by
  refine unnested_startValue ?_ s
  intro b rest
  unfold textHead
  split
  · exact unnested_readText _
  · intro f hf
    cases hf
    exact mismatch_path _ _ _

end Unnested

/-! ## Refusing a value -/

section Refusing

variable {α β : Type} {r : Reader α} {v : Bytes} {path : Path} {P : Fault → Prop}

/-- The reader fails at the value with such a fault, whatever stands around it. -/
def Reader.Fails (r : Reader α) (v : Bytes) (P : Fault → Prop) : Prop :=
  ∀ ⦃w rest : Bytes⦄, Blank w → Stops rest → ∃ f, r.run (w ++ v ++ rest) = .error f ∧ P f

/-- The reader fails at the value with this path, whatever stands around it. -/
def Reader.Refuses (r : Reader α) (v : Bytes) (path : Path) : Prop :=
  r.Fails v fun f => f.path = path

/-- Refusing does not depend on what would be done with the result. -/
theorem Reader.Refuses.map (h : r.Refuses v path) (g : α → β) : (r.map g).Refuses v path := by
  intro w rest hw hs
  obtain ⟨f, hf, hpath⟩ := h hw hs
  refine ⟨f, ?_, hpath⟩
  show (r.run _).map _ = _
  rw [hf]
  rfl

/-- A reader by the first byte fails where it fails from that byte on. -/
theorem Reader.fails_ofHead {head : UInt8 → Bytes → Read α}
    {fits : ∀ {b : UInt8} {s : Bytes} {a : α} {rest : Bytes},
      head b s = .ok (a, rest) → rest.length ≤ s.length} {b : UInt8} {u : Bytes}
    (hb : isBlank b = false)
    (h : ∀ rest, Stops rest → ∃ f, head b (u ++ rest) = .error f ∧ P f) :
    (Reader.ofHead head fits).Fails (b :: u) P := by
  intro w rest hw hs
  obtain ⟨f, hf, hP⟩ := h rest hs
  refine ⟨f, ?_, hP⟩
  show startValue head _ = _
  rw [List.append_assoc, List.cons_append, startValue_blank head hw hb, hf]

/-- What the reader takes is passed over as well, up to the same place. -/
def Reader.Passes (r : Reader α) : Prop :=
  ∀ ⦃s rest : Bytes⦄ ⦃a : α⦄, r.run s = .ok (a, rest) → skipValue s = .ok rest

/-- Of a value that is not its written form, such a reader takes nothing. -/
theorem Reader.Passes.writes (hp : r.Passes) (hr : r.Exact) {w rest rest' : Bytes} {a : α}
    (hw : Blank w) (hv : Value v) (hs : Stops rest)
    (h : r.run (w ++ v ++ rest) = .ok (a, rest')) : r.Writes v a := by
  have hrest : rest' = rest := by
    have hskip := skipValue_complete hw hv hs
    rw [hp h] at hskip
    cases hskip
    rfl
  obtain ⟨w', v', hw', hv', heq⟩ := hr.sound h
  rw [hrest] at heq
  have hboth : w ++ v = w' ++ v' := List.append_cancel_right heq
  have hstart : ∀ {u : Bytes}, Value u → ∀ b ∈ u.head?, isBlank b = false := by
    intro u hu b hb
    refine hu.not_blank b (u := []) ?_
    rwa [List.append_nil]
  obtain ⟨-, rfl⟩ := Blank.unique hw hw' (hstart hv) (hstart hv'.1) hboth
  exact hv'

/-- A value that writes nothing the reader takes is refused, at the value itself: by
    `Passes.writes` a result would have come from the value and from nothing behind it. -/
theorem Reader.Passes.refuses (hp : r.Passes) (hr : r.Exact) (hu : ∀ s, Unnested (r.run s))
    (hv : Value v) (hnone : ∀ a, ¬ r.Writes v a) : r.Refuses v [] := by
  intro w rest hw hs
  cases hrun : r.run (w ++ v ++ rest) with
  | error f => exact ⟨f, rfl, hu _ f hrun⟩
  | ok p => exact absurd (hp.writes hr hw hv hs hrun) (hnone p.1)

/-- The reader of integers stops where the number stops. -/
theorem integer_passes (t : IntType) : (Reader.integer t).Passes := by
  intro s rest n h
  obtain ⟨w, b, u, hw, -, rfl, hhead⟩ := ofHead_ok_iff.mp h
  obtain ⟨v, hv, hstops, hbu⟩ := IntType.head_sound hhead
  rw [hbu, ← List.append_assoc]
  exact skipValue_complete hw hv.1.value hstops

/-- The reader of texts stops behind the closing quote. -/
theorem text_passes : Reader.text.Passes := by
  intro s rest t h
  obtain ⟨w, b, u, hw, -, rfl, hhead⟩ := ofHead_ok_iff.mp h
  unfold textHead at hhead
  split at hhead
  · rename_i hquote
    obtain ⟨form, hform, rfl⟩ := readText_ok_iff.mp hhead
    have hclose := closes_text hform.spelled [] w rest hw
    rw [skipFrom_nil] at hclose
    rw [skipValue, ← hclose, hquote]
    simp
  · cases hhead

/-- A value that is no integer of the type is refused, at the value itself. The two bounds hold of
    all the types in use; they keep the type within what a number is read as. -/
theorem integer_refuses {t : IntType} (hl : -0x8000000000000000 ≤ t.least)
    (hg : t.greatest < 0x10000000000000000) (hv : Value v) (hnone : ∀ n, ¬ IntegerForm t v n) :
    (Reader.integer t).Refuses v [] :=
  have hreads := integer_reads hl hg
  (integer_passes t).refuses hreads.exact (unnested_integer t) hv fun n =>
    mt hreads.writes_iff.mp (hnone n)

/-- A value that is no text is refused, at the value itself. -/
theorem text_refuses (hv : Value v) (hnone : ∀ t, ¬ TextForm v t) : Reader.text.Refuses v [] :=
  text_passes.refuses text_reads.exact unnested_text hv fun t => mt text_reads.writes_iff.mp (hnone t)

/-! ## Containers -/

/-- A fault inside an item of an array gets the item's index in front of its path. -/
theorem element_fails (h : r.Fails v P) (i : Nat) {rest : Bytes} (hs : Stops rest) :
    ∃ f, element r i (v ++ rest) = .error (f.inside (.index i)) ∧ P f := by
  obtain ⟨f, hf, hP⟩ := h blank_nil hs
  rw [List.nil_append] at hf
  refine ⟨f, ?_, hP⟩
  rw [element, hf]
  rfl

/-- The items in front of a failing one are read, and its fault gets its index. -/
theorem elements_fails {before after : List Item} {bad : Item} {as : List α} {inside : Bytes}
    (hspaced : ∀ i ∈ before ++ bad :: after, i.Spaced)
    (hinside : Inside ((before ++ bad :: after).map Item.text) inside)
    (hbefore : Listed r.Takes before as) (hvalue : Value bad.value) (hbad : r.Fails bad.value P)
    (rest : Bytes) :
    ∃ f, elements r 0 [] (inside ++ 0x5D :: rest) = .error (f.inside (.index before.length)) ∧
      P f := by
  have hfront : ∀ i ∈ before, i.Spaced := fun i hi => hspaced i (by simp [hi])
  obtain ⟨inside', hrem, helements⟩ := elements_listed hbefore hfront 0 [] rest
    (remaining_true_iff.mpr hinside)
  rw [Nat.zero_add] at hrem helements
  obtain ⟨u, hu, hnext⟩ := nextElement_item rest hvalue (hspaced bad (by simp)) hrem
  have hstops : Stops (u ++ 0x5D :: rest) := hu.stops (c := .array) rest
  obtain ⟨f, hf, hP⟩ := element_fails hbad before.length hstops
  refine ⟨f, ?_, hP⟩
  rw [helements, elements_eq, hnext]
  dsimp only
  rw [hf]

/-- An array is refused for the first item that is, by its index. -/
theorem array_refuses (hr : r.Exact) {before after : List Item} {bad : Item} {as : List α}
    (harray : Grammar.Array (before ++ bad :: after) v) (hbefore : Listed r.Writes before as)
    (hbad : r.Refuses bad.value path) : r.array.Refuses v (.index before.length :: path) := by
  obtain ⟨hitems, inside, hinside, rfl⟩ := harray
  rw [List.cons_append]
  refine Reader.fails_ofHead (by decide) fun rest _ => ?_
  obtain ⟨f, hf, hpath⟩ := elements_fails (fun i hi => (hitems i hi).1) hinside
    (hbefore.takes hr) (hitems bad (by simp)).2 hbad rest
  refine ⟨f.inside (.index before.length), ?_, ?_⟩
  · rw [arrayHead, if_pos rfl, List.append_assoc]
    exact hf
  · show _ :: f.path = _
    rw [hpath]

/-- A fault inside a member's value gets the member's name in front of its path. -/
theorem memberValue_fails (h : r.Fails v P) (name : String) {w w' rest : Bytes}
    (hw : Blank w) (hw' : Blank w') (hs : Stops rest) :
    ∃ f, memberValue r name (w ++ 0x3A :: (w' ++ v ++ rest)) = .error (f.inside (.member name)) ∧
      P f := by
  obtain ⟨f, hf, hP⟩ := h hw' hs
  refine ⟨f, ?_, hP⟩
  rw [memberValue, colon_ok_iff.mpr ⟨w, hw, rfl⟩]
  dsimp only
  rw [hf]
  rfl

section Records

variable {σ : Type} {t : Record σ α}

/-- An object is read by the loop over its members. -/
theorem Record.run_object (t : Record σ α) {w inside : Bytes} (hw : Blank w) (rest : Bytes) :
    (Reader.record t).run (w ++ (0x7B :: inside ++ [0x7D]) ++ rest) =
      t.ofObject true t.start (inside ++ 0x7D :: rest) := by
  have hsplit : w ++ (0x7B :: inside ++ [0x7D]) ++ rest =
      w ++ 0x7B :: (inside ++ 0x7D :: rest) := by simp
  show startValue t.head _ = _
  rw [hsplit, startValue_blank _ hw (by decide), Record.head, if_pos rfl]

/-- A record is refused for the first member that is, by its name, if the member is a field that was
    not there before. -/
theorem record_refuses_member (ht : t.Exact) {before after : List Member} {m : Member} {st : σ}
    {f : Field σ} (hobject : Object (before ++ m :: after) v)
    (hbefore : t.Collects t.start before st) (hname : m.Named f.name)
    (hfound : t.fields.find? (fun g => g.name == f.name) = some f) (hempty : f.filled st = false)
    (hbad : f.read.Refuses m.item.value path) :
    (Reader.record t).Refuses v (.member f.name :: path) := by
  obtain ⟨hwf, inside, hinside, rfl⟩ := hobject
  intro w rest hw hs
  have hwfbefore : WellFormedMembers before := fun o ho => hwf o (by simp [ho])
  obtain ⟨hspaced, -, -⟩ := hwf m (by simp)
  -- the members in front are collected, and the refused one comes next
  obtain ⟨first, inside', hrem, hcollected⟩ := Record.ofObject_collected ht hbefore hwfbefore true
    rest (remaining_true_iff.mpr hinside)
  obtain ⟨u, hu, hmember⟩ := t.ofObject_member hname hspaced rest hrem
  have hstops : Stops (u ++ 0x7D :: rest) := hu.stops (c := .object) rest
  obtain ⟨fault, hfault, hpath⟩ := memberValue_fails hbad f.name hspaced.2.1 hspaced.2.2.1 hstops
  refine ⟨fault.inside (.member f.name), ?_, ?_⟩
  · rw [t.run_object hw, hcollected, hmember, Record.member, hfound]
    dsimp only
    rw [if_neg (by rw [hempty]; decide), hfault]
    rfl
  · show _ :: fault.path = _
    rw [hpath]

/-- A record all of whose members are collected is refused as a whole if a field is missing. -/
theorem record_refuses_missing (ht : t.Exact) {members : List Member} {st : σ} {name : String}
    (hobject : Object members v) (hmembers : t.Collects t.start members st)
    (hmissing : t.finish st = .error name) : (Reader.record t).Refuses v [] := by
  obtain ⟨hwf, inside, hinside, rfl⟩ := hobject
  intro w rest hw hs
  rw [← List.append_nil members] at hinside
  obtain ⟨first, inside', hrem, hcollected⟩ := Record.ofObject_collected ht hmembers hwf true rest
    (remaining_true_iff.mpr hinside)
  rw [t.run_object hw, hcollected, t.ofObject_close hrem, Record.close, hmissing]
  exact ⟨_, rfl, rfl⟩

end Records

end Refusing

end PlatformClient.Json
