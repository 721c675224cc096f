/-
  What the readers of white space, words and numbers take.

  Each reader is compared with the grammar in two directions.  What it takes has the written form
  of the grammar (`_sound`); and it takes a written form whole, whatever follows (`_complete`).
  Only a number needs to know that what follows does not continue it: `Stops`.
-/
import Mathlib.Data.List.TakeWhile
import PlatformClient.Json.Grammar
import PlatformClient.Json.Scalar

namespace PlatformClient.Json

open Grammar

/-! ## Runs of bytes -/

/-- A run ends in front of a byte that is not of it. -/
theorem dropWhile_head {p : UInt8 → Bool} {s t : Bytes} {b : UInt8} (h : s.dropWhile p = b :: t) :
    p b = false := by
  have := List.head?_dropWhile_not p s
  rw [h] at this
  simpa using this

/-- A run that is followed by something else is dropped as a whole. -/
theorem dropWhile_run {p : UInt8 → Bool} {w t : Bytes} (hw : ∀ b ∈ w, p b = true)
    (ht : ∀ b ∈ t.head?, p b = false) : (w ++ t).dropWhile p = t := by
  rw [List.dropWhile_append_of_pos hw]
  cases t with
  | nil => rfl
  | cons b t => exact List.dropWhile_cons_of_neg (by rw [ht b rfl]; decide)

/-- A run that is followed by something else is taken as a whole, and nothing past it. -/
theorem takeWhile_run {p : UInt8 → Bool} {w t : Bytes} (hw : ∀ b ∈ w, p b = true)
    (ht : ∀ b ∈ t.head?, p b = false) : (w ++ t).takeWhile p = w := by
  rw [List.takeWhile_append_of_pos hw]
  cases t with
  | nil => simp
  | cons b t => rw [List.takeWhile_cons_of_neg (by rw [ht b rfl]; decide), List.append_nil]

/-! ## White space -/

theorem blank_nil : Blank [] := fun _ h => absurd h List.not_mem_nil

theorem Grammar.Blank.append {v w : Bytes} (hv : Blank v) (hw : Blank w) : Blank (v ++ w) := by
  intro b hb
  rcases List.mem_append.mp hb with h | h
  · exact hv b h
  · exact hw b h

theorem skipBlank_append {w : Bytes} (hw : Blank w) (s : Bytes) : skipBlank (w ++ s) = skipBlank s :=
  List.dropWhile_append_of_pos hw

theorem skipBlank_cons {b : UInt8} (hb : isBlank b = false) (s : Bytes) :
    skipBlank (b :: s) = b :: s :=
  List.dropWhile_cons_of_neg (by rw [hb]; decide)

/-- What `skipBlank` passes over is white space, so every text splits in front of it. -/
theorem exists_blank (s : Bytes) : ∃ w, Blank w ∧ s = w ++ skipBlank s :=
  ⟨s.takeWhile isBlank, fun _ h => List.mem_takeWhile_imp h, List.takeWhile_append_dropWhile.symm⟩

theorem skipBlank_eq_cons_iff {s t : Bytes} {b : UInt8} :
    skipBlank s = b :: t ↔ isBlank b = false ∧ ∃ w, Blank w ∧ s = w ++ b :: t := by
  constructor
  · intro h
    obtain ⟨w, hw, hs⟩ := exists_blank s
    exact ⟨dropWhile_head h, w, hw, by rw [← h]; exact hs⟩
  · rintro ⟨hb, w, hw, rfl⟩
    rw [skipBlank_append hw, skipBlank_cons hb]

/-- Nothing is left exactly when there was nothing but white space. -/
theorem skipBlank_eq_nil_iff {s : Bytes} : skipBlank s = [] ↔ Blank s := by
  constructor
  · intro h
    obtain ⟨w, hw, hs⟩ := exists_blank s
    rw [h, List.append_nil] at hs
    exact hs ▸ hw
  · intro h
    have := skipBlank_append h []
    rwa [List.append_nil] at this

/-! ## Words -/

/-- A literal word is read exactly when it stands there, and the reader stops right behind it. -/
theorem word_ok_iff {expected s rest : Bytes} :
    word expected s = .ok rest ↔ s = expected ++ rest := by
  fun_induction word expected s with
  | case1 s => simp
  | case2 w ws => simp
  | case3 w ws t ih => simpa using ih
  | case4 w ws b t hb =>
    constructor
    · intro h; cases h
    · intro h
      rw [List.cons_append, List.cons.injEq] at h
      exact absurd h.1 hb

/-! ## Numbers that are passed over -/

/-- A number does not go on here. -/
def Stops (rest : Bytes) : Prop :=
  ∀ b ∈ rest.head?, isDigit b = false ∧ b ≠ 0x2E ∧ isExponentMark b = false

/-- A number without its sign. -/
def Unsigned (s : Bytes) : Prop :=
  ∃ whole fraction exponent, Whole whole ∧ Fraction fraction ∧ Exponent exponent ∧
    s = whole ++ fraction ++ exponent

/-- The two shapes of a number: without a sign, and with a minus in front. -/
theorem numeral_iff {s : Bytes} : Numeral s ↔ Unsigned s ∨ ∃ t, Unsigned t ∧ s = 0x2D :: t := by
  constructor
  · rintro ⟨sign, w, f, e, hs, hw, hf, he, rfl⟩
    simp only [List.mem_cons, List.not_mem_nil, or_false] at hs
    rcases hs with rfl | rfl
    · exact .inl ⟨w, f, e, hw, hf, he, rfl⟩
    · exact .inr ⟨_, ⟨w, f, e, hw, hf, he, rfl⟩, rfl⟩
  · rintro (⟨w, f, e, hw, hf, he, rfl⟩ | ⟨t, ⟨w, f, e, hw, hf, he, rfl⟩, rfl⟩)
    · exact ⟨[], w, f, e, by simp, hw, hf, he, rfl⟩
    · exact ⟨[0x2D], w, f, e, by simp, hw, hf, he, rfl⟩

/-- Where a value stops, no further digit follows; this is why a number can be cut out of its
    surroundings at all. -/
theorem Stops.digit {rest : Bytes} (h : Stops rest) : ∀ b ∈ rest.head?, isDigit b = false :=
  fun b hb => (h b hb).1

theorem digits_cons {b : UInt8} {s : Bytes} (hb : isDigit b = true) :
    Digits (b :: s.takeWhile isDigit) := by
  refine ⟨List.cons_ne_nil _ _, fun c hc => ?_⟩
  rcases List.mem_cons.mp hc with rfl | hc
  · exact hb
  · exact List.mem_takeWhile_imp hc

/-- A run of digits has a first one, on which the readers branch. -/
theorem Grammar.Digits.exists_cons {ds : Bytes} (h : Digits ds) :
    ∃ b t, ds = b :: t ∧ isDigit b = true ∧ ∀ c ∈ t, isDigit c = true := by
  obtain ⟨hn, hd⟩ := h
  cases ds with
  | nil => exact absurd rfl hn
  | cons b t => exact ⟨b, t, rfl, hd b (by simp), fun c hc => hd c (by simp [hc])⟩

/-- The reader of an exponent passes over a sign, or over nothing. -/
theorem exponentSign_sound (s : Bytes) :
    ∃ sign ∈ [[], [0x2B], [0x2D]], s = sign ++ (exponentSign s).2 := by
  unfold exponentSign
  split
  · exact ⟨[], by simp, rfl⟩
  split
  · rename_i h
    exact ⟨[0x2B], by simp, by rw [h]; rfl⟩
  split
  · rename_i h
    exact ⟨[0x2D], by simp, by rw [h]; rfl⟩
  · exact ⟨[], by simp, rfl⟩

/-- In front of digits the sign is passed over whichever of the three it is: none, plus or minus. -/
theorem exponentSign_complete {sign ds : Bytes} (hs : sign ∈ [[], [0x2B], [0x2D]])
    (hd : Digits ds) (rest : Bytes) : (exponentSign (sign ++ ds ++ rest)).2 = ds ++ rest := by
  obtain ⟨b, t, rfl, hb, -⟩ := hd.exists_cons
  simp only [List.mem_cons, List.not_mem_nil, or_false] at hs
  rcases hs with rfl | rfl | rfl
  · have h1 : b ≠ 0x2B := by rintro rfl; exact absurd hb (by decide)
    have h2 : b ≠ 0x2D := by rintro rfl; exact absurd hb (by decide)
    simp [exponentSign, h1, h2]
  · rfl
  · rfl

/-- A skipped exponent has a digit: `1e` and `1e+` are refused. -/
theorem skipExponent_sound {s rest : Bytes} (h : skipExponent s = .ok rest) :
    ∃ sign ds, sign ∈ [[], [0x2B], [0x2D]] ∧ Digits ds ∧ s = sign ++ ds ++ rest := by
  obtain ⟨sign, hs, he⟩ := exponentSign_sound s
  unfold skipExponent at h
  split at h
  · cases h
  · rename_i b t ht
    split at h
    · rename_i hb
      cases h
      refine ⟨sign, b :: t.takeWhile isDigit, hs, digits_cons hb, ?_⟩
      rw [he, ht, List.append_assoc, List.cons_append, List.takeWhile_append_dropWhile]
    · cases h

/-- An exponent with a digit is skipped up to where its digits end. -/
theorem skipExponent_complete {sign ds rest : Bytes} (hs : sign ∈ [[], [0x2B], [0x2D]])
    (hd : Digits ds) (hr : Stops rest) : skipExponent (sign ++ ds ++ rest) = .ok rest := by
  rw [skipExponent, exponentSign_complete hs hd]
  obtain ⟨b, t, rfl, hb, ht⟩ := hd.exists_cons
  simp only [List.cons_append, hb, if_true]
  rw [dropWhile_run ht hr.digit]

/-- The digits that come next, if the next byte is one. -/
theorem digits_next {s : Bytes} (h : digitNext s = true) : Digits (s.takeWhile isDigit) := by
  cases s with
  | nil => cases h
  | cons b t =>
    have hb : isDigit b = true := h
    rw [List.takeWhile_cons_of_pos hb]
    exact digits_cons hb

/-- The mark of an exponent is neither a point nor a digit, so the three continuations of a number
    cannot be mixed up. -/
theorem exponentMark_ne {b : UInt8} (h : isExponentMark b = true) :
    b ≠ 0x2E ∧ isDigit b = false := by
  simp only [isExponentMark, Bool.or_eq_true, decide_eq_true_eq] at h
  rcases h with rfl | rfl <;> decide

/-- Pass over an exponent, if there is one. -/
def skipScale : Bytes → Except Fault Bytes
  | [] => .ok []
  | b :: rest => if isExponentMark b then skipExponent rest else .ok (b :: rest)

/-- Behind the whole part, a point with a digit behind it opens a fraction. -/
theorem skipAfterWhole_point {t : Bytes} (h : digitNext t = true) :
    skipAfterWhole (0x2E :: t) = skipScale (t.dropWhile isDigit) := by
  rw [skipAfterWhole, if_pos rfl, if_pos h]
  cases t.dropWhile isDigit <;> rfl

/-- Without a point the exponent is looked for at once. -/
theorem skipAfterWhole_no_point {s : Bytes} (h : s.head? ≠ some 0x2E) :
    skipAfterWhole s = skipScale s := by
  cases s with
  | nil => rfl
  | cons b t =>
    have hb : b ≠ 0x2E := by simpa using h
    rw [skipAfterWhole, if_neg hb]
    rfl

/-- What is skipped as a scale is an exponent of the grammar, possibly the empty one. -/
theorem skipScale_sound {s rest : Bytes} (h : skipScale s = .ok rest) :
    ∃ exponent, Exponent exponent ∧ s = exponent ++ rest := by
  cases s with
  | nil =>
    cases h
    exact ⟨[], .inl rfl, rfl⟩
  | cons b t =>
    rw [skipScale] at h
    split at h
    · rename_i hm
      obtain ⟨sign, ds, hs, hds, rfl⟩ := skipExponent_sound h
      exact ⟨_, .inr ⟨b, sign, ds, hm, hs, hds, rfl⟩, by simp⟩
    · cases h
      exact ⟨[], .inl rfl, rfl⟩

/-- Every exponent of the grammar is skipped, given that nothing that could prolong it follows. -/
theorem skipScale_complete {exponent rest : Bytes} (he : Exponent exponent) (hr : Stops rest) :
    skipScale (exponent ++ rest) = .ok rest := by
  rcases he with rfl | ⟨mark, sign, ds, hm, hs, hd, rfl⟩
  · cases rest with
    | nil => rfl
    | cons b t =>
      have hb : isExponentMark b = false := (hr b rfl).2.2
      show (if isExponentMark b then skipExponent t else .ok (b :: t)) = _
      rw [hb]
      rfl
  · show (if isExponentMark mark then skipExponent (sign ++ ds ++ rest) else _) = _
    rw [if_pos hm, skipExponent_complete hs hd hr]

/-- An exponent, or what is behind it, does not go on with the number before it. -/
theorem exponent_stop {exponent rest : Bytes} (he : Exponent exponent) (hr : Stops rest) :
    ∀ b ∈ (exponent ++ rest).head?, isDigit b = false ∧ b ≠ 0x2E := by
  rcases he with rfl | ⟨mark, sign, ds, hm, -, -, rfl⟩
  · intro b hb
    exact ⟨(hr b hb).1, (hr b hb).2.1⟩
  · rintro b ⟨⟩
    exact (exponentMark_ne hm).symm

/-- What is skipped behind the whole part is a fraction and an exponent of the grammar. -/
theorem skipAfterWhole_sound {s rest : Bytes} (h : skipAfterWhole s = .ok rest) :
    ∃ fraction exponent, Fraction fraction ∧ Exponent exponent ∧
      s = fraction ++ exponent ++ rest := by
  by_cases hpoint : s.head? = some 0x2E
  · obtain ⟨t, rfl⟩ := List.head?_eq_some_iff.mp hpoint
    cases hd : digitNext t with
    | false =>
      rw [skipAfterWhole, if_pos rfl, hd] at h
      cases h
    | true =>
      rw [skipAfterWhole_point hd] at h
      obtain ⟨exponent, he, hsplit⟩ := skipScale_sound h
      refine ⟨0x2E :: t.takeWhile isDigit, exponent, .inr ⟨_, digits_next hd, rfl⟩, he, ?_⟩
      rw [List.append_assoc, ← hsplit, List.cons_append, List.takeWhile_append_dropWhile]
  · rw [skipAfterWhole_no_point hpoint] at h
    obtain ⟨exponent, he, rfl⟩ := skipScale_sound h
    exact ⟨[], exponent, .inl rfl, he, rfl⟩

/-- A fraction and an exponent are skipped together, whichever of them are there. -/
theorem skipAfterWhole_complete {fraction exponent rest : Bytes} (hf : Fraction fraction)
    (he : Exponent exponent) (hr : Stops rest) :
    skipAfterWhole (fraction ++ exponent ++ rest) = .ok rest := by
  have hstop := exponent_stop he hr
  rcases hf with rfl | ⟨ds, hd, rfl⟩
  · have hpoint : (exponent ++ rest).head? ≠ some 0x2E := fun h => (hstop _ h).2 rfl
    rw [List.nil_append, skipAfterWhole_no_point hpoint]
    exact skipScale_complete he hr
  · have hn : digitNext (ds ++ (exponent ++ rest)) = true := by
      obtain ⟨b, u, rfl, hb, -⟩ := hd.exists_cons
      exact hb
    rw [List.append_assoc, List.cons_append, skipAfterWhole_point hn,
      dropWhile_run hd.2 fun b hb => (hstop b hb).1]
    exact skipScale_complete he hr

/-- Only numbers of the grammar are skipped. The sign is not the reader's: it is gone before. -/
theorem skipNumber_sound {s rest : Bytes} (h : skipNumber s = .ok rest) :
    ∃ form, Unsigned form ∧ s = form ++ rest := by
  unfold skipNumber at h
  split at h
  · cases h
  · rename_i b t
    split at h
    · -- a zero is a whole part of its own; a digit behind it is refused
      rename_i hb
      subst hb
      split at h
      · cases h
      · obtain ⟨f, e, hf, he, rfl⟩ := skipAfterWhole_sound h
        exact ⟨_, ⟨[0x30], f, e, .inl rfl, hf, he, rfl⟩, by simp⟩
    · rename_i hb
      split at h
      · rename_i hd
        obtain ⟨f, e, hf, he, ht⟩ := skipAfterWhole_sound h
        refine ⟨_, ⟨b :: t.takeWhile isDigit, f, e, .inr ⟨digits_cons hd, ?_⟩, hf, he, rfl⟩, ?_⟩
        · simpa using hb
        · rw [List.append_assoc, List.append_assoc, ← List.append_assoc f, ← ht, List.cons_append,
            List.takeWhile_append_dropWhile]
      · cases h

/-- Behind the whole part no digit follows, so the whole part ends where the grammar ends it. -/
theorem fraction_exponent_stop {fraction exponent rest : Bytes} (hf : Fraction fraction)
    (he : Exponent exponent) (hr : Stops rest) :
    ∀ b ∈ (fraction ++ exponent ++ rest).head?, isDigit b = false := by
  rcases hf with rfl | ⟨ds, -, rfl⟩
  · intro b hb
    exact (exponent_stop he hr b hb).1
  · rintro b ⟨⟩
    decide

/-- Every number of the grammar is skipped, up to where it stops. The cases are those of the whole
    part: a lone `0`, or a digit that is no zero and more digits. -/
theorem skipNumber_complete {form rest : Bytes} (h : Unsigned form) (hr : Stops rest) :
    skipNumber (form ++ rest) = .ok rest := by
  obtain ⟨w, f, e, hw, hf, he, rfl⟩ := h
  have hstop := fraction_exponent_stop hf he hr
  have hskip := skipAfterWhole_complete hf he hr
  rw [List.append_assoc, List.append_assoc, ← List.append_assoc f]
  rcases hw with rfl | ⟨hd, hz⟩
  · have hn : digitNext (f ++ e ++ rest) = false := by
      cases hs : f ++ e ++ rest with
      | nil => rfl
      | cons b t => exact hstop b (by rw [hs]; rfl)
    simp only [List.cons_append, List.nil_append]
    rw [skipNumber, if_pos rfl, hn]
    exact hskip
  · obtain ⟨b, t, rfl, hb, ht⟩ := hd.exists_cons
    have hb0 : b ≠ 0x30 := by simpa using hz
    rw [List.cons_append, skipNumber, if_neg hb0, if_pos hb, dropWhile_run ht hstop]
    exact hskip

/-! ## Integers -/

/-- Gathering that runs out of digits has computed the number they write, continuing from `n`. -/
theorem gather_eq {n m : Nat} {ds : Bytes} (h : gather n ds = (m, [])) :
    m = ds.foldl (fun n d => n * 10 + digitValue d) n := by
  induction ds generalizing n with
  | nil => rw [gather] at h; cases h; rfl
  | cons d ds ih =>
    rw [gather] at h
    split at h
    · exact ih h
    · cases h

/-- A number only grows with its digits. -/
theorem le_foldl_digits (n : Nat) (ds : Bytes) :
    n ≤ ds.foldl (fun n d => n * 10 + digitValue d) n := by
  induction ds generalizing n with
  | nil => exact Nat.le_refl n
  | cons d ds ih =>
    have := ih (n * 10 + digitValue d)
    rw [List.foldl_cons]
    omega

/-- Digits that write a number below `2^64` are all gathered: no step on the way can overflow, since
    the number only grows (`le_foldl_digits`). -/
theorem gather_of_lt {n : Nat} {ds : Bytes}
    (h : ds.foldl (fun n d => n * 10 + digitValue d) n < 0x10000000000000000) :
    gather n ds = (ds.foldl (fun n d => n * 10 + digitValue d) n, []) := by
  induction ds generalizing n with
  | nil => rfl
  | cons d ds ih =>
    have := le_foldl_digits (n * 10 + digitValue d) ds
    rw [List.foldl_cons] at h ⊢
    rw [gather, if_pos (by omega), ih h]

/-- What an integer with or without a minus sign is worth; a signed zero is none. -/
def Signed (negative : Bool) (digits : Nat) (n : Int) : Prop :=
  if negative then digits ≠ 0 ∧ digits ≤ 0x8000000000000000 ∧ n = -(digits : Int) else n = digits

/-- A number that got as far as a power of ten is never an integer. -/
theorem finishFloat_ne_int {negative : Bool} {digits : Nat} {exponent n : Int} {s rest : Bytes} :
    finishFloat negative digits exponent s ≠ .ok (.int n, rest) := by
  intro h
  unfold finishFloat at h
  split at h <;> cases h

/-- An integer comes out of the end of the whole part only when no digit was dropped, and it is the
    digits' value under the sign. -/
theorem finishWhole_int {negative : Bool} {digits dropped : Nat} {n : Int} {s rest : Bytes}
    (h : finishWhole negative digits dropped s = .ok (.int n, rest)) :
    rest = s ∧ dropped = 0 ∧ Signed negative digits n := by
  unfold finishWhole at h
  split at h
  · exact absurd h finishFloat_ne_int
  · rename_i hd
    simp only [ne_eq, Decidable.not_not] at hd
    split at h
    · rename_i hn
      cases h
      exact ⟨rfl, hd, by simp [Signed, hn]⟩
    · rename_i hn
      split at h
      · rename_i hb
        cases h
        simp only [Bool.not_eq_true, Bool.not_eq_false] at hn
        exact ⟨rfl, hd, by simp [Signed, hn, hb]⟩
      · exact absurd h finishFloat_ne_int

/-- A number with an exponent is not read as an integer, whatever its value: `1e2` is not `100`. -/
theorem readExponent_ne_int {negative : Bool} {digits : Nat} {exponent n : Int} {s rest : Bytes} :
    readExponent negative digits exponent s ≠ .ok (.int n, rest) := by
  intro h
  unfold readExponent at h
  generalize exponentSign s = p at h
  obtain ⟨down, t⟩ := p
  simp only at h
  split at h
  · cases h
  split at h
  · split at h
    · exact absurd h finishFloat_ne_int
    · split at h <;> cases h
  · cases h

/-- A number with a fraction is not read as an integer, whatever its value: `1.0` is not `1`. -/
theorem readFraction_ne_int {negative : Bool} {digits : Nat} {exponent n : Int} {s rest : Bytes} :
    readFraction negative digits exponent s ≠ .ok (.int n, rest) := by
  intro h
  unfold readFraction at h
  simp only at h
  split at h
  · cases h
  split at h
  · exact absurd h finishFloat_ne_int
  split at h
  · exact absurd h readExponent_ne_int
  · exact absurd h finishFloat_ne_int

/-- A number is an integer only where no fraction and no exponent follows. -/
theorem afterWhole_int {negative : Bool} {digits dropped : Nat} {n : Int} {s rest : Bytes}
    (h : afterWhole negative digits dropped s = .ok (.int n, rest)) :
    rest = s ∧ dropped = 0 ∧ Signed negative digits n ∧
      ∀ b ∈ s.head?, b ≠ 0x2E ∧ isExponentMark b = false := by
  unfold afterWhole at h
  split at h
  · obtain ⟨hrest, hdropped, hsigned⟩ := finishWhole_int h
    exact ⟨hrest, hdropped, hsigned, by simp⟩
  rename_i b t
  split at h
  · exact absurd h readFraction_ne_int
  rename_i hpoint
  split at h
  · exact absurd h readExponent_ne_int
  · rename_i hmark
    obtain ⟨hrest, hdropped, hsigned⟩ := finishWhole_int h
    refine ⟨hrest, hdropped, hsigned, ?_⟩
    rintro c ⟨⟩
    exact ⟨hpoint, by simpa using hmark⟩

/-- An integer that is read was written by a whole part with nothing behind it that could belong to
    the number. The cases follow the first digit, a lone `0` or another; a whole part that is too
    long to be gathered drops digits, and is no integer by `afterWhole_int`. -/
theorem readNumber_int_sound {negative : Bool} {n : Int} {s rest : Bytes}
    (h : readNumber negative s = .ok (.int n, rest)) :
    ∃ ds, Whole ds ∧ Signed negative (decimal ds) n ∧ Stops rest ∧ s = ds ++ rest := by
  unfold readNumber at h
  split at h
  · cases h
  · rename_i b t
    split at h
    · -- a zero is a whole part of its own
      rename_i hb
      subst hb
      split at h
      · cases h
      · rename_i hnext
        obtain ⟨rfl, -, hs, hmore⟩ := afterWhole_int h
        refine ⟨[0x30], .inl rfl, hs, ?_, rfl⟩
        intro c hc
        have hdigit : isDigit c = false := by
          obtain ⟨u, rfl⟩ := List.head?_eq_some_iff.mp hc
          simpa [digitNext] using hnext
        exact ⟨hdigit, hmore c hc⟩
    · rename_i hb
      split at h
      · rename_i hd
        generalize hg : gather 0 (b :: t.takeWhile isDigit) = p at h
        obtain ⟨m, dropped⟩ := p
        obtain ⟨rfl, hz, hs, hmore⟩ := afterWhole_int h
        rw [List.length_eq_zero_iff] at hz
        subst hz
        rw [gather_eq hg] at hs
        refine ⟨b :: t.takeWhile isDigit, .inr ⟨digits_cons hd, by simpa using hb⟩, hs, ?_, ?_⟩
        · intro c hc
          obtain ⟨u, hu⟩ := List.head?_eq_some_iff.mp hc
          exact ⟨dropWhile_head hu, hmore c hc⟩
        · rw [List.cons_append, List.takeWhile_append_dropWhile]
      · cases h

/-- At the end of the whole part the value under the sign is the integer that is read. -/
theorem finishWhole_complete {negative : Bool} {digits : Nat} {n : Int} (rest : Bytes)
    (h : Signed negative digits n) : finishWhole negative digits 0 rest = .ok (.int n, rest) := by
  rw [finishWhole, if_neg (by decide)]
  cases negative with
  | false =>
    have hn : n = digits := h
    rw [if_pos (by decide), hn]
  | true =>
    obtain ⟨h0, hb, hn⟩ : digits ≠ 0 ∧ digits ≤ 0x8000000000000000 ∧ n = -(digits : Int) := h
    rw [if_neg (by decide), if_pos ⟨h0, hb⟩, hn]

/-- With no point and no exponent behind it, a whole part ends the number. -/
theorem afterWhole_complete {negative : Bool} {digits : Nat} {n : Int} {rest : Bytes}
    (h : Signed negative digits n) (hr : Stops rest) :
    afterWhole negative digits 0 rest = .ok (.int n, rest) := by
  cases rest with
  | nil => exact finishWhole_complete [] h
  | cons b t =>
    obtain ⟨-, h1, h2⟩ := hr b rfl
    rw [afterWhole, if_neg h1, if_neg (by rw [h2]; decide), finishWhole_complete (b :: t) h]

/-- A whole part below `2^64` is read as the integer it writes. The bound is that of the gathering,
    not of the type: what leaves the type's range is refused later, at `IntType.ofNumber`. -/
theorem readNumber_int_complete (negative : Bool) {n : Int} {ds rest : Bytes} (hw : Whole ds)
    (hs : Signed negative (decimal ds) n) (hb : decimal ds < 0x10000000000000000)
    (hr : Stops rest) : readNumber negative (ds ++ rest) = .ok (.int n, rest) := by
  rcases hw with rfl | ⟨hd, hz⟩
  · have hn : digitNext rest = false := by
      cases rest with
      | nil => rfl
      | cons b t => exact (hr b rfl).1
    simp only [List.cons_append, List.nil_append]
    rw [readNumber, if_pos rfl, if_neg (by rw [hn]; decide), ← afterWhole_complete hs hr]
    rfl
  · obtain ⟨b, t, rfl, hd', ht⟩ := hd.exists_cons
    have hb0 : b ≠ 0x30 := by simpa using hz
    rw [List.cons_append, readNumber, if_neg hb0, if_pos hd', takeWhile_run ht hr.digit,
      dropWhile_run ht hr.digit, gather_of_lt hb, ← afterWhole_complete hs hr]
    rfl

/-- An integer in writing, within the bounds of a type. -/
def IntegerForm (t : IntType) (s : Bytes) (n : Int) : Prop :=
  Integer s n ∧ t.least ≤ n ∧ n ≤ t.greatest

/-- Whatever is read as a bounded integer lies within the bounds. -/
theorem IntType.ofNumber_bounds {t : IntType} {r : Read Number} {n : Int} {rest : Bytes}
    (h : t.ofNumber r = .ok (n, rest)) : t.least ≤ n ∧ n ≤ t.greatest := by
  rw [ofNumber_ok h, IntType.ofNumber] at h
  split at h
  · assumption
  · cases h

/-- An integer is read up to where no number goes on. -/
theorem IntType.head_sound {t : IntType} {b : UInt8} {s rest : Bytes} {n : Int}
    (h : t.head b s = .ok (n, rest)) :
    ∃ v, IntegerForm t v n ∧ Stops rest ∧ b :: s = v ++ rest := by
  unfold IntType.head at h
  split at h
  · rename_i hb
    subst hb
    obtain ⟨ds, hw, ⟨h0, -, hn⟩, hstops, rfl⟩ := readNumber_int_sound (ofNumber_ok h)
    exact ⟨0x2D :: ds, ⟨.inr ⟨ds, hw, h0, rfl, hn⟩, ofNumber_bounds h⟩, hstops, rfl⟩
  split at h
  · obtain ⟨ds, hw, hn, hstops, hs⟩ := readNumber_int_sound (ofNumber_ok h)
    exact ⟨ds, ⟨.inl ⟨hw, hn⟩, ofNumber_bounds h⟩, hstops, hs⟩
  · cases h

/-- A whole part has a first digit. -/
theorem Grammar.Whole.exists_cons {ds : Bytes} (h : Whole ds) :
    ∃ b t, ds = b :: t ∧ isDigit b = true := by
  rcases h with rfl | ⟨hd, -⟩
  · exact ⟨0x30, [], rfl, by decide⟩
  · obtain ⟨b, t, rfl, hb, -⟩ := hd.exists_cons
    exact ⟨b, t, rfl, hb⟩

/-- An integer in writing is read behind its sign, or from its first digit on. -/
theorem readNumber_integer {v rest : Bytes} {n : Int} (h : Integer v n) (hn : InRange n)
    (hr : Stops rest) :
    (∃ u, v = 0x2D :: u ∧ readNumber true (u ++ rest) = .ok (.int n, rest)) ∨
      ∃ b u, v = b :: u ∧ isDigit b = true ∧
        readNumber false (b :: (u ++ rest)) = .ok (.int n, rest) := by
  obtain ⟨hleast, hgreatest⟩ := hn
  obtain ⟨hw, rfl⟩ | ⟨ds, hw, h0, rfl, rfl⟩ := h
  · obtain ⟨b, u, rfl, hb⟩ := hw.exists_cons
    have hfits : decimal (b :: u) < 0x10000000000000000 := by omega
    exact .inr ⟨b, u, rfl, hb, readNumber_int_complete false hw rfl hfits hr⟩
  · have hfits : decimal ds ≤ 0x8000000000000000 := by omega
    exact .inl ⟨ds, rfl, readNumber_int_complete true hw ⟨h0, hfits, rfl⟩ (by omega) hr⟩

/-- Every written integer within the type's range is read at its first byte, a minus or a digit. -/
theorem IntType.head_complete {t : IntType} {v rest : Bytes} {n : Int} (h : IntegerForm t v n)
    (hn : InRange n) (hr : Stops rest) :
    ∃ b u, v = b :: u ∧ t.head b (u ++ rest) = .ok (n, rest) := by
  obtain ⟨hinteger, hbounds⟩ := h
  rcases readNumber_integer hinteger hn hr with ⟨u, rfl, hread⟩ | ⟨b, u, rfl, hb, hread⟩
  · refine ⟨0x2D, u, rfl, ?_⟩
    rw [IntType.head, if_pos rfl, hread, IntType.ofNumber, if_pos hbounds]
  · have hm : b ≠ 0x2D := by
      rintro rfl
      exact absurd hb (by decide)
    refine ⟨b, u, rfl, ?_⟩
    rw [IntType.head, if_neg hm, if_pos hb, hread, IntType.ofNumber, if_pos hbounds]

theorem Grammar.Whole.digit {s : Bytes} (h : Whole s) : ∀ b ∈ s, isDigit b = true := by
  rcases h with rfl | ⟨⟨-, hdigits⟩, -⟩
  · intro b hb
    rw [List.mem_singleton.mp hb]
    decide
  · exact hdigits

/-- An integer has nothing but digits behind its sign. -/
theorem Grammar.Integer.digit {s : Bytes} {n : Int} (h : Integer s n) :
    ∀ b ∈ s, b ≠ 0x2D → isDigit b = true := by
  rcases h with ⟨hwhole, -⟩ | ⟨ds, hwhole, -, rfl, -⟩
  · intro b hb _
    exact hwhole.digit b hb
  · intro b hb hne
    rcases List.mem_cons.mp hb with rfl | hb
    · exact absurd rfl hne
    · exact hwhole.digit b hb

/-- An integer is worth one number. -/
theorem Grammar.Integer.unique {s : Bytes} {m n : Int} (hm : Integer s m) (hn : Integer s n) :
    m = n := by
  have signed : ∀ {ds : Bytes}, ¬ Whole (0x2D :: ds) := fun h =>
    absurd (h.digit 0x2D List.mem_cons_self) (by decide)
  rcases hm with ⟨hw, rfl⟩ | ⟨ds, -, -, rfl, rfl⟩
  · rcases hn with ⟨-, rfl⟩ | ⟨ds, -, -, rfl, -⟩
    · rfl
    · exact absurd hw signed
  · rcases hn with ⟨hw, -⟩ | ⟨ds', -, -, heq, rfl⟩
    · exact absurd hw signed
    · cases heq
      rfl

end PlatformClient.Json
