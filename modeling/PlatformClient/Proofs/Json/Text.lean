/-
  What the readers of texts take, and what a text means.

  Both readers run to the closing quote, so what they take is the grammar's form and nothing else
  (`skipText_ok_iff`, `readText_ok_iff`).  Undoing escapes neither breaks nor mends UTF-8: escapes are
  ASCII, and what is not ASCII stands for itself (`Spells.wellFormed_iff`).
-/
import PlatformClient.Proofs.Json.Number
import PlatformClient.Proofs.Utf8

namespace PlatformClient.Json

open Grammar

/-! ## Texts that are passed over -/

/-- The reader's test of a byte that stands for itself is the grammar's. -/
theorem plain_iff {b : UInt8} : isPlain b = true ↔ Plain b := by
  simp [isPlain, Plain, and_assoc]

/-- Four hexadecimal digits are read as the number they write. -/
theorem hexQuad_ok_iff {s rest : Bytes} {n : Nat} :
    hexQuad s = .ok (n, rest) ↔
      ∃ a b c d, hexQuad? a b c d = some n ∧ s = a :: b :: c :: d :: rest := by
  constructor
  · intro h
    unfold hexQuad at h
    split at h
    · split at h
      · rename_i hq
        cases h
        exact ⟨_, _, _, _, hq, rfl⟩
      · cases h
    · cases h
  · rintro ⟨a, b, c, d, hq, rfl⟩
    simp only [hexQuad, hq]

theorem shortEscape?_u : shortEscape? 0x75 = none := by decide

/-- An escape that is passed over is one of the grammar's. -/
theorem skipEscape_sound {s rest : Bytes} (h : skipEscape s = .ok rest) :
    ∃ e, s = e ++ rest ∧ ∀ form, Spelled form → Spelled (0x5C :: (e ++ form)) := by
  unfold skipEscape at h
  split at h
  · cases h
  · rename_i b t
    split at h
    · -- an escape of one letter
      rename_i hb
      cases h
      obtain ⟨c, hc⟩ := Option.isSome_iff_exists.mp hb
      exact ⟨[b], rfl, fun form hf => .short hc hf⟩
    split at h
    · -- an escape of four digits
      rename_i hu
      subst hu
      cases hq : hexQuad t with
      | error f => rw [hq] at h; cases h
      | ok p =>
        rw [hq] at h
        cases h
        obtain ⟨x, y, z, w, hn, ht⟩ := hexQuad_ok_iff.mp hq
        exact ⟨[0x75, x, y, z, w], by rw [ht]; rfl, fun form hf => .long hn hf⟩
    · cases h

/-- Bytes that stand for themselves may be put in front of any spelling. -/
theorem spelled_plain {w form : Bytes} (hw : ∀ b ∈ w, isPlain b = true) (h : Spelled form) :
    Spelled (w ++ form) := by
  induction w with
  | nil => exact h
  | cons b w ih =>
    exact .plain (plain_iff.mp (hw b (by simp))) (ih fun c hc => hw c (by simp [hc]))

/-- One round of the skipping loop: a run of plain bytes, and then a quote, an escape or a
    refusal. -/
theorem skipText_eq (s : Bytes) :
    skipText s =
      match s.dropWhile isPlain with
      | [] => .error (.here .endInText [])
      | b :: rest =>
        if b = 0x22 then .ok rest
        else if b = 0x5C then (skipEscape rest).bind skipText
        else .error (.here .controlCharacter (b :: rest)) := by
  rw [skipText]
  split
  · rename_i h
    rw [h]
  · rename_i h
    rw [h]
    dsimp only
    split
    · rfl
    split
    · split
      · rename_i hs
        rw [hs]
        rfl
      · rename_i hs
        rw [hs]
        rfl
    · rfl

theorem dropWhile_stop {b : UInt8} (hb : isPlain b = false) (s : Bytes) :
    (b :: s).dropWhile isPlain = b :: s := List.dropWhile_cons_of_neg (by rw [hb]; decide)

theorem skipText_quote (s : Bytes) : skipText (0x22 :: s) = .ok s := by
  rw [skipText_eq, dropWhile_stop (by decide)]
  rfl

theorem skipText_plain {b : UInt8} (hb : isPlain b = true) (s : Bytes) :
    skipText (b :: s) = skipText s := by
  rw [skipText_eq, List.dropWhile_cons_of_pos hb, ← skipText_eq]

theorem skipText_escape {e s : Bytes} (h : skipEscape e = .ok s) :
    skipText (0x5C :: e) = skipText s := by
  rw [skipText_eq, dropWhile_stop (by decide)]
  simp only
  rw [if_neg (by decide), if_pos trivial, h]
  rfl

/-- What is skipped as a text has the shape of one. By the recursion of the loop, which has two ways
    on: at a quote it ends, at an escape it goes on behind it. -/
theorem skipText_sound {s rest : Bytes} (h : skipText s = .ok rest) :
    ∃ form, Spelled form ∧ s = form ++ 0x22 :: rest := by
  fun_induction skipText s with
  | case1 => cases h
  | case2 s t hs =>
    cases h
    refine ⟨s.takeWhile isPlain, ?_, ?_⟩
    · simpa using spelled_plain (fun b hb => List.mem_takeWhile_imp hb) .nil
    · rw [← hs, List.takeWhile_append_dropWhile]
  | case3 => cases h
  | case4 s t u he hs _ ih =>
    obtain ⟨form, hf, rfl⟩ := ih h
    obtain ⟨e, rfl, hc⟩ := skipEscape_sound he
    refine ⟨s.takeWhile isPlain ++ 0x5C :: (e ++ form), ?_, ?_⟩
    · exact spelled_plain (fun b hb => List.mem_takeWhile_imp hb) (hc form hf)
    · rw [List.append_assoc, List.cons_append, List.append_assoc, ← hs,
        List.takeWhile_append_dropWhile]
  | case5 => cases h

/-- Every text of the grammar is skipped, and nothing past its closing quote: inside a spelling a
    quote stands only behind a backslash. -/
theorem skipText_complete {form : Bytes} (h : Spelled form) (rest : Bytes) :
    skipText (form ++ 0x22 :: rest) = .ok rest := by
  induction h with
  | nil => exact skipText_quote rest
  | plain hb _ ih =>
    rw [List.cons_append, skipText_plain (plain_iff.mpr hb)]
    exact ih
  | short hb _ ih =>
    rw [List.cons_append, List.cons_append, skipText_escape, ih]
    rw [skipEscape, hb]
    rfl
  | long hn _ ih =>
    simp only [List.cons_append]
    rw [skipText_escape, ih]
    rw [skipEscape, shortEscape?_u, if_neg (by decide), if_pos rfl,
      hexQuad_ok_iff.mpr ⟨_, _, _, _, hn, rfl⟩]
    rfl

/-- **Texts that are passed over** are exactly those of the grammar. -/
theorem skipText_ok_iff {s rest : Bytes} :
    skipText s = .ok rest ↔ ∃ form, Spelled form ∧ s = form ++ 0x22 :: rest := by
  refine ⟨skipText_sound, ?_⟩
  rintro ⟨form, hf, rfl⟩
  exact skipText_complete hf rest

/-! ## Texts that are read -/

/-- The second half of a pair has an escape of its own. -/
theorem trailingEscape_sound {m : Nat} {s rest : Bytes} {c : Char}
    (h : trailingEscape m s = .ok (c, rest)) :
    ∃ x y z w n, hexQuad? x y z w = some n ∧ isTrailing n = true ∧
      c = Char.ofNat (joinPair m n) ∧ s = 0x5C :: 0x75 :: x :: y :: z :: w :: rest := by
  unfold trailingEscape at h
  split at h
  · cases h
  split at h
  · cases h
  -- a backslash, and behind it the mark of an escape by number
  rename_i hb
  split at h
  · cases h
  split at h
  · cases h
  rename_i hu
  split at h
  · cases h
  rename_i n v hq
  -- and the number must be that of a second half
  obtain ⟨x, y, z, w, hn, rfl⟩ := hexQuad_ok_iff.mp hq
  split at h
  · rename_i hnt
    simp only [Except.ok.injEq, Prod.mk.injEq] at h
    obtain ⟨rfl, rfl⟩ := h
    simp only [ne_eq, Decidable.not_not] at hb hu
    subst hb
    subst hu
    exact ⟨x, y, z, w, n, hn, hnt, rfl, rfl⟩
  · cases h

/-- An escape of four digits, or of a surrogate pair, spells one character. The character is said by
    its bytes, so that spellings can be put together. -/
theorem longEscape_sound {s rest : Bytes} {c : Char} (h : longEscape s = .ok (c, rest)) :
    ∃ e, s = e ++ rest ∧ ∀ form t, Spells form t →
      Spells (0x5C :: 0x75 :: (e ++ form)) (String.utf8EncodeChar c ++ t) := by
  unfold longEscape at h
  split at h
  · cases h
  rename_i m u hq
  obtain ⟨x, y, z, w, hm, rfl⟩ := hexQuad_ok_iff.mp hq
  split at h
  · cases h
  rename_i ht
  rw [Bool.not_eq_true] at ht
  split at h
  · -- a pair
    rename_i hl
    obtain ⟨x', y', z', w', n, hn, hnt, hc, rfl⟩ := trailingEscape_sound h
    rw [hc]
    exact ⟨[x, y, z, w, 0x5C, 0x75, x', y', z', w'], rfl, fun form t hf => .pair hm hl hn hnt hf⟩
  · -- a character of its own
    rename_i hl
    rw [Bool.not_eq_true] at hl
    cases h
    exact ⟨[x, y, z, w], rfl, fun form t hf => .long hm hl ht hf⟩

/-- An escape that is read spells the bytes it is read as, in front of any further spelling. -/
theorem escape_sound {s bs rest : Bytes} (h : escape s = .ok (bs, rest)) :
    ∃ e, s = e ++ rest ∧ ∀ form t, Spells form t → Spells (0x5C :: (e ++ form)) (bs ++ t) := by
  unfold escape at h
  split at h
  · cases h
  · rename_i b u
    split at h
    · rename_i c hc
      cases h
      exact ⟨[b], rfl, fun form t hf => .short hc hf⟩
    split at h
    · rename_i hu
      subst hu
      cases hl : longEscape u with
      | error f => rw [hl] at h; cases h
      | ok p =>
        rw [hl] at h
        cases h
        obtain ⟨e, rfl, hs⟩ := longEscape_sound hl
        exact ⟨0x75 :: e, rfl, hs⟩
    · cases h

/-- The two-byte escapes. -/
theorem escape_short {b c : UInt8} (h : shortEscape? b = some c) (s : Bytes) :
    escape (b :: s) = .ok ([c], s) := by
  rw [escape, h]

/-- The escapes by number. -/
theorem escape_u {s rest : Bytes} {c : Char} (h : longEscape s = .ok (c, rest)) :
    escape (0x75 :: s) = .ok (String.utf8EncodeChar c, rest) := by
  rw [escape, shortEscape?_u]
  dsimp only
  rw [if_pos rfl, h]
  rfl

/-- A number outside the surrogates is the character itself. -/
theorem longEscape_single {a b c d : UInt8} {n : Nat} (hn : hexQuad? a b c d = some n)
    (hl : isLeading n = false) (ht : isTrailing n = false) (s : Bytes) :
    longEscape (a :: b :: c :: d :: s) = .ok (Char.ofNat n, s) := by
  rw [longEscape, hexQuad_ok_iff.mpr ⟨a, b, c, d, hn, rfl⟩]
  simp only [hl, ht, Bool.false_eq_true, if_false]

/-- Two surrogates in the right order are one character. -/
theorem longEscape_pair {a b c d e f g h : UInt8} {m n : Nat} (hm : hexQuad? a b c d = some m)
    (hl : isLeading m = true) (hn : hexQuad? e f g h = some n) (ht : isTrailing n = true)
    (s : Bytes) :
    longEscape (a :: b :: c :: d :: 0x5C :: 0x75 :: e :: f :: g :: h :: s) =
      .ok (Char.ofNat (joinPair m n), s) := by
  have hmt : isTrailing m = false := by
    simp only [isLeading, isTrailing, Bool.and_eq_true, decide_eq_true_eq] at hl ⊢
    simp
    omega
  rw [longEscape, hexQuad_ok_iff.mpr ⟨a, b, c, d, hm, rfl⟩]
  simp only [hl, hmt, Bool.false_eq_true, if_false, if_true]
  rw [trailingEscape]
  simp only [ne_eq, not_true, if_false]
  rw [hexQuad_ok_iff.mpr ⟨e, f, g, h, hn, rfl⟩]
  simp only [ht, if_true]

/-- Bytes that stand for themselves may be put in front of any spelling, on both sides. -/
theorem spells_plain {w form t : Bytes} (hw : ∀ b ∈ w, isPlain b = true) (h : Spells form t) :
    Spells (w ++ form) (w ++ t) := by
  induction w with
  | nil => exact h
  | cons b w ih =>
    exact .plain (plain_iff.mp (hw b (by simp))) (ih fun c hc => hw c (by simp [hc]))

/-- One round of the reading loop. It differs from `skipText_eq` in what it gathers (in reverse) and
    in where it reports a control character. -/
theorem textBytes_eq (done s : Bytes) :
    textBytes done s =
      match s.dropWhile isPlain with
      | [] => .error (.here .endInText [])
      | b :: rest =>
        if b = 0x22 then .ok (((s.takeWhile isPlain).reverse ++ done).reverse, rest)
        else if b = 0x5C then
          (escape rest).bind fun p =>
            textBytes (p.1.reverse ++ ((s.takeWhile isPlain).reverse ++ done)) p.2
        else .error (.here .controlCharacter rest) := by
  rw [textBytes]
  split
  · rename_i h
    rw [h]
  · rename_i h
    rw [h]
    dsimp only
    split
    · rfl
    split
    · split
      · rename_i hs
        rw [hs]
        rfl
      · rename_i hs
        rw [hs]
        rfl
    · rfl

theorem textBytes_quote (done s : Bytes) : textBytes done (0x22 :: s) = .ok (done.reverse, s) := by
  rw [textBytes_eq, dropWhile_stop (by decide), List.takeWhile_cons_of_neg (by decide)]
  rfl

theorem textBytes_plain {b : UInt8} (hb : isPlain b = true) (done s : Bytes) :
    textBytes done (b :: s) = textBytes (b :: done) s := by
  rw [textBytes_eq, textBytes_eq (b :: done), List.dropWhile_cons_of_pos hb,
    List.takeWhile_cons_of_pos hb]
  simp only [List.reverse_cons, List.append_assoc, List.cons_append, List.nil_append]

theorem textBytes_escape {e bs s : Bytes} (h : escape e = .ok (bs, s)) (done : Bytes) :
    textBytes done (0x5C :: e) = textBytes (bs.reverse ++ done) s := by
  rw [textBytes_eq, dropWhile_stop (by decide), List.takeWhile_cons_of_neg (by decide)]
  simp only
  rw [if_neg (by decide), if_pos trivial, h]
  rfl

/-- What is read as a text was spelled there. The bytes gathered so far stand in front, so that the
    induction can go through the loop. -/
theorem textBytes_sound {done s bs rest : Bytes} (h : textBytes done s = .ok (bs, rest)) :
    ∃ form t, Spells form t ∧ bs = done.reverse ++ t ∧ s = form ++ 0x22 :: rest := by
  fun_induction textBytes done s with
  | case1 => cases h
  | case2 done s t done' hs =>
    cases h
    refine ⟨s.takeWhile isPlain, s.takeWhile isPlain, ?_, ?_, ?_⟩
    · simpa using spells_plain (fun b hb => List.mem_takeWhile_imp hb) .nil
    · simp [done']
    · rw [← hs, List.takeWhile_append_dropWhile]
  | case3 => cases h
  | case4 done s t done' es u he hs _ ih =>
    obtain ⟨form, t', hf, rfl, rfl⟩ := ih h
    obtain ⟨e, rfl, hc⟩ := escape_sound he
    refine ⟨s.takeWhile isPlain ++ 0x5C :: (e ++ form), s.takeWhile isPlain ++ (es ++ t'),
      ?_, ?_, ?_⟩
    · exact spells_plain (fun b hb => List.mem_takeWhile_imp hb) (hc form t' hf)
    · simp [done']
    · rw [List.append_assoc, List.cons_append, List.append_assoc, ← hs,
        List.takeWhile_append_dropWhile]
  | case5 => cases h

/-- Every spelling is read as the bytes it spells, by induction over the spelling. -/
theorem textBytes_complete {form t : Bytes} (h : Spells form t) (done rest : Bytes) :
    textBytes done (form ++ 0x22 :: rest) = .ok (done.reverse ++ t, rest) := by
  induction h generalizing done with
  | nil => simpa using textBytes_quote done rest
  | @plain b _ _ hb _ ih =>
    rw [List.cons_append, textBytes_plain (plain_iff.mpr hb), ih]
    simp
  | short hb _ ih =>
    rw [List.cons_append, List.cons_append, textBytes_escape (escape_short hb _), ih]
    simp
  | long hn hl ht _ ih =>
    simp only [List.cons_append]
    rw [textBytes_escape (escape_u (longEscape_single hn hl ht _)), ih]
    simp
  | pair hm hl hn ht _ ih =>
    simp only [List.cons_append]
    rw [textBytes_escape (escape_u (longEscape_pair hm hl hn ht _)), ih]
    simp

/-- A text is read exactly when one of its spellings stands there, closing quote included. The bytes
    that are spelled must be well-formed UTF-8, which is where an ill-formed text that is read is
    refused, while one that is skipped is not. -/
theorem readText_ok_iff {s rest : Bytes} {text : String} :
    readText s = .ok (text, rest) ↔
      ∃ form, Spells form (Utf8.encode text) ∧ s = form ++ 0x22 :: rest := by
  unfold readText
  constructor
  · intro h
    split at h
    · cases h
    rename_i hb
    obtain ⟨form, t, hf, rfl, rfl⟩ := textBytes_sound hb
    split at h
    · rename_i hd
      cases h
      exact ⟨form, (Utf8.decode_eq_ok_iff.mp hd) ▸ hf, rfl⟩
    · cases h
  · rintro ⟨form, hf, rfl⟩
    rw [textBytes_complete hf [] rest]
    simp only [List.reverse_nil, List.nil_append]
    rw [Utf8.decode_eq_ok_iff.mpr rfl]

/-- What is spelled has one meaning. -/
theorem Grammar.Spells.unique {form s t : Bytes} (hs : Spells form s) (ht : Spells form t) :
    s = t := by
  have h1 : textBytes [] (form ++ [0x22]) = .ok (s, []) := textBytes_complete hs [] []
  have h2 : textBytes [] (form ++ [0x22]) = .ok (t, []) := textBytes_complete ht [] []
  rw [h1] at h2
  cases h2
  rfl

/-! ## Meanings are well-formed -/

theorem hexDigit?_ascii {b : UInt8} {n : Nat} (h : hexDigit? b = some n) : b < 0x80 := by
  unfold hexDigit? at h
  split at h
  · exact UInt8.lt_of_le_of_lt (by assumption : _ ∧ _).2 (by decide)
  split at h
  · exact UInt8.lt_of_le_of_lt (by assumption : _ ∧ _).2 (by decide)
  split at h
  · exact UInt8.lt_of_le_of_lt (by assumption : _ ∧ _).2 (by decide)
  · cases h

/-- Escapes are written in ASCII, so they never stand in the middle of a character. -/
theorem hexQuad?_ascii {a b c d : UInt8} {n : Nat} (h : hexQuad? a b c d = some n) :
    a < 0x80 ∧ b < 0x80 ∧ c < 0x80 ∧ d < 0x80 := by
  simp only [hexQuad?, bind, Option.bind_eq_some_iff] at h
  obtain ⟨_, ha, _, hb, _, hc, _, hd, -⟩ := h
  exact ⟨hexDigit?_ascii ha, hexDigit?_ascii hb, hexDigit?_ascii hc, hexDigit?_ascii hd⟩

theorem shortEscape?_ascii {b c : UInt8} (h : shortEscape? b = some c) : b < 0x80 ∧ c < 0x80 := by
  unfold shortEscape? at h
  grind

/-- Whether a text is well-formed does not hang on the digits of an escape in front of it. -/
theorem wellFormed_hex_iff {a b c d : UInt8} {n : Nat} (h : hexQuad? a b c d = some n)
    {s : Bytes} : Utf8.WellFormed (a :: b :: c :: d :: s) ↔ Utf8.WellFormed s := by
  obtain ⟨ha, hb, hc, hd⟩ := hexQuad?_ascii h
  rw [Utf8.wellFormed_cons_iff ha, Utf8.wellFormed_cons_iff hb, Utf8.wellFormed_cons_iff hc,
    Utf8.wellFormed_cons_iff hd]

/-- In front of a character a text can be cut. -/
theorem wellFormed_char_iff {p s : Bytes} {c : Char} :
    Utf8.WellFormed (p ++ (String.utf8EncodeChar c ++ s)) ↔
      Utf8.WellFormed p ∧ Utf8.WellFormed s := by
  constructor
  · intro h
    obtain ⟨b, bs, hc, hb, -⟩ := Utf8.encodeChar_start c
    rw [hc, List.cons_append] at h
    obtain ⟨hp, hs⟩ := h.cut hb
    rw [← List.cons_append, ← hc] at hs
    exact ⟨hp, Utf8.wellFormed_encodeChar_append_iff.mp hs⟩
  · rintro ⟨hp, hs⟩
    exact hp.append (Utf8.wellFormed_encodeChar_append_iff.mpr hs)

/-- Behind anything, what is spelled is a text just if its spelling is one. -/
theorem wellFormed_append_spelling_iff {form t : Bytes} (h : Spells form t) (p : Bytes) :
    Utf8.WellFormed (p ++ form) ↔ Utf8.WellFormed (p ++ t) := by
  -- a byte that stands for itself may be part of a character, so it joins what is in front
  induction h generalizing p with
  | nil => rfl
  | @plain b s t _ _ ih => simpa using ih (p ++ [b])
  | @short b c s t hc _ ih =>
    obtain ⟨hb, hc⟩ := shortEscape?_ascii hc
    have hs : Utf8.WellFormed s ↔ Utf8.WellFormed t := ih []
    rw [Utf8.wellFormed_append_cons_iff (by decide), Utf8.wellFormed_cons_iff hb,
      Utf8.wellFormed_append_cons_iff hc, hs]
  | @long x y z w n s t hq _ _ _ ih =>
    have hs : Utf8.WellFormed s ↔ Utf8.WellFormed t := ih []
    rw [Utf8.wellFormed_append_cons_iff (by decide), Utf8.wellFormed_cons_iff (by decide),
      wellFormed_hex_iff hq, wellFormed_char_iff, hs]
  | @pair _ _ _ _ _ _ _ _ _ _ s t hm _ hn _ _ ih =>
    have hs : Utf8.WellFormed s ↔ Utf8.WellFormed t := ih []
    rw [Utf8.wellFormed_append_cons_iff (by decide), Utf8.wellFormed_cons_iff (by decide),
      wellFormed_hex_iff hm, Utf8.wellFormed_cons_iff (by decide),
      Utf8.wellFormed_cons_iff (by decide), wellFormed_hex_iff hn, wellFormed_char_iff, hs]

/-- **What is spelled is well-formed just if its spelling is.** -/
theorem Grammar.Spells.wellFormed_iff {form t : Bytes} (h : Spells form t) :
    Utf8.WellFormed form ↔ Utf8.WellFormed t := wellFormed_append_spelling_iff h []

end PlatformClient.Json
