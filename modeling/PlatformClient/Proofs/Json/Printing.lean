/-
  What is printed is JSON, and of which form.

  1. **Numbers.**  The digits of a natural number start with no zero, so that an integer is printed
     as one, worth itself.  A number of the other kind always shows a fraction or an exponent
     (`NotWhole`), by the cases of the layout; it is never taken for an integer.
  2. **Texts.**  Each character is printed as something that spells it: an escape that is read back,
     or its own bytes (`spells_renderChar`).
  3. **Values.**  An array is printed as an array of its items, and an object as an object of its
     members in their order, without white space; by induction every value is printed as a value.
-/
import PlatformClient.Json.Printer
import PlatformClient.Proofs.Json.Record

namespace PlatformClient.Json

open Grammar Utf8

/-! ## Digits -/

section Digits

variable {c : Char} {cs : List Char}

/-- A digit is one byte, with the digit's value. -/
theorem encodeChar_digit (h : c.isDigit = true) :
    ∃ b, String.utf8EncodeChar c = [b] ∧ isDigit b = true ∧ digitValue b = c.toNat - 48 ∧
      (b = 0x30 → c = '0') := by
  rw [Char.isDigit_iff_toNat, show '0'.toNat = 48 from rfl, show '9'.toNat = 57 from rfl] at h
  have hb : (UInt8.ofNat c.toNat).toNat = c.toNat := toNat_byte (by omega)
  refine ⟨UInt8.ofNat c.toNat, encodeChar_ascii (by omega), ?_, ?_, ?_⟩
  · simp only [isDigit, Bool.and_eq_true, decide_eq_true_eq, UInt8.le_iff_toNat_le, hb]
    exact h
  · rw [digitValue, hb]
  · intro hzero
    rw [← UInt8.toNat_inj, hb] at hzero
    exact Char.toNat_inj.mp hzero

/-- Rendered digits are digits of the grammar. -/
theorem encodeChars_digits (h : ∀ c ∈ cs, c.isDigit = true) :
    ∀ b ∈ encodeChars cs, isDigit b = true := by
  intro b hb
  obtain ⟨c, hc, hbc⟩ := List.mem_flatMap.mp hb
  obtain ⟨d, hd, hdigit, -⟩ := encodeChar_digit (h c hc)
  rw [hd, List.mem_singleton] at hbc
  rw [hbc]
  exact hdigit

/-- At least one digit is a run of digits. -/
theorem digits_encodeChars (hne : cs ≠ []) (h : ∀ c ∈ cs, c.isDigit = true) :
    Digits (encodeChars cs) := by
  refine ⟨?_, encodeChars_digits h⟩
  obtain ⟨c, cs, rfl⟩ := List.exists_cons_of_ne_nil hne
  rw [encodeChars_cons]
  exact List.append_ne_nil_of_left_ne_nil (encodeChar_ne_nil c) _

/-- Digits are a whole part of a number unless they start with a zero that is not alone. -/
theorem whole_encodeChars (h : ∀ d ∈ c :: cs, d.isDigit = true) (hzero : c = '0' → cs = []) :
    Whole (encodeChars (c :: cs)) := by
  by_cases hc : c = '0'
  · rw [hc, hzero hc]
    exact .inl (encodeChars_ascii ['0'] rfl)
  · refine .inr ⟨digits_encodeChars (List.cons_ne_nil c cs) h, ?_⟩
    obtain ⟨b, hb, -, -, hb0⟩ := encodeChar_digit (h c List.mem_cons_self)
    rw [encodeChars_cons, hb]
    intro hhead
    cases hhead
    exact hc (hb0 rfl)

/-- Digits are worth the same as characters and as bytes. -/
theorem decimal_encodeChars (h : ∀ c ∈ cs, c.isDigit = true) :
    decimal (encodeChars cs) = Nat.ofDigitChars 10 cs 0 := by
  have hfold : ∀ n : Nat, (encodeChars cs).foldl (fun n d => n * 10 + digitValue d) n =
      Nat.ofDigitChars 10 cs n := by
    induction cs with
    | nil => exact fun n => rfl
    | cons c cs ih =>
      intro n
      obtain ⟨b, hb, -, hvalue, -⟩ := encodeChar_digit (h c List.mem_cons_self)
      rw [encodeChars_cons, hb, List.singleton_append, List.foldl_cons, hvalue,
        Nat.ofDigitChars_cons, ih (fun d hd => h d (List.mem_cons_of_mem c hd)), Nat.mul_comm n 10]
      rfl
  exact hfold 0

end Digits

/-- The digits of a number start with no zero unless it is zero. -/
theorem toDigits_head (n : Nat) :
    ∃ c cs, Nat.toDigits 10 n = c :: cs ∧ (c = '0' → n = 0 ∧ cs = []) := by
  induction n using Nat.strongRecOn with
  | ind n ih =>
    rcases Nat.lt_or_ge n 10 with hlt | hge
    · refine ⟨n.digitChar, [], Nat.toDigits_of_lt_base hlt, ?_⟩
      intro hzero
      exact ⟨Nat.digitChar_eq_zero.mp hzero, rfl⟩
    · obtain ⟨c, cs, hcs, hzero⟩ := ih (n / 10) (by omega)
      refine ⟨c, cs ++ [(n % 10).digitChar], ?_, ?_⟩
      · rw [Nat.toDigits_eq_if (by decide), if_neg (by omega), hcs, List.cons_append]
      · intro hc
        have hquotient := (hzero hc).1
        omega

/-- The digits of a number are digits. -/
theorem toDigits_isDigit (n : Nat) : ∀ c ∈ Nat.toDigits 10 n, c.isDigit = true :=
  fun _ hc => Nat.isDigit_of_mem_toDigits (by decide) (by decide) hc

/-- Numbers are rendered without a leading zero, except for zero itself. -/
theorem whole_toDigits (n : Nat) : Whole (encodeChars (Nat.toDigits 10 n)) := by
  obtain ⟨c, cs, hcs, hzero⟩ := toDigits_head n
  have hdigits := toDigits_isDigit n
  rw [hcs] at hdigits ⊢
  exact whole_encodeChars hdigits fun hc => (hzero hc).2

/-- The digits of a number write that number. -/
theorem decimal_toDigits (n : Nat) : decimal (encodeChars (Nat.toDigits 10 n)) = n := by
  rw [decimal_encodeChars (toDigits_isDigit n), Nat.ofDigitChars_ten_toDigits]

/-! ## Numbers -/

/-- An integer is written as one. -/
theorem integer_rendered (n : Int) : Integer (encodeChars (renderNumber (.int n))) n := by
  cases n with
  | ofNat n =>
    have htext : renderNumber (.int (Int.ofNat n)) = Nat.toDigits 10 n := Nat.toList_repr
    rw [htext]
    refine .inl ⟨whole_toDigits n, ?_⟩
    rw [decimal_toDigits]
    rfl
  | negSucc n =>
    have htext : renderNumber (.int (Int.negSucc n)) = '-' :: Nat.toDigits 10 (n + 1) := by
      show ("-" ++ Nat.repr (n + 1)).toList = _
      rw [String.toList_append, Nat.toList_repr]
      rfl
    rw [htext]
    refine .inr ⟨encodeChars (Nat.toDigits 10 (n + 1)), whole_toDigits (n + 1), ?_, rfl, ?_⟩
    · rw [decimal_toDigits]
      exact Nat.succ_ne_zero n
    · rw [decimal_toDigits]
      rfl

/-- A number without sign that is written with a fraction or an exponent. -/
def NotWhole (s : Bytes) : Prop :=
  ∃ whole fraction exponent, Whole whole ∧ Fraction fraction ∧ Exponent exponent ∧
    (fraction ≠ [] ∨ exponent ≠ []) ∧ s = whole ++ fraction ++ exponent

/-- Something with a point in it is not read as an integer. -/
theorem notWhole_point {whole part : List Char} (hwhole : Whole (encodeChars whole))
    (hne : part ≠ []) (hpart : ∀ c ∈ part, c.isDigit = true) :
    NotWhole (encodeChars (whole ++ '.' :: part)) := by
  refine ⟨encodeChars whole, 0x2E :: encodeChars part, [], hwhole,
    .inr ⟨_, digits_encodeChars hne hpart, rfl⟩, .inl rfl, .inl (List.cons_ne_nil _ _), ?_⟩
  rw [encodeChars_append, encodeChars_cons, List.append_nil]
  rfl

/-- A mantissa of one digit, or of one digit and a fraction. -/
theorem notWhole_exponent {c : Char} {cs sign : List Char} (hdigits : ∀ d ∈ c :: cs, d.isDigit = true)
    (hsign : sign = ['+'] ∨ sign = ['-']) (e : Nat) :
    NotWhole (encodeChars ((if cs = [] then [c] else c :: '.' :: cs) ++
      'e' :: sign ++ Nat.toDigits 10 e)) := by
  have hwhole : Whole (encodeChars [c]) :=
    whole_encodeChars (by simpa using hdigits c List.mem_cons_self) fun _ => rfl
  have he : Digits (encodeChars (Nat.toDigits 10 e)) :=
    digits_encodeChars Nat.toDigits_ne_nil (toDigits_isDigit e)
  have hexponent : Exponent (encodeChars ('e' :: sign ++ Nat.toDigits 10 e)) := by
    refine .inr ⟨0x65, encodeChars sign, _, by decide, ?_, he, ?_⟩
    · rcases hsign with rfl | rfl
      · rw [encodeChars_ascii ['+'] rfl]
        decide
      · rw [encodeChars_ascii ['-'] rfl]
        decide
    · rw [encodeChars_append, encodeChars_cons]
      rfl
  -- the exponent alone makes it no whole number
  have hmore : encodeChars ('e' :: sign ++ Nat.toDigits 10 e) ≠ [] := by
    rw [encodeChars_append]
    exact List.append_ne_nil_of_right_ne_nil _ he.1
  rw [List.append_assoc, encodeChars_append]
  by_cases hcs : cs = []
  · rw [if_pos hcs]
    exact ⟨_, [], _, hwhole, .inl rfl, hexponent, .inr hmore, by rw [List.append_nil]⟩
  · rw [if_neg hcs]
    have hpart := digits_encodeChars hcs fun d hd => hdigits d (List.mem_cons_of_mem c hd)
    refine ⟨_, _, _, hwhole, .inr ⟨_, hpart, rfl⟩, hexponent, .inr hmore, ?_⟩
    rw [← List.singleton_append, encodeChars_append, encodeChars_cons]
    rfl

/-- Every decimal is laid out with a fraction or an exponent. -/
theorem notWhole_layout (x : Binary64.Decimal) :
    NotWhole (encodeChars (Binary64.layout.render x).toList) := by
  obtain ⟨c, cs, hds, hzero⟩ := toDigits_head x.digits
  have hdigits := toDigits_isDigit x.digits
  unfold Binary64.Layout.render
  dsimp only
  rw [hds] at hdigits ⊢
  split
  · -- zero
    exact ⟨[0x30], [0x2E, 0x30], [], .inl rfl, .inr ⟨[0x30], ⟨by simp, by simp [isDigit]⟩, rfl⟩,
      .inl rfl, .inl (by simp), by decide +kernel⟩
  rename_i hne
  have hc : c ≠ '0' := fun h => hne (hzero h).1
  generalize hpoint : (((c :: cs).length : Nat) : Int) + x.exponent = point
  split
  · -- with an exponent
    have hsign : ∃ sign, (sign = ['+'] ∨ sign = ['-']) ∧
        (if 0 ≤ point - 1 then Binary64.layout.raised else Binary64.layout.lowered).toList =
          'e' :: sign := by
      split
      · exact ⟨['+'], .inl rfl, by decide +kernel⟩
      · exact ⟨['-'], .inr rfl, by decide +kernel⟩
    obtain ⟨sign, hsign, hmark⟩ := hsign
    have hform := notWhole_exponent hdigits hsign (point - 1).natAbs
    rw [String.toList_append, String.toList_append, String.toList_ofList, Nat.toList_repr, hmark]
    cases cs with
    | nil => exact hform
    | cons d ds => exact hform
  split
  · -- behind zeros
    have hpart : ∀ d ∈ List.replicate (-point).toNat '0' ++ c :: cs, d.isDigit = true := by
      intro d hd
      rcases List.mem_append.mp hd with hd | hd
      · rw [List.eq_of_mem_replicate hd]
        decide
      · exact hdigits d hd
    have hwhole : Whole (encodeChars ['0']) := .inl (encodeChars_ascii ['0'] rfl)
    have htext : ("0." ++ String.ofList (List.replicate (-point).toNat '0' ++ c :: cs)).toList =
        ['0'] ++ '.' :: (List.replicate (-point).toNat '0' ++ c :: cs) := by
      rw [String.toList_append, @String.toList_ofList (_ ++ _)]
      rfl
    rw [htext]
    exact notWhole_point hwhole (by simp) hpart
  · -- with the point among the digits, or behind them
    rename_i hpos
    obtain ⟨k, hk⟩ : ∃ k, point.toNat = k + 1 := ⟨point.toNat - 1, by omega⟩
    rw [String.toList_ofList, hk, List.take_succ_cons, List.cons_append]
    have hwhole : ∀ d ∈ c :: (cs.take k ++ List.replicate (k + 1 - (c :: cs).length) '0'),
        d.isDigit = true := by
      intro d hd
      rcases List.mem_cons.mp hd with rfl | hd
      · exact hdigits _ List.mem_cons_self
      rcases List.mem_append.mp hd with hd | hd
      · exact hdigits d (List.mem_cons_of_mem c (List.mem_of_mem_take hd))
      · rw [List.eq_of_mem_replicate hd]
        decide
    refine notWhole_point (whole_encodeChars hwhole fun h => absurd h hc) ?_ ?_
    · split
      · exact List.cons_ne_nil _ _
      · rename_i hpart
        simpa using hpart
    · split
      · simp
      · intro d hd
        exact hdigits d (List.mem_of_mem_drop hd)

/-- A float is rendered with a sign or none and then in a form that is no whole number: `1.0` and
    `1e100`, never `1`. So what was a float is never read back as an integer. -/
theorem float_rendered (x : Binary64) :
    ∃ sign t, sign ∈ [[], [0x2D]] ∧ NotWhole t ∧
      encodeChars (renderNumber (.float x)) = sign ++ t := by
  have htext : renderNumber (.float x) =
      (if x.negative then "-" else "").toList ++ (Binary64.layout.render (Binary64.shortest x.code)).toList :=
    String.toList_append
  refine ⟨encodeChars (if x.negative then "-" else "").toList, _, ?_,
    notWhole_layout (Binary64.shortest x.code), ?_⟩
  · cases x.negative with
    | false => decide +kernel
    | true => decide +kernel
  · rw [htext, encodeChars_append]

/-- Every number is rendered as a number of the grammar. -/
theorem numeral_renderNumber (n : Number) : Numeral (encodeChars (renderNumber n)) := by
  cases n with
  | int n => exact (integer_rendered n).numeral
  | float x =>
    obtain ⟨sign, t, hsign, ⟨whole, fraction, exponent, hw, hf, he, -, rfl⟩, htext⟩ :=
      float_rendered x
    exact ⟨sign, whole, fraction, exponent, hsign, hw, hf, he, by simpa using htext⟩

/-- A number of the other kind is not written as an integer. -/
theorem float_not_integer (x : Binary64) (n : Int) :
    ¬ Integer (encodeChars (renderNumber (.float x))) n := by
  obtain ⟨sign, t, -, ⟨whole, fraction, exponent, -, hf, he, hmore, rfl⟩, htext⟩ := float_rendered x
  -- a fraction shows a point, and an exponent its mark
  obtain ⟨b, hb, hne, hdigit⟩ : ∃ b ∈ fraction ++ exponent, b ≠ 0x2D ∧ isDigit b = false := by
    rcases hf with rfl | ⟨ds, -, rfl⟩
    · rcases he with rfl | ⟨mark, esign, ds, hmark, -, -, rfl⟩
      · simp at hmore
      · refine ⟨mark, by simp, ?_, (exponentMark_ne hmark).2⟩
        rintro rfl
        exact absurd hmark (by decide)
    · exact ⟨0x2E, by simp, by decide, by decide⟩
  intro hinteger
  have hmem : b ∈ encodeChars (renderNumber (.float x)) := by
    rw [htext, List.append_assoc]
    exact List.mem_append_right _ (List.mem_append_right _ hb)
  have := hinteger.digit b hmem hne
  rw [hdigit] at this
  cases this

/-! ## Texts -/

/-- A byte of a character outside ASCII stands for itself. -/
theorem isPlain_of_high {b : UInt8} (h : 0x80 ≤ b) : isPlain b = true := by
  rw [plain_iff, Plain]
  refine ⟨UInt8.le_trans (by decide) h, ?_, ?_⟩
  · rintro rfl
    exact absurd h (by decide)
  · rintro rfl
    exact absurd h (by decide)

/-- Apart from quote, backslash and controls, the bytes of a character stand for themselves. -/
theorem isPlain_encodeChar {c : Char} (hlow : 0x20 ≤ c.toNat) (hquote : c ≠ '"')
    (hslash : c ≠ '\\') : ∀ b ∈ String.utf8EncodeChar c, isPlain b = true := by
  rcases Nat.lt_or_ge c.toNat 0x80 with hascii | hhigh
  · intro b hb
    rw [encodeChar_ascii hascii, List.mem_singleton] at hb
    have hbyte : (UInt8.ofNat c.toNat).toNat = c.toNat := toNat_byte (by omega)
    rw [hb, plain_iff, Plain, UInt8.le_iff_toNat_le, hbyte]
    refine ⟨hlow, ?_, ?_⟩
    · intro h
      rw [← UInt8.toNat_inj, hbyte] at h
      exact hquote (Char.toNat_inj.mp h)
    · intro h
      rw [← UInt8.toNat_inj, hbyte] at h
      exact hslash (Char.toNat_inj.mp h)
  · intro b hb
    exact isPlain_of_high (encodeChar_high hhigh b hb)

/-- The escapes of one letter are those that are read. -/
theorem letterEscapes_read : ∀ p ∈ letterEscapes, p.1.toNat < 0x80 ∧ p.2.toNat < 0x80 ∧
    shortEscape? (UInt8.ofNat p.2.toNat) = some (UInt8.ofNat p.1.toNat) := by
  decide

/-- So are those by number. -/
theorem controlDigits_read : ∀ n < 0x20,
    hexQuad? 0x30 0x30 (UInt8.ofNat (n / 16).digitChar.toNat) (UInt8.ofNat (n % 16).digitChar.toNat)
        = some n ∧
      (n / 16).digitChar.toNat < 0x80 ∧ (n % 16).digitChar.toNat < 0x80 ∧
      isLeading n = false ∧ isTrailing n = false := by
  decide

/-- A rendered character, escaped or not, spells the bytes of the character. The cases are those of
    the printer: the two-byte escapes, the other control characters by number, and everything else
    as it is. -/
theorem spells_renderChar (c : Char) {form t : Bytes} (h : Spells form t) :
    Spells (encodeChars (renderChar c) ++ form) (String.utf8EncodeChar c ++ t) := by
  unfold renderChar
  cases hletter : letterEscapes.lookup c with
  | some letter =>
    obtain ⟨before, after, hsplit, -⟩ := List.lookup_eq_some_iff.mp hletter
    have hmem : (c, letter) ∈ letterEscapes := by simp [hsplit]
    obtain ⟨hc, hl, hread⟩ := letterEscapes_read (c, letter) hmem
    dsimp only
    rw [encodeChars_cons, encodeChars_cons, encodeChar_ascii hl, encodeChar_ascii hc]
    exact .short hread h
  | none =>
    have hne : ∀ d ∈ letterEscapes.map Prod.fst, c ≠ d := by
      intro d hd
      obtain ⟨p, hp, rfl⟩ := List.mem_map.mp hd
      simpa using List.lookup_eq_none_iff.mp hletter p hp
    dsimp only
    split
    · -- a control without a letter
      rename_i hcontrol
      obtain ⟨hquad, hd1, hd2, hlead, htrail⟩ := controlDigits_read c.toNat hcontrol
      have hlong := Spells.long hquad hlead htrail h
      rw [Char.ofNat_toNat] at hlong
      have hdigits : encodeChars (controlDigits c.toNat) =
          [UInt8.ofNat (c.toNat / 16).digitChar.toNat,
            UInt8.ofNat (c.toNat % 16).digitChar.toNat] := by
        show String.utf8EncodeChar _ ++ (String.utf8EncodeChar _ ++ []) = _
        rw [encodeChar_ascii hd1, encodeChar_ascii hd2]
        rfl
      rw [encodeChars_append, hdigits]
      exact hlong
    · rename_i hlow
      have hplain := isPlain_encodeChar (Nat.not_lt.mp hlow) (hne '"' (by decide))
        (hne '\\' (by decide))
      rw [encodeChars_cons, encodeChars, List.flatMap_nil, List.append_nil]
      exact spells_plain hplain h

/-- What stands between the quotes of a written text. -/
def spelling (s : String) : Bytes := encodeChars (s.toList.flatMap renderChar)

/-- The rendering of a text is one of its spellings. -/
theorem spells_spelling (s : String) : Spells (spelling s) (Utf8.encode s) := by
  have hchars : ∀ cs : List Char, Spells (encodeChars (cs.flatMap renderChar)) (encodeChars cs) := by
    intro cs
    induction cs with
    | nil => exact .nil
    | cons c cs ih =>
      rw [List.flatMap_cons, encodeChars_append, encodeChars_cons]
      exact spells_renderChar c ih
  exact hchars s.toList

/-- Between the quotes there is nothing but the spelling. -/
theorem encodeChars_renderText (s : String) :
    encodeChars (renderText s) = 0x22 :: spelling s ++ [0x22] := by
  rw [renderText, encodeChars_append, encodeChars_cons]
  rfl

/-! ## Values -/

/-- The bytes of a value are those of its characters. -/
theorem toBytes_eq (v : Json) : v.toBytes = encodeChars v.renderChars := encode_ofList _

/-- A printed text is a written form of that text. -/
theorem textForm_toBytes (s : String) : TextForm (Json.text s).toBytes s := by
  refine ⟨spelling s, spells_spelling s, ?_⟩
  rw [toBytes_eq, renderChars, encodeChars_renderText]

/-- The written form of a value in an array. -/
def writtenItem (v : Json) : Item := ⟨[], v.toBytes, []⟩

/-- The written form of a member of an object. -/
def writtenMember (m : String × Json) : Member := ⟨[], spelling m.1, [], writtenItem m.2⟩

theorem writtenMember_named (m : String × Json) : (writtenMember m).Named m.1 :=
  spells_spelling m.1

/-- The printer puts no white space around an item. -/
theorem writtenItem_spaced (v : Json) : (writtenItem v).Spaced := ⟨blank_nil, blank_nil⟩

theorem text_writtenItem (v : Json) : (writtenItem v).text = encodeChars v.renderChars := by
  rw [Item.text, writtenItem, List.nil_append, List.append_nil, toBytes_eq]

theorem text_writtenMember (m : String × Json) :
    (writtenMember m).text = encodeChars (renderText m.1) ++ 0x3A :: encodeChars m.2.renderChars := by
  rw [Member.text, encodeChars_renderText, writtenMember, text_writtenItem]
  simp

/-- Items behind the first are printed with a comma in front, which is how the grammar lists
    them. -/
theorem encodeChars_renderItems (vs : List Json) :
    encodeChars (renderItems vs) = further ((vs.map writtenItem).map Item.text) := by
  induction vs with
  | nil => rfl
  | cons v vs ih =>
    rw [renderItems, encodeChars_append, encodeChars_cons, ih, List.map_cons, List.map_cons,
      further_cons, text_writtenItem]
    rfl

/-- Likewise the members. -/
theorem encodeChars_renderMembers (ms : List (String × Json)) :
    encodeChars (renderMembers ms) = further ((ms.map writtenMember).map Member.text) := by
  induction ms with
  | nil => rfl
  | cons m ms ih =>
    have hcomma : String.utf8EncodeChar ',' = [0x2C] := encodeChar_ascii (by decide)
    have hcolon : String.utf8EncodeChar ':' = [0x3A] := encodeChar_ascii (by decide)
    rw [renderMembers, encodeChars_append, encodeChars_append, ih, List.map_cons, List.map_cons,
      further_cons, text_writtenMember, encodeChars_cons, encodeChars_cons, hcomma, hcolon]
    simp only [List.append_assoc, List.cons_append, List.nil_append]

/-- A printed array is its items with a comma between each two. -/
theorem toBytes_array (vs : List Json) : (Json.array vs).toBytes =
    0x5B :: separated ((vs.map writtenItem).map Item.text) ++ [0x5D] := by
  rw [toBytes_eq]
  cases vs with
  | nil =>
    rw [renderChars]
    exact encodeChars_ascii _ rfl
  | cons v vs =>
    rw [renderChars, encodeChars_append, encodeChars_append, encodeChars_cons,
      encodeChars_renderItems, List.map_cons, List.map_cons, separated_cons, text_writtenItem]
    rfl

/-- A printed object is its members with a comma between each two. -/
theorem toBytes_object (ms : List (String × Json)) : (Json.object ms).toBytes =
    0x7B :: separated ((ms.map writtenMember).map Member.text) ++ [0x7D] := by
  rw [toBytes_eq]
  cases ms with
  | nil =>
    rw [renderChars]
    exact encodeChars_ascii _ rfl
  | cons m ms =>
    have hopen : String.utf8EncodeChar '\x7b' = [0x7B] := encodeChar_ascii (by decide)
    have hcolon : String.utf8EncodeChar ':' = [0x3A] := encodeChar_ascii (by decide)
    have hclose : encodeChars ['\x7d'] = [0x7D] := encodeChars_ascii _ rfl
    rw [renderChars, encodeChars_append, encodeChars_append, encodeChars_append, encodeChars_cons,
      encodeChars_cons, encodeChars_renderMembers, List.map_cons, List.map_cons, separated_cons,
      text_writtenMember, hopen, hcolon, hclose]
    simp only [List.append_assoc, List.cons_append, List.nil_append]

/-- Parts with nothing but commas between them are what the grammar allows inside a container. -/
theorem inside_separated (parts : List Bytes) : Inside parts (separated parts) := by
  cases parts with
  | nil => exact .inl ⟨rfl, blank_nil⟩
  | cons p ps => exact .inr ⟨List.cons_ne_nil p ps, rfl⟩

/-- An array whose items are printed as values is printed as an array with these items. -/
theorem array_toBytes {vs : List Json} (h : ∀ v ∈ vs, Value v.toBytes) :
    Grammar.Array (vs.map writtenItem) (Json.array vs).toBytes := by
  refine ⟨?_, _, inside_separated _, toBytes_array vs⟩
  intro i hi
  obtain ⟨v, hv, rfl⟩ := List.mem_map.mp hi
  exact ⟨writtenItem_spaced v, h v hv⟩

/-- An object whose values are printed as values is printed as an object with these members. -/
theorem object_toBytes {ms : List (String × Json)} (h : ∀ m ∈ ms, Value m.2.toBytes) :
    Object (ms.map writtenMember) (Json.object ms).toBytes := by
  refine ⟨?_, _, inside_separated _, toBytes_object ms⟩
  intro o ho
  obtain ⟨m, hm, rfl⟩ := List.mem_map.mp ho
  exact ⟨⟨blank_nil, blank_nil, writtenItem_spaced m.2⟩, (spells_spelling m.1).spelled, h m hm⟩

theorem toBytes_null : Json.null.toBytes = 0x6E :: nullTail := by
  rw [toBytes_eq, renderChars]
  exact encodeChars_ascii _ rfl

theorem toBytes_bool (b : Bool) :
    (Json.bool b).toBytes = if b then 0x74 :: trueTail else 0x66 :: falseTail := by
  rw [toBytes_eq]
  cases b with
  | true =>
    rw [renderChars]
    exact encodeChars_ascii _ rfl
  | false =>
    rw [renderChars]
    exact encodeChars_ascii _ rfl

/-- Every value is written as one. -/
theorem value_toBytes : ∀ v : Json, Value v.toBytes
  | .null => by
    rw [toBytes_null]
    exact .word (by simp)
  | .bool true => by
    rw [toBytes_bool, if_pos rfl]
    exact .word (by simp)
  | .bool false => by
    rw [toBytes_bool, if_neg Bool.false_ne_true]
    exact .word (by simp)
  | .number n => by
    rw [toBytes_eq, renderChars]
    exact .numeral (numeral_renderNumber n)
  | .text s => (textForm_toBytes s).value
  | .array vs => (array_toBytes fun v hv => value_toBytes v).value
  | .object ms => (object_toBytes fun m hm => value_toBytes m.2).value
termination_by v => sizeOf v
decreasing_by
  · have := List.sizeOf_lt_of_mem hv
    simp only [Json.array.sizeOf_spec]
    omega
  · have := List.sizeOf_lt_of_mem hm
    obtain ⟨name, v⟩ := m
    simp only [Json.object.sizeOf_spec, Prod.mk.sizeOf_spec] at this ⊢
    omega

/-- A printed array is an array of the grammar. -/
theorem array_printed (vs : List Json) :
    Grammar.Array (vs.map writtenItem) (Json.array vs).toBytes :=
  array_toBytes fun v _ => value_toBytes v

/-- A printed object is an object of the grammar. -/
theorem object_printed (ms : List (String × Json)) :
    Object (ms.map writtenMember) (Json.object ms).toBytes :=
  object_toBytes fun m _ => value_toBytes m.2

/-! ## The kind of a value -/

/-- A number starts with a minus or a digit. -/
theorem Grammar.Numeral.first {s : Bytes} (h : Numeral s) :
    ∃ b u, s = b :: u ∧ (b = 0x2D ∨ isDigit b = true) := by
  rcases numeral_iff.mp h with hu | ⟨t, -, rfl⟩
  · obtain ⟨b, u, rfl, hb⟩ := hu.first
    exact ⟨b, u, rfl, .inr hb⟩
  · exact ⟨0x2D, t, rfl, .inl rfl⟩

/-- A value that is neither a number nor a text starts with a letter, a bracket or a brace. -/
theorem toBytes_head (v : Json) :
    (∃ n, v = .number n) ∨ (∃ t, v = .text t) ∨
      ∃ b ∈ [0x6E, 0x74, 0x66, 0x5B, 0x7B], v.toBytes.head? = some b := by
  cases v with
  | null => exact .inr (.inr ⟨0x6E, by decide, by rw [toBytes_null]; rfl⟩)
  | bool b =>
    cases b with
    | true => exact .inr (.inr ⟨0x74, by decide, by rw [toBytes_bool]; rfl⟩)
    | false => exact .inr (.inr ⟨0x66, by decide, by rw [toBytes_bool]; rfl⟩)
  | number n => exact .inl ⟨n, rfl⟩
  | text s => exact .inr (.inl ⟨s, rfl⟩)
  | array vs => exact .inr (.inr ⟨0x5B, by decide, by rw [toBytes_array]; rfl⟩)
  | object ms => exact .inr (.inr ⟨0x7B, by decide, by rw [toBytes_object]; rfl⟩)

theorem toBytes_number (n : Number) : (Json.number n).toBytes = encodeChars (renderNumber n) := by
  rw [toBytes_eq, renderChars]

/-- Nothing else is written as an integer. -/
theorem integer_toBytes_iff {v : Json} {n : Int} :
    Integer v.toBytes n ↔ v = .number (.int n) := by
  constructor
  · intro h
    obtain ⟨b, u, hbu, hb⟩ := h.numeral.first
    rcases toBytes_head v with ⟨m, rfl⟩ | ⟨s, rfl⟩ | ⟨c, hc, hhead⟩
    · rw [toBytes_number] at h
      cases m with
      | int m => rw [(integer_rendered m).unique h]
      | float x => exact absurd h (float_not_integer x n)
    · obtain ⟨form, -, hform⟩ := textForm_toBytes s
      rw [hform, List.cons_append] at hbu
      rw [← (List.cons.inj hbu).1] at hb
      exact absurd hb (by decide)
    · rw [hbu] at hhead
      cases hhead
      simp only [List.mem_cons, List.not_mem_nil, or_false] at hc
      rcases hc with rfl | rfl | rfl | rfl | rfl <;> exact absurd hb (by decide)
  · rintro rfl
    rw [toBytes_number]
    exact integer_rendered n

/-- Nothing else is written as a text. -/
theorem textForm_toBytes_iff {v : Json} {t : String} : TextForm v.toBytes t ↔ v = .text t := by
  constructor
  · rintro ⟨form, hform, hv⟩
    rcases toBytes_head v with ⟨m, rfl⟩ | ⟨s, rfl⟩ | ⟨c, hc, hhead⟩
    · obtain ⟨b, u, hbu, hb⟩ := (numeral_renderNumber m).first
      rw [toBytes_number, hbu, List.cons_append] at hv
      rw [(List.cons.inj hv).1] at hb
      exact absurd hb (by decide)
    · obtain ⟨form', hform', hs⟩ := textForm_toBytes s
      have heq : form' = form := by simpa using hs.symm.trans hv
      rw [heq] at hform'
      rw [encode_injective (hform'.unique hform)]
    · rw [hv] at hhead
      cases hhead
      exact absurd hc (by decide)
  · rintro rfl
    exact textForm_toBytes t

end PlatformClient.Json
