/-
  UTF-8 — the strict reading undoes the encoding, and accepts nothing else.
-/
import PlatformClient.Text.Utf8

namespace PlatformClient.Utf8

/-! ## Well-formed sequences -/

/-- The well-formed sequences of the Unicode standard, and the code points they stand for. -/
inductive Sequence : Nat → Bytes → Prop
  | one {n : Nat} : n < 0x80 → Sequence n [UInt8.ofNat n]
  | two {n x : Nat} : 2 ≤ n → n < 32 → x < 64 →
      Sequence (n * 64 + x) [UInt8.ofNat (n + 0xC0), UInt8.ofNat (x + 0x80)]
  | three {n x y : Nat} : n < 16 → x < 64 → y < 64 → (n = 0 → 32 ≤ x) → (n = 13 → x < 32) →
      Sequence ((n * 64 + x) * 64 + y)
        [UInt8.ofNat (n + 0xE0), UInt8.ofNat (x + 0x80), UInt8.ofNat (y + 0x80)]
  | four {n x y z : Nat} : n < 5 → x < 64 → y < 64 → z < 64 → (n = 0 → 16 ≤ x) →
      (n = 4 → x < 16) →
      Sequence (((n * 64 + x) * 64 + y) * 64 + z)
        [UInt8.ofNat (n + 0xF0), UInt8.ofNat (x + 0x80), UInt8.ofNat (y + 0x80),
          UInt8.ofNat (z + 0x80)]

theorem toNat_char {n : Nat} (h : n.isValidChar) : (Char.ofNat n).toNat = n := by
  rw [Char.ofNat, dif_pos h]
  rfl

theorem Sequence.valid {n : Nat} {bs : Bytes} (h : Sequence n bs) : n.isValidChar := by
  have hv : n < 0xD800 ∨ 0xDFFF < n ∧ n < 0x110000 := by cases h <;> omega
  exact hv

/-- The bytes of a character, by the size of its number: the four ranges of UTF-8 with the bits that
    each byte carries. -/
theorem encodeChar_eq {c : Char} {v : Nat} (h : c.toNat = v) :
    String.utf8EncodeChar c =
      if v ≤ 0x7F then [UInt8.ofNat v]
      else if v ≤ 0x7FF then [UInt8.ofNat (v / 64 % 32 + 0xC0), UInt8.ofNat (v % 64 + 0x80)]
      else if v ≤ 0xFFFF then
        [UInt8.ofNat (v / 4096 % 16 + 0xE0), UInt8.ofNat (v / 64 % 64 + 0x80),
          UInt8.ofNat (v % 64 + 0x80)]
      else [UInt8.ofNat (v / 262144 % 8 + 0xF0), UInt8.ofNat (v / 4096 % 64 + 0x80),
        UInt8.ofNat (v / 64 % 64 + 0x80), UInt8.ofNat (v % 64 + 0x80)] := by
  subst h
  rfl

/-- The encoding of a character is a sequence of its code point. -/
theorem sequence_encodeChar (c : Char) : Sequence c.toNat (String.utf8EncodeChar c) := by
  have hv : c.toNat < 0xD800 ∨ 0xDFFF < c.toNat ∧ c.toNat < 0x110000 := c.valid
  rw [encodeChar_eq rfl]
  generalize c.toNat = v at hv
  split
  · exact .one (by omega)
  split
  · have := Sequence.two (n := v / 64 % 32) (x := v % 64) (by omega) (by omega) (by omega)
    rwa [show v / 64 % 32 * 64 + v % 64 = v by omega] at this
  split
  · have := Sequence.three (n := v / 4096 % 16) (x := v / 64 % 64) (y := v % 64) (by omega)
      (by omega) (by omega) (by omega) (by omega)
    rwa [show (v / 4096 % 16 * 64 + v / 64 % 64) * 64 + v % 64 = v by omega] at this
  · have := Sequence.four (n := v / 262144 % 8) (x := v / 4096 % 64) (y := v / 64 % 64)
      (z := v % 64) (by omega) (by omega) (by omega) (by omega) (by omega) (by omega)
    rwa [show ((v / 262144 % 8 * 64 + v / 4096 % 64) * 64 + v / 64 % 64) * 64 + v % 64 = v by
      omega] at this

/-- An ASCII character is its own byte. -/
theorem encodeChar_ascii {c : Char} (h : c.toNat < 0x80) :
    String.utf8EncodeChar c = [UInt8.ofNat c.toNat] := by
  rw [encodeChar_eq rfl, if_pos (by omega)]

/-- A code point has no other sequence. -/
theorem Sequence.encodeChar {n : Nat} {bs : Bytes} (h : Sequence n bs) :
    String.utf8EncodeChar (Char.ofNat n) = bs := by
  rw [encodeChar_eq (toNat_char h.valid)]
  cases h with
  | one => rw [if_pos (by omega)]
  | @two n x =>
    rw [if_neg (by omega), if_pos (by omega), show (n * 64 + x) / 64 % 32 = n by omega,
      show (n * 64 + x) % 64 = x by omega]
  | @three n x y =>
    rw [if_neg (by omega), if_neg (by omega), if_pos (by omega),
      show ((n * 64 + x) * 64 + y) / 4096 % 16 = n by omega,
      show ((n * 64 + x) * 64 + y) / 64 % 64 = x by omega,
      show ((n * 64 + x) * 64 + y) % 64 = y by omega]
  | @four n x y z =>
    rw [if_neg (by omega), if_neg (by omega), if_neg (by omega),
      show (((n * 64 + x) * 64 + y) * 64 + z) / 262144 % 8 = n by omega,
      show (((n * 64 + x) * 64 + y) * 64 + z) / 4096 % 64 = x by omega,
      show (((n * 64 + x) * 64 + y) * 64 + z) / 64 % 64 = y by omega,
      show (((n * 64 + x) * 64 + y) * 64 + z) % 64 = z by omega]

/-! ## The lead byte and the bytes that follow it -/

theorem eq_byte {b : UInt8} {n : Nat} (h : b.toNat = n) : b = UInt8.ofNat n := by
  rw [← h, UInt8.ofNat_toNat]

theorem toNat_byte {n : Nat} (h : n < 256) : (UInt8.ofNat n).toNat = n := by
  rw [UInt8.toNat_ofNat']
  omega

/-- Any other character has none of the bytes of ASCII. -/
theorem encodeChar_high {c : Char} (h : 0x80 ≤ c.toNat) :
    ∀ b ∈ String.utf8EncodeChar c, 0x80 ≤ b := by
  have hbyte : ∀ n, 0x80 ≤ n → n < 0x100 → (0x80 : UInt8) ≤ UInt8.ofNat n := by
    intro n hlow hhigh
    rw [UInt8.le_iff_toNat_le, toNat_byte hhigh]
    exact hlow
  have hseq := sequence_encodeChar c
  generalize c.toNat = v, String.utf8EncodeChar c = bs at h hseq
  intro b hb
  cases hseq with
  | one hlt => omega
  | two =>
    simp only [List.mem_cons, List.not_mem_nil, or_false] at hb
    rcases hb with rfl | rfl <;> exact hbyte _ (by omega) (by omega)
  | three =>
    simp only [List.mem_cons, List.not_mem_nil, or_false] at hb
    rcases hb with rfl | rfl | rfl <;> exact hbyte _ (by omega) (by omega)
  | four =>
    simp only [List.mem_cons, List.not_mem_nil, or_false] at hb
    rcases hb with rfl | rfl | rfl | rfl <;> exact hbyte _ (by omega) (by omega)

/-- The two-byte leads carry five bits. `0xC0` and `0xC1` are no leads: they would write what one
    byte writes. -/
theorem lead?_two {n : Nat} (h1 : 2 ≤ n) (h2 : n < 32) :
    lead? (UInt8.ofNat (n + 0xC0)) = some ⟨n, 1, 0x80, 0xBF⟩ := by
  revert h1
  revert n
  decide

/-- The three-byte leads narrow the second byte at both ends: behind `0xE0` what two bytes write,
    behind `0xED` the surrogates. -/
theorem lead?_three {n : Nat} (h : n < 16) :
    lead? (UInt8.ofNat (n + 0xE0)) =
      some ⟨n, 2, if n = 0 then 0xA0 else 0x80, if n = 13 then 0x9F else 0xBF⟩ := by
  revert n
  decide

/-- The four-byte leads end at `0xF4`, behind which the second byte is narrowed to what `Char`
    holds. -/
theorem lead?_four {n : Nat} (h : n < 5) :
    lead? (UInt8.ofNat (n + 0xF0)) =
      some ⟨n, 3, if n = 0 then 0x90 else 0x80, if n = 4 then 0x8F else 0xBF⟩ := by
  revert n
  decide

/-- There are no other lead bytes. -/
theorem lead?_some {b : UInt8} {l : Lead} (h : lead? b = some l) :
    (∃ n, (2 ≤ n ∧ n < 32) ∧ b = UInt8.ofNat (n + 0xC0)) ∨
    (∃ n, n < 16 ∧ b = UInt8.ofNat (n + 0xE0)) ∨ ∃ n, n < 5 ∧ b = UInt8.ofNat (n + 0xF0) := by
  have hr : 0xC2 ≤ b.toNat ∧ b.toNat ≤ 0xF4 := by
    unfold lead? at h
    simp only [UInt8.le_iff_toNat_le, ← UInt8.toNat_inj] at h
    simp at h
    grind
  rcases Nat.lt_or_ge b.toNat 0xE0 with h1 | h1
  · exact .inl ⟨b.toNat - 0xC0, by omega, eq_byte (by omega)⟩
  rcases Nat.lt_or_ge b.toNat 0xF0 with h2 | h2
  · exact .inr (.inl ⟨b.toNat - 0xE0, by omega, eq_byte (by omega)⟩)
  · exact .inr (.inr ⟨b.toNat - 0xF0, by omega, eq_byte (by omega)⟩)

/-- A following byte in its range gives six bits. -/
theorem follow_byte {n code size x : Nat} {lo hi : UInt8} {rest : Bytes}
    (h : lo.toNat ≤ x + 0x80 ∧ x + 0x80 ≤ hi.toNat) :
    follow (n + 1) lo hi code size (UInt8.ofNat (x + 0x80) :: rest) =
      follow n 0x80 0xBF (code * 64 + x) (size + 1) rest := by
  have hx : (UInt8.ofNat (x + 0x80)).toNat = x + 0x80 :=
    toNat_byte (by have := hi.toNat_lt; omega)
  rw [follow, if_pos (by rw [UInt8.le_iff_toNat_le, UInt8.le_iff_toNat_le, hx]; exact h), hx,
    Nat.add_sub_cancel]

/-- Nothing but following bytes leads to a scalar value. -/
theorem follow_scalar {n code size : Nat} {lo hi : UInt8} {s rest : Bytes} {c : Char}
    (hlo : 0x80 ≤ lo.toNat) (h : follow (n + 1) lo hi code size s = (.scalar c, rest)) :
    ∃ x t, (lo.toNat ≤ x + 0x80 ∧ x + 0x80 ≤ hi.toNat) ∧ s = UInt8.ofNat (x + 0x80) :: t ∧
      follow n 0x80 0xBF (code * 64 + x) (size + 1) t = (.scalar c, rest) := by
  cases s with
  | nil => rw [follow] at h; cases h
  | cons b t =>
    rw [follow] at h
    split at h
    · rename_i hb
      rw [UInt8.le_iff_toNat_le, UInt8.le_iff_toNat_le] at hb
      have hx : b.toNat = b.toNat - 0x80 + 0x80 := by omega
      exact ⟨b.toNat - 0x80, t, by omega, by rw [← eq_byte hx], h⟩
    · cases h

theorem follow_zero {code size : Nat} {lo hi : UInt8} {s : Bytes} :
    follow 0 lo hi code size s = (.scalar (Char.ofNat code), s) := by
  rw [follow]

/-! ## One scalar value -/

theorem lead?_ge {b : UInt8} {l : Lead} (h : lead? b = some l) : ¬b < 0x80 := by
  intro hb
  rw [UInt8.lt_iff_toNat_lt, show (0x80 : UInt8).toNat = 128 from rfl] at hb
  rcases lead?_some h with ⟨n, hn, rfl⟩ | ⟨n, hn, rfl⟩ | ⟨n, hn, rfl⟩
  all_goals
    rw [toNat_byte (by omega)] at hb
    omega

/-- A leading byte hands over to the bytes that follow, with its own bits gathered already. -/
theorem next_lead {b : UInt8} {l : Lead} (h : lead? b = some l) (rest : Bytes) :
    next b rest = follow l.more l.lo l.hi l.payload 1 rest := by
  rw [next, if_neg (lead?_ge h), h]

theorem toNat_ite {p : Prop} [Decidable p] (a b : UInt8) :
    (if p then a else b).toNat = if p then a.toNat else b.toNat := apply_ite UInt8.toNat p a b

/-- The bytes that follow have six bits to give. -/
theorem range_iff {x : Nat} :
    (0x80 : UInt8).toNat ≤ x + 0x80 ∧ x + 0x80 ≤ (0xBF : UInt8).toNat ↔ x < 64 := by
  rw [show (0x80 : UInt8).toNat = 128 from rfl, show (0xBF : UInt8).toNat = 191 from rfl]
  omega

/-- Behind the lead of three bytes the range leaves out what is too long and the surrogates. -/
theorem range_three_iff {n x : Nat} :
    (if n = 0 then 0xA0 else 0x80 : UInt8).toNat ≤ x + 0x80 ∧
      x + 0x80 ≤ (if n = 13 then 0x9F else 0xBF : UInt8).toNat ↔
    x < 64 ∧ (n = 0 → 32 ≤ x) ∧ (n = 13 → x < 32) := by
  rw [toNat_ite, toNat_ite]
  simp only [UInt8.reduceToNat]
  split <;> split <;> omega

/-- Behind the lead of four bytes it leaves out what is too long and what is too large. -/
theorem range_four_iff {n x : Nat} :
    (if n = 0 then 0x90 else 0x80 : UInt8).toNat ≤ x + 0x80 ∧
      x + 0x80 ≤ (if n = 4 then 0x8F else 0xBF : UInt8).toNat ↔
    x < 64 ∧ (n = 0 → 16 ≤ x) ∧ (n = 4 → x < 16) := by
  rw [toNat_ite, toNat_ite]
  simp only [UInt8.reduceToNat]
  split <;> split <;> omega

/-- A well-formed sequence is cut off as its scalar value. -/
theorem Sequence.next_append {n : Nat} {b : UInt8} {bs : Bytes} (h : Sequence n (b :: bs))
    (rest : Bytes) : next b (bs ++ rest) = (.scalar (Char.ofNat n), rest) := by
  cases h with
  | one h1 =>
    have hn := toNat_byte (n := n) (by omega)
    rw [next, if_pos (by rw [UInt8.lt_iff_toNat_lt, hn]; exact h1), hn]
    rfl
  | two h1 h2 h3 =>
    rw [next_lead (lead?_two h1 h2)]
    simp only [List.cons_append, List.nil_append]
    rw [follow_byte (range_iff.mpr h3), follow_zero]
  | three h1 h2 h3 h4 h5 =>
    rw [next_lead (lead?_three h1)]
    simp only [List.cons_append, List.nil_append]
    rw [follow_byte (range_three_iff.mpr ⟨h2, h4, h5⟩), follow_byte (range_iff.mpr h3),
      follow_zero]
  | four h1 h2 h3 h4 h5 h6 =>
    rw [next_lead (lead?_four h1)]
    simp only [List.cons_append, List.nil_append]
    rw [follow_byte (range_four_iff.mpr ⟨h2, h5, h6⟩), follow_byte (range_iff.mpr h3),
      follow_byte (range_iff.mpr h4), follow_zero]

/-- A character that was read from a leading byte and what follows it was written in the grammar's
    way. The cases are the three lengths, one byte taken off each time. -/
theorem sequence_of_follow {b : UInt8} {l : Lead} {s rest : Bytes} {c : Char}
    (hl : lead? b = some l) (h : follow l.more l.lo l.hi l.payload 1 s = (.scalar c, rest)) :
    ∃ n bs, Sequence n (b :: bs) ∧ s = bs ++ rest ∧ c = Char.ofNat n := by
  have low : 0x80 ≤ (0x80 : UInt8).toNat := Nat.le_refl _
  rcases lead?_some hl with ⟨n, hn, rfl⟩ | ⟨n, hn, rfl⟩ | ⟨n, hn, rfl⟩
  · -- one byte follows
    cases hl.symm.trans (lead?_two hn.1 hn.2)
    obtain ⟨x, t, hx, rfl, h1⟩ := follow_scalar low h
    rw [follow_zero] at h1
    cases h1
    exact ⟨_, _, .two hn.1 hn.2 (range_iff.mp hx), rfl, rfl⟩
  · -- two bytes follow
    cases hl.symm.trans (lead?_three hn)
    obtain ⟨x, t, hx, rfl, h1⟩ := follow_scalar (by dsimp only; split <;> decide) h
    obtain ⟨y, t, hy, rfl, h2⟩ := follow_scalar low h1
    rw [follow_zero] at h2
    cases h2
    obtain ⟨hx64, hlong, hsurrogate⟩ := range_three_iff.mp hx
    exact ⟨_, _, .three hn hx64 (range_iff.mp hy) hlong hsurrogate, rfl, rfl⟩
  · -- three bytes follow
    cases hl.symm.trans (lead?_four hn)
    obtain ⟨x, t, hx, rfl, h1⟩ := follow_scalar (by dsimp only; split <;> decide) h
    obtain ⟨y, t, hy, rfl, h2⟩ := follow_scalar low h1
    obtain ⟨z, t, hz, rfl, h3⟩ := follow_scalar low h2
    rw [follow_zero] at h3
    cases h3
    obtain ⟨hx64, hlong, hlarge⟩ := range_four_iff.mp hx
    exact ⟨_, _, .four hn hx64 (range_iff.mp hy) (range_iff.mp hz) hlong hlarge, rfl, rfl⟩

/-- What is cut off as a scalar value is a well-formed sequence. -/
theorem sequence_of_next {b : UInt8} {s rest : Bytes} {c : Char}
    (h : next b s = (.scalar c, rest)) :
    ∃ n bs, Sequence n (b :: bs) ∧ s = bs ++ rest ∧ c = Char.ofNat n := by
  cases hl : lead? b with
  | none =>
    rw [next, hl] at h
    split at h
    · rename_i hb
      rw [UInt8.lt_iff_toNat_lt] at hb
      cases h
      refine ⟨b.toNat, [], ?_, rfl, rfl⟩
      have := Sequence.one hb
      rwa [UInt8.ofNat_toNat] at this
    · cases h
  | some l =>
    rw [next_lead hl] at h
    exact sequence_of_follow hl h

/-! ## Whole texts -/

/-- The bytes of characters in a row. -/
def encodeChars (cs : List Char) : Bytes := cs.flatMap String.utf8EncodeChar

/-- Texts are encoded character by character. -/
theorem encodeChars_cons (c : Char) (cs : List Char) :
    encodeChars (c :: cs) = String.utf8EncodeChar c ++ encodeChars cs := List.flatMap_cons

/-- Characters of ASCII are encoded by one byte each. -/
theorem encodeChars_ascii (cs : List Char) (h : cs.all (·.toNat < 0x80) = true) :
    encodeChars cs = cs.map fun c => UInt8.ofNat c.toNat := by
  induction cs with
  | nil => rfl
  | cons c cs ih =>
    rw [List.all_cons, Bool.and_eq_true, decide_eq_true_eq] at h
    rw [encodeChars_cons, encodeChar_ascii h.1, ih h.2, List.map_cons, List.singleton_append]

theorem encodeChars_append (cs ds : List Char) :
    encodeChars (cs ++ ds) = encodeChars cs ++ encodeChars ds := List.flatMap_append

theorem encode_ofList (cs : List Char) : encode (String.ofList cs) = encodeChars cs := by
  rw [encode, String.toList_ofList]
  rfl

/-- The encoding of a concatenation is the concatenation of the encodings. -/
theorem encode_append (a b : String) : encode (a ++ b) = encode a ++ encode b := by
  rw [encode, String.toList_append]
  exact List.flatMap_append

/-- The first character of a text is cut off whole. -/
theorem next_encodeChar (c : Char) :
    ∃ b bs, String.utf8EncodeChar c = b :: bs ∧ ∀ rest, next b (bs ++ rest) = (.scalar c, rest) := by
  have h := sequence_encodeChar c
  cases hc : String.utf8EncodeChar c with
  | nil => rw [hc] at h; generalize c.toNat = n at h; cases h
  | cons b bs =>
    rw [hc] at h
    refine ⟨b, bs, rfl, fun rest => ?_⟩
    rw [h.next_append, Char.ofNat_toNat]

theorem encodeChar_ne_nil (c : Char) : String.utf8EncodeChar c ≠ [] := by
  obtain ⟨b, bs, hc, -⟩ := next_encodeChar c
  rw [hc]
  exact List.cons_ne_nil b bs

/-- What was read as a character is that character's own encoding. -/
theorem encodeChar_of_next {b : UInt8} {s rest : Bytes} {c : Char}
    (h : next b s = (.scalar c, rest)) : b :: s = String.utf8EncodeChar c ++ rest := by
  obtain ⟨n, bs, hs, rfl, rfl⟩ := sequence_of_next h
  rw [hs.encodeChar, List.cons_append]

/-- The pieces gathered so far stand in front, in order. -/
theorem cut_eq (done : List Piece) (s : Bytes) : cut done s = done.reverse ++ pieces s := by
  induction hn : s.length using Nat.strongRecOn generalizing done s with
  | ind n ih =>
    cases s with
    | nil => simp [pieces, cut]
    | cons b rest =>
      have hl : (next b rest).2.length < n := by
        have := next_length_le b rest
        rw [← hn, List.length_cons]
        omega
      rw [pieces, cut, cut, ih _ hl _ _ rfl, ih _ hl [_] _ rfl]
      simp

/-- One piece off the front, then the rest. -/
theorem pieces_cons (b : UInt8) (rest : Bytes) :
    pieces (b :: rest) = (next b rest).1 :: pieces (next b rest).2 := by
  rw [pieces, cut, cut_eq]
  rfl

/-- Characters in front are cut off first. -/
theorem pieces_encodeChars_append (cs : List Char) (rest : Bytes) :
    pieces (encodeChars cs ++ rest) = cs.map .scalar ++ pieces rest := by
  induction cs with
  | nil => rfl
  | cons c cs ih =>
    obtain ⟨b, bs, hc, hn⟩ := next_encodeChar c
    rw [encodeChars_cons, hc, List.append_assoc, List.cons_append, pieces_cons, hn, ih]
    rfl

/-- A text is cut into its characters. -/
theorem pieces_encodeChars (cs : List Char) : pieces (encodeChars cs) = cs.map .scalar := by
  have h := pieces_encodeChars_append cs []
  rwa [List.append_nil, show pieces [] = [] by simp [pieces, cut], List.append_nil] at h

/-- Bytes that are cut into characters only are their encoding. -/
theorem eq_encodeChars_of_pieces {cs : List Char} {s : Bytes} (h : pieces s = cs.map .scalar) :
    s = encodeChars cs := by
  induction cs generalizing s with
  | nil =>
    cases s with
    | nil => rfl
    | cons b rest => rw [pieces_cons] at h; cases h
  | cons c cs ih =>
    cases s with
    | nil => simp [pieces, cut] at h
    | cons b rest =>
      rw [pieces_cons, List.map_cons, List.cons.injEq] at h
      rw [encodeChars_cons, ← ih h.2]
      exact encodeChar_of_next (Prod.ext h.1 rfl)

/-- There is no fault exactly when all pieces are characters. This is what ties the strict reading
    to the lossy one: both look at the same pieces. -/
theorem fault?_eq_none_iff (index : Nat) (ps : List Piece) :
    fault? index ps = none ↔ ps = (ps.map Piece.shown).map .scalar := by
  induction ps generalizing index with
  | nil => simp [fault?]
  | cons p ps ih =>
    cases p with
    | scalar c => simpa [fault?, Piece.shown] using ih (index + c.utf8Size)
    | malformed n => simp [fault?]
    | truncated n => simp [fault?]

/-- **The strict reading undoes the encoding, and accepts nothing else.** -/
theorem decode_eq_ok_iff {s : Bytes} {text : String} : decode s = .ok text ↔ s = encode text := by
  unfold decode
  constructor
  · intro h
    split at h
    · cases h
    · rename_i hf
      cases h
      rw [encode_ofList]
      exact eq_encodeChars_of_pieces ((fault?_eq_none_iff 0 _).mp hf)
  · intro h
    have hp : pieces s = text.toList.map .scalar := by rw [h]; exact pieces_encodeChars _
    have hs : (text.toList.map Piece.scalar).map Piece.shown = text.toList := by
      rw [List.map_map]
      exact List.map_id _
    have hf : fault? 0 (text.toList.map Piece.scalar) = none := by
      rw [fault?_eq_none_iff, hs]
    rw [hp, hf, hs, String.ofList_toList]

/-- Different texts have different bytes. -/
theorem encode_injective {a b : String} (h : encode a = encode b) : a = b := by
  have ha : decode (encode a) = .ok a := decode_eq_ok_iff.mpr rfl
  rw [h, decode_eq_ok_iff.mpr rfl] at ha
  exact (Except.ok.inj ha).symm

/-! ## Texts taken apart at ASCII bytes -/

/-- Bytes that are the encoding of some characters. -/
def WellFormed (s : Bytes) : Prop := ∃ cs, s = encodeChars cs

/-- What is encoded is well-formed. -/
theorem wellFormed_encode (text : String) : WellFormed (encode text) := ⟨text.toList, rfl⟩

/-- And nothing else is. -/
theorem WellFormed.exists_text {s : Bytes} (h : WellFormed s) : ∃ text, s = encode text := by
  obtain ⟨cs, rfl⟩ := h
  exact ⟨String.ofList cs, (encode_ofList cs).symm⟩

theorem WellFormed.append {s t : Bytes} (hs : WellFormed s) (ht : WellFormed t) :
    WellFormed (s ++ t) := by
  obtain ⟨cs, rfl⟩ := hs
  obtain ⟨ds, rfl⟩ := ht
  exact ⟨cs ++ ds, by simp [encodeChars]⟩

/-- ASCII is written as itself. -/
theorem encodeChar_ofNat_ascii {b : UInt8} (h : b < 0x80) :
    String.utf8EncodeChar (Char.ofNat b.toNat) = [b] := by
  rw [UInt8.lt_iff_toNat_lt] at h
  have := (Sequence.one h).encodeChar
  rwa [UInt8.ofNat_toNat] at this

/-- Bytes of ASCII are the encoding of the characters that have their numbers. -/
theorem encodeChars_map_ofNat {s : Bytes} (h : ∀ b ∈ s, b < 0x80) :
    encodeChars (s.map fun b => Char.ofNat b.toNat) = s := by
  induction s with
  | nil => rfl
  | cons b s ih =>
    obtain ⟨hb, hs⟩ := List.forall_mem_cons.mp h
    rw [List.map_cons, encodeChars_cons, encodeChar_ofNat_ascii hb, ih hs, List.singleton_append]

theorem wellFormed_char (c : Char) : WellFormed (String.utf8EncodeChar c) :=
  ⟨[c], by simp [encodeChars]⟩

/-- A character in front leaves a text. -/
theorem wellFormed_encodeChar_append_iff {c : Char} {s : Bytes} :
    WellFormed (String.utf8EncodeChar c ++ s) ↔ WellFormed s := by
  refine ⟨?_, (wellFormed_char c).append⟩
  rintro ⟨cs, hcs⟩
  cases cs with
  | nil => exact absurd (List.append_eq_nil_iff.mp hcs).1 (encodeChar_ne_nil c)
  | cons d cs =>
    -- both sides start with a character, which is cut off whole
    obtain ⟨b, bs, hc, hn⟩ := next_encodeChar c
    obtain ⟨b', bs', hd, hn'⟩ := next_encodeChar d
    rw [encodeChars_cons, hc, hd, List.cons_append, List.cons_append, List.cons.injEq] at hcs
    have h := hn s
    rw [hcs.1, hcs.2, hn'] at h
    exact ⟨cs, (congrArg Prod.snd h).symm⟩

/-- An ASCII byte stands for itself, so it may be taken off the front. -/
theorem wellFormed_cons_iff {s : Bytes} {b : UInt8} (hb : b < 0x80) :
    WellFormed (b :: s) ↔ WellFormed s := by
  have h := wellFormed_encodeChar_append_iff (c := Char.ofNat b.toNat) (s := s)
  rwa [encodeChar_ofNat_ascii hb] at h

/-- A byte that goes on with a character and starts none. -/
def Continues (b : UInt8) : Prop := 0x80 ≤ b ∧ b ≤ 0xBF

theorem continues_byte {x : Nat} (h : x < 64) : Continues (UInt8.ofNat (x + 0x80)) := by
  rw [Continues, UInt8.le_iff_toNat_le, UInt8.le_iff_toNat_le, toNat_byte (by omega)]
  exact range_iff.mpr h

/-- No ASCII byte continues a character, so a character cannot be cut at one. -/
theorem not_continues_of_ascii {b : UInt8} (h : b < 0x80) : ¬ Continues b :=
  fun hb => absurd hb.1 (UInt8.not_le.mpr h)

/-- A character has one byte that starts it. -/
theorem encodeChar_start (c : Char) :
    ∃ b bs, String.utf8EncodeChar c = b :: bs ∧ ¬ Continues b ∧ ∀ x ∈ bs, Continues x := by
  have high {n : Nat} (h : 0xC0 ≤ n) (hn : n < 0x100) : ¬ Continues (UInt8.ofNat n) := by
    intro hc
    have := hc.2
    rw [UInt8.le_iff_toNat_le, toNat_byte hn, show (0xBF : UInt8).toNat = 191 from rfl] at this
    omega
  -- a leading byte is ASCII, or beyond all bytes that continue
  have h := sequence_encodeChar c
  generalize c.toNat = n, String.utf8EncodeChar c = bs at h
  cases h with
  | one h1 =>
    refine ⟨_, _, rfl, not_continues_of_ascii ?_, by simp⟩
    rw [UInt8.lt_iff_toNat_lt, toNat_byte (by omega)]
    exact h1
  | two h1 h2 h3 =>
    refine ⟨_, _, rfl, high (by omega) (by omega), ?_⟩
    simp only [List.forall_mem_cons]
    exact ⟨continues_byte h3, by simp⟩
  | three h1 h2 h3 =>
    refine ⟨_, _, rfl, high (by omega) (by omega), ?_⟩
    simp only [List.forall_mem_cons]
    exact ⟨continues_byte h2, continues_byte h3, by simp⟩
  | four h1 h2 h3 h4 =>
    refine ⟨_, _, rfl, high (by omega) (by omega), ?_⟩
    simp only [List.forall_mem_cons]
    exact ⟨continues_byte h2, continues_byte h3, continues_byte h4, by simp⟩

/-- Where a byte does not go on with a character, a text can be cut. -/
theorem WellFormed.cut {s t : Bytes} {b : UInt8} (h : WellFormed (s ++ b :: t))
    (hb : ¬ Continues b) : WellFormed s ∧ WellFormed (b :: t) := by
  obtain ⟨cs, hcs⟩ := h
  induction cs generalizing s with
  | nil => simp [encodeChars] at hcs
  | cons c cs ih =>
    rw [encodeChars_cons, List.append_eq_append_iff] at hcs
    rcases hcs with ⟨u, hu, hcs⟩ | ⟨u, rfl, hcs⟩
    · -- the cut is not behind the first character, so it is in front of it
      obtain ⟨a, bs, hc, -, hbs⟩ := encodeChar_start c
      cases u with
      | nil =>
        rw [List.append_nil] at hu
        obtain ⟨-, h⟩ := ih (s := []) hcs
        exact ⟨hu ▸ wellFormed_char c, h⟩
      | cons x u =>
        rw [List.cons_append, List.cons.injEq] at hcs
        obtain ⟨rfl, rfl⟩ := hcs
        rw [hc] at hu
        cases s with
        | nil =>
          rw [List.nil_append] at hu
          refine ⟨⟨[], rfl⟩, c :: cs, ?_⟩
          rw [encodeChars_cons, hc, hu, List.cons_append]
        | cons y s =>
          rw [List.cons_append, List.cons.injEq] at hu
          exact absurd (hbs b (by rw [hu.2]; simp)) hb
    · obtain ⟨h1, h2⟩ := ih hcs.symm
      exact ⟨(wellFormed_char c).append h1, h2⟩

/-- An ASCII byte is a character of its own, wherever it stands. -/
theorem WellFormed.split {s t : Bytes} {b : UInt8} (h : WellFormed (s ++ b :: t)) (hb : b < 0x80) :
    WellFormed s ∧ WellFormed t := by
  obtain ⟨hs, ht⟩ := h.cut (not_continues_of_ascii hb)
  exact ⟨hs, (wellFormed_cons_iff hb).mp ht⟩

/-- At an ASCII byte a text falls into two that are well-formed on their own. With it a payload is
    taken apart at its quotes, commas and braces. -/
theorem wellFormed_append_cons_iff {s t : Bytes} {b : UInt8} (hb : b < 0x80) :
    WellFormed (s ++ b :: t) ↔ WellFormed s ∧ WellFormed t :=
  ⟨fun h => h.split hb, fun ⟨hs, ht⟩ => hs.append ((wellFormed_cons_iff hb).mpr ht)⟩

theorem wellFormed_nil : WellFormed [] := ⟨[], rfl⟩

/-- ASCII in front of a text changes nothing. -/
theorem wellFormed_ascii_append_iff {w s : Bytes} (hw : ∀ b ∈ w, b < 0x80) :
    WellFormed (w ++ s) ↔ WellFormed s := by
  induction w with
  | nil => rfl
  | cons b w ih =>
    rw [List.cons_append, wellFormed_cons_iff (hw b (by simp))]
    exact ih fun c hc => hw c (by simp [hc])

theorem wellFormed_of_ascii {w : Bytes} (hw : ∀ b ∈ w, b < 0x80) : WellFormed w := by
  have h := (wellFormed_ascii_append_iff (s := []) hw).mpr wellFormed_nil
  rwa [List.append_nil] at h

/-- ASCII behind a text changes nothing. -/
theorem wellFormed_append_ascii_iff {s w : Bytes} (hw : ∀ b ∈ w, b < 0x80) :
    WellFormed (s ++ w) ↔ WellFormed s := by
  cases w with
  | nil => rw [List.append_nil]
  | cons b w =>
    have htail : WellFormed w := wellFormed_of_ascii fun c hc => hw c (by simp [hc])
    rw [wellFormed_append_cons_iff (hw b (by simp)), and_iff_left htail]

end PlatformClient.Utf8
