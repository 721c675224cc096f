/-
  The text of a body, read strictly and leniently.

  A response gives its text only if its body is UTF-8; a failure keeps the text of any payload, with
  a replacement character for what is not UTF-8.  Both readings cut the same pieces, so they agree
  up to the first one that is no character:

  1. **The front.**  Bytes are characters up to a place where none goes on, and no longer text
     stands in front of them (`LongestText`).
  2. **The subpart.**  What stands at that place is told without the readings (`Subpart`): the
     longest start of a character there, or a single byte that starts none.
  3. **Classification.**  A payload that does not decode is kept as its text if it has one; else the
     lenient text has the strict one's front, one replacement, and the rest read in the same way.
-/
import PlatformClient.Proofs.Truncation

namespace PlatformClient

namespace Utf8

/-! ## Starts of characters -/

/-- The bytes are the start of a character, or all of it. -/
def Starts (p : Bytes) : Prop := ∃ c u, String.utf8EncodeChar c = p ++ u

/-- The size of what is replaced as a whole in front of bytes that start no character: the longest
    start of a character, or one byte that is none. -/
structure Subpart (s : Bytes) (n : Nat) : Prop where
  pos : 0 < n
  within : n ≤ s.length
  starts : n = 1 ∨ Starts (s.take n)
  longest : ∀ k, n < k → k ≤ s.length → ¬ Starts (s.take k)

/-- Bytes that are asked for can always be given. -/
theorem follow_completed (n : Nat) {lo hi : UInt8} (h : lo ≤ hi) (code size : Nat) :
    ∃ u c, u.length = n ∧ follow n lo hi code size u = (.scalar c, []) := by
  induction n generalizing lo hi code size with
  | zero => exact ⟨[], Char.ofNat code, rfl, follow_zero⟩
  | succ n ih =>
    have hr : (0x80 : UInt8) ≤ 0xBF := by decide
    obtain ⟨u, c, hu, hc⟩ := ih hr (code * 64 + (lo.toNat - 0x80)) (size + 1)
    refine ⟨lo :: u, c, by rw [List.length_cons, hu], ?_⟩
    rw [follow, if_pos ⟨UInt8.le_refl lo, h⟩]
    exact hc

/-- Bytes that break off were read as the start of a character, and it takes only the next byte to
    see that they go on with it no longer. -/
theorem follow_malformed {n : Nat} {lo hi : UInt8} {code size k : Nat} {s t : Bytes} (hr : lo ≤ hi)
    (h : follow n lo hi code size s = (.malformed k, t)) :
    ∃ bad b t', s = bad ++ t ∧ t = b :: t' ∧ k = size + bad.length ∧
      (∃ u c, follow n lo hi code size (bad ++ u) = (.scalar c, [])) ∧
      ∀ y, follow n lo hi code size (bad ++ b :: y) = (.malformed k, b :: y) := by
  induction n generalizing lo hi code size s with
  | zero => rw [follow_zero] at h; cases h
  | succ n ih =>
    cases s with
    | nil => rw [follow] at h; cases h
    | cons b s =>
      by_cases hb : lo ≤ b ∧ b ≤ hi
      · -- the byte is taken, and the start goes on behind it
        rw [follow, if_pos hb] at h
        obtain ⟨bad, b', t', rfl, rfl, rfl, ⟨u, c, hc⟩, hlocal⟩ := ih (by decide) h
        refine ⟨b :: bad, b', t', rfl, rfl, by rw [List.length_cons]; omega, ⟨u, c, ?_⟩, ?_⟩
        · rw [List.cons_append, follow, if_pos hb]
          exact hc
        · intro y
          rw [List.cons_append, follow, if_pos hb]
          exact hlocal y
      · -- the byte is out of range, whatever follows it
        rw [follow, if_neg hb] at h
        cases h
        obtain ⟨u, c, -, hc⟩ := follow_completed (n + 1) hr code k
        refine ⟨[], b, s, rfl, rfl, rfl, ⟨u, c, hc⟩, ?_⟩
        intro y
        rw [List.nil_append, follow, if_neg hb]

/-- Bytes that are cut short by the end were read as the start of a character. -/
theorem follow_truncated {n : Nat} {lo hi : UInt8} {code size k : Nat} {s t : Bytes} (hr : lo ≤ hi)
    (h : follow n lo hi code size s = (.truncated k, t)) :
    t = [] ∧ ∃ u c, follow n lo hi code size (s ++ u) = (.scalar c, []) := by
  induction n generalizing lo hi code size s with
  | zero => rw [follow_zero] at h; cases h
  | succ n ih =>
    cases s with
    | nil =>
      rw [follow] at h
      cases h
      obtain ⟨u, c, -, hc⟩ := follow_completed (n + 1) hr code k
      exact ⟨rfl, u, c, hc⟩
    | cons b s =>
      by_cases hb : lo ≤ b ∧ b ≤ hi
      · rw [follow, if_pos hb] at h
        obtain ⟨rfl, u, c, hc⟩ := ih (by decide) h
        refine ⟨rfl, u, c, ?_⟩
        rw [List.cons_append, follow, if_pos hb]
        exact hc
      · rw [follow, if_neg hb] at h
        cases h

theorem lead?_range {b : UInt8} {l : Lead} (h : lead? b = some l) : l.lo ≤ l.hi := by
  rcases lead?_some h with ⟨n, hn, rfl⟩ | ⟨n, hn, rfl⟩ | ⟨n, hn, rfl⟩
  · cases h.symm.trans (lead?_two hn.1 hn.2)
    show (0x80 : UInt8) ≤ 0xBF
    decide
  · cases h.symm.trans (lead?_three hn)
    by_cases hzero : n = 0
    · subst hzero
      decide
    · dsimp only
      rw [if_neg hzero]
      split <;> decide
  · cases h.symm.trans (lead?_four hn)
    by_cases hzero : n = 0
    · subst hzero
      decide
    · dsimp only
      rw [if_neg hzero]
      split <;> decide

/-- Bytes start a character just if some bytes behind them make them one. -/
theorem starts_iff {b : UInt8} {p : Bytes} :
    Starts (b :: p) ↔ ∃ u c, next b (p ++ u) = (.scalar c, []) := by
  constructor
  · rintro ⟨c, u, hc⟩
    obtain ⟨b', bs, hbs, hnext⟩ := next_encodeChar c
    rw [hbs, List.cons_append, List.cons.injEq] at hc
    obtain ⟨rfl, rfl⟩ := hc
    have h := hnext []
    rw [List.append_nil] at h
    exact ⟨u, c, h⟩
  · rintro ⟨u, c, h⟩
    have hc := encodeChar_of_next h
    rw [List.append_nil] at hc
    exact ⟨c, u, by rw [← hc, List.cons_append]⟩

/-- What starts a character does so from any of its fronts on. -/
theorem Starts.take {p : Bytes} (h : Starts p) (k : Nat) : Starts (p.take k) := by
  obtain ⟨c, u, hc⟩ := h
  exact ⟨c, p.drop k ++ u, by rw [← List.append_assoc, List.take_append_drop, hc]⟩

/-- If one byte more starts no character, then no more bytes do. -/
theorem subpart_of_next_byte {s : Bytes} {n : Nat} (hpos : 0 < n) (hle : n ≤ s.length)
    (hstarts : n = 1 ∨ Starts (s.take n)) (hnext : n < s.length → ¬ Starts (s.take (n + 1))) :
    Subpart s n := by
  refine ⟨hpos, hle, hstarts, ?_⟩
  intro k hk hks hstart
  have hfront : Starts ((s.take k).take (n + 1)) := hstart.take (n + 1)
  rw [List.take_take, Nat.min_eq_left hk] at hfront
  exact hnext (Nat.lt_of_lt_of_le hk hks) hfront

/-- The bytes of a piece that breaks off are one subpart, and what is left is what follows them. -/
theorem next_malformed {b : UInt8} {s t : Bytes} {n : Nat} (h : next b s = (.malformed n, t)) :
    Subpart (b :: s) n ∧ t = (b :: s).drop n := by
  cases hl : lead? b with
  | none =>
    -- the byte starts no character at all
    have hnone : ¬ b < 0x80 := by
      intro hb
      rw [next, if_pos hb] at h
      cases h
    have hany : ∀ u, next b u = (.malformed 1, u) := by
      intro u
      rw [next, if_neg hnone, hl]
    rw [hany s] at h
    cases h
    refine ⟨subpart_of_next_byte Nat.one_pos (by simp) (.inl rfl) ?_, rfl⟩
    intro _ hstart
    rw [List.take_succ_cons] at hstart
    obtain ⟨u, c, hc⟩ := starts_iff.mp hstart
    rw [hany] at hc
    cases hc
  | some l =>
    rw [next_lead hl] at h
    obtain ⟨bad, x, t', rfl, rfl, rfl, ⟨u, c, hc⟩, hlocal⟩ := follow_malformed (lead?_range hl) h
    have hdrop : (b :: (bad ++ x :: t')).drop (1 + bad.length) = x :: t' := by
      rw [Nat.add_comm, List.drop_succ_cons, List.drop_left]
    have htake : (b :: (bad ++ x :: t')).take (1 + bad.length) = b :: bad := by
      rw [Nat.add_comm, List.take_succ_cons, List.take_left]
    have htake' : (b :: (bad ++ x :: t')).take (1 + bad.length + 1) = b :: (bad ++ [x]) := by
      have hx : bad ++ x :: t' = (bad ++ [x]) ++ t' := by simp
      rw [List.take_succ_cons, hx, List.take_left' (by simp; omega)]
    refine ⟨subpart_of_next_byte (by omega) (by simp; omega) ?_ ?_, hdrop.symm⟩
    · right
      rw [htake]
      exact starts_iff.mpr ⟨u, c, (next_lead hl _).trans hc⟩
    · intro _ hstart
      rw [htake'] at hstart
      obtain ⟨y, d, hd⟩ := starts_iff.mp hstart
      rw [next_lead hl, List.append_assoc, List.singleton_append, hlocal y] at hd
      cases hd

/-- A piece that is cut short by the end is the start of a character. -/
theorem next_truncated {b : UInt8} {s t : Bytes} {n : Nat} (h : next b s = (.truncated n, t)) :
    Starts (b :: s) ∧ t = [] := by
  cases hl : lead? b with
  | none =>
    rw [next, hl] at h
    split at h <;> cases h
  | some l =>
    rw [next_lead hl] at h
    obtain ⟨rfl, u, c, hc⟩ := follow_truncated (lead?_range hl) h
    exact ⟨starts_iff.mpr ⟨u, c, (next_lead hl _).trans hc⟩, rfl⟩

/-! ## The text in front -/

/-- Bytes are characters up to a place where none goes on. -/
theorem exists_front (s : Bytes) :
    WellFormed s ∨ ∃ cs b rest, s = encodeChars cs ++ b :: rest ∧ ∀ c, (next b rest).1 ≠ .scalar c := by
  -- the characters are cut off one by one, each of which is at least a byte long
  induction hn : s.length using Nat.strongRecOn generalizing s with
  | ind n ih =>
    cases s with
    | nil => exact .inl wellFormed_nil
    | cons b rest =>
      by_cases hscalar : ∃ c, (next b rest).1 = .scalar c
      · obtain ⟨c, hc⟩ := hscalar
        have hlt : (next b rest).2.length < n := by
          have := next_length_le b rest
          rw [← hn, List.length_cons]
          omega
        have hsplit : b :: rest = String.utf8EncodeChar c ++ (next b rest).2 :=
          encodeChar_of_next (Prod.ext hc rfl)
        rcases ih _ hlt (next b rest).2 rfl with ⟨cs, hcs⟩ | ⟨cs, b', rest', hcs, hstuck⟩
        · exact .inl ⟨c :: cs, by rw [hsplit, hcs, encodeChars_cons]⟩
        · refine .inr ⟨c :: cs, b', rest', ?_, hstuck⟩
          rw [hsplit, hcs, encodeChars_cons, List.append_assoc]
      · refine .inr ⟨[], b, rest, rfl, ?_⟩
        intro c hc
        exact hscalar ⟨c, hc⟩

/-- Where no character goes on, every text in front has ended. -/
theorem front_ends {cs ds : List Char} {b : UInt8} {rest t : Bytes}
    (hstuck : ∀ c, (next b rest).1 ≠ .scalar c)
    (h : encodeChars cs ++ b :: rest = encodeChars ds ++ t) : ds <+: cs := by
  induction ds generalizing cs with
  | nil => exact List.nil_prefix
  | cons d ds ih =>
    obtain ⟨x, xs, hd, hnext⟩ := next_encodeChar d
    rw [encodeChars_cons, hd, List.append_assoc, List.cons_append] at h
    cases cs with
    | nil =>
      -- a character would go on here
      rw [show encodeChars [] = [] from rfl, List.nil_append, List.cons.injEq] at h
      obtain ⟨rfl, rfl⟩ := h
      exact absurd (congrArg Prod.fst (hnext _)) (hstuck d)
    | cons c cs =>
      obtain ⟨y, ys, hc, hnext'⟩ := next_encodeChar c
      rw [encodeChars_cons, hc, List.append_assoc, List.cons_append, List.cons.injEq] at h
      obtain ⟨rfl, h⟩ := h
      have hsame := hnext' (encodeChars cs ++ b :: rest)
      rw [h, hnext] at hsame
      simp only [Prod.mk.injEq, Piece.scalar.injEq] at hsame
      obtain ⟨rfl, htail⟩ := hsame
      exact List.cons_prefix_cons.mpr ⟨rfl, ih htail.symm⟩

/-- `front` is the longest text in front of the bytes; it takes `i` of them. -/
structure LongestText (s : Bytes) (i : Nat) (front : String) : Prop where
  within : i ≤ s.length
  text : s.take i = encode front
  longest : ∀ j ≤ s.length, WellFormed (s.take j) → j ≤ i

/-- What stands in front of the first byte that begins no character is the longest text there is: a
    longer one would have to read on at that byte. -/
theorem longestText_front {cs : List Char} {b : UInt8} {rest : Bytes}
    (hstuck : ∀ c, (next b rest).1 ≠ .scalar c) :
    LongestText (encodeChars cs ++ b :: rest) (encodeChars cs).length (String.ofList cs) where
  within := by rw [List.length_append]; omega
  text := by rw [List.take_left, encode_ofList]
  longest := by
    rintro j hj ⟨ds, hds⟩
    have hsplit : encodeChars cs ++ b :: rest =
        encodeChars ds ++ (encodeChars cs ++ b :: rest).drop j := by
      rw [← hds, List.take_append_drop]
    obtain ⟨es, rfl⟩ := front_ends hstuck hsplit
    have hlength : (encodeChars ds).length = j := by
      rw [← hds, List.length_take, Nat.min_eq_left hj]
    rw [← hlength, encodeChars, encodeChars, List.flatMap_append, List.length_append]
    omega

/-! ## The two readings -/

theorem length_encodeChars_cons (c : Char) (cs : List Char) :
    (encodeChars (c :: cs)).length = c.utf8Size + (encodeChars cs).length := by
  rw [encodeChars_cons, List.length_append, String.length_utf8EncodeChar]

/-- Characters in front only move the fault. -/
theorem fault?_scalars (index : Nat) (cs : List Char) (ps : List Piece) :
    fault? index (cs.map .scalar ++ ps) = fault? (index + (encodeChars cs).length) ps := by
  induction cs generalizing index with
  | nil => rfl
  | cons c cs ih =>
    rw [List.map_cons, List.cons_append, fault?, ih, length_encodeChars_cons, Nat.add_assoc]

/-- The lenient reading keeps the characters in front. -/
theorem lossy_encodeChars_append (cs : List Char) (s : Bytes) :
    lossy (encodeChars cs ++ s) = String.ofList cs ++ lossy s := by
  have hshown : (cs.map Piece.scalar).map Piece.shown = cs := by
    rw [List.map_map]
    exact List.map_id cs
  rw [lossy, pieces_encodeChars_append, List.map_append, hshown, String.ofList_append, lossy]

/-- Read lossily, that front is kept, one mark stands for the ill-formed bytes behind it, and
    reading goes on behind these. -/
theorem lossy_front (cs : List Char) (b : UInt8) (rest : Bytes) :
    lossy (encodeChars cs ++ b :: rest) =
      String.ofList cs ++ (String.singleton (next b rest).1.shown ++ lossy (next b rest).2) := by
  have hnext : lossy (b :: rest) =
      String.singleton (next b rest).1.shown ++ lossy (next b rest).2 := by
    rw [lossy, pieces_cons, List.map_cons, String.ofList_cons, lossy]
  rw [lossy_encodeChars_append, hnext]

/-- The strict reading says what follows the characters in front. -/
theorem decode_front {cs : List Char} {b : UInt8} {rest : Bytes} {f : Fault}
    (h : fault? (encodeChars cs).length [(next b rest).1] = some f) :
    decode (encodeChars cs ++ b :: rest) = .error f := by
  have hfault : fault? 0 (pieces (encodeChars cs ++ b :: rest)) = some f := by
    rw [pieces_encodeChars_append, pieces_cons, fault?_scalars, Nat.zero_add]
    cases hp : (next b rest).1 with
    | scalar c => rw [hp] at h; cases h
    | malformed n => rw [hp] at h; exact h
    | truncated n => rw [hp] at h; exact h
  rw [decode, hfault]

/-- Where bytes are no text, both readings have the longest text in front, and go on, if they do,
    behind the subpart that stands there. -/
theorem decode_ill_formed {s : Bytes} (h : ¬ WellFormed s) :
    ∃ i front, LongestText s i front ∧
      ((∃ n, Subpart (s.drop i) n ∧ decode s = .error (.malformed i n) ∧
          lossy s = front ++ "\uFFFD" ++ lossy (s.drop (i + n))) ∨
        Starts (s.drop i) ∧ decode s = .error (.truncated i) ∧ lossy s = front ++ "\uFFFD") := by
  rcases exists_front s with hw | ⟨cs, b, rest, rfl, hstuck⟩
  · exact absurd hw h
  have hdrop : ∀ n, (encodeChars cs ++ b :: rest).drop ((encodeChars cs).length + n) =
      (b :: rest).drop n := fun n => List.drop_length_add_append n
  have hhere : (encodeChars cs ++ b :: rest).drop (encodeChars cs).length = b :: rest :=
    List.drop_left
  refine ⟨(encodeChars cs).length, String.ofList cs, longestText_front hstuck, ?_⟩
  rw [hhere, lossy_front]
  -- the bytes where no character goes on are cut off by the end, or ill-formed as they stand
  cases hp : next b rest with
  | mk p t =>
    cases p with
    | scalar c => exact absurd (congrArg Prod.fst hp) (hstuck c)
    | malformed n =>
      obtain ⟨hsubpart, rfl⟩ := next_malformed hp
      refine .inl ⟨n, hsubpart, decode_front (by rw [hp]; rfl), ?_⟩
      rw [hdrop, String.append_assoc]
      rfl
    | truncated n =>
      obtain ⟨hstart, rfl⟩ := next_truncated hp
      refine .inr ⟨hstart, decode_front (by rw [hp]; rfl), ?_⟩
      rw [show lossy [] = "" by simp [lossy, pieces, cut], String.append_empty]
      rfl

/-- The lenient reading of a text is the text. -/
theorem lossy_encode (text : String) : lossy (encode text) = text := by
  have hdecode : decode (encode text) = .ok text := decode_eq_ok_iff.mpr rfl
  unfold decode at hdecode
  split at hdecode
  · cases hdecode
  · exact Except.ok.inj hdecode

end Utf8

/-! ## Bodies and payloads -/

/-- Every response whose body is these bytes gives this as its text. -/
def GivesBodyText (bytes : Bytes) (result : Except Error String) : Prop :=
  ∀ r : Response, r.bytes = .ok bytes → r.text = result

/-- Bytes that can be read as a text are given as that text. -/
theorem givesBodyText_of_decode {bytes : Bytes} {text : String} (h : Utf8.decode bytes = .ok text) :
    GivesBodyText bytes (.ok text) := by
  intro r hr
  rw [Response.text, hr]
  dsimp only
  rw [h]

/-- The others are refused, with the place of the first fault. -/
theorem givesBodyText_of_fault {bytes : Bytes} {f : Utf8.Fault} (h : Utf8.decode bytes = .error f) :
    GivesBodyText bytes (.error (.invalidResponse s!"body is not UTF-8: {f.message}")) := by
  intro r hr
  rw [Response.text, hr]
  dsimp only
  rw [h]

namespace Envelope

/-- A payload that does not decode is kept as its lenient text.  If it is a text, that is the text,
    which is also what a body of these bytes reads as; and if not, it is the longest text in front,
    one replacement character, and the lenient text of what follows the sequence that reading the
    body reports.  A payload that decodes is known. -/
theorem undecoded_text_kept (schema : Schema) (status : Nat) (bytes : Bytes) :
    (∀ reason, decode schema bytes = .error reason →
      classify schema status bytes = .unknown status (Utf8.lossy bytes)) ∧
    (Utf8.WellFormed bytes →
      Utf8.encode (Utf8.lossy bytes) = bytes ∧ GivesBodyText bytes (.ok (Utf8.lossy bytes))) ∧
    (¬ Utf8.WellFormed bytes → ∃ i front, Utf8.LongestText bytes i front ∧
      ((∃ n, Utf8.Subpart (bytes.drop i) n ∧
          GivesBodyText bytes (.error (.invalidResponse
            s!"body is not UTF-8: invalid utf-8 sequence of {n} bytes from index {i}")) ∧
          Utf8.lossy bytes = front ++ "\uFFFD" ++ Utf8.lossy (bytes.drop (i + n))) ∨
        Utf8.Starts (bytes.drop i) ∧
          GivesBodyText bytes (.error (.invalidResponse
            s!"body is not UTF-8: incomplete utf-8 byte sequence from index {i}")) ∧
          Utf8.lossy bytes = front ++ "\uFFFD")) ∧
    ∀ e, decode schema bytes = .ok e →
      classify schema status bytes = .known status e ∧
        (classify schema status bytes).schema = some schema := by
  refine ⟨fun reason hreason => classify_of_error hreason status, ?_, ?_, ?_⟩
  · intro hw
    obtain ⟨text, rfl⟩ := hw.exists_text
    rw [Utf8.lossy_encode]
    exact ⟨rfl, givesBodyText_of_decode (Utf8.decode_eq_ok_iff.mpr rfl)⟩
  · intro hill
    -- the strict and the lossy reading stop at the same byte
    obtain ⟨i, front, hfront, hstop⟩ := Utf8.decode_ill_formed hill
    refine ⟨i, front, hfront, ?_⟩
    rcases hstop with ⟨n, hsubpart, hdecode, hlossy⟩ | ⟨hstart, hdecode, hlossy⟩
    · have htext := givesBodyText_of_fault hdecode
      exact .inl ⟨n, hsubpart, htext, hlossy⟩
    · have htext := givesBodyText_of_fault hdecode
      exact .inr ⟨hstart, htext, hlossy⟩
  · intro e he
    have hknown : classify schema status bytes = .known status e := by rw [classify, he]
    obtain ⟨hschema, -⟩ := decode_ok_iff.mp he
    rw [hknown]
    exact ⟨rfl, congrArg some hschema⟩

end Envelope

end PlatformClient
