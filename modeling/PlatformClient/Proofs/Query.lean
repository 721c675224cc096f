/-
  Pairs appended to the query of a URL.

  1. **One byte.**  The written form of a byte is read back as that byte, whatever follows it, and
     holds neither of the two separators (`decode_encodeByte`, `not_separator_encodeByte`).
  2. **Pairs.**  So a name or value is read back whole, a pair is cut at the `=` that was put there,
     and a list of pairs at each `&` (`parsePairs_joined`).
  3. **URLs.**  Appending adds such a list behind what the query was and leaves all other parts
     alone; so URLs made of one URL are the same just if the lists are (`Url.appendAll_text_inj`).
-/
import PlatformClient.Proofs.Requests
import PlatformClient.Proofs.Utf8

namespace PlatformClient

namespace Url.Form

/-! ## Bytes -/

/-- A hexadecimal digit is ASCII, is read as its number, and is none of the characters with a
    meaning in a query. -/
theorem hexDigit_read {n : Nat} (h : n < 16) :
    (hexDigit n).toNat < 0x80 ∧ Json.hexDigit? (UInt8.ofNat (hexDigit n).toNat) = some n ∧
      UInt8.ofNat (hexDigit n).toNat ≠ 0x2B ∧ hexDigit n ≠ '&' ∧ hexDigit n ≠ '=' := by
  revert n
  decide +kernel

/-- The bytes in which a written name or value is read: a plus sign stands for a space. -/
def spaced (cs : List Char) : Bytes :=
  (Utf8.encodeChars cs).map fun b => if b = 0x2B then 0x20 else b

/-- Decoding turns plus signs into spaces, and then percent escapes into bytes. -/
theorem decode_eq (cs : List Char) : decode cs = percentDecode (spaced cs) := by
  rw [decode, Utf8.encode_ofList, spaced]

theorem spaced_append (cs ds : List Char) : spaced (cs ++ ds) = spaced cs ++ spaced ds := by
  rw [spaced, Utf8.encodeChars_append, List.map_append, spaced, spaced]

/-- What is no percent sign stands for itself. -/
theorem percentDecode_cons {b : UInt8} (h : b ≠ 0x25) (rest : Bytes) :
    percentDecode (b :: rest) = b :: percentDecode rest := by
  match rest with
  | [] => rfl
  | [_] => rfl
  | x :: y :: rest => rw [percentDecode, escaped?, if_neg h]

/-- A byte that stands for itself is ASCII, and none of those that have a meaning. -/
theorem unreserved_plain {b : UInt8} (h : isUnreserved b = true) :
    b < 0x80 ∧ b ≠ 0x2B ∧ b ≠ 0x25 ∧ b ≠ 0x26 ∧ b ≠ 0x3D := by
  simp only [isUnreserved, Bool.or_eq_true, Bool.and_eq_true, decide_eq_true_eq,
    List.contains_iff_mem, List.mem_cons, List.not_mem_nil, or_false, UInt8.le_iff_toNat_le,
    UInt8.lt_iff_toNat_lt, ne_eq, ← UInt8.toNat_inj, UInt8.reduceToNat] at h ⊢
  omega

/-- The written form of a byte is read as that byte, and does not touch what follows. -/
theorem decode_encodeByte (b : UInt8) (rest : Bytes) :
    percentDecode (spaced (encodeByte b) ++ rest) = b :: percentDecode rest := by
  rw [encodeByte]
  split
  · -- a byte that is written as itself
    rename_i hb
    obtain ⟨hascii, hplus, hpercent, -, -⟩ := unreserved_plain hb
    have hspaced : spaced [Char.ofNat b.toNat] = [b] := by
      rw [spaced, Utf8.encodeChars_cons, Utf8.encodeChar_ofNat_ascii hascii]
      simp [Utf8.encodeChars, hplus]
    rw [hspaced, List.singleton_append, percentDecode_cons hpercent]
  split
  · -- a space, written as a plus
    rename_i hb
    subst hb
    exact percentDecode_cons (by decide) rest
  · -- an escape, whose two digits are read as the byte
    have hhigh : b.toNat / 16 < 16 := by have := b.toNat_lt; omega
    have hlow : b.toNat % 16 < 16 := by omega
    obtain ⟨hx, hx', hx'', -⟩ := hexDigit_read hhigh
    obtain ⟨hy, hy', hy'', -⟩ := hexDigit_read hlow
    have hspaced : spaced (percentByte b) = [0x25, UInt8.ofNat (hexDigit (b.toNat / 16)).toNat,
        UInt8.ofNat (hexDigit (b.toNat % 16)).toNat] := by
      rw [spaced, percentByte, Utf8.encodeChars_ascii _ (by simp [hx, hy])]
      simp [hx'', hy'']
    have hescaped : escaped? 0x25 (UInt8.ofNat (hexDigit (b.toNat / 16)).toNat)
        (UInt8.ofNat (hexDigit (b.toNat % 16)).toNat) = some b := by
      rw [escaped?, if_pos rfl, hx', hy']
      show some (UInt8.ofNat (b.toNat / 16 * 16 + b.toNat % 16)) = _
      rw [Nat.div_add_mod', UInt8.ofNat_toNat]
    rw [hspaced, List.cons_append, List.cons_append, List.cons_append, List.nil_append,
      percentDecode, hescaped]

/-- What is encoded is decoded to its bytes, by induction over the text: each byte is written as
    itself, as a plus, or as an escape. -/
theorem decode_encode (text : String) : decode (encode text) = Utf8.encode text := by
  rw [decode_eq, encode]
  induction Utf8.encode text with
  | nil => rfl
  | cons b bs ih => rw [List.flatMap_cons, spaced_append, decode_encodeByte, ih]

/-- The characters that have a meaning between names and values. -/
def IsSeparator (c : Char) : Prop := c = '&' ∨ c = '='

/-- No byte is encoded with a character that separates pairs or names. -/
theorem not_separator_encodeByte {b : UInt8} {c : Char} (hc : c ∈ encodeByte b) :
    ¬ IsSeparator c := by
  rw [encodeByte] at hc
  split at hc
  · rename_i hb
    obtain ⟨hascii, -, -, hand, hequals⟩ := unreserved_plain hb
    obtain rfl := List.mem_singleton.mp hc
    -- a separator would be its own byte
    have hbyte := Utf8.encodeChar_ofNat_ascii hascii
    rintro (h | h)
    · rw [h] at hbyte
      exact hand (List.singleton_inj.mp hbyte).symm
    · rw [h] at hbyte
      exact hequals (List.singleton_inj.mp hbyte).symm
  split at hc
  · obtain rfl := List.mem_singleton.mp hc
    rintro (h | h) <;> cases h
  · obtain ⟨-, -, -, hx⟩ := hexDigit_read (n := b.toNat / 16) (by have := b.toNat_lt; omega)
    obtain ⟨-, -, -, hy⟩ := hexDigit_read (n := b.toNat % 16) (by omega)
    simp only [percentByte, List.mem_cons, List.not_mem_nil, or_false] at hc
    rcases hc with rfl | rfl | rfl
    · rintro (h | h) <;> cases h
    · exact not_or.mpr hx
    · exact not_or.mpr hy

/-- Hence an encoded text holds none. -/
theorem not_separator_encode {text : String} {c : Char} (hc : c ∈ encode text) :
    ¬ IsSeparator c := by
  obtain ⟨b, -, hb⟩ := List.mem_flatMap.mp hc
  exact not_separator_encodeByte hb

/-! ## Pairs -/

/-- A pair falls apart at the sign that was put in, since neither of its texts holds another. -/
theorem parsePair_encodePair (name value : String) :
    parsePair (encodePair name value) = (Utf8.encode name, Utf8.encode value) := by
  have hname : ∀ c ∈ encode name, decide (c ≠ '=') = true := fun c hc =>
    decide_eq_true fun h => not_separator_encode hc (.inr h)
  rw [parsePair, encodePair, List.takeWhile_append_of_pos hname, List.dropWhile_append_of_pos hname]
  simp [decode_encode]

/-- Only the mark between pairs is left out of them. -/
theorem not_mem_encodePair (name value : String) : '&' ∉ encodePair name value := by
  rw [encodePair, List.mem_append, List.mem_cons]
  rintro (h | h | h)
  · exact not_separator_encode h (.inl rfl)
  · cases h
  · exact not_separator_encode h (.inl rfl)

/-- The written form of pairs. -/
def joined (pairs : List (String × String)) : List Char :=
  List.intercalate ['&'] (pairs.map fun p => encodePair p.1 p.2)

/-- Pairs are read back as they were written. -/
theorem parsePairs_joined {pairs : List (String × String)} (h : pairs ≠ []) :
    parsePairs (joined pairs) = pairs.map fun p => (Utf8.encode p.1, Utf8.encode p.2) := by
  have hsplit : (joined pairs).splitOn '&' = pairs.map fun p => encodePair p.1 p.2 := by
    refine List.splitOn_intercalate '&' ?_ (by simpa using h)
    simp only [List.forall_mem_map]
    exact fun p _ => not_mem_encodePair p.1 p.2
  rw [parsePairs, hsplit, List.map_map]
  exact List.map_congr_left fun p _ => parsePair_encodePair p.1 p.2

/-! ## Queries -/

/-- What stands in front of pairs that are appended to a query. -/
def front : Option String → String
  | none => ""
  | some q => if q.isEmpty then "" else q ++ "&"

/-- A pair goes behind what was there, with an ampersand if anything was. -/
theorem append_eq (query : Option String) (name value : String) :
    append query name value = front query ++ String.ofList (encodePair name value) := by
  cases query with
  | none => exact String.empty_append.symm
  | some q =>
    rw [append, front]
    split
    · exact String.empty_append.symm
    · rfl

/-- Behind a pair the query is never empty, even if name and value are. -/
theorem append_ne_empty (query : Option String) (name value : String) :
    append query name value ≠ "" := by
  rw [append_eq]
  intro h
  have := congrArg String.toList h
  simp [encodePair] at this

/-- A query with pairs more. -/
def appendAll (query : Option String) (pairs : List (String × String)) : Option String :=
  pairs.foldl (fun q p => some (append q p.1 p.2)) query

/-- Pairs that are appended one by one stand joined behind what was there. -/
theorem appendAll_cons (query : Option String) (p : String × String)
    (pairs : List (String × String)) :
    appendAll query (p :: pairs) = some (front query ++ String.ofList (joined (p :: pairs))) := by
  induction pairs generalizing query p with
  | nil => rw [appendAll, List.foldl_cons, List.foldl_nil, append_eq, joined]; simp
  | cons p' pairs ih =>
    have hfront : front (some (append query p.1 p.2)) =
        front query ++ String.ofList (encodePair p.1 p.2) ++ "&" := by
      rw [front, if_neg (by simpa using append_ne_empty query p.1 p.2), append_eq]
    have hjoined : joined (p :: p' :: pairs) =
        encodePair p.1 p.2 ++ ['&'] ++ joined (p' :: pairs) := by
      rw [joined, List.map_cons, List.map_cons, List.intercalate_cons_cons]
      rfl
    rw [appendAll, List.foldl_cons, ← appendAll, ih, hfront, hjoined, String.ofList_append,
      String.ofList_append, String.append_assoc, String.append_assoc, String.append_assoc]

theorem joined_cons_ne_nil (p : String × String) (pairs : List (String × String)) :
    joined (p :: pairs) ≠ [] := by
  cases pairs <;> simp [joined, encodePair, List.intercalate_cons_cons]

/-- A query with pairs more is longer. -/
theorem appendAll_cons_ne (query : Option String) (p : String × String)
    (pairs : List (String × String)) : appendAll query (p :: pairs) ≠ query := by
  rw [appendAll_cons]
  cases query with
  | none => exact Option.some_ne_none _
  | some q =>
    intro h
    have hlength := congrArg String.length (Option.some.inj h)
    have hpos := List.length_pos_iff.mpr (joined_cons_ne_nil p pairs)
    have hfront : q.length ≤ (front (some q)).length := by
      rw [front]
      split
      · rename_i hq
        exact Nat.le_of_eq (congrArg String.length (String.isEmpty_iff.mp hq))
      · rw [String.length_append]
        omega
    rw [String.length_append, String.length_ofList] at hlength
    omega

/-- Different lists of pairs make different queries. -/
theorem appendAll_inj {query : Option String} {ps qs : List (String × String)}
    (h : appendAll query ps = appendAll query qs) : ps = qs := by
  cases ps with
  | nil =>
    cases qs with
    | nil => rfl
    | cons q qs => exact absurd h.symm (appendAll_cons_ne query q qs)
  | cons p ps =>
    cases qs with
    | nil => exact absurd h (appendAll_cons_ne query p ps)
    | cons q qs =>
      rw [appendAll_cons, appendAll_cons, Option.some.injEq, String.append_right_inj,
        String.ofList_inj] at h
      have hread := congrArg parsePairs h
      rw [parsePairs_joined (List.cons_ne_nil _ _), parsePairs_joined (List.cons_ne_nil _ _)]
        at hread
      refine (List.map_inj_right ?_).mp hread
      intro p p' hp
      obtain ⟨hname, hvalue⟩ := Prod.mk.inj hp
      exact Prod.ext (Utf8.encode_injective hname) (Utf8.encode_injective hvalue)

end Url.Form

/-! ## URLs -/

namespace Url

/-- Nothing but the query changes. -/
theorem appendAll_eq (u : Url) (pairs : List (String × String)) :
    u.appendAll pairs = { u with query := Form.appendAll u.query pairs } := by
  induction pairs generalizing u with
  | nil => rfl
  | cons p pairs ih =>
    rw [appendAll, List.foldl_cons, ← appendAll, ih]
    rfl

/-- A part of a URL is told by its mark: no mark, no part. -/
theorem marked_inj {mark : String} (hmark : mark ≠ "") {a b : Option String}
    (h : marked mark a = marked mark b) : a = b := by
  have hne : ∀ t, mark ++ t ≠ "" := fun t ht => hmark (String.append_eq_empty_iff.mp ht).1
  cases a with
  | none =>
    cases b with
    | none => rfl
    | some t => exact absurd h.symm (hne t)
  | some s =>
    cases b with
    | none => exact absurd h (hne s)
    | some t => rw [(String.append_right_inj mark).mp h]

/-- URLs that differ in their queries at most are told apart by how they are written. -/
theorem text_query_inj {u : Url} {q q' : Option String}
    (h : { u with query := q }.text = { u with query := q' }.text) : q = q' := by
  have hwritten : ∀ q, { u with query := q }.text =
      u.scheme ++ ":" ++ u.authority ++ u.path.text ++ marked "?" q ++ marked "#" u.fragment :=
    fun _ => rfl
  rw [hwritten, hwritten, String.append_left_inj, String.append_right_inj] at h
  exact marked_inj (by decide) h

/-- A URL that has pairs more in its query than another. -/
structure Extends (u' u : Url) (pairs : List (String × String)) : Prop where
  scheme : u'.scheme = u.scheme
  authority : u'.authority = u.authority
  path : u'.path = u.path
  fragment : u'.fragment = u.fragment
  /-- Without pairs the query is what it was. -/
  unchanged : pairs = [] → u'.query = u.query
  /-- The pairs stand behind what the query was, and are read back one by one. -/
  appended : pairs ≠ [] → ∃ added : String, u'.query = some (Form.front u.query ++ added) ∧
    Form.parsePairs added.toList = pairs.map fun p => (Utf8.encode p.1, Utf8.encode p.2)

/-- All pairs, one after another, extend the query as one list of pairs does. -/
theorem appendAll_extends (u : Url) (pairs : List (String × String)) :
    (u.appendAll pairs).Extends u pairs := by
  rw [appendAll_eq]
  refine ⟨rfl, rfl, rfl, rfl, ?_, ?_⟩
  · rintro rfl
    rfl
  · intro h
    cases pairs with
    | nil => exact absurd rfl h
    | cons p pairs =>
      refine ⟨_, Form.appendAll_cons u.query p pairs, ?_⟩
      rw [String.toList_ofList, Form.parsePairs_joined h]

/-- Different pairs give different texts. -/
theorem appendAll_text_inj {u : Url} {ps qs : List (String × String)}
    (h : (u.appendAll ps).text = (u.appendAll qs).text) : ps = qs := by
  rw [appendAll_eq, appendAll_eq] at h
  exact Form.appendAll_inj (text_query_inj h)

end Url

/-! ## Requests -/

namespace Request

/-- The pairs that steps append, whatever other steps stand between them, are read back from the
    URL as they were given, behind the query it had; and requests that start from the same URL end
    with the same URL only if the same pairs were appended. -/
theorem queries_kept (r : Request) {ss : List Step} (hwritable : Writable ss) :
    ∃ r', r.steps ss = .ok r' ∧ r'.url.Extends r.url (pairs ss) ∧
      ∀ (other other' : Request) (ss' : List Step), other.url = r.url →
        other.steps ss' = .ok other' → other'.url.text = r'.url.text → pairs ss' = pairs ss := by
  obtain ⟨r', hr'⟩ := r.exists_steps hwritable
  have hurl := (steps_built hr').url
  refine ⟨r', hr', hurl ▸ r.url.appendAll_extends _, ?_⟩
  intro other other' ss' hother hother' htext
  rw [(steps_built hother').url, hurl, hother] at htext
  exact Url.appendAll_text_inj htext

/-- A value that looks like another pair, behind a query and in front of a fragment. -/
theorem queries_kept_injection :
    let url : Url :=
      ⟨"http", "", "", some (.name "h"), none, .segments [""], some "a=1", some "top"⟩
    let ss : List Step :=
      [.query "q" "x&admin=1", .header "A" "b", .json (.value .null), .query "" "ü+%#?"]
    Writable ss ∧ ∃ r', (Request.new .post url).steps ss = .ok r' ∧
      ∃ added : String, r'.url.query = some ("a=1&" ++ added) ∧
        Url.Form.parsePairs added.toList = [(Utf8.encode "q", Utf8.encode "x&admin=1"),
          (Utf8.encode "", Utf8.encode "ü+%#?")] := by
  intro url ss
  have hwritable : Writable ss := by
    intro p hp
    obtain rfl : p = .value .null := by simpa [ss] using hp
    exact ⟨_, rfl⟩
  obtain ⟨r', hr', hextends, -⟩ := queries_kept (Request.new .post url) hwritable
  exact ⟨hwritable, r', hr', hextends.appended (List.cons_ne_nil _ _)⟩

end Request

end PlatformClient
