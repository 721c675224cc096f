/-
  Sending a request: all of it or nothing, whatever the order of its headers.

  1. **Targets.**  The URL of a request is cut into the parts of a target.  Joined again they are the
     URL up to its fragment, which is the one thing that is lost (`Target.ofBytes_bytes`).  Where the
     parts of the URL keep apart, the last part of the target is its path and query
     (`Url.target_eq`).
  2. **Fields.**  Headers become fields one after the other, up to the first that has none.  So
     there are fields just if every header has one, and then they are those of all headers
     (`Message.fields_of_sendable`, `Message.fields_of_unsendable`); neither depends on the order.
  3. **Messages.**  A request with an acceptable URL is sent whole, but for the fragment, or it is
     refused and no peer is asked (`Message.sent_whole_or_refused`).
-/
import Mathlib.Data.List.Perm.Basic
import PlatformClient.Proofs.Json.Number
import PlatformClient.Proofs.Utf8
import PlatformClient.Transport.Exchange

namespace PlatformClient

/-! ## Targets -/

namespace Target

/-- The parts of a target, joined. -/
def bytes : Target → Bytes
  | .absolute scheme text pathAndQuery => scheme ++ schemeMark ++ text ++ pathAndQuery
  | .authority text => text

/-- The number sign: what stands behind the first one is the fragment. -/
theorem dropFragment_append {s t : Bytes} (h : 0x23 ∉ s) :
    dropFragment (s ++ t) = s ++ dropFragment t := by
  refine List.takeWhile_append_of_pos fun b hb => ?_
  have hne : b ≠ 0x23 := fun he => h (he ▸ hb)
  simpa using hne

theorem dropFragment_eq {s : Bytes} (h : 0x23 ∉ s) : dropFragment s = s := by
  have happend := dropFragment_append (t := []) h
  rwa [List.append_nil, dropFragment, dropFragment, List.takeWhile_nil, List.append_nil] at happend

/-- Behind the mark everything goes. -/
theorem dropFragment_mark (s : Bytes) : dropFragment (0x23 :: s) = [] :=
  List.takeWhile_cons_of_neg (by decide)

/-- A scheme has only its own bytes, and the mark stands between it and the rest. -/
theorem cutScheme_eq {s scheme rest : Bytes} (h : cutScheme s = some (scheme, rest)) :
    s = scheme ++ schemeMark ++ rest ∧ ∀ b ∈ scheme, isSchemeByte b = true := by
  rw [cutScheme] at h
  split at h
  · rename_i hmark
    obtain ⟨rfl, rfl⟩ := Prod.mk.inj (Option.some.inj h)
    rw [List.isPrefixOf_iff_prefix, List.prefix_iff_eq_append] at hmark
    refine ⟨?_, fun b hb => List.mem_takeWhile_imp hb⟩
    rw [List.append_assoc, hmark, List.takeWhile_append_dropWhile]
  · cases h

/-- An authority ends where the parser looks for its end. -/
theorem authority?_eq {s text : Bytes} (h : authority? s = .ok text) :
    text = s.takeWhile fun b => !endsAuthority b := by
  rw [authority?] at h
  cases hseen : (s.takeWhile fun b => !endsAuthority b).foldlM Scan.step .start with
  | error e => rw [hseen] at h; cases h
  | ok seen =>
    rw [hseen] at h
    dsimp only [bind, Except.bind] at h
    split at h
    · exact (Except.ok.inj h).symm
    · cases h

/-- An authority stands at the front of what it is read from, and no byte in it ends one. -/
theorem authority?_front {s text : Bytes} (h : authority? s = .ok text) :
    text ++ s.drop text.length = s ∧ ∀ b ∈ text, endsAuthority b = false := by
  rw [authority?_eq h]
  refine ⟨List.prefix_iff_eq_append.mp (List.takeWhile_prefix _), fun b hb => ?_⟩
  simpa using List.mem_takeWhile_imp hb

/-- A scheme holds no `#`, so the fragment is not cut within it. -/
theorem not_mem_of_scheme {s : Bytes} (h : ∀ b ∈ s, isSchemeByte b = true) : 0x23 ∉ s :=
  fun hmem => absurd (h _ hmem) (by decide)

/-- Nor does an authority. -/
theorem not_mem_of_authority {s : Bytes} (h : ∀ b ∈ s, endsAuthority b = false) : 0x23 ∉ s :=
  fun hmem => absurd (h _ hmem) (by decide)

/-- What a text is cut into, if it is a target: the parts come from these places, and only the last
    one is shortened. -/
theorem ofBytes_cases {s : Bytes} {t : Target} (h : ofBytes s = .ok t) :
    (∃ scheme text rest, cutScheme s = some (scheme, text ++ rest) ∧
        authority? (text ++ rest) = .ok text ∧ t = .absolute scheme text (dropFragment rest)) ∨
      cutScheme s = none ∧ authority? s = .ok s ∧ t = .authority s := by
  rw [ofBytes] at h
  split at h
  · cases h
  cases hcut : cutScheme s with
  | some parts =>
    obtain ⟨scheme, rest⟩ := parts
    rw [hcut] at h
    dsimp only at h
    split at h
    · cases h
    split at h
    · cases h
    cases htext : authority? rest with
    | error e => rw [htext] at h; cases h
    | ok text =>
      rw [htext] at h
      dsimp only [bind, Except.bind] at h
      split at h
      · cases h
      · obtain rfl := Except.ok.inj h
        have hrest := (authority?_front htext).1
        exact .inl ⟨scheme, text, rest.drop text.length, by rw [hrest], by rw [hrest, htext], rfl⟩
  | none =>
    rw [hcut] at h
    dsimp only at h
    cases htext : authority? s with
    | error e => rw [htext] at h; cases h
    | ok text =>
      rw [htext] at h
      dsimp only [bind, Except.bind] at h
      split at h
      · rename_i hlength
        obtain rfl := Except.ok.inj h
        -- an authority that is as long as the text is the text
        have hs := (authority?_front htext).1
        rw [hlength, List.drop_length, List.append_nil] at hs
        subst hs
        exact .inr ⟨rfl, rfl, rfl⟩
      · cases h

/-- The parts of a target, joined, are the text up to its fragment: no more is lost. -/
theorem ofBytes_bytes {s : Bytes} {t : Target} (h : ofBytes s = .ok t) :
    t.bytes = dropFragment s := by
  rcases ofBytes_cases h with ⟨scheme, text, rest, hcut, htext, rfl⟩ | ⟨-, htext, rfl⟩
  · obtain ⟨rfl, hscheme⟩ := cutScheme_eq hcut
    obtain ⟨-, hends⟩ := authority?_front htext
    have hmark : 0x23 ∉ schemeMark := by decide
    rw [List.append_assoc, dropFragment_append (not_mem_of_scheme hscheme),
      dropFragment_append hmark, dropFragment_append (not_mem_of_authority hends), bytes,
      List.append_assoc, List.append_assoc]
  · exact (dropFragment_eq (not_mem_of_authority (authority?_front htext).2)).symm

/-- A text is cut where its parts end, each of which has no byte that ends it before. -/
theorem ofBytes_joined {scheme text rest : Bytes} {t : Target}
    (hscheme : ∀ b ∈ scheme, isSchemeByte b = true) (htext : ∀ b ∈ text, endsAuthority b = false)
    (hrest : ∀ b, rest.head? = some b → endsAuthority b = true)
    (h : ofBytes (scheme ++ (schemeMark ++ (text ++ rest))) = .ok t) :
    t = .absolute scheme text (dropFragment rest) := by
  -- the scheme ends before the colon of the mark
  have hcut : cutScheme (scheme ++ (schemeMark ++ (text ++ rest))) = some (scheme, text ++ rest) := by
    have hcolon : ∀ b ∈ (schemeMark ++ (text ++ rest)).head?, isSchemeByte b = false := by
      rintro b ⟨⟩
      decide
    rw [cutScheme, Json.takeWhile_run hscheme hcolon, Json.dropWhile_run hscheme hcolon]
    simp
  -- the authority ends before the rest
  have htake : (text ++ rest).takeWhile (fun b => !endsAuthority b) = text :=
    Json.takeWhile_run (fun b hb => by rw [htext b hb]; rfl) fun b hb => by rw [hrest b hb]; rfl
  rcases ofBytes_cases h with ⟨scheme', text', rest', hcut', htext', rfl⟩ | ⟨hnone, -⟩
  · rw [hcut] at hcut'
    obtain ⟨rfl, hjoined⟩ := Prod.mk.inj (Option.some.inj hcut')
    have hsame : text' = text := by rw [authority?_eq htext', ← hjoined, htake]
    subst hsame
    rw [List.append_cancel_left hjoined]
  · rw [hcut] at hnone
    cases hnone

end Target

namespace Url

/-- A URL without its fragment. -/
def withoutFragment (u : Url) : Url := { u with fragment := none }

/-- A URL is what is left without its fragment, and the fragment. -/
theorem text_eq (u : Url) : u.text = u.withoutFragment.text ++ marked "#" u.fragment := by
  show _ = _ ++ "" ++ _
  rw [String.append_empty]
  rfl

/-- A part behind its mark starts with the mark, if it is there. -/
theorem encode_marked (mark : Char) (hmark : mark.toNat < 0x80) (t : String) :
    Utf8.encode (marked (String.singleton mark) (some t)) =
      UInt8.ofNat mark.toNat :: Utf8.encode t := by
  have hfirst : Utf8.encode (String.singleton mark) = [UInt8.ofNat mark.toNat] := by
    rw [Utf8.encode, String.toList_singleton, List.flatMap_singleton, Utf8.encodeChar_ascii hmark]
  rw [marked, Utf8.encode_append, hfirst]
  rfl

/-- Nothing is left of a fragment. -/
theorem dropFragment_marked (fragment : Option String) :
    Target.dropFragment (Utf8.encode (marked "#" fragment)) = [] := by
  cases fragment with
  | none => rfl
  | some t =>
    have hmark := encode_marked '#' (by decide) t
    exact (congrArg Target.dropFragment hmark).trans (Target.dropFragment_mark _)

/-- Where no other part has a number sign, a text up to it is that of the URL without fragment. -/
theorem dropFragment_text {u : Url} (h : 0x23 ∉ Utf8.encode u.withoutFragment.text) :
    Target.dropFragment (Utf8.encode u.text) = Utf8.encode u.withoutFragment.text := by
  rw [text_eq, Utf8.encode_append, Target.dropFragment_append h, dropFragment_marked,
    List.append_nil]

/-- The parts of a URL keep apart: none has a byte that ends it, and `a` stands between the two
    slashes and the path. -/
structure KeepsApart (u : Url) (a : String) : Prop where
  scheme : ∀ b ∈ Utf8.encode u.scheme, Target.isSchemeByte b = true
  slashes : u.authority = "//" ++ a
  authority : ∀ b ∈ Utf8.encode a, Target.endsAuthority b = false
  path : u.path.text = "" ∨ ∃ rest, u.path.text = "/" ++ rest
  noMark : 0x23 ∉ Utf8.encode (u.path.text ++ marked "?" u.query)

/-- What follows the authority starts with a slash, or with a mark, or is nothing. -/
theorem KeepsApart.head {u : Url} {a : String} (h : u.KeepsApart a) {b : UInt8}
    (hb : (Utf8.encode (u.path.text ++ marked "?" u.query) ++
      Utf8.encode (marked "#" u.fragment)).head? = some b) : Target.endsAuthority b = true := by
  rcases h.path with hpath | ⟨rest, hpath⟩
  · rw [hpath, String.empty_append] at hb
    -- without a path the next mark is that of the query, of the fragment, or the end
    cases hquery : u.query with
    | some q =>
      have hmark := encode_marked '?' (by decide) q
      rw [hquery, show ("?" : String) = String.singleton '?' from rfl, hmark] at hb
      cases hb
      decide
    | none =>
      rw [hquery] at hb
      cases hfragment : u.fragment with
      | some f =>
        have hmark := encode_marked '#' (by decide) f
        rw [hfragment, show ("#" : String) = String.singleton '#' from rfl, hmark] at hb
        cases hb
        decide
      | none =>
        rw [hfragment] at hb
        cases hb
  · have hslash : Utf8.encode "/" = [0x2F] := by decide +kernel
    rw [hpath, String.append_assoc, Utf8.encode_append, hslash] at hb
    cases hb
    decide

/-- The target of such a URL is its scheme, its authority, and its path and query. -/
theorem target_eq {u : Url} {a : String} (h : u.KeepsApart a) {t : Target}
    (ht : Target.of u.text = .ok t) :
    t = .absolute (Utf8.encode u.scheme) (Utf8.encode a)
      (Utf8.encode (u.path.text ++ marked "?" u.query)) := by
  have hmark : Utf8.encode (":" ++ "//") = Target.schemeMark := by decide +kernel
  have htext : Utf8.encode u.text = Utf8.encode u.scheme ++ (Target.schemeMark ++
      (Utf8.encode a ++ (Utf8.encode (u.path.text ++ marked "?" u.query) ++
        Utf8.encode (marked "#" u.fragment)))) := by
    rw [text, h.slashes, ← hmark]
    simp only [Utf8.encode_append, List.append_assoc]
  rw [Target.of, htext] at ht
  rw [Target.ofBytes_joined h.scheme h.authority (fun b => h.head) ht,
    Target.dropFragment_append h.noMark, dropFragment_marked, List.append_nil]

end Url

/-! ## Fields -/

namespace HeaderField

/-- The field of a header that has one. -/
def ofHeader (e : String × String) : HeaderField := ⟨lowerCase e.1, Utf8.encode e.2⟩

/-- A byte that no value of a field has: a control byte other than tab. -/
def IsControl (b : UInt8) : Prop := b < 0x20 ∧ b ≠ 0x09 ∨ b = 0x7F

/-- A header that has no field: its name is no token, or its value has a control byte. -/
def Unsendable (e : String × String) : Prop :=
  isToken (Utf8.encode e.1) = false ∨ ∃ b ∈ Utf8.encode e.2, IsControl b

instance (b : UInt8) : Decidable (IsControl b) := inferInstanceAs (Decidable (_ ∨ _))

instance (e : String × String) : Decidable (Unsendable e) := inferInstanceAs (Decidable (_ ∨ _))

/-- The bytes that no field may hold are the controls, the tab apart. -/
theorem isValueByte_eq_false_iff {b : UInt8} : isValueByte b = false ↔ IsControl b := by
  simp only [isValueByte, IsControl, Bool.or_eq_false_iff, Bool.and_eq_false_iff,
    decide_eq_false_iff_not, bne_eq_false_iff_eq, beq_eq_false_iff_ne, UInt8.not_le]
  have : b = 0x7F → b ≠ 0x09 := by rintro rfl; decide
  tauto

/-- A value can be sent when it holds none of them. -/
theorem value_all_iff {value : Bytes} :
    value.all isValueByte = true ↔ ¬ ∃ b ∈ value, IsControl b := by
  rw [List.all_eq_true, not_exists]
  simp only [not_and, ← isValueByte_eq_false_iff, Bool.not_eq_false]

/-- A header has its field, unless it has none; the length of its name is not the reason. -/
theorem ofEntry_ok_iff {e : String × String} {f : HeaderField}
    (hlength : (Utf8.encode e.1).length ≤ nameLimit) :
    ofEntry e = .ok f ↔ ¬ Unsendable e ∧ f = ofHeader e := by
  have hname : isName e.1 = isToken (Utf8.encode e.1) := by
    rw [isName, decide_eq_true hlength, Bool.and_true]
  rw [ofEntry, hname, Unsendable, not_or, Bool.not_eq_false, ← value_all_iff]
  cases htoken : isToken (Utf8.encode e.1) with
  | false => simp
  | true => cases hvalue : (Utf8.encode e.2).all isValueByte <;> simp [ofHeader, eq_comm]

end HeaderField

/-! ## Messages -/

namespace Message

open HeaderField

/-- No name of a header is longer than a name can be. -/
def NamesFit (entries : List (String × String)) : Prop :=
  ∀ e ∈ entries, (Utf8.encode e.1).length ≤ nameLimit

/-- The fields are made one by one, the first that cannot be made decides. -/
theorem fields_cons (e : String × String) (entries : List (String × String)) :
    (e :: entries).mapM ofEntry =
      (ofEntry e).bind fun f => (entries.mapM ofEntry).map (f :: ·) := by
  rw [List.mapM_cons]
  cases ofEntry e with
  | error p => rfl
  | ok f => cases entries.mapM ofEntry <;> rfl

/-- If every entry can be sent, there is one field per entry, in order. -/
theorem fields_of_sendable {entries : List (String × String)} (hfit : NamesFit entries)
    (h : ∀ e ∈ entries, ¬ Unsendable e) :
    entries.mapM ofEntry = .ok (entries.map ofHeader) := by
  induction entries with
  | nil => rfl
  | cons e entries ih =>
    obtain ⟨hlength, hfit⟩ := List.forall_mem_cons.mp hfit
    obtain ⟨he, h⟩ := List.forall_mem_cons.mp h
    rw [fields_cons, (ofEntry_ok_iff hlength).mpr ⟨he, rfl⟩, ih hfit h]
    rfl

/-- One header without a field is enough, wherever it stands. -/
theorem fields_of_unsendable {entries : List (String × String)} (hfit : NamesFit entries)
    (h : ∃ e ∈ entries, Unsendable e) : ∃ p, entries.mapM ofEntry = .error p := by
  induction entries with
  | nil => simp at h
  | cons e entries ih =>
    obtain ⟨hlength, hfit⟩ := List.forall_mem_cons.mp hfit
    rw [fields_cons]
    cases he : ofEntry e with
    | error p => exact ⟨p, rfl⟩
    | ok f =>
      have hsendable : ¬ Unsendable e := ((ofEntry_ok_iff hlength).mp he).1
      obtain ⟨p, hp⟩ := ih hfit (by simpa [hsendable] using h)
      exact ⟨p, by rw [hp]; rfl⟩

/-- A message has all that is in its request but for the fragment of the URL: a field for each
    header, whatever their order, and the whole body. -/
structure Carries (m : Message) (r : Request) : Prop where
  method : m.method = r.method
  /-- The target is the URL up to its fragment. -/
  target : m.target.bytes = Target.dropFragment (Utf8.encode r.url.text)
  /-- It is the URL without fragment where no other part of the URL has a number sign. -/
  unmarked : 0x23 ∉ Utf8.encode r.url.withoutFragment.text →
    m.target.bytes = Utf8.encode r.url.withoutFragment.text
  /-- Where the parts of the URL keep apart, they are the parts of the target. -/
  parts : ∀ a, r.url.KeepsApart a → m.target = .absolute (Utf8.encode r.url.scheme)
    (Utf8.encode a) (Utf8.encode (r.url.path.text ++ Url.marked "?" r.url.query))
  fields : m.fields.Perm (r.headers.entries.map ofHeader)
  body : m.body = r.body.getD []

/-- With a target, a request becomes a message just if its fields can be made. -/
theorem of_eq {r : Request} {target : Target} (h : Target.of r.url.text = .ok target) :
    Message.of r = ((r.headers.entries.mapM ofEntry).mapError
        fun p => Error.invalidRequest p.message).map
      fun fields => ⟨r.method, target, fields, r.body.getD []⟩ := by
  rw [Message.of, ofEntries, h]
  cases r.headers.entries.mapM ofEntry <;> rfl

/-- A request that can be sent becomes a message with all its parts. -/
theorem of_sendable {r : Request} {target : Target} (htarget : Target.of r.url.text = .ok target)
    (hfit : NamesFit r.headers.entries) (h : ∀ e ∈ r.headers.entries, ¬ Unsendable e) :
    Message.of r = .ok ⟨r.method, target, r.headers.entries.map ofHeader, r.body.getD []⟩ := by
  rw [of_eq htarget, fields_of_sendable hfit h]
  rfl

/-- A request with an unsendable entry becomes none, and the error says why. -/
theorem of_unsendable {r : Request} {target : Target} (htarget : Target.of r.url.text = .ok target)
    (hfit : NamesFit r.headers.entries) (h : ∃ e ∈ r.headers.entries, Unsendable e) :
    ∃ p : FieldProblem, Message.of r = .error (.invalidRequest p.message) := by
  obtain ⟨p, hp⟩ := fields_of_unsendable hfit h
  exact ⟨p, by rw [of_eq htarget, hp]; rfl⟩

/-- A request that has no message is refused before any peer is asked. -/
theorem transport_of_error {r : Request} {e : Error} (h : Message.of r = .error e) (peer : Peer)
    (config : Config) : (Service.transport peer config).call r = ⟨.error e, 0, [], []⟩ := by
  show Exchange.perform peer config r = _
  rw [Exchange.perform, Exchange.dispatch, h]
  rfl

/-- A request whose URL can be a target is sent with everything that is in it but for the fragment of
    the URL, or it is refused and nothing is sent.  It is refused just if one of its headers has no
    field; the order in which the headers are taken does not matter. -/
theorem sent_whole_or_refused {r : Request} {target : Target}
    (htarget : Target.of r.url.text = .ok target) (hfit : NamesFit r.headers.entries)
    {reordered : Headers} (horder : reordered.entries.Perm r.headers.entries) :
    let sent : Request := { r with headers := reordered }
    ((∃ m, Message.of sent = .ok m ∧ m.Carries r) ∨
        ∃ p : FieldProblem, Message.of sent = .error (.invalidRequest p.message)) ∧
      ((∃ e, Message.of sent = .error e) ↔ ∃ e ∈ r.headers.entries, Unsendable e) ∧
      ∀ e, Message.of sent = .error e → ∀ peer config,
        (Service.transport peer config).call sent = ⟨.error e, 0, [], []⟩ := by
  intro sent
  have hfit' : NamesFit sent.headers.entries := fun e he => hfit e (horder.mem_iff.mp he)
  -- whether some entry cannot be sent does not hang on the order of the entries
  by_cases hbad : ∃ e ∈ r.headers.entries, Unsendable e
  · obtain ⟨e, he, hunsendable⟩ := hbad
    obtain ⟨p, hp⟩ := of_unsendable (r := sent) htarget hfit'
      ⟨e, horder.mem_iff.mpr he, hunsendable⟩
    exact ⟨.inr ⟨p, hp⟩, ⟨fun _ => ⟨e, he, hunsendable⟩, fun _ => ⟨_, hp⟩⟩,
      fun _ herror => transport_of_error herror⟩
  · have hsendable : ∀ e ∈ sent.headers.entries, ¬ Unsendable e := fun e he hunsendable =>
      hbad ⟨e, horder.mem_iff.mp he, hunsendable⟩
    have hm := of_sendable (r := sent) htarget hfit' hsendable
    have hbytes := Target.ofBytes_bytes htarget
    have hcarries : Carries ⟨r.method, target, reordered.entries.map ofHeader, r.body.getD []⟩ r :=
      ⟨rfl, hbytes, fun h => hbytes.trans (Url.dropFragment_text h),
        fun _ h => Url.target_eq h htarget, horder.map _, rfl⟩
    refine ⟨.inl ⟨_, hm, hcarries⟩, ?_, fun _ herror => transport_of_error herror⟩
    constructor
    · rintro ⟨e, he⟩
      rw [hm] at he
      cases he
    · exact fun h => absurd h hbad

/-- Two spellings of a name and a value beyond ASCII, taken in the other order, for a URL with query
    and fragment; and a value with a line break, behind a header that could be sent. -/
theorem sent_whole_or_refused_reordered :
    let url : Url :=
      ⟨"http", "", "", some (.name "h"), none, .segments ["p"], some "q=1", some "frag"⟩
    let r : Request := ⟨.get, url, .ofList [("X-Tag", "1"), ("x-tag", "ü")], none⟩
    let other : Headers := .ofList [("x-tag", "ü"), ("X-Tag", "1")]
    let bad : Request := ⟨.get, url, .ofList [("A", "b\nc"), ("B", "d")], none⟩
    (∃ target, Target.of url.text = .ok target) ∧ other.entries.Perm r.headers.entries ∧
      (∃ m, Message.of { r with headers := other } = .ok m ∧ m.Carries r ∧
        m.target.bytes = Utf8.encode "http://h/p?q=1" ∧
        m.target = .absolute (Utf8.encode "http") (Utf8.encode "h") (Utf8.encode "/p?q=1")) ∧
      ∃ e, Message.of bad = .error e := by
  intro url r other bad
  have htarget : Target.of url.text = .ok (.absolute (Utf8.encode "http") (Utf8.encode "h")
      (Utf8.encode "/p?q=1")) := by decide +kernel
  have horder : other.entries.Perm r.headers.entries := by decide +kernel
  have hfit : NamesFit r.headers.entries := by unfold NamesFit; decide +kernel
  have hfit' : NamesFit bad.headers.entries := by unfold NamesFit; decide +kernel
  obtain ⟨hsent, hrefused, -⟩ := sent_whole_or_refused (r := r) htarget hfit horder
  obtain ⟨-, hrefused', -⟩ := sent_whole_or_refused (r := bad) htarget hfit' (.refl _)
  refine ⟨⟨_, htarget⟩, horder, ?_, hrefused'.mpr (by decide +kernel)⟩
  have hgood : ¬ ∃ e ∈ r.headers.entries, Unsendable e := by decide +kernel
  obtain ⟨m, hm, hcarries⟩ := hsent.resolve_right fun ⟨_, hp⟩ => hgood (hrefused.mp ⟨_, hp⟩)
  have happart : url.KeepsApart "h" :=
    ⟨by decide +kernel, by decide +kernel, by decide +kernel, .inr ⟨"p", by decide +kernel⟩,
      by decide +kernel⟩
  have hpath : url.path.text ++ Url.marked "?" url.query = "/p?q=1" := by decide +kernel
  refine ⟨m, hm, hcarries, ?_, ?_⟩
  · rw [hcarries.unmarked (by decide +kernel)]
    decide +kernel
  · rw [hcarries.parts "h" happart, hpath]

/-- The fragment of a URL is not sent: the message of this request is that of the request without
    it, and its target is not the URL. -/
theorem fragment_not_sent :
    let url : Url := ⟨"http", "", "", some (.name "h"), none, .segments ["p"], none, some "frag"⟩
    url.text = "http://h/p#frag" ∧
      ∃ m, Message.of (.new .get url) = .ok m ∧ m.target.bytes = Utf8.encode "http://h/p" ∧
        m.target.bytes ≠ Utf8.encode url.text ∧
        Message.of (.new .get url.withoutFragment) = .ok m := by
  let m : Message := ⟨.get, .absolute (Utf8.encode "http") (Utf8.encode "h") (Utf8.encode "/p"), [],
    []⟩
  exact ⟨by decide +kernel, m, by decide +kernel, by decide +kernel, by decide +kernel,
    by decide +kernel⟩

end Message

end PlatformClient
