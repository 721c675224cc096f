/-
  What stands in front of a payload's object, and how decoding goes wrong.

  1. **The front.**  A payload is a byte order mark or none, a run of white space, and a rest that
     starts with none, in one way only (`Front`).
  2. **Outcomes.**  The rest decides whether a payload is an object at all; what the object says
     decides between the other outcomes (`Outcomes`).  White space of a payload is more than white
     space of JSON: a form feed gets a payload as far as the reader, and no further.
  3. **The mark** is dropped once, and only at the very front.  Classifying keeps it with the text of
     a payload that does not decode.
-/
import Mathlib.Data.List.TakeWhile
import PlatformClient.Proofs.Leniency
import PlatformClient.Proofs.TextReading
import PlatformClient.Proofs.Truncation

namespace PlatformClient

open Json Grammar

namespace Envelope

/-! ## The front -/

/-- The payload is a mark or none, a run of white space, and a rest that starts with none. -/
structure Front (payload mark run rest : Bytes) : Prop where
  whole : payload = mark ++ run ++ rest
  /-- Only a payload that does not start with a byte order mark is without one. -/
  marked : mark = byteOrderMark ∨ mark = [] ∧ ¬ byteOrderMark <+: payload
  spaces : ∀ b ∈ run, b ∈ [0x20, 0x09, 0x0A, 0x0C, 0x0D]
  /-- The run is as long as can be. -/
  longest : ∀ b, rest.head? = some b → b ∉ [0x20, 0x09, 0x0A, 0x0C, 0x0D]

variable {payload mark run rest s : Bytes} {schema : Schema}

/-- A mark in front is dropped, and only that one. -/
theorem dropMark_mark (s : Bytes) : dropMark (byteOrderMark ++ s) = s := by
  rw [dropMark, if_pos (List.isPrefixOf_iff_prefix.mpr (List.prefix_append _ _)), List.drop_left]

theorem dropMark_unmarked (h : ¬ byteOrderMark <+: s) : dropMark s = s := by
  rw [dropMark, if_neg (mt List.isPrefixOf_iff_prefix.mp h)]

/-- Every payload is a mark or none, and what is decoded. -/
theorem exists_mark (payload : Bytes) :
    ∃ mark, payload = mark ++ dropMark payload ∧
      (mark = byteOrderMark ∨ mark = [] ∧ ¬ byteOrderMark <+: payload) := by
  by_cases h : byteOrderMark <+: payload
  · obtain ⟨s, rfl⟩ := h
    exact ⟨byteOrderMark, by rw [dropMark_mark], .inl rfl⟩
  · exact ⟨[], by rw [dropMark_unmarked h]; rfl, .inr ⟨rfl, h⟩⟩

/-- Without its mark, a payload starts with the run. -/
theorem Front.dropMark_eq (h : Front payload mark run rest) : dropMark payload = run ++ rest := by
  rcases h.marked with rfl | ⟨rfl, hnone⟩
  · rw [h.whole, List.append_assoc, dropMark_mark]
  · rw [dropMark_unmarked hnone, h.whole]
    rfl

/-- A longest run is exactly what is dropped. -/
theorem dropWhile_leading (hrun : ∀ b ∈ run, b ∈ [0x20, 0x09, 0x0A, 0x0C, 0x0D])
    (hrest : ∀ b, rest.head? = some b → b ∉ [0x20, 0x09, 0x0A, 0x0C, 0x0D]) :
    (run ++ rest).dropWhile isLeadingBlank = rest := by
  refine dropWhile_run (fun b hb => isLeadingBlank_iff.mpr (hrun b hb)) ?_
  intro b hb
  exact Bool.eq_false_iff.mpr (mt isLeadingBlank_iff.mp (hrest b hb))

/-- The rest of a front is what stands behind the white space, as the decoder skips it. -/
theorem Front.rest_eq (h : Front payload mark run rest) :
    (dropMark payload).dropWhile isLeadingBlank = rest := by
  rw [h.dropMark_eq, dropWhile_leading h.spaces h.longest]

/-- A payload has one front. -/
theorem Front.unique {mark' run' rest' : Bytes} (h : Front payload mark run rest)
    (h' : Front payload mark' run' rest') : mark = mark' ∧ run = run' ∧ rest = rest' := by
  have hrest : rest = rest' := by rw [← h.rest_eq, h'.rest_eq]
  have hrun : run = run' := by
    have happend : run ++ rest = run' ++ rest' := by rw [← h.dropMark_eq, h'.dropMark_eq]
    rw [← hrest] at happend
    exact List.append_cancel_right happend
  have hmark : mark = mark' := by
    have hwhole : mark ++ run ++ rest = mark' ++ run' ++ rest' := by rw [← h.whole, h'.whole]
    rw [← hrest, ← hrun] at hwhole
    exact List.append_cancel_right (List.append_cancel_right hwhole)
  exact ⟨hmark, hrun, hrest⟩

/-- Every payload has a front. That it has only one is `Front.unique`. -/
theorem exists_payload_front (payload : Bytes) : ∃ mark run rest, Front payload mark run rest := by
  obtain ⟨mark, hpayload, hmark⟩ := exists_mark payload
  have hsplit : (dropMark payload).takeWhile isLeadingBlank ++
      (dropMark payload).dropWhile isLeadingBlank = dropMark payload :=
    List.takeWhile_append_dropWhile
  refine ⟨mark, (dropMark payload).takeWhile isLeadingBlank,
    (dropMark payload).dropWhile isLeadingBlank, ?_, hmark, ?_, ?_⟩
  · rw [List.append_assoc, hsplit]
    exact hpayload
  · intro b hb
    exact isLeadingBlank_iff.mp (List.mem_takeWhile_imp hb)
  · intro b hb
    have hne := List.head?_dropWhile_not isLeadingBlank (dropMark payload)
    rw [hb] at hne
    exact mt isLeadingBlank_iff.mpr (by simpa using hne)

/-! ## Outcomes -/

/-- The payload is an object whose members say that the envelope of the schema is this one, an empty
    one included. -/
def Says (schema : Schema) (payload : Bytes) (e : Envelope) : Prop :=
  e.schema = schema ∧ ∃ members, PayloadOf members payload ∧ AllNamed members ∧ e.GivenBy members

/-- How a payload with this front is decoded. -/
structure Outcomes (schema : Schema) (payload run rest : Bytes)
    (decoded : Except DecodeError Envelope) : Prop where
  accepted : ∀ e, decoded = .ok e ↔ Says schema payload e ∧ e ≠ .v3 []
  /-- Nothing is left behind the white space, or something else than a brace. -/
  not_an_object : decoded = .error .notAnObject ↔ rest = [] ∨ ∃ b t, rest = b :: t ∧ b ≠ 0x7B
  /-- Only the items of `errors` are missing. -/
  empty_errors : decoded = .error .emptyErrors ↔ schema = .v3 ∧ ErrorsOf [] payload
  /-- Then nothing but white space of JSON follows the object. -/
  enclosed : decoded = .error .emptyErrors →
    ∃ members object behind, Object members object ∧ rest = object ++ behind ∧
      ∀ b ∈ behind, b ∈ [0x20, 0x09, 0x0A, 0x0D]
  /-- A payload that starts with a brace and says nothing is no JSON of the schema. -/
  malformed : (∃ m, decoded = .error (.json m)) ↔
    (∃ t, rest = 0x7B :: t) ∧ ∀ e, ¬ Says schema payload e
  /-- A form feed is no white space of JSON. -/
  form_feed : 0x0C ∈ run → (∃ t, rest = 0x7B :: t) →
    ∃ m, decoded = .error (.json m) ∧ pathText m.path = "."

/-- The look at the first byte is a look at the rest of the front. -/
theorem opensObject_iff_rest : opensObject s = true ↔
    ∃ t, s.dropWhile isLeadingBlank = 0x7B :: t := by
  rw [opensObject, beq_iff_eq, List.head?_eq_some_iff]

/-- What a payload says is what the reader of the schema reads of it, given that it opens as an
    object. -/
theorem says_iff {e : Envelope} : Says schema payload e ↔
    opensObject (dropMark payload) = true ∧ schema.reader.readWhole (dropMark payload) = .ok e := by
  constructor
  · rintro ⟨hs, members, hpayload, hgiven⟩
    have hholds := payloadOf_iff.mp hpayload
    exact ⟨hholds.opensObject,
      (readWhole_ok_iff hholds.opensObject).mpr ⟨hs, members, hholds, hgiven⟩⟩
  · rintro ⟨hopens, hread⟩
    obtain ⟨hs, members, hholds, hgiven⟩ := (readWhole_ok_iff hopens).mp hread
    exact ⟨hs, members, payloadOf_iff.mpr hholds, hgiven⟩

/-- A v3 envelope without entries is said by an `errors` without items. -/
theorem says_empty_iff : Says schema payload (.v3 []) ↔ schema = .v3 ∧ ErrorsOf [] payload := by
  constructor
  · rintro ⟨rfl, members, hpayload, hnamed, hgiven⟩
    have hentries : V3EntriesGivenBy [] members := hgiven
    refine ⟨rfl, members, hpayload, hnamed, hentries.mono ?_⟩
    rintro v ⟨items, harray, hlisted⟩
    cases hlisted
    exact harray
  · rintro ⟨rfl, members, hpayload, hnamed, hoccurs⟩
    have hentries : V3EntriesGivenBy [] members := hoccurs.mono fun v hv => ⟨[], hv, .nil⟩
    exact ⟨rfl, members, hpayload, hnamed, hentries⟩

/-- Only an empty list of entries is turned down after reading. -/
theorem validate_error_iff {e : Envelope} {reason : DecodeError} :
    e.validate = .error reason ↔ e = .v3 [] ∧ reason = .emptyErrors := by
  unfold validate
  split
  · simp [eq_comm]
  · rename_i hne
    constructor
    · intro h
      cases h
    · rintro ⟨he, -⟩
      exact absurd he hne

/-- In front of the object, the reader passes over white space of JSON alone. -/
theorem run_of_form_feed {w t : Bytes} (hw : Blank w) :
    schema.reader.run (w ++ 0x0C :: t) = .error (.peek .expectedValue (0x0C :: t)) := by
  have record {σ α : Type} (r : Record σ α) (f : α → Envelope) :
      ((Reader.record r).map f).run (w ++ 0x0C :: t) =
        .error (.peek .expectedValue (0x0C :: t)) := by
    have hrun : (Reader.record r).run (w ++ 0x0C :: t) =
        .error (.peek .expectedValue (0x0C :: t)) := by
      show startValue r.head _ = _
      rw [startValue_blank _ hw (by decide)]
      rfl
    show ((Reader.record r).run _).map _ = _
    rw [hrun]
    rfl
  cases schema with
  | v2 => exact record v2Record _
  | v3 => exact record v3Record _
  | uaa => exact record uaaRecord _

/-- White space with a form feed in it is white space of JSON up to the first one. -/
theorem exists_form_feed (hspaces : ∀ b ∈ run, b ∈ [0x20, 0x09, 0x0A, 0x0C, 0x0D])
    (hfeed : 0x0C ∈ run) : ∃ w t, Blank w ∧ run = w ++ 0x0C :: t := by
  obtain ⟨w, t, rfl, hfirst⟩ := List.eq_append_cons_of_mem hfeed
  refine ⟨w, t, ?_, rfl⟩
  intro b hb
  have hspace := hspaces b (List.mem_append_left _ hb)
  have hne : b ≠ 0x0C := by
    rintro rfl
    exact hfirst hb
  rw [isBlank_iff]
  simp only [List.mem_cons, List.not_mem_nil, or_false] at hspace
  tauto

/-- The three ways that decoding goes, by the front and by what the object says. -/
theorem decode_cases (schema : Schema) (payload : Bytes) :
    (opensObject (dropMark payload) = false ∧ decode schema payload = .error .notAnObject) ∨
      (opensObject (dropMark payload) = true ∧ (∀ e, ¬ Says schema payload e) ∧
        ∃ m, decode schema payload = .error (.json m)) ∨
      (opensObject (dropMark payload) = true ∧
        ∃ e, Says schema payload e ∧ decode schema payload = e.validate) := by
  rw [decode, decodeObject]
  cases hopens : opensObject (dropMark payload) with
  | false => exact .inl ⟨rfl, rfl⟩
  | true =>
    cases hread : schema.reader.readWhole (dropMark payload) with
    | error m =>
      refine .inr (.inl ⟨rfl, ?_, m, rfl⟩)
      intro e he
      obtain ⟨-, hok⟩ := says_iff.mp he
      rw [hread] at hok
      cases hok
    | ok e => exact .inr (.inr ⟨rfl, e, says_iff.mpr ⟨hopens, hread⟩, rfl⟩)

/-- The four outcomes, each by its condition. Acceptance comes first: the payload says an envelope,
    and not the empty one. -/
theorem decode_accepted_iff {e : Envelope} :
    decode schema payload = .ok e ↔ Says schema payload e ∧ e ≠ .v3 [] := by
  rw [decode_ok_iff, Says]
  tauto

/-- Nothing is read of a payload that does not open as an object. -/
theorem decode_notAnObject_iff :
    decode schema payload = .error .notAnObject ↔ opensObject (dropMark payload) = false := by
  rcases decode_cases schema payload with ⟨hopens, hd⟩ | ⟨hopens, -, m, hd⟩ | ⟨hopens, e, -, hd⟩
  · rw [hopens, hd]
    exact iff_of_true rfl rfl
  · rw [hopens, hd]
    exact iff_of_false (by simp) (by simp)
  · rw [hopens, hd, validate_error_iff]
    exact iff_of_false (by simp) (by simp)

/-- A list without entries is read before it is turned down. -/
theorem decode_emptyErrors_iff :
    decode schema payload = .error .emptyErrors ↔ Says schema payload (.v3 []) := by
  constructor
  · intro h
    rcases decode_cases schema payload with ⟨-, hd⟩ | ⟨-, -, m, hd⟩ | ⟨-, e, hsays, hd⟩
    · rw [hd] at h
      cases h
    · rw [hd] at h
      cases h
    · rw [hd] at h
      obtain ⟨rfl, -⟩ := validate_error_iff.mp h
      exact hsays
  · intro h
    obtain ⟨hopens, hread⟩ := says_iff.mp h
    rw [decode, decodeObject, if_pos hopens, hread]
    exact validate_error_iff.mpr ⟨rfl, rfl⟩

/-- What opens as an object and says nothing is a fault of reading. -/
theorem decode_json_iff : (∃ m, decode schema payload = .error (.json m)) ↔
    opensObject (dropMark payload) = true ∧ ∀ e, ¬ Says schema payload e := by
  rcases decode_cases schema payload with ⟨hopens, hd⟩ | ⟨hopens, hnone, m, hd⟩ |
    ⟨-, e, hsays, hd⟩
  · rw [hopens, hd]
    exact iff_of_false (by simp) (by simp)
  · exact iff_of_true ⟨m, hd⟩ ⟨hopens, hnone⟩
  · refine iff_of_false ?_ fun h => h.2 e hsays
    rintro ⟨m, hm⟩
    rw [hd] at hm
    obtain ⟨-, hne⟩ := validate_error_iff.mp hm
    cases hne

/-- The object of a payload stands behind the white space in front. -/
theorem Front.enclosed (h : Front payload mark run rest) {members : List Member}
    (hmembers : PayloadOf members payload) :
    ∃ object behind, Object members object ∧ rest = object ++ behind ∧ Blank behind := by
  obtain ⟨object, hobject, w, behind, hw, hbehind, hs⟩ := payloadOf_iff.mp hmembers
  refine ⟨object, behind, hobject, ?_, hbehind⟩
  rw [← h.rest_eq, hs, List.append_assoc]
  refine dropWhile_run (fun b hb => isLeadingBlank_of_isBlank (hw b hb)) ?_
  intro b hb
  rw [List.head?_append, hobject.head] at hb
  cases hb
  rfl

/-- The conditions, moved from the payload to the rest of its front. -/
theorem outcomes_of_front (h : Front payload mark run rest) (schema : Schema) :
    Outcomes schema payload run rest (decode schema payload) where
  accepted _ := decode_accepted_iff
  not_an_object := by
    rw [decode_notAnObject_iff, Bool.eq_false_iff, ne_eq, opensObject_iff_rest, h.rest_eq]
    cases rest with
    | nil => simp
    | cons b t => simp
  empty_errors := decode_emptyErrors_iff.trans says_empty_iff
  enclosed hempty := by
    obtain ⟨-, members, hmembers, -⟩ := decode_emptyErrors_iff.mp hempty
    obtain ⟨object, behind, hobject, hrest, hbehind⟩ := h.enclosed hmembers
    refine ⟨members, object, behind, hobject, hrest, ?_⟩
    intro b hb
    simpa using blank_iff.mp hbehind b hb
  malformed := by rw [decode_json_iff, opensObject_iff_rest, h.rest_eq]
  form_feed hfeed hbrace := by
    -- the white space in front of the first form feed is skipped, and there the reader stands
    obtain ⟨w, t, hw, hrun⟩ := exists_form_feed h.spaces hfeed
    have hopens : opensObject (dropMark payload) = true := by
      rwa [opensObject_iff_rest, h.rest_eq]
    have hread : schema.reader.run (dropMark payload) =
        .error (.peek .expectedValue (0x0C :: (t ++ rest))) := by
      rw [h.dropMark_eq, hrun, List.append_assoc]
      exact run_of_form_feed hw
    exact ⟨_, decodeObject_of_fault (opensObject_iff_firstByte.mp hopens) hread, rfl⟩

/-- Every payload has one front, and is decoded by what stands behind it. -/
theorem decode_outcomes (schema : Schema) (payload : Bytes) :
    ∃ mark run rest, (∀ m r t, Front payload m r t ↔ m = mark ∧ r = run ∧ t = rest) ∧
      Outcomes schema payload run rest (decode schema payload) := by
  obtain ⟨mark, run, rest, hfront⟩ := exists_payload_front payload
  refine ⟨mark, run, rest, ?_, outcomes_of_front hfront schema⟩
  intro m r t
  constructor
  · exact fun h => h.unique hfront
  · rintro ⟨rfl, rfl, rfl⟩
    exact hfront

/-- Three payloads that start with white space and an object, and come to three errors. -/
example :
    decode .v3 (Utf8.encode " \n\x7b\"errors\":[]\x7d\n") = .error .emptyErrors ∧
      (∃ m, decode .v3 (Utf8.encode "\x7b\"errors\":[]\x7d\n." ) = .error (.json m)) ∧
      (∃ m, decode .v3 (Utf8.encode "\x0C\x7b\"errors\":[]\x7d") = .error (.json m)) := by
  refine ⟨by decide +kernel, ⟨⟨[], ⟨.trailingCharacters, some ⟨2, 1⟩⟩⟩, by decide +kernel⟩,
    ⟨⟨[], ⟨.expectedValue, some ⟨1, 1⟩⟩⟩, by decide +kernel⟩⟩

/-! ## The mark -/

/-- A byte order mark in front of a payload, to somebody who decodes and classifies it. -/
structure Transparent (schema : Schema) (status : Nat) (b : Bytes) : Prop where
  /-- Decoding gives the same, errors with their paths, wordings and positions included. -/
  decoded : decode schema (byteOrderMark ++ b) = decode schema b
  /-- What decodes is classified the same. -/
  known : ∀ e, decode schema b = .ok e →
    classify schema status (byteOrderMark ++ b) = .known status e ∧
      classify schema status b = .known status e
  /-- What does not is kept with its mark. -/
  unknown : ∀ reason, decode schema b = .error reason →
    ∃ text, classify schema status b = .unknown status text ∧
      classify schema status (byteOrderMark ++ b) = .unknown status ("\uFEFF" ++ text)

/-- The mark is kept in a text that is read lossily: it is a character as any other. -/
theorem lossy_mark (b : Bytes) : Utf8.lossy (byteOrderMark ++ b) = "\uFEFF" ++ Utf8.lossy b := by
  have hmark : byteOrderMark = Utf8.encodeChars ['\uFEFF'] := by decide +kernel
  rw [hmark, Utf8.lossy_encodeChars_append]

/-- What starts with a mark behind the front is no object. -/
theorem decode_inner_mark (schema : Schema) {w : Bytes}
    (hw : ∀ c ∈ w, c ∈ [0x20, 0x09, 0x0A, 0x0C, 0x0D]) {b payload : Bytes}
    (hpayload : dropMark payload = w ++ (byteOrderMark ++ b)) :
    decode schema payload = .error .notAnObject := by
  have hdrop : (dropMark payload).dropWhile isLeadingBlank = byteOrderMark ++ b := by
    rw [hpayload]
    refine dropWhile_leading hw ?_
    intro c hc
    cases hc
    decide
  rw [decode_notAnObject_iff, opensObject, hdrop]
  rfl

/-- A byte order mark is dropped from the very front, and only one: decoding cannot tell it was
    there, and classifying keeps it with a text.  A second one, or one behind white space, is no
    object. -/
theorem mark_transparent (schema : Schema) (status : Nat) (b : Bytes) :
    (¬ byteOrderMark <+: b → Transparent schema status b) ∧
      decode schema (byteOrderMark ++ byteOrderMark ++ b) = .error .notAnObject ∧
      ∀ w, w ≠ [] → (∀ c ∈ w, c ∈ [0x20, 0x09, 0x0A, 0x0C, 0x0D]) →
        decode schema (w ++ byteOrderMark ++ b) = .error .notAnObject := by
  refine ⟨?_, ?_, ?_⟩
  · intro hb
    have hdecode : decode schema (byteOrderMark ++ b) = decode schema b := by
      rw [decode, decode, dropMark_mark, dropMark_unmarked hb]
    refine ⟨hdecode, ?_, ?_⟩
    · intro e he
      rw [classify, classify, hdecode, he]
      exact ⟨rfl, rfl⟩
    · intro reason hreason
      refine ⟨Utf8.lossy b, classify_of_error hreason status, ?_⟩
      rw [classify_of_error (hdecode.trans hreason), lossy_mark]
  · have hdrop : dropMark (byteOrderMark ++ byteOrderMark ++ b) = [] ++ (byteOrderMark ++ b) := by
      rw [List.append_assoc, dropMark_mark]
      rfl
    exact decode_inner_mark schema (by simp) hdrop
  · intro w hne hw
    have hnone : ¬ byteOrderMark <+: w ++ byteOrderMark ++ b := by
      -- no white space starts a mark
      obtain ⟨c, w, rfl⟩ := List.exists_cons_of_ne_nil hne
      rintro ⟨t, ht⟩
      have hc := hw c List.mem_cons_self
      rw [← (List.cons.inj ht).1] at hc
      exact absurd hc (by decide)
    refine decode_inner_mark schema hw (b := b) ?_
    rw [dropMark_unmarked hnone, List.append_assoc]

/-- An envelope behind a mark, and bytes that are no text behind one. -/
theorem mark_transparent_uaa :
    let b := Utf8.encode "\x7b\"error\":\"e\",\"error_description\":\"d\"\x7d"
    decode .uaa (byteOrderMark ++ b) = .ok (.uaa ⟨"e", "d"⟩) ∧
      decode .uaa (byteOrderMark ++ byteOrderMark ++ b) = .error .notAnObject ∧
      decode .uaa ([0x0C] ++ byteOrderMark ++ b) = .error .notAnObject ∧
      classify .uaa 400 [0xFF] = .unknown 400 "\uFFFD" ∧
      classify .uaa 400 (byteOrderMark ++ [0xFF]) = .unknown 400 "\uFEFF\uFFFD" := by
  intro b
  obtain ⟨hmarked, htwice, hbehind⟩ := mark_transparent .uaa 400 b
  obtain ⟨hbytes, -, -⟩ := mark_transparent .uaa 400 [0xFF]
  have hb : ¬ byteOrderMark <+: b := by decide +kernel
  have hdecode : decode .uaa b = .ok (.uaa ⟨"e", "d"⟩) := by decide +kernel
  refine ⟨(hmarked hb).decoded.trans hdecode, htwice, hbehind [0x0C] (by simp) (by simp), ?_⟩
  have hunknown : classify .uaa 400 [0xFF] = .unknown 400 "\uFFFD" := by decide +kernel
  obtain ⟨text, hplain, hmark⟩ :=
    (hbytes (by decide)).unknown .notAnObject (by decide +kernel)
  rw [hunknown] at hplain
  cases hplain
  exact ⟨hunknown, hmark⟩

end Envelope

end PlatformClient
