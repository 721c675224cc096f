/-
  Payloads that were cut off, and payloads with something behind them.

  A payload that decodes is an object with white space around it, and an object ends with its own
  brace: no object is the front of another one.  So of two payloads that both decode, one in front
  of the other, the longer has nothing but white space more (`PayloadOf.append_iff`).  Both halves
  of the main result follow: what is cut off before the last brace does not decode, and what is
  added behind a payload that decodes has to be white space, and then changes nothing.
-/
import PlatformClient.Service
import PlatformClient.Proofs.Envelope

namespace PlatformClient

open Json Grammar

/-! ## White space -/

/-- White space of JSON is four bytes; a form feed is none of them. -/
theorem isBlank_iff {b : UInt8} :
    isBlank b = true ↔ b = 0x20 ∨ b = 0x09 ∨ b = 0x0A ∨ b = 0x0D := by
  simp [isBlank, or_assoc]

theorem blank_iff {t : Bytes} :
    Blank t ↔ ∀ b ∈ t, b = 0x20 ∨ b = 0x09 ∨ b = 0x0A ∨ b = 0x0D :=
  forall₂_congr fun _ _ => isBlank_iff

/-- A closing brace is no white space. -/
theorem Json.Grammar.Blank.not_mem_brace {t : Bytes} (h : Blank t) : 0x7D ∉ t := by
  intro hmem
  exact absurd (h _ hmem) (by decide)

namespace Envelope

/-! ## Objects with something behind them -/

/-- White space may follow an object. -/
theorem Holds.append {s t : Bytes} {members : List Member} (h : Holds s members) (ht : Blank t) :
    Holds (s ++ t) members := by
  obtain ⟨object, hobject, w, u, hw, hu, rfl⟩ := h
  exact ⟨object, hobject, w, u ++ t, hw, hu.append ht, by simp⟩

/-- Nothing else may follow it. -/
theorem Holds.blank_of_append {s t : Bytes} {members members' : List Member}
    (h : Holds s members) (h' : Holds (s ++ t) members') : Blank t ∧ members' = members := by
  obtain ⟨object, hobject, w, u, hw, hu, rfl⟩ := h
  obtain ⟨object', hobject', w', u', hw', hu', heq⟩ := h'
  have hcut : w ++ (object ++ (u ++ t)) = w' ++ (object' ++ u') := by simpa using heq
  obtain ⟨-, hrest⟩ := Blank.unique hw hw' hobject.value.not_blank hobject'.value.not_blank hcut
  -- both objects stand at the same place, so they are one, and what follows it is the same
  obtain ⟨rfl, rfl⟩ := hobject.unique_front hobject' hrest
  refine ⟨?_, hobject'.unique hobject⟩
  intro b hb
  exact hu' b (by simp [hb])

/-- Something behind an object does not turn its front into a byte order mark. -/
theorem Holds.not_mark_append {s : Bytes} {members : List Member} (h : Holds s members)
    (t : Bytes) : byteOrderMark.isPrefixOf (s ++ t) = false := by
  obtain ⟨object, ⟨-, inside, -, rfl⟩, w, u, hw, -, rfl⟩ := h
  rw [List.append_assoc]
  exact Envelope.not_mark_prefix hw rfl

/-- A payload that is an object goes on as one just if white space is added. -/
theorem PayloadOf.append_iff {payload t : Bytes} {members members' : List Member}
    (h : PayloadOf members payload) :
    PayloadOf members' (payload ++ t) ↔ Blank t ∧ members' = members := by
  obtain ⟨s, hs, hholds⟩ := h
  constructor
  · rintro ⟨s', hs', hholds'⟩
    -- the mark is dropped from the whole as it is dropped from the front
    have hfront : dropMark (payload ++ t) = s ++ t := by
      refine (dropMark_eq_iff (hholds.not_mark_append t)).mpr ?_
      rcases hs with rfl | rfl
      · exact .inl rfl
      · exact .inr (List.append_assoc _ _ _)
    have hwhole : dropMark (payload ++ t) = s' :=
      (dropMark_eq_iff hholds'.not_mark_prefix).mpr hs'
    have heq : s' = s ++ t := hwhole.symm.trans hfront
    subst heq
    exact hholds.blank_of_append hholds'
  · rintro ⟨ht, rfl⟩
    refine ⟨s ++ t, ?_, hholds.append ht⟩
    rcases hs with rfl | rfl
    · exact .inl rfl
    · exact .inr (List.append_assoc _ _ _)

/-! ## Payloads that decode -/

/-- If a payload decodes, and so does one that starts with it, only white space lies between. -/
theorem blank_of_decode_append {schema schema' : Schema} {payload t : Bytes} {e e' : Envelope}
    (h : decode schema payload = .ok e) (h' : decode schema' (payload ++ t) = .ok e') :
    Blank t := by
  obtain ⟨-, -, members, hp, -, -⟩ := decode_ok_iff.mp h
  obtain ⟨-, -, members', hp', -, -⟩ := decode_ok_iff.mp h'
  exact (hp.append_iff.mp hp').1

/-- White space behind a payload changes nothing. -/
theorem decode_append_blank {schema : Schema} {payload t : Bytes} {e : Envelope}
    (h : decode schema payload = .ok e) (ht : Blank t) : decode schema (payload ++ t) = .ok e := by
  obtain ⟨hs, hne, members, hp, hnamed, hgiven⟩ := decode_ok_iff.mp h
  exact decode_ok_iff.mpr ⟨hs, hne, members, hp.append_iff.mpr ⟨ht, rfl⟩, hnamed, hgiven⟩

/-- What lacks the last brace of a payload that decodes does not decode, under any schema. -/
theorem decode_cut {schema schema' : Schema} {cut rest : Bytes} {e : Envelope}
    (h : decode schema (cut ++ rest) = .ok e) (hrest : 0x7D ∈ rest) :
    ∃ reason, decode schema' cut = .error reason := by
  cases hcut : decode schema' cut with
  | error reason => exact ⟨reason, rfl⟩
  | ok e' =>
    have hblank : Blank rest := blank_of_decode_append hcut h
    exact absurd hrest hblank.not_mem_brace

/-- Behind an accepted payload only white space may be added, and then the same is read. -/
theorem decode_append_ok_iff {schema : Schema} {payload t : Bytes} {e e' : Envelope}
    (h : decode schema payload = .ok e) :
    decode schema (payload ++ t) = .ok e' ↔ Blank t ∧ e' = e := by
  constructor
  · intro h'
    have ht : Blank t := blank_of_decode_append h h'
    have hsame : decode schema (payload ++ t) = .ok e := decode_append_blank h ht
    rw [h'] at hsame
    exact ⟨ht, Except.ok.inj hsame⟩
  · rintro ⟨ht, rfl⟩
    exact decode_append_blank h ht

/-- What cannot be decoded is kept as text. -/
theorem classify_of_error {schema : Schema} {payload : Bytes} {reason : DecodeError}
    (h : decode schema payload = .error reason) (status : Nat) :
    classify schema status payload = .unknown status (Utf8.lossy payload) := by
  rw [classify, h]

/-- A payload that decodes is cut off only to its harm: a front of it that ends before its last
    closing brace, so that one is among the bytes left out, is no envelope of any schema, and is
    classified by its text.  What follows a payload that decodes can only be white space. -/
theorem decode_cut_or_continued {schema : Schema} {payload : Bytes} {e : Envelope}
    (h : decode schema payload = .ok e) :
    (∀ cut rest, payload = cut ++ rest → 0x7D ∈ rest → ∀ schema',
      (∃ reason, decode schema' cut = .error reason) ∧
        ∀ status, classify schema' status cut = .unknown status (Utf8.lossy cut)) ∧
    ∀ t e', decode schema (payload ++ t) = .ok e' ↔
      (∀ b ∈ t, b = 0x20 ∨ b = 0x09 ∨ b = 0x0A ∨ b = 0x0D) ∧ e' = e := by
  constructor
  · rintro cut rest rfl hrest schema'
    have hcut : ∃ reason, decode schema' cut = .error reason := decode_cut h hrest
    obtain ⟨reason, hreason⟩ := hcut
    exact ⟨⟨reason, hreason⟩, classify_of_error hreason⟩
  · intro t e'
    rw [decode_append_ok_iff h, blank_iff]

/-- A v3 payload with a mark in front and white space behind, and one that lacks its last brace. -/
theorem decode_cut_or_continued_v3 :
    let payload := byteOrderMark ++
      Utf8.encode "\x7b\"errors\":[\x7b\"code\":1,\"detail\":\"\x7d\",\"title\":\"t\"\x7d]\x7d \n"
    let cut := byteOrderMark ++
      Utf8.encode "\x7b\"errors\":[\x7b\"code\":1,\"detail\":\"\x7d\",\"title\":\"t\"\x7d]"
    decode .v3 payload = .ok (.v3 [⟨1, "\x7d", "t"⟩]) ∧
      classify .v3 502 cut = .unknown 502 (Utf8.lossy cut) ∧
      decode .v3 (payload ++ [0x09]) = .ok (.v3 [⟨1, "\x7d", "t"⟩]) := by
  intro payload cut
  have h : decode .v3 payload = .ok (.v3 [⟨1, "\x7d", "t"⟩]) := by decide +kernel
  obtain ⟨hcut, hmore⟩ := decode_cut_or_continued h
  refine ⟨h, ?_, ?_⟩
  · exact (hcut cut (Utf8.encode "\x7d \n") (by decide +kernel) (by decide +kernel) .v3).2 502
  · exact (hmore [0x09] _).mpr ⟨by simp, rfl⟩

end Envelope

end PlatformClient
