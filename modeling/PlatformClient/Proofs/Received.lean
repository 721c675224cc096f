/-
  Which values of received fields a response has as headers.

  Fields are told apart by their names in lower case.  A field whose value is not readable is left
  out before the map is made, so it hides nothing and takes no one's place; of the others with one
  name the last counts.

  The fields may come through a map that gathers those of one name: all that matters is that these
  keep their order (`Regrouped`).
-/
import PlatformClient.Proofs.BodyBound
import PlatformClient.Proofs.Requests
import PlatformClient.Proofs.Utf8

namespace PlatformClient

namespace HeaderField

/-! ## Names and values -/

/-- The field has a name, whatever the case. -/
def Named (f : HeaderField) (name : String) : Prop := lowerCase f.name = lowerCase name

/-- The value has visible ASCII, spaces and tabs only. -/
def Readable (f : HeaderField) : Prop := ∀ b ∈ f.value, 0x20 ≤ b ∧ b ≤ 0x7E ∨ b = 0x09

instance (f : HeaderField) (name : String) : Decidable (f.Named name) :=
  inferInstanceAs (Decidable (_ = _))

instance (f : HeaderField) : Decidable f.Readable := inferInstanceAs (Decidable (∀ b ∈ _, _))

/-- A field is readable when its value is visible ASCII, spaces and tabs. -/
theorem isReadable_iff {f : HeaderField} : f.isReadable = true ↔ f.Readable := by
  simp [isReadable, isReadableByte, Readable]

/-- A readable value is the text of its bytes. -/
theorem encode_entry {f : HeaderField} (h : f.Readable) : Utf8.encode f.entry.2 = f.value := by
  have hascii : ∀ b ∈ f.value, b < 0x80 := by
    intro b hb
    rcases h b hb with ⟨-, hle⟩ | rfl
    · exact UInt8.lt_of_le_of_lt hle (by decide)
    · decide
  rw [entry, Utf8.encode_ofList, Utf8.encodeChars_map_ofNat hascii]

/-! ## Order -/

/-- The same fields, where those of one name are in the order in which they arrived. -/
def Regrouped (arrived fields : List HeaderField) : Prop :=
  ∀ name, fields.filter (fun f => f.Named name) = arrived.filter fun f => f.Named name

/-- Neighbours of different names may change places. -/
theorem regrouped_swap (before after : List HeaderField) {f g : HeaderField}
    (h : lowerCase f.name ≠ lowerCase g.name) :
    Regrouped (before ++ f :: g :: after) (before ++ g :: f :: after) := by
  intro name
  by_cases hf : f.Named name
  · have hg : ¬ g.Named name := fun hg => h (hf.trans hg.symm)
    simp [hf, hg]
  · simp [List.filter_cons, hf]

/-- The field is the last of its name that is readable. -/
def LastReadable (fields : List HeaderField) (name : String) (f : HeaderField) : Prop :=
  LastOf (fun g => g.Named name ∧ g.Readable) fields f

/-- It is the last of its name among those that are readable, and the last readable one among those
    of its name. -/
theorem lastReadable_iff_readable {fields : List HeaderField} {name : String} {f : HeaderField} :
    LastReadable fields name f ↔
      LastOf (fun g => g.Named name) (fields.filter isReadable) f := by
  have hprop : (fun g : HeaderField => g.isReadable = true ∧ g.Named name) =
      fun g => g.Named name ∧ g.Readable := by
    funext g
    rw [isReadable_iff, and_comm]
  rw [lastOf_filter_iff, hprop, LastReadable]

/-- Only the fields of that name matter, in their order. -/
theorem lastReadable_iff_named {fields : List HeaderField} {name : String} {f : HeaderField} :
    LastReadable fields name f ↔ LastOf Readable (fields.filter fun g => g.Named name) f := by
  rw [lastOf_filter_iff]
  simp only [LastReadable, decide_eq_true_eq]

/-- Hence regrouping by name changes nothing. -/
theorem Regrouped.lastReadable_iff {arrived fields : List HeaderField} (h : Regrouped arrived fields)
    {name : String} {f : HeaderField} : LastReadable fields name f ↔ LastReadable arrived name f := by
  rw [lastReadable_iff_named, lastReadable_iff_named, h name]

/-- A field that is not readable makes no difference to which is the last that is. -/
theorem lastReadable_drop {before after : List HeaderField} {f g : HeaderField} {name : String}
    (hf : ¬ f.Readable) :
    LastReadable (before ++ f :: after) name g ↔ LastReadable (before ++ after) name g := by
  have hkept : (before ++ f :: after).filter isReadable = (before ++ after).filter isReadable := by
    rw [List.filter_append, List.filter_append,
      List.filter_cons_of_neg (mt isReadable_iff.mp hf)]
  rw [lastReadable_iff_readable, lastReadable_iff_readable, hkept]

end HeaderField

/-! ## Maps of fields -/

open HeaderField

/-- The map has, for each name, the value of the last field of that name that is readable. -/
structure Headers.Tells (h : Headers) (fields : List HeaderField) : Prop where
  has_iff : ∀ name, (∃ value, h.get? (lowerCase name) = some value) ↔
    ∃ f ∈ fields, f.Named name ∧ f.Readable
  get?_iff : ∀ name value, h.get? (lowerCase name) = some value ↔
    ∃ f, LastReadable fields name f ∧ Utf8.encode value = f.value
  /-- Nothing else is in the map. -/
  lower : ∀ e ∈ h.entries, ∃ name, e.1 = lowerCase name

namespace Headers

/-- A name, in lower case, gives the value of its last readable field. -/
theorem get?_ofFields_iff {fields : List HeaderField} {name value : String} :
    (ofFields fields).get? (lowerCase name) = some value ↔
      ∃ f, LastReadable fields name f ∧ Utf8.encode value = f.value := by
  have hlast : ∀ f, LastOf (fun g => (entry g).1 = lowerCase name) (fields.filter isReadable) f ↔
      LastReadable fields name f := fun f => lastReadable_iff_readable.symm
  rw [get?_eq_some_iff, ofFields, mem_ofList_iff, lastOf_map_iff]
  simp only [hlast]
  refine exists_congr fun f => and_congr_right fun hf => ?_
  obtain ⟨hnamed, hreadable⟩ := hf.holds
  rw [← encode_entry hreadable]
  constructor
  · intro hentry
    rw [hentry]
  · intro hvalue
    exact Prod.ext hnamed (Utf8.encode_injective hvalue).symm

/-- All names are in lower case, so no other spelling is ever found. -/
theorem lower_ofFields {fields : List HeaderField} {e : String × String}
    (he : e ∈ (ofFields fields).entries) : ∃ name, e.1 = lowerCase name := by
  rw [ofFields, mem_ofList_iff] at he
  obtain ⟨f, -, rfl⟩ := List.mem_map.mp he.mem
  exact ⟨f.name, rfl⟩

/-- The map of fields is told by them as they arrived. -/
theorem ofFields_tells {arrived fields : List HeaderField} (h : Regrouped arrived fields) :
    (ofFields fields).Tells arrived where
  has_iff name := by
    simp only [get?_ofFields_iff, h.lastReadable_iff]
    constructor
    · rintro ⟨-, f, hf, -⟩
      exact ⟨f, hf.mem, hf.holds⟩
    · rintro ⟨f, hf, hholds⟩
      obtain ⟨g, hg⟩ := exists_lastOf (p := fun g => g.Named name ∧ g.Readable) hf hholds
      exact ⟨_, g, hg, encode_entry hg.holds.2⟩
  get?_iff name value := by
    simp only [get?_ofFields_iff, h.lastReadable_iff]
  lower _ := lower_ofFields

/-- A map is told as well without a field that is not readable. -/
theorem Tells.drop {h : Headers} {before after : List HeaderField} {f : HeaderField}
    (ht : h.Tells (before ++ f :: after)) (hf : ¬ f.Readable) : h.Tells (before ++ after) where
  has_iff name := by
    rw [ht.has_iff]
    constructor
    · rintro ⟨g, hg, hnamed, hreadable⟩
      have hne : g ≠ f := fun he => hf (he ▸ hreadable)
      exact ⟨g, by simpa [hne] using hg, hnamed, hreadable⟩
    · rintro ⟨g, hg, hholds⟩
      refine ⟨g, ?_, hholds⟩
      rcases List.mem_append.mp hg with hg | hg <;> simp [hg]
  get?_iff name value := by
    simp only [ht.get?_iff, lastReadable_drop hf]
  lower := ht.lower

end Headers

/-- The headers of a response are told by the fields of the reply as they arrived: each name has the
    value of its last readable field, and fields that are not readable make no difference. -/
theorem Service.received_headers (config : Config) {peer : Peer} {request : Request} {m : Message}
    {reply : Reply} {arrived : List HeaderField} (hm : Exchange.dispatch request = .ok m)
    (hreply : peer m = .answered reply) (hfields : Regrouped arrived reply.fields) :
    ∃ response, ((Service.transport peer config).call request).result = .ok response ∧
      response.headers.Tells arrived ∧
      ∀ before f after, arrived = before ++ f :: after → ¬ f.Readable →
        response.headers.Tells (before ++ after) := by
  rw [transport_answered hm hreply]
  refine ⟨_, rfl, Headers.ofFields_tells hfields, ?_⟩
  rintro before f after rfl hf
  exact (Headers.ofFields_tells hfields).drop hf

/-- The last value of a name is not readable, and other names stand in between. -/
theorem Service.received_headers_mixed :
    let url : Url := ⟨"http", "", "", some (.name "h"), none, .segments [""], none, none⟩
    let request := Request.new .get url
    let message : Message :=
      ⟨.get, .absolute (Utf8.encode "http") (Utf8.encode "h") [0x2F], [], []⟩
    let arrived : List HeaderField := [⟨"x-tag", Utf8.encode "a"⟩, ⟨"date", Utf8.encode "d"⟩,
      ⟨"x-tag", Utf8.encode "b"⟩, ⟨"x-tag", [0xFF]⟩]
    let fields : List HeaderField := [⟨"date", Utf8.encode "d"⟩, ⟨"x-tag", Utf8.encode "a"⟩,
      ⟨"x-tag", Utf8.encode "b"⟩, ⟨"x-tag", [0xFF]⟩]
    let peer : Peer := fun _ => .answered ⟨200, fields, []⟩
    Exchange.dispatch request = .ok message ∧ peer message = .answered ⟨200, fields, []⟩ ∧
      Regrouped arrived fields ∧
      ∃ response, ((Service.transport peer .default).call request).result = .ok response ∧
        response.headers.get? "x-tag" = some "b" := by
  intro url request message arrived fields peer
  have hm : Exchange.dispatch request = .ok message := by decide +kernel
  have hfields : Regrouped arrived fields :=
    regrouped_swap [] [_, _] (by decide +kernel)
  have hreply : peer message = .answered ⟨200, fields, []⟩ := rfl
  obtain ⟨response, hresult, htells, -⟩ := received_headers .default hm hreply hfields
  refine ⟨hm, hreply, hfields, response, hresult, ?_⟩
  have hlast : LastReadable arrived "x-tag" ⟨"x-tag", Utf8.encode "b"⟩ :=
    ⟨arrived.take 2, [⟨"x-tag", [0xFF]⟩], rfl, by decide +kernel, by decide +kernel⟩
  exact (htells.get?_iff "x-tag" "b").mpr ⟨_, hlast, rfl⟩

end PlatformClient
