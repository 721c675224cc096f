/-
  Whether setting a header replaces the value it had.

  A request tells the names of its headers apart by their spelling, and a message does not: there
  all names are in lower case.  So a value is replaced by one that is set later for the same
  spelling, while two spellings of one name stay beside each other, and become two fields.

  `Replaced` is what a caller expects of the fields: one for each name, with the value set last.  It
  holds just if no two names that were set differ in case only (`Message.replaced_iff`).
-/
import Mathlib.Data.List.Nodup
import PlatformClient.Proofs.Requests
import PlatformClient.Proofs.Sending

namespace PlatformClient

open HeaderField

/-- The fields have each name that was set once, whatever its case, and with the value set last. -/
structure Replaced (settings : List (String × String)) (fields : List HeaderField) : Prop where
  once : (fields.map HeaderField.name).Nodup
  latest : ∀ f, f ∈ fields ↔
    ∃ s, LastOf (fun t => lowerCase t.1 = lowerCase s.1) settings s ∧ f = ofHeader s

/-- No two of the names that were set differ in case only. -/
def OneSpelling (settings : List (String × String)) : Prop :=
  ∀ s ∈ settings, ∀ t ∈ settings, lowerCase s.1 = lowerCase t.1 → s.1 = t.1

/-- The order of the fields does not matter to what is replaced. -/
theorem Replaced.perm {settings : List (String × String)} {fields fields' : List HeaderField}
    (h : fields.Perm fields') : Replaced settings fields ↔ Replaced settings fields' := by
  have honce := (h.map HeaderField.name).nodup_iff
  constructor
  · rintro ⟨h₁, h₂⟩
    exact ⟨honce.mp h₁, fun f => h.mem_iff.symm.trans (h₂ f)⟩
  · rintro ⟨h₁, h₂⟩
    exact ⟨honce.mpr h₁, fun f => h.mem_iff.trans (h₂ f)⟩

namespace Headers

/-- Every name that was set is in the map. -/
theorem exists_mem_ofList {settings : List (String × String)} {s : String × String}
    (hs : s ∈ settings) : ∃ e ∈ (ofList settings).entries, e.1 = s.1 := by
  obtain ⟨e, he⟩ := exists_lastOf (p := fun t => t.1 = s.1) hs rfl
  refine ⟨e, mem_ofList_iff.mpr ?_, he.holds⟩
  rwa [he.holds]

/-- The fields of a map are those a caller expects just if no name was set in two spellings. -/
theorem replaced_ofList_iff (settings : List (String × String)) :
    Replaced settings ((ofList settings).entries.map ofHeader) ↔ OneSpelling settings := by
  have hnames : ((ofList settings).entries.map ofHeader).map HeaderField.name =
      (ofList settings).entries.map fun e => lowerCase e.1 := by
    rw [List.map_map]
    rfl
  constructor
  · -- two spellings are two entries, and their fields have one name
    rintro ⟨honce, -⟩ s hs t ht hlower
    rw [hnames] at honce
    obtain ⟨e, he, hes⟩ := exists_mem_ofList hs
    obtain ⟨e', he', het⟩ := exists_mem_ofList ht
    rw [← hes, ← het] at hlower ⊢
    exact congrArg Prod.fst (List.inj_on_of_nodup_map honce he he' hlower)
  · intro hone
    have hmem : ∀ e ∈ (ofList settings).entries, e ∈ settings := fun e he =>
      (mem_ofList_iff.mp he).mem
    refine ⟨?_, fun f => ?_⟩
    · rw [hnames]
      refine List.Nodup.map_on ?_ (ofList settings).unique.of_map
      intro e he e' he' hlower
      have hname : e.1 = e'.1 := hone e (hmem e he) e' (hmem e' he') hlower
      exact List.inj_on_of_nodup_map (ofList settings).unique he he' hname
    · -- among the names that were set, to be the same but for case is to be the same
      have hlast : ∀ e, LastOf (fun s => s.1 = e.1) settings e ↔
          LastOf (fun s => lowerCase s.1 = lowerCase e.1) settings e := by
        intro e
        constructor
        · exact fun h => h.congr fun s hs =>
            ⟨fun hname => congrArg lowerCase hname, hone s hs e h.mem⟩
        · exact fun h => h.congr fun s hs =>
            ⟨hone s hs e h.mem, fun hname => congrArg lowerCase hname⟩
      simp only [List.mem_map, mem_ofList_iff, hlast, eq_comm (a := f)]

end Headers

namespace Message

open Request

/-- Of the values set for one spelling of a name a request keeps the last.  Its message has the
    fields of all spellings; they are one for each name, with the value set last, just if no two
    names were set that differ in case only. -/
theorem replaced_iff (method : Method) (url : Url) {ss : List Step} {target : Target}
    (hwritable : Writable ss) (htarget : Target.of (url.appendAll (pairs ss)).text = .ok target)
    (hfit : NamesFit (settings ss)) (hvalid : ∀ s ∈ settings ss, ¬ Unsendable s) :
    ∃ r, (Request.new method url).steps ss = .ok r ∧
      (∀ e, e ∈ r.headers.entries ↔ LastOf (fun s => s.1 = e.1) (settings ss) e) ∧
      ∀ reordered : Headers, reordered.entries.Perm r.headers.entries →
        ∃ m, Message.of { r with headers := reordered } = .ok m ∧
          m.fields.Perm (r.headers.entries.map ofHeader) ∧
          (Replaced (settings ss) m.fields ↔ OneSpelling (settings ss)) := by
  obtain ⟨r, hr⟩ := (Request.new method url).exists_steps hwritable
  obtain ⟨-, hurl, hheaders⟩ := steps_built hr
  have hr_headers : r.headers = .ofList (settings ss) := hheaders
  have hmem : ∀ e, e ∈ r.headers.entries ↔ LastOf (fun s => s.1 = e.1) (settings ss) e := by
    intro e
    rw [hr_headers, Headers.mem_ofList_iff]
  refine ⟨r, hr, hmem, fun reordered horder => ?_⟩
  -- every entry was set by some step, so what holds of all settings holds of the entries
  have hset : ∀ e ∈ reordered.entries, e ∈ settings ss := fun e he =>
    ((hmem e).mp (horder.mem_iff.mp he)).mem
  have hm := of_sendable (r := { r with headers := reordered }) (hurl ▸ htarget)
    (fun e he => hfit e (hset e he)) (fun e he => hvalid e (hset e he))
  refine ⟨_, hm, horder.map _, ?_⟩
  rw [Replaced.perm (horder.map ofHeader), hr_headers, Headers.replaced_ofList_iff]

/-- A value that is set again for the same spelling, and a payload behind it. -/
theorem replaced_iff_content_type :
    let url : Url := ⟨"http", "", "", some (.name "h"), none, .segments [""], none, none⟩
    let ss : List Step := [.header "X-Tag" "1", .header "X-Tag" "2", .json (.value .null)]
    ∃ r m, (Request.new .post url).steps ss = .ok r ∧ Message.of r = .ok m ∧
      Replaced (settings ss) m.fields := by
  intro url ss
  have hwritable : Writable ss := by
    intro p hp
    obtain rfl : p = .value .null := by simpa [ss] using hp
    exact ⟨_, rfl⟩
  have htarget : Target.of (url.appendAll (pairs ss)).text =
      .ok (.absolute (Utf8.encode "http") (Utf8.encode "h") [0x2F]) := by decide +kernel
  have hfit : NamesFit (settings ss) := by unfold NamesFit; decide +kernel
  have hvalid : ∀ s ∈ settings ss, ¬ Unsendable s := by decide +kernel
  have hone : OneSpelling (settings ss) := by unfold OneSpelling; decide +kernel
  obtain ⟨r, hr, -, hsent⟩ := replaced_iff .post url hwritable htarget hfit hvalid
  obtain ⟨m, hm, -, hreplaced⟩ := hsent r.headers (.refl _)
  exact ⟨r, m, hr, hm, hreplaced.mpr hone⟩

/-- A payload sets the type of the content in another spelling than the caller did, and the message
    has both types. -/
theorem two_content_types_sent :
    let url : Url := ⟨"http", "", "", some (.name "h"), none, .segments [""], none, none⟩
    let ss : List Step := [.header "content-type" "text/plain", .json (.value .null)]
    (∀ s ∈ settings ss, ¬ Unsendable s) ∧
      ∃ r m, (Request.new .post url).steps ss = .ok r ∧ Message.of r = .ok m ∧
        m.fields = [⟨"content-type", Utf8.encode "application/json"⟩,
          ⟨"content-type", Utf8.encode "text/plain"⟩] ∧
        ¬ Replaced (settings ss) m.fields := by
  intro url ss
  have hvalid : ∀ s ∈ settings ss, ¬ Unsendable s := by decide +kernel
  let r : Request := ((Request.new .post url).header "content-type" "text/plain").header
    "Content-Type" "application/json" |>.withBody (Utf8.encode "null")
  have hr : (Request.new .post url).steps ss = .ok r := by decide +kernel
  let m : Message := ⟨.post, .absolute (Utf8.encode "http") (Utf8.encode "h") [0x2F],
    [⟨"content-type", Utf8.encode "application/json"⟩, ⟨"content-type", Utf8.encode "text/plain"⟩],
    Utf8.encode "null"⟩
  have hm : Message.of r = .ok m := by decide +kernel
  refine ⟨hvalid, r, m, hr, hm, rfl, ?_⟩
  rintro ⟨honce, -⟩
  have : ¬ (m.fields.map HeaderField.name).Nodup := by decide +kernel
  exact this honce

end Message

end PlatformClient
