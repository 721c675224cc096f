/-
  JSON written and read back.

  A value without floating point has a written form, and this form is read as the value it was
  written from.  Only one thing can come in between: the reader admits 127 containers inside each
  other, and the writer any number.  The body of a request is this written form, and the request is
  the same in all but its body and the header that says what the body is.

  `Json.value_takes` and `Json.value_fails` tell this of a reader in front of any text; here the
  text is the written form alone, and failures are those that a caller sees.
-/
import PlatformClient.Http.Request
import PlatformClient.Proofs.Json.Nesting

namespace PlatformClient

open Json

/-! ## Reading a whole text -/

section Reading

variable {α : Type} {r : Reader α} {text : Bytes} {a : α} {P : Fault → Prop}

/-- What a reader takes as a whole is read. -/
theorem readJson_of_takes (h : r.Takes text a) : readJson r text = .ok a := by
  have hrun : r.run ([] ++ text ++ []) = .ok (a, []) := h.2 blank_nil stops_nil
  rw [List.nil_append, List.append_nil] at hrun
  rw [readJson, Reader.read, hrun]
  rfl

/-- Where it fails, reading fails with that fault, said as of the whole text. -/
theorem readJson_of_fails (h : r.Fails text P) :
    ∃ f, P f ∧ readJson r text = .error (.ofMisread (f.misread text)) := by
  obtain ⟨f, hrun, hf⟩ := h blank_nil stops_nil
  rw [List.nil_append, List.append_nil] at hrun
  refine ⟨f, hf, ?_⟩
  rw [readJson, Reader.read, hrun]
  rfl

/-- A fault of nesting is reported as such, at its path and at a place of the text. -/
theorem ofMisread_of_tooDeep {bound : Nat} {f : Fault} (h : TooDeep bound f) (text : Bytes) :
    ∃ path place, path.length = bound ∧ Error.ofMisread (f.misread text) =
      .jsonReading (pathText path) (Problem.message ⟨.tooDeep, some place⟩) := by
  obtain ⟨cause, left, path⟩ := f
  obtain ⟨rfl, hpath⟩ := h
  exact ⟨path, Place.of text left, hpath, rfl⟩

end Reading

/-! ## Values -/

/-- A text is read as `v` if `v` is nested at most 127 deep, and otherwise refused for its nesting,
    inside 127 containers. -/
structure ReadsBack (text : Bytes) (v : Json) : Prop where
  same : v.depth ≤ 127 → readJson anyValue text = .ok v
  refused : 127 < v.depth → ∃ path place, path.length = 127 ∧ readJson anyValue text =
    .error (.jsonReading (pathText path) (Problem.message ⟨.tooDeep, some place⟩))

/-- A canonical value with whole numbers is read back from its bytes exactly when it is not deeper
    than the reader goes. -/
theorem toBytes_readsBack {v : Json} (hcanonical : v.Canonical) (hintegral : v.Integral) :
    ReadsBack v.toBytes v where
  same hdepth := readJson_of_takes (value_takes hcanonical hintegral hdepth)
  refused hdepth := by
    obtain ⟨f, hdeep, hread⟩ := readJson_of_fails (value_fails hcanonical hintegral hdepth)
    obtain ⟨path, place, hpath, herror⟩ := ofMisread_of_tooDeep hdeep v.toBytes
    exact ⟨path, place, hpath, by rw [← herror]; exact hread⟩

/-! ## Bodies -/

/-- `r'` is `r` with this text for its JSON body. -/
structure Request.HasJson (r : Request) (text : Bytes) (r' : Request) : Prop where
  body : r'.body = some text
  contentType : r'.headers.get? "Content-Type" = some "application/json"
  headers : ∀ name, name ≠ "Content-Type" → r'.headers.get? name = r.headers.get? name
  method : r'.method = r.method
  url : r'.url = r.url

/-- What can be written can be the body of a request. -/
theorem Request.json_of_written (r : Request) {p : Payload} {text : Bytes}
    (h : writeJson p = .ok text) : ∃ r', r.json p = .ok r' ∧ r.HasJson text r' := by
  refine ⟨(r.header "Content-Type" "application/json").withBody text, ?_, rfl,
    r.headers.get?_insert_self _ _, fun name hname => r.headers.get?_insert_ne _ hname, rfl, rfl⟩
  rw [Request.json, h]
  rfl

/-- A value without floating point can be written, also as the body of a request, and is read back
    up to the bound on nesting. -/
theorem json_written_and_read {v : Json} (hcanonical : v.Canonical) (hintegral : v.Integral)
    (r : Request) :
    ∃ text, writeJson (.value v) = .ok text ∧ ReadsBack text v ∧
      ∃ r', r.json (.value v) = .ok r' ∧ r.HasJson text r' :=
  ⟨v.toBytes, rfl, toBytes_readsBack hcanonical hintegral, r.json_of_written rfl⟩

/-- A value inside `n` arrays. -/
def Json.boxed (v : Json) : Nat → Json
  | 0 => v
  | n + 1 => .array [v.boxed n]

/-- Each box is one level. -/
theorem Json.depth_boxed (v : Json) (n : Nat) : (v.boxed n).depth = v.depth + n := by
  induction n with
  | zero => rfl
  | succ n ih => rw [boxed, depth, depthOfItems, depthOfItems, Nat.max_zero, ih, Nat.add_assoc]

theorem Json.Canonical.boxed {v : Json} (h : v.Canonical) (n : Nat) : (v.boxed n).Canonical := by
  induction n with
  | zero => exact h
  | succ n ih => exact .array _ (List.forall_mem_singleton.mpr ih)

theorem Json.Integral.boxed {v : Json} (h : v.Integral) (n : Nat) : (v.boxed n).Integral := by
  induction n with
  | zero => exact h
  | succ n ih => exact .array _ (List.forall_mem_singleton.mpr ih)

/-- Of one value inside arrays, the greatest nesting that is read, and the least that is not. -/
theorem json_read_up_to_bound :
    let core := Json.object [("", .object []),
      ("\"\\\n", .array [.number (.int (-0x8000000000000000)), .number (.int 0xFFFFFFFFFFFFFFFF)]),
      ("\u00e9\u20ac", .text "\x00\x1f\x7f/")]
    let r := (Request.new .post ⟨"http", "", "", some (.name "h"), none, .segments [""], none,
      none⟩).header "Accept" "*/*"
    (∃ text r', writeJson (.value (core.boxed 125)) = .ok text ∧
      readJson anyValue text = .ok (core.boxed 125) ∧
      r.json (.value (core.boxed 125)) = .ok r' ∧ r.HasJson text r') ∧
    ∃ text path place, writeJson (.value (core.boxed 126)) = .ok text ∧ path.length = 127 ∧
      readJson anyValue text =
        .error (.jsonReading (pathText path) (Problem.message ⟨.tooDeep, some place⟩)) := by
  intro core r
  -- control characters, quotes and the ends of the integers are among the values
  have hcanonical : core.Canonical := .object _ (by decide +kernel) (by
    simp only [List.forall_mem_cons]
    refine ⟨.object [] .nil (by simp), .array _ ?_, .text _, by simp⟩
    simp only [List.forall_mem_cons]
    exact ⟨.int _ (by decide), .int _ (by decide), by simp⟩)
  have hintegral : core.Integral := .object _ (by
    simp only [List.forall_mem_cons]
    refine ⟨.object [] (by simp), .array _ ?_, .text _, by simp⟩
    simp only [List.forall_mem_cons]
    exact ⟨.int _, .int _, by simp⟩)
  constructor
  · obtain ⟨text, hwrite, hread, r', hr', hjson⟩ :=
      json_written_and_read (hcanonical.boxed 125) (hintegral.boxed 125) r
    have hdepth : (core.boxed 125).depth = 127 := depth_boxed core 125
    exact ⟨text, r', hwrite, hread.same (Nat.le_of_eq hdepth), hr', hjson⟩
  · obtain ⟨text, hwrite, hread, -⟩ :=
      json_written_and_read (hcanonical.boxed 126) (hintegral.boxed 126) r
    have hdepth : (core.boxed 126).depth = 128 := depth_boxed core 126
    obtain ⟨path, place, hpath, herror⟩ := hread.refused (Nat.le_of_eq hdepth.symm)
    exact ⟨text, path, place, hwrite, hpath, herror⟩

end PlatformClient
