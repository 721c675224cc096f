/-
  What a run of steps makes of a request.

  1. **Header maps.**  Of the values set for a name, the map has the last one.  `LastOf` says of a
     list which of its members with some property is the last; it passes through the operations on
     lists (`lastOf_append_iff`, `lastOf_filter_iff`, `lastOf_map_iff`), and the map of a list is told
     by it (`Headers.mem_ofList_iff`).
  2. **Requests.**  A step touches one part of the request and leaves the others alone.  So after any
     steps the header map holds the headers that were set, in turn (`Request.Built.headers`); the URL
     has the pairs that were appended, in turn (`Request.Built.url`); and whatever steps of another
     kind stood between them does not show.  Only a payload without a JSON form stops a run.
-/
import Mathlib.Data.List.Induction
import PlatformClient.Http.Request

namespace PlatformClient

/-! ## The last one with a property -/

/-- A member of a list that has a property, and none behind it does. -/
def LastOf {α : Type} (p : α → Prop) (l : List α) (a : α) : Prop :=
  ∃ before after, l = before ++ a :: after ∧ p a ∧ ∀ b ∈ after, ¬ p b

section LastOf

variable {α β : Type} {p q : α → Prop} {l m : List α} {a : α}

theorem LastOf.mem (h : LastOf p l a) : a ∈ l := by
  obtain ⟨before, after, rfl, -, -⟩ := h
  simp

theorem LastOf.holds (h : LastOf p l a) : p a := by
  obtain ⟨-, -, -, hp, -⟩ := h
  exact hp

/-- An empty list has no last member. -/
theorem not_lastOf_nil : ¬ LastOf p [] a := fun h => List.not_mem_nil h.mem

/-- The first member is the last with the property only if no later one has it. -/
theorem lastOf_cons_iff {x : α} :
    LastOf p (x :: l) a ↔ LastOf p l a ∨ x = a ∧ p a ∧ ∀ b ∈ l, ¬ p b := by
  constructor
  · rintro ⟨before, after, hl, hp, hafter⟩
    cases before with
    | nil =>
      obtain ⟨rfl, rfl⟩ := List.cons.inj hl
      exact .inr ⟨rfl, hp, hafter⟩
    | cons y before =>
      obtain ⟨-, rfl⟩ := List.cons.inj hl
      exact .inl ⟨before, after, rfl, hp, hafter⟩
  · rintro (⟨before, after, rfl, hp, hafter⟩ | ⟨rfl, hp, hl⟩)
    · exact ⟨x :: before, after, rfl, hp, hafter⟩
    · exact ⟨[], l, rfl, hp, hl⟩

/-- The last one is looked for in the second part first. -/
theorem lastOf_append_iff :
    LastOf p (l ++ m) a ↔ LastOf p m a ∨ LastOf p l a ∧ ∀ b ∈ m, ¬ p b := by
  induction l with
  | nil => simp [not_lastOf_nil]
  | cons x l ih =>
    rw [List.cons_append, lastOf_cons_iff, ih, lastOf_cons_iff]
    simp only [List.mem_append]
    grind

theorem lastOf_singleton_iff {x : α} : LastOf p [x] a ↔ x = a ∧ p a := by
  simp [lastOf_cons_iff, not_lastOf_nil]

/-- Filtering first is asking for both. -/
theorem lastOf_filter_iff {keep : α → Bool} :
    LastOf p (l.filter keep) a ↔ LastOf (fun b => keep b = true ∧ p b) l a := by
  induction l with
  | nil => simp [not_lastOf_nil]
  | cons x l ih =>
    rw [lastOf_cons_iff]
    by_cases hx : keep x = true
    · rw [List.filter_cons_of_pos hx, lastOf_cons_iff, ih]
      simp only [List.mem_filter]
      grind
    · rw [List.filter_cons_of_neg hx, ih]
      grind

/-- The last image is the image of the last. -/
theorem lastOf_map_iff {f : β → α} {l : List β} :
    LastOf p (l.map f) a ↔ ∃ b, LastOf (fun c => p (f c)) l b ∧ f b = a := by
  induction l with
  | nil => simp [not_lastOf_nil]
  | cons x l ih =>
    rw [List.map_cons, lastOf_cons_iff, ih]
    simp only [lastOf_cons_iff, List.forall_mem_map]
    grind

/-- The property matters only on the members of the list. -/
theorem LastOf.congr (h : LastOf p l a) (hpq : ∀ b ∈ l, (p b ↔ q b)) : LastOf q l a := by
  obtain ⟨before, after, rfl, hp, hafter⟩ := h
  refine ⟨before, after, rfl, (hpq a (by simp)).mp hp, fun b hb hq => ?_⟩
  exact hafter b hb ((hpq b (by simp [hb])).mpr hq)

/-- If any member has the property, one of them is the last. -/
theorem exists_lastOf (ha : a ∈ l) (hp : p a) : ∃ b, LastOf p l b := by
  induction l using List.reverseRecOn with
  | nil => exact absurd ha List.not_mem_nil
  | append_singleton l x ih =>
    by_cases hx : p x
    · exact ⟨x, l, [], rfl, hx, by simp⟩
    · have hal : a ∈ l := by
        rcases List.mem_append.mp ha with hal | hax
        · exact hal
        · exact absurd (List.mem_singleton.mp hax ▸ hp) hx
      obtain ⟨b, hb⟩ := ih hal
      exact ⟨b, lastOf_append_iff.mpr (.inr ⟨hb, by simpa using hx⟩)⟩

end LastOf

/-! ## Maps -/

namespace Headers

/-- Looking up a name gives the value it was entered with: names are unique. -/
theorem get?_eq_some_iff {h : Headers} {name value : String} :
    h.get? name = some value ↔ (name, value) ∈ h.entries := by
  rw [get?, List.lookup_eq_some_iff]
  constructor
  · rintro ⟨before, after, hl, -⟩
    simp [hl]
  · intro hmem
    obtain ⟨before, after, hl⟩ := List.append_of_mem hmem
    refine ⟨before, after, hl, fun p hp => ?_⟩
    have hunique := h.unique
    rw [hl, List.map_append, List.map_cons, List.nodup_append] at hunique
    rw [bne_iff_ne]
    exact (hunique.2.2 p.1 (List.mem_map_of_mem hp) name List.mem_cons_self).symm

/-- Inserting replaces the entry of exactly that name and keeps the others. -/
theorem mem_insert_iff {h : Headers} {name value : String} {e : String × String} :
    e ∈ (h.insert name value).entries ↔ e = (name, value) ∨ e ∈ h.entries ∧ e.1 ≠ name := by
  simp [insert, erase]

/-- The map in which values were set for names, one after the other. -/
def setAll (h : Headers) (settings : List (String × String)) : Headers :=
  settings.foldl (fun h s => h.insert s.1 s.2) h

/-- A map made from a list of settings has them set one after another. -/
theorem ofList_eq (settings : List (String × String)) : ofList settings = empty.setAll settings :=
  rfl

/-- A map of values set in turn has, for each name, the value that was set last. -/
theorem mem_ofList_iff {settings : List (String × String)} {e : String × String} :
    e ∈ (ofList settings).entries ↔ LastOf (fun s => s.1 = e.1) settings e := by
  rw [ofList_eq]
  induction settings using List.reverseRecOn with
  | nil => simp [setAll, empty, not_lastOf_nil]
  | append_singleton settings s ih =>
    have hstep : empty.setAll (settings ++ [s]) = (empty.setAll settings).insert s.1 s.2 := by
      rw [setAll, List.foldl_append]
      rfl
    rw [hstep, mem_insert_iff, ih, lastOf_append_iff, lastOf_singleton_iff]
    simp only [List.mem_singleton, forall_eq]
    grind

end Headers

/-! ## Requests -/

namespace Request

/-- The headers that a step sets. -/
def Step.settings : Step → List (String × String)
  | .header name value => [(name, value)]
  | .json _ => [("Content-Type", "application/json")]
  | .query .. | .body _ => []

/-- The pairs that a step appends to the query. -/
def Step.pairs : Step → List (String × String)
  | .query name value => [(name, value)]
  | .header .. | .body _ | .json _ => []

/-- The headers that steps set, in their order. -/
def settings (ss : List Step) : List (String × String) := ss.flatMap Step.settings

/-- The pairs that steps append to the query, in their order. -/
def pairs (ss : List Step) : List (String × String) := ss.flatMap Step.pairs

/-- The payloads among the steps can be written as JSON. -/
def Writable (ss : List Step) : Prop := ∀ p, .json p ∈ ss → ∃ body, writeJson p = .ok body

end Request

/-- A URL with pairs more in its query. -/
def Url.appendAll (u : Url) (pairs : List (String × String)) : Url :=
  pairs.foldl (fun u p => u.appendQuery p.1 p.2) u

namespace Request

/-- A request as steps make it of another. -/
structure Built (r : Request) (ss : List Step) (r' : Request) : Prop where
  method : r'.method = r.method
  url : r'.url = r.url.appendAll (pairs ss)
  headers : r'.headers = r.headers.setAll (settings ss)

theorem built_nil (r : Request) : r.Built [] r := ⟨rfl, rfl, rfl⟩

/-- One step does to a request what its kind says, and leaves the rest alone. -/
theorem built_step {r r' : Request} {s : Step} (h : r.step s = .ok r') : r.Built [s] r' := by
  cases s with
  | header name value => cases h; exact ⟨rfl, rfl, rfl⟩
  | query name value => cases h; exact ⟨rfl, rfl, rfl⟩
  | body bytes => cases h; exact ⟨rfl, rfl, rfl⟩
  | json p =>
    have hjson : (writeJson p).map
        (fun body => (r.header "Content-Type" "application/json").withBody body) = .ok r' := h
    cases hbody : writeJson p with
    | error e => rw [hbody] at hjson; cases hjson
    | ok body => rw [hbody] at hjson; cases hjson; exact ⟨rfl, rfl, rfl⟩

/-- What a step built is built on by the others. -/
theorem Built.cons {r r' r'' : Request} {s : Step} {ss : List Step} (h : r.Built [s] r')
    (h' : r'.Built ss r'') : r.Built (s :: ss) r'' := by
  have hpairs : pairs (s :: ss) = pairs [s] ++ pairs ss := by simp [pairs]
  have hsettings : settings (s :: ss) = settings [s] ++ settings ss := by simp [settings]
  refine ⟨h'.method.trans h.method, ?_, ?_⟩
  · rw [h'.url, h.url, hpairs, Url.appendAll, Url.appendAll, Url.appendAll, List.foldl_append]
  · rw [h'.headers, h.headers, hsettings, Headers.setAll, Headers.setAll, Headers.setAll,
      List.foldl_append]

theorem steps_cons (r : Request) (s : Step) (ss : List Step) :
    r.steps (s :: ss) = (r.step s).bind fun r' => r'.steps ss := List.foldlM_cons

/-- What steps make of a request is told by what each of them sets and appends. -/
theorem steps_built {r r' : Request} {ss : List Step} (h : r.steps ss = .ok r') : r.Built ss r' := by
  induction ss generalizing r with
  | nil => cases h; exact built_nil _
  | cons s ss ih =>
    rw [steps_cons] at h
    cases hs : r.step s with
    | error e => rw [hs] at h; cases h
    | ok r₁ =>
      rw [hs] at h
      exact (built_step hs).cons (ih h)

/-- Steps whose payloads can be written come to an end. -/
theorem exists_steps (r : Request) {ss : List Step} (hss : Writable ss) :
    ∃ r', r.steps ss = .ok r' := by
  induction ss generalizing r with
  | nil => exact ⟨r, rfl⟩
  | cons s ss ih =>
    have hstep : ∃ r₁, r.step s = .ok r₁ := by
      cases s with
      | header name value => exact ⟨_, rfl⟩
      | query name value => exact ⟨_, rfl⟩
      | body bytes => exact ⟨_, rfl⟩
      | json p =>
        obtain ⟨body, hbody⟩ := hss p List.mem_cons_self
        refine ⟨(r.header "Content-Type" "application/json").withBody body, ?_⟩
        rw [step, json, hbody]
        rfl
    obtain ⟨r₁, hr₁⟩ := hstep
    obtain ⟨r', hr'⟩ := ih r₁ fun p hp => hss p (List.mem_cons_of_mem _ hp)
    refine ⟨r', ?_⟩
    rw [steps_cons, hr₁]
    exact hr'

end Request

end PlatformClient
