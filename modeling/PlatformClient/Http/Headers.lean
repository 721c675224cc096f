/-
  Header maps.

  A map gives each name at most one value.  Names are told apart by their exact spelling.  The
  entries have no order that matters: `sorted` is the order in which they are shown.
-/
import PlatformClient.Text.Characters

namespace PlatformClient

/-- A map from header names to values. -/
structure Headers where
  entries : List (String × String)
  unique : (entries.map Prod.fst).Nodup
  deriving DecidableEq

namespace Headers

/-- The map without entries. -/
def empty : Headers := ⟨[], List.nodup_nil⟩

/-- The value of a name. -/
def get? (h : Headers) (name : String) : Option String := h.entries.lookup name

/-- Taking entries out keeps the names unique. -/
theorem unique_filter {entries : List (String × String)} (unique : (entries.map Prod.fst).Nodup)
    (p : String × String → Bool) : ((entries.filter p).map Prod.fst).Nodup :=
  List.Nodup.sublist (List.filter_sublist.map Prod.fst) unique

/-- The map without a name. -/
def erase (h : Headers) (name : String) : Headers :=
  ⟨h.entries.filter (·.1 ≠ name), unique_filter h.unique _⟩

/-- The map with a value for a name, in place of the one it had. -/
def insert (h : Headers) (name value : String) : Headers :=
  ⟨(name, value) :: (h.erase name).entries, by
    rw [List.map_cons, List.nodup_cons]
    refine ⟨fun hm => ?_, (h.erase name).unique⟩
    obtain ⟨p, hp, hn⟩ := List.mem_map.mp hm
    have := (List.mem_filter.mp hp).2
    simp [hn] at this⟩

/-- The map of a list of entries; the last value of a name counts. -/
def ofList (entries : List (String × String)) : Headers :=
  entries.foldl (fun h (name, value) => h.insert name value) empty

/-- The entries in ascending order of their names. -/
def sorted (h : Headers) : List (String × String) := h.entries.mergeSort fun a b => a.1 ≤ b.1

/-- The entries in quoted form, in ascending order of that form. -/
def quoted (h : Headers) : List String :=
  (h.entries.map fun (name, value) => Text.quote name ++ ": " ++ Text.quote value).mergeSort
    fun a b => a ≤ b

/-! ## What the operations do to a look-up -/

theorem get?_empty (name : String) : empty.get? name = none := rfl

/-- Taking out one name does not change what the others give. -/
theorem lookup_filter_ne (entries : List (String × String)) {n name : String} (h : n ≠ name) :
    (entries.filter (·.1 ≠ name)).lookup n = entries.lookup n := by
  induction entries with
  | nil => rfl
  | cons p rest ih =>
    obtain ⟨k, v⟩ := p
    by_cases hk : k = name
    · have hn : (n == k) = false := by simp [hk, h]
      rw [List.filter_cons_of_neg (by simp [hk]), List.lookup_cons, hn, ih]
    · rw [List.filter_cons_of_pos (by simp [hk]), List.lookup_cons, List.lookup_cons, ih]

/-- What was inserted is found; the map obeys the laws of one, name by name. -/
theorem get?_insert_self (h : Headers) (name value : String) :
    (h.insert name value).get? name = some value := by
  simp [get?, insert]

theorem get?_insert_ne (h : Headers) {n name : String} (value : String) (hn : n ≠ name) :
    (h.insert name value).get? n = h.get? n := by
  have : (n == name) = false := by simp [hn]
  simp only [get?, insert, erase, List.lookup_cons, this]
  exact lookup_filter_ne h.entries hn

theorem get?_erase_self (h : Headers) (name : String) : (h.erase name).get? name = none := by
  rw [get?, List.lookup_eq_none_iff]
  intro p hp
  have := (List.mem_filter.mp hp).2
  simp only [ne_eq, decide_not, Bool.not_eq_true', decide_eq_false_iff_not] at this
  simpa [bne_iff_ne] using fun he : name = p.1 => this he.symm

theorem get?_erase_ne (h : Headers) {n name : String} (hn : n ≠ name) :
    (h.erase name).get? n = h.get? n :=
  lookup_filter_ne h.entries hn

end Headers

end PlatformClient
