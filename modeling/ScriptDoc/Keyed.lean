/-!
# Keyed — values under names, in order of first entry

- `Keyed.get?`, `Keyed.has` : look-up
- `Keyed.put`               : a new name goes to the end, a known one keeps its place
- `Keyed.merge`             : all entries of one put into another
-/

namespace ScriptDoc

abbrev Keyed (α : Type) := List (String × α)

namespace Keyed

variable {α : Type}

def get? (key : String) : Keyed α → Option α
  | [] => none
  | (k, v) :: rest => if k = key then some v else get? key rest

def has (key : String) (entries : Keyed α) : Bool :=
  (get? key entries).isSome

def put (key : String) (value : α) : Keyed α → Keyed α
  | [] => [(key, value)]
  | (k, v) :: rest => if k = key then (k, value) :: rest else (k, v) :: put key value rest

def merge (entries more : Keyed α) : Keyed α :=
  more.foldl (fun all (k, v) => put k v all) entries

/-! ## Look-up after a change -/

theorem get?_put_self (key : String) (value : α) (entries : Keyed α) :
    get? key (put key value entries) = some value := by
  induction entries with
  | nil => simp [put, get?]
  | cons entry rest ih =>
    obtain ⟨k, v⟩ := entry
    by_cases h : k = key
    · simp [put, get?, h]
    · simp [put, get?, h, ih]

theorem get?_put_of_ne {key other : String} (ne : other ≠ key) (value : α) (entries : Keyed α) :
    get? other (put key value entries) = get? other entries := by
  induction entries with
  | nil => simp [put, get?, Ne.symm ne]
  | cons entry rest ih =>
    obtain ⟨k, v⟩ := entry
    by_cases h : k = key
    · have here : ¬ k = other := fun same => ne (same.symm.trans h)
      have there : ¬ key = other := fun same => ne same.symm
      simp [put, get?, h, there]
    · simp [put, get?, h, ih]

theorem get?_put (key other : String) (value : α) (entries : Keyed α) :
    get? other (put key value entries) =
      if other = key then some value else get? other entries := by
  split
  · next same => exact same ▸ get?_put_self key value entries
  · next ne => exact get?_put_of_ne ne value entries

/-! ## Entries after a change -/

theorem eq_or_mem_of_mem_put {key : String} {value : α} {entries : Keyed α} {entry : String × α}
    (h : entry ∈ put key value entries) : entry = (key, value) ∨ entry ∈ entries := by
  induction entries with
  | nil => exact .inl (List.mem_singleton.1 h)
  | cons first rest ih =>
    obtain ⟨k, v⟩ := first
    by_cases same : k = key
    · simp only [put, same, if_true, List.mem_cons] at h
      exact h.imp_right (List.mem_cons_of_mem _)
    · simp only [put, same, if_false, List.mem_cons] at h
      rcases h with rfl | h
      · exact .inr List.mem_cons_self
      · exact (ih h).imp_right (List.mem_cons_of_mem _)

theorem mem_keys_put {key other : String} {value : α} {entries : Keyed α} :
    other ∈ (put key value entries).map (·.1) ↔ other = key ∨ other ∈ entries.map (·.1) := by
  induction entries with
  | nil => simp [put]
  | cons first rest ih =>
    obtain ⟨k, v⟩ := first
    by_cases same : k = key
    · simp [put, same]
    · simp only [put, same, if_false, List.map_cons, List.mem_cons, ih]
      exact or_left_comm

theorem nodup_keys_put {key : String} {value : α} {entries : Keyed α}
    (h : (entries.map (·.1)).Nodup) : ((put key value entries).map (·.1)).Nodup := by
  induction entries with
  | nil => simp [put]
  | cons first rest ih =>
    obtain ⟨k, v⟩ := first
    rw [List.map_cons, List.nodup_cons] at h
    by_cases same : k = key
    · simpa [put, same] using h
    · -- The first name is neither the new one nor among the others.
      have alone : k ∉ (put key value rest).map (·.1) := by
        rw [mem_keys_put, not_or]
        exact ⟨same, h.1⟩
      simpa only [put, same, if_false, List.map_cons, List.nodup_cons] using ⟨alone, ih h.2⟩

/-- A list of names with a value for each is looked up by name. -/
theorem get?_map_of_mem (f : String → α) {key : String} {keys : List String} (h : key ∈ keys) :
    get? key (keys.map fun k => (k, f k)) = some (f key) := by
  induction keys with
  | nil => cases h
  | cons first rest ih =>
    by_cases same : first = key
    · simp [get?, same]
    · have there : key ∈ rest := (List.mem_cons.1 h).resolve_left fun eq => same eq.symm
      simp [get?, same, ih there]

end Keyed
end ScriptDoc
