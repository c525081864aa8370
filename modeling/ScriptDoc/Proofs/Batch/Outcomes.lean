import ScriptDoc.Batch

/-!
# Outcomes — what is found under the paths of a batch

A batch is worked off path by path, and a path that comes again puts the same outcome in the same
place.

- `Batch.get?_outcomes`        : under each path is what its own file gives
- `Batch.mem_keys_outcomes`    : there is an outcome for each path
- `Batch.nodup_keys_outcomes`  : and only one
-/

namespace ScriptDoc

namespace Batch

/-! ## Working off the paths -/

section Fold

variable (f : String → Outcome) (paths : List String)

private theorem get?_foldl {before : Keyed Outcome} {path : String} :
    (paths.foldl (fun all path => Keyed.put path (f path) all) before).get? path =
      if path ∈ paths then some (f path) else before.get? path := by
  induction paths generalizing before with
  | nil =>
      simp
  | cons first rest ih =>
      rw [List.foldl_cons, ih, Keyed.get?_put]
      -- It is the same outcome whether the path comes here, later or both.
      by_cases hrest : path ∈ rest
      · simp [hrest]
      · by_cases hfirst : path = first
        · simp [hfirst]
        · simp [hrest, hfirst]

private theorem mem_keys_foldl {before : Keyed Outcome} {path : String} :
    path ∈ (paths.foldl (fun all path => Keyed.put path (f path) all) before).map (·.1) ↔
      path ∈ paths ∨ path ∈ before.map (·.1) := by
  induction paths generalizing before with
  | nil =>
      simp
  | cons first rest ih =>
      simp only [List.foldl_cons, ih, Keyed.mem_keys_put, List.mem_cons]
      exact or_left_comm.trans or_assoc.symm

private theorem nodup_keys_foldl {before : Keyed Outcome} (hbefore : (before.map (·.1)).Nodup) :
    ((paths.foldl (fun all path => Keyed.put path (f path) all) before).map (·.1)).Nodup := by
  induction paths generalizing before with
  | nil =>
      exact hbefore
  | cons first rest ih =>
      exact ih (Keyed.nodup_keys_put hbefore)

private theorem outcome_of_mem_foldl {before : Keyed Outcome}
    (hbefore : ∀ entry ∈ before, entry.2 = f entry.1) :
    ∀ entry ∈ paths.foldl (fun all path => Keyed.put path (f path) all) before,
      entry.2 = f entry.1 := by
  induction paths generalizing before with
  | nil =>
      exact hbefore
  | cons first rest ih =>
      apply ih
      intro entry hentry
      rcases Keyed.eq_or_mem_of_mem_put hentry with rfl | hold
      · rfl
      · exact hbefore entry hold

end Fold

/-! ## Outcomes -/

variable {tree : FileTree} {options : SourceOptions} {names : Keyed String} {paths : List String}

theorem get?_outcomes {path : String} (h : path ∈ paths) :
    (outcomes tree options names paths).get? path =
      some (outcome tree options (nameFor names path) path) := by
  have hget := @get?_foldl (fun path => outcome tree options (nameFor names path) path) paths
    [] path
  rwa [if_pos h] at hget

theorem mem_keys_outcomes {path : String} :
    path ∈ (outcomes tree options names paths).map (·.1) ↔ path ∈ paths := by
  have hkeys := @mem_keys_foldl (fun path => outcome tree options (nameFor names path) path) paths
    [] path
  exact hkeys.trans (or_iff_left List.not_mem_nil)

theorem nodup_keys_outcomes : ((outcomes tree options names paths).map (·.1)).Nodup :=
  nodup_keys_foldl (fun path => outcome tree options (nameFor names path) path) paths
    List.nodup_nil

/-- Each outcome of a batch is that of its own path. -/
theorem outcome_of_mem_outcomes :
    ∀ entry ∈ outcomes tree options names paths,
      entry.2 = outcome tree options (nameFor names entry.1) entry.1 :=
  outcome_of_mem_foldl (fun path => outcome tree options (nameFor names path) path) paths
    fun _ hentry => absurd hentry List.not_mem_nil

end Batch
end ScriptDoc
