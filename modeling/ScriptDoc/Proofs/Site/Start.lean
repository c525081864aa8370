import ScriptDoc.Proofs.Batch.Outcomes
import ScriptDoc.Proofs.Site.Lookup

/-!
# Start — what a site keeps from reading its sources in advance

- `Batch.kept?`         : what is kept of an outcome
- `Site.cache_keepAll`  : what is kept of a batch, where each outcome depends on its path only
- `Site.startLookups`   : what a site asks for when it reads its sources in advance
- `Site.cache_warm`     : this keeps what asking for each source finds
- `Site.newRoot?`       : the root that a start sets, if it gets that far
-/

namespace ScriptDoc

/-! ## Batches -/

namespace Batch

/-- A file that cannot be read leaves nothing, and one with a fault an empty list. -/
def kept? : Outcome → Option (List Entity)
  | .error (.file _) => none
  | .error (.listing _) => some []
  | .ok listing => some listing.entities

end Batch

namespace Site

variable {site : Site} {tree : FileTree} {path : String}

/-- Under the name that the site gives it a file of a batch is read as if it were asked for. -/
theorem kept?_outcome :
    Batch.kept? (Batch.outcome tree site.config.sourceOptions (site.nameOf tree path) path) =
      (site.ask tree path).found? site.root := by
  cases hread : tree.readText path.toList with
  | error fault =>
      have hmiss : (site.ask tree path).found? site.root = none := Lookup.found?_of_error hread
      simp [Batch.outcome, Batch.kept?, hread, hmiss]
  | ok source =>
      let outcome := Listing.ofSource site.config.sourceOptions (site.nameOf tree path) source
      have hfound : (site.ask tree path).found? site.root =
          some (Listing.shownEntities outcome) := Lookup.found?_of_ok hread
      simp only [Batch.outcome, hread, hfound]
      change Batch.kept? (outcome.mapError SourceFault.listing) = _
      cases outcome with
      | error fault => rfl
      | ok listing => rfl

/-- The site with one outcome of a batch kept. -/
def keepOutcome (site : Site) (path : String) (outcome : Batch.Outcome) : Site :=
  match Batch.kept? outcome with
  | none => site
  | some entities => site.store path entities

theorem settings_keepOutcome (site : Site) (path : String) (outcome : Batch.Outcome) :
    (site.keepOutcome path outcome).config = site.config ∧
      (site.keepOutcome path outcome).root = site.root := by
  unfold keepOutcome
  split
  · exact ⟨rfl, rfl⟩
  · exact ⟨rfl, rfl⟩

theorem cache_keepOutcome (site : Site) (own : String) (outcome : Batch.Outcome) :
    (site.keepOutcome own outcome).cache.get? path =
      (if path = own then Batch.kept? outcome else none).or (site.cache.get? path) := by
  unfold keepOutcome
  cases Batch.kept? outcome with
  | none =>
      simp
  | some entities =>
      have hput := Keyed.get?_put own path entities site.cache
      by_cases hsame : path = own
      · simpa [store, hsame] using hput
      · simpa [store, hsame] using hput

theorem site_keepAll_cons (site : Site) (own : String) (outcome : Batch.Outcome)
    (rest : Keyed Batch.Outcome) :
    (site.keepAll ((own, outcome) :: rest)).1 =
      ((site.keepOutcome own outcome).keepAll rest).1 := by
  rcases outcome with fault | listing
  · cases fault with
    | file fault => rfl
    | listing fault => rfl
  · rfl

theorem settings_keepAll (site : Site) (outcomes : Keyed Batch.Outcome) :
    (site.keepAll outcomes).1.config = site.config ∧
      (site.keepAll outcomes).1.root = site.root := by
  induction outcomes generalizing site with
  | nil =>
      exact ⟨rfl, rfl⟩
  | cons entry rest ih =>
      rcases entry with ⟨own, outcome⟩
      rcases ih (site.keepOutcome own outcome) with ⟨hconfig, hroot⟩
      rcases settings_keepOutcome site own outcome with ⟨hfirst, hfirstRoot⟩
      simp only [site_keepAll_cons]
      exact ⟨hconfig.trans hfirst, hroot.trans hfirstRoot⟩

/-- Where the outcomes of a batch are told by their paths it does not matter that a later outcome
takes the place of an earlier one. -/
theorem cache_keepAll (site : Site) (f : String → Batch.Outcome) {outcomes : Keyed Batch.Outcome}
    (hf : ∀ entry ∈ outcomes, entry.2 = f entry.1) :
    (site.keepAll outcomes).1.cache.get? path =
      (if path ∈ outcomes.map (·.1) then Batch.kept? (f path) else none).or
        (site.cache.get? path) := by
  -- On the batch; each outcome is kept before those after it are.
  induction outcomes generalizing site with
  | nil =>
      rfl
  | cons entry rest ih =>
      rcases entry with ⟨own, outcome⟩
      have hown : outcome = f own := hf (own, outcome) List.mem_cons_self
      have hrest := ih (site.keepOutcome own outcome) fun entry hentry =>
        hf entry (List.mem_cons_of_mem _ hentry)
      have hfirst : (if path = own then Batch.kept? outcome else none) =
          if path = own then Batch.kept? (f path) else none := by
        by_cases hsame : path = own
        · simp [hown, hsame]
        · simp [hsame]
      calc
        (site.keepAll ((own, outcome) :: rest)).1.cache.get? path
            = ((site.keepOutcome own outcome).keepAll rest).1.cache.get? path := by
              rw [site_keepAll_cons]
        _ = (if path ∈ rest.map (·.1) then Batch.kept? (f path) else none).or
              ((if path = own then Batch.kept? (f path) else none).or (site.cache.get? path)) := by
              rw [hrest, cache_keepOutcome, hfirst]
        _ = (if path ∈ rest.map (·.1) ∨ path = own then Batch.kept? (f path) else none).or
              (site.cache.get? path) := by
              rw [← Option.or_assoc, or_ite_none]
        _ = (if path ∈ ((own, outcome) :: rest).map (·.1) then Batch.kept? (f path) else none).or
              (site.cache.get? path) := by
              simp only [List.map_cons, List.mem_cons, or_comm]

/-! ## Reading in advance -/

/-- The paths of those sources that are files. -/
def present (site : Site) (tree : FileTree) (sources : List String) : List String :=
  (sources.map site.resolve).filter fun path => tree.isFile path.toList

/-- The batch that the sources are read in. -/
def batch (site : Site) (tree : FileTree) (sources : List String) : Keyed Batch.Outcome :=
  Batch.outcomes tree site.config.sourceOptions
    ((site.present tree sources).map fun path => (path, site.nameOf tree path))
    (site.present tree sources)

theorem site_warmFrom (sources : List String) (hworkers : site.config.workers.fault? = none) :
    (site.warmFrom tree sources).site = (site.keepAll (site.batch tree sources)).1 := by
  simp only [warmFrom, Batch.run, hworkers]
  split
  · next hnone =>
    have hpresent : site.present tree sources = [] := List.isEmpty_iff.1 hnone
    simp [batch, hpresent, Batch.outcomes, keepAll]
  · rfl

theorem site_warmFrom_of_fault (sources : List String) {fault : Workers.Fault}
    (hworkers : site.config.workers.fault? = some fault) :
    (site.warmFrom tree sources).site = site := by
  simp only [warmFrom, Batch.run, hworkers]
  split
  · rfl
  · rfl

theorem outcome_of_mem_batch {sources : List String} :
    ∀ entry ∈ site.batch tree sources, entry.2 =
      Batch.outcome tree site.config.sourceOptions (site.nameOf tree entry.1) entry.1 := by
  intro entry hentry
  have hkey : entry.1 ∈ site.present tree sources :=
    Batch.mem_keys_outcomes.1 (List.mem_map_of_mem hentry)
  have hname : Batch.nameFor
      ((site.present tree sources).map fun path => (path, site.nameOf tree path)) entry.1 =
        site.nameOf tree entry.1 := by
    have hget := Keyed.get?_map_of_mem (fun path => site.nameOf tree path) hkey
    simp [Batch.nameFor, hget]
  simpa only [hname] using Batch.outcome_of_mem_outcomes entry hentry

/-- What the site asks for when it reads its sources in advance. With no one to work on them no file
is read. -/
def startLookups (site : Site) (tree : FileTree) : List Lookup :=
  match site.config.sources, site.config.workers.fault? with
  | some sources, none => (sources.map site.resolve).map (site.ask tree)
  | _, _ => []

theorem cache_warmFrom (sources : List String) (hworkers : site.config.workers.fault? = none) :
    (site.warmFrom tree sources).site.cache.get? path =
      (Lookup.firstFound? site.root path ((sources.map site.resolve).map (site.ask tree))).or
        (site.cache.get? path) := by
  -- A source that is not a file is left out of the batch, and is not found when it is asked for.
  have hpresent : (if path ∈ (site.batch tree sources).map (·.1) then
      (site.ask tree path).found? site.root else none) =
        if path ∈ sources.map site.resolve then
          (site.ask tree path).found? site.root else none := by
    have hkeys : path ∈ (site.batch tree sources).map (·.1) ↔
        path ∈ sources.map site.resolve ∧ tree.isFile path.toList = true :=
      Batch.mem_keys_outcomes.trans List.mem_filter
    cases hfile : tree.isFile path.toList with
    | true =>
        simp only [hkeys, hfile, and_true]
    | false =>
        have hmiss : (site.ask tree path).found? site.root = none :=
          Lookup.found?_eq_none_iff.2 hfile
        simp only [hmiss, ite_self]
  let outcome := fun path =>
    Batch.outcome tree site.config.sourceOptions (site.nameOf tree path) path
  have hkept : (site.keepAll (site.batch tree sources)).1.cache.get? path =
      (if path ∈ (site.batch tree sources).map (·.1) then Batch.kept? (outcome path) else none).or
        (site.cache.get? path) := cache_keepAll site outcome outcome_of_mem_batch
  calc
    (site.warmFrom tree sources).site.cache.get? path
        = (site.keepAll (site.batch tree sources)).1.cache.get? path := by
          rw [site_warmFrom sources hworkers]
    _ = (if path ∈ (site.batch tree sources).map (·.1) then
          (site.ask tree path).found? site.root else none).or (site.cache.get? path) := by
          rw [hkept, kept?_outcome]
    _ = (Lookup.firstFound? site.root path ((sources.map site.resolve).map (site.ask tree))).or
          (site.cache.get? path) := by
          rw [hpresent, firstFound?_map_ask]

/-- Reading in advance keeps of each source what asking for it would have found. -/
theorem cache_warm :
    (site.warm tree).site.cache.get? path =
      (Lookup.firstFound? site.root path (site.startLookups tree)).or (site.cache.get? path) := by
  unfold warm startLookups
  cases site.config.sources with
  | none =>
      rfl
  | some sources =>
      cases hworkers : site.config.workers.fault? with
      | none =>
          exact cache_warmFrom sources hworkers
      | some fault =>
          simp only [site_warmFrom_of_fault sources hworkers]
          rfl

theorem settings_warmFrom (site : Site) (tree : FileTree) (sources : List String) :
    (site.warmFrom tree sources).site.config = site.config ∧
      (site.warmFrom tree sources).site.root = site.root := by
  cases hworkers : site.config.workers.fault? with
  | none =>
      simpa only [site_warmFrom sources hworkers] using
        settings_keepAll site (site.batch tree sources)
  | some fault =>
      simp only [site_warmFrom_of_fault sources hworkers, and_self]

theorem settings_warm (site : Site) (tree : FileTree) :
    (site.warm tree).site.config = site.config ∧ (site.warm tree).site.root = site.root := by
  unfold warm
  cases site.config.sources with
  | none => exact ⟨rfl, rfl⟩
  | some sources => exact settings_warmFrom site tree sources

/-! ## Starting -/

/-- The root that a start sets, if it gets that far. -/
def newRoot? (config : Config) (tree : FileTree) (file : ConfigFile) : Option String :=
  match file.directory? tree.cwdPath, config.sourceRoot with
  | some directory, some sourceRoot => some (rootAt directory sourceRoot)
  | _, _ => none

/-- The site at a new root, before it reads its sources. -/
def movedTo (site : Site) (root : String) : Site :=
  { site with root := root, cache := [] }

variable {file : ConfigFile}

theorem start_of_newRoot {root : String} (h : newRoot? site.config tree file = some root) :
    site.start tree file = (site.movedTo root).warm tree := by
  unfold newRoot? at h
  unfold start
  cases hdirectory : file.directory? tree.cwdPath with
  | none =>
      simp [hdirectory] at h
  | some directory =>
      cases hsource : site.config.sourceRoot with
      | none =>
          simp [hdirectory, hsource] at h
      | some sourceRoot =>
          have hroot : rootAt directory sourceRoot = root := by
            simpa [hdirectory, hsource] using h
          simp only [hroot, movedTo]

theorem site_start_of_no_root (h : newRoot? site.config tree file = none) :
    (site.start tree file).site = site := by
  unfold newRoot? at h
  unfold start
  cases hdirectory : file.directory? tree.cwdPath with
  | none =>
      rfl
  | some directory =>
      cases hsource : site.config.sourceRoot with
      | none =>
          rfl
      | some sourceRoot =>
          simp [hdirectory, hsource] at h

end Site
end ScriptDoc
