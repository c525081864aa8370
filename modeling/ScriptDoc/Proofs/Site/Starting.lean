import ScriptDoc.Proofs.Site.Configured
import ScriptDoc.Proofs.Site.Independence

/-!
# Starting — what comes of a start

A start is refused, or finds no one to work on its sources, or reads them. Which of these it is depends
on the options and the files only, and each of them leaves the site in a state of its own.

- `Site.HasSource`             : some source leads to a file
- `Site.fault_warmFrom`        : what can go wrong with reading in advance
- `Site.HoldsSources`          : the sources are kept, and nothing else
- `Site.holdsSources_warmFrom` : so it is where nothing has gone wrong
- `Site.StartsAs`              : the outcome of a start, and the state after it
- `Session.start_after_run`    : after any run that has given accepted options
-/

namespace ScriptDoc

theorem Keyed.mem_keys_iff {α : Type} {key : String} {entries : Keyed α} :
    key ∈ entries.map (·.1) ↔ (entries.get? key).isSome = true := by
  induction entries with
  | nil =>
      simp [Keyed.get?]
  | cons entry rest ih =>
      by_cases hsame : entry.1 = key
      · simp [Keyed.get?, hsame]
      · simp [Keyed.get?, hsame, Ne.symm hsame, ih]

theorem Lookup.isSome_found? {l : Lookup} {root : String} :
    (l.found? root).isSome = l.hitsFile := by
  unfold Lookup.found?
  split
  · next hfile => simp [hfile]
  · next hfile => simp [hfile]

namespace Site

variable {site : Site} {tree : FileTree} {sources : List String} {path : String}

/-! ## Reading in advance -/

/-- Some source leads to a file. -/
def HasSource (site : Site) (tree : FileTree) (sources : List String) : Prop :=
  ∃ source ∈ sources, tree.isFile (site.resolve source).toList = true

instance : Decidable (site.HasSource tree sources) :=
  inferInstanceAs (Decidable (∃ source ∈ sources, _))

theorem present_eq_nil_iff : site.present tree sources = [] ↔ ¬site.HasSource tree sources := by
  simp [present, HasSource, List.filter_eq_nil_iff]

/-- Someone to work on the sources is needed only where there is one. -/
theorem fault_warmFrom (site : Site) (tree : FileTree) (sources : List String) :
    (site.warmFrom tree sources).fault =
      if site.present tree sources = [] then none
      else site.config.workers.fault?.map StartFault.workers := by
  simp only [warmFrom, Batch.run, List.isEmpty_iff]
  change (if site.present tree sources = [] then _ else _ : StartRun).fault = _
  split
  · rfl
  · cases site.config.workers.fault? with
    | none => rfl
    | some fault => rfl

theorem fault_warmFrom_of_atMost {count : Int} (h : site.config.workers = .atMost count) :
    (site.warmFrom tree sources).fault =
      if count ≤ 0 ∧ site.HasSource tree sources then some (.workers .tooFew) else none := by
  rw [fault_warmFrom, h, Workers.fault?]
  by_cases hsource : site.HasSource tree sources
  · rw [if_neg fun hnone => present_eq_nil_iff.1 hnone hsource]
    by_cases hcount : count ≤ 0
    · simp only [hcount, hsource, and_self, if_true, Option.map_some]
    · simp only [hcount, false_and, if_false, Option.map_none]
  · rw [if_pos (present_eq_nil_iff.2 hsource), if_neg fun hboth => hsource hboth.2]

/-- With workers missing nothing is read. -/
theorem site_warmFrom_of_some {fault : StartFault}
    (h : (site.warmFrom tree sources).fault = some fault) :
    (site.warmFrom tree sources).site = site := by
  cases hworkers : site.config.workers.fault? with
  | none => simp [fault_warmFrom, hworkers] at h
  | some other => exact site_warmFrom_of_fault sources hworkers

/-- Each source is kept with what is found of it, and nothing else is kept. -/
def HoldsSources (site : Site) (tree : FileTree) (sources : List String) : Prop :=
  ∀ path, site.cache.get? path =
    if path ∈ sources.map site.resolve then (site.ask tree path).found? site.root else none

theorem holdsSources_warmFrom (hcold : site.cache = [])
    (h : (site.warmFrom tree sources).fault = none) :
    (site.warmFrom tree sources).site.HoldsSources tree sources := by
  rcases settings_warmFrom site tree sources with ⟨hconfig, hroot⟩
  intro path
  have hresolve : (site.warmFrom tree sources).site.resolve = site.resolve :=
    funext fun source => by simp only [resolve, hroot]
  have hask : (site.warmFrom tree sources).site.ask tree path = site.ask tree path := by
    simp only [ask, hconfig]
  rw [hresolve, hask, hroot]
  cases hworkers : site.config.workers.fault? with
  | none =>
      rw [cache_warmFrom sources hworkers, firstFound?_map_ask, hcold]
      exact Option.or_none
  | some fault =>
      have hnone : site.present tree sources = [] := by
        simpa [fault_warmFrom, hworkers] using h
      rw [site_warmFrom_of_fault sources hworkers, hcold]
      split
      · next hpath =>
        have hfile : tree.isFile path.toList = false := by
          simpa using List.filter_eq_nil_iff.1 hnone path hpath
        exact (@Lookup.found?_eq_none_iff (site.ask tree path) site.root).2 hfile |>.symm
      · rfl

namespace HoldsSources

theorem mem_keys_iff (h : site.HoldsSources tree sources) :
    path ∈ site.cache.map (·.1) ↔ path ∈ sources.map site.resolve ∧ tree.isFile path.toList = true := by
  rw [Keyed.mem_keys_iff, h path]
  by_cases hpath : path ∈ sources.map site.resolve
  · rw [if_pos hpath, Lookup.isSome_found?]
    exact (and_iff_right hpath).symm
  · simp [hpath]

theorem get?_of_mem_keys (h : site.HoldsSources tree sources) (hpath : path ∈ site.cache.map (·.1))
    {text : String} (htext : tree.readText path.toList = .ok text) :
    site.cache.get? path = some (Listing.shownEntities
      (Listing.ofSource site.config.sourceOptions (site.nameOf tree path) text)) := by
  have hfound : (site.ask tree path).found? site.root = some (Listing.shownEntities
      (Listing.ofSource site.config.sourceOptions (site.nameOf tree path) text)) :=
    Lookup.found?_of_ok htext
  rw [h path, if_pos (h.mem_keys_iff.1 hpath).1, hfound]

end HoldsSources

/-! ## The outcome of a start -/

variable {file : ConfigFile} {values : Keyed Value}

/-- What comes of a start with accepted options. -/
structure StartsAs (site : Site) (tree : FileTree) (file : ConfigFile)
    (settings : Config.Settings values) (run : StartRun) : Prop where
  config : run.site.config = site.config
  /-- A place of the options that is no path is refused, and changes nothing. -/
  refused : run.fault = some .configFile ↔ file = .invalid
  unchanged : file = .invalid → run.site = site
  /-- Any other sets the root, whatever becomes of the sources. -/
  root : file ≠ .invalid → ∃ directory, file.directory? tree.cwdPath = some directory ∧
    run.site.root = rootAt directory settings.sourceRoot
  /-- Then workers are missing, with nothing kept, if there is something for them to do. -/
  tooFew : run.fault = some (.workers .tooFew) ↔ file ≠ .invalid ∧ settings.workers ≤ 0 ∧
    run.site.HasSource tree (settings.sources.map Value.shown)
  emptied : run.fault = some (.workers .tooFew) → run.site.cache = []
  succeeds : run.fault = none ↔ file ≠ .invalid ∧
    ¬(settings.workers ≤ 0 ∧ run.site.HasSource tree (settings.sources.map Value.shown))
  /-- Otherwise the sources that are files are kept, and no other file is. -/
  keys : run.fault = none → ∀ path, path ∈ run.site.cache.map (·.1) ↔
    (∃ source ∈ settings.sources, run.site.resolve source.shown = path) ∧
      tree.isFile path.toList = true
  listed : run.fault = none → ∀ path ∈ run.site.cache.map (·.1), ∀ text listing,
    tree.readText path.toList = .ok text →
      Listing.ofSource run.site.config.sourceOptions (run.site.nameOf tree path) text =
        .ok listing → run.site.cache.get? path = some listing.entities
  /-- One with a fault is kept without entities. -/
  faulty : run.fault = none → ∀ path ∈ run.site.cache.map (·.1), ∀ text fault,
    tree.readText path.toList = .ok text →
      Listing.ofSource run.site.config.sourceOptions (run.site.nameOf tree path) text =
        .error fault → run.site.cache.get? path = some []

theorem ConfigFile.directory?_eq_none_iff {cwd : List Char} :
    file.directory? cwd = none ↔ file = .invalid := by
  cases file with
  | invalid => simp [directory?]
  | unknown => simp [directory?]
  | «at» path => simp [directory?]

theorem startsAs_of_invalid (settings : Config.Settings values) :
    site.StartsAs tree .invalid settings (site.start tree .invalid) := by
  have hrun : site.start tree .invalid = ⟨site, [], some .configFile⟩ := by
    unfold start
    cases site.config.sourceRoot <;> rfl
  rw [hrun]
  exact
    { config := rfl
      refused := by simp
      unchanged := fun _ => rfl
      root := fun h => absurd rfl h
      tooFew := by simp
      emptied := by simp
      succeeds := by simp
      keys := by simp
      listed := by simp
      faulty := by simp }

theorem hasSource_congr {other : Site} (h : site.root = other.root) :
    site.HasSource tree sources ↔ other.HasSource tree sources := by
  simp only [HasSource, resolve, h]

/-- The sources are read at a new root, with nothing kept from before. -/
theorem start_of_settings (settings : Config.Settings values)
    (hconfig : site.config = Config.ofValues values) {directory : List Char}
    (hdirectory : file.directory? tree.cwdPath = some directory) :
    site.start tree file = (site.movedTo (rootAt directory settings.sourceRoot)).warmFrom tree
      (settings.sources.map Value.shown) := by
  have hroot : newRoot? site.config tree file = some (rootAt directory settings.sourceRoot) := by
    simp only [newRoot?, hdirectory, hconfig, settings.sourceRoot_ofValues]
  have hsources : (site.movedTo (rootAt directory settings.sourceRoot)).config.sources =
      some (settings.sources.map Value.shown) := by
    simp only [movedTo, hconfig, settings.sources_ofValues]
  rw [start_of_newRoot hroot, warm, hsources]

theorem startsAs_of_directory (settings : Config.Settings values)
    (hconfig : site.config = Config.ofValues values) {directory : List Char}
    (hdirectory : file.directory? tree.cwdPath = some directory) :
    site.StartsAs tree file settings (site.start tree file) := by
  let root := rootAt directory settings.sourceRoot
  let moved := site.movedTo root
  let sources := settings.sources.map Value.shown
  have hvalid : file ≠ .invalid := fun heq => by
    simp [ConfigFile.directory?_eq_none_iff.2 heq] at hdirectory
  let run := moved.warmFrom tree sources
  have hrun : site.start tree file = run := start_of_settings settings hconfig hdirectory
  have hsettings : run.site.config = moved.config ∧ run.site.root = moved.root :=
    settings_warmFrom moved tree sources
  have hworkers : moved.config.workers = .atMost settings.workers := by
    simp only [moved, movedTo, hconfig, settings.workers_ofValues]
  have hsource : run.site.HasSource tree sources ↔ moved.HasSource tree sources :=
    hasSource_congr hsettings.2
  have hfault : run.fault = if settings.workers ≤ 0 ∧ run.site.HasSource tree sources then
      some (.workers .tooFew) else none := by
    simp only [hsource]
    exact fault_warmFrom_of_atMost hworkers
  have hholds : run.fault = none → run.site.HoldsSources tree sources :=
    fun hnone => holdsSources_warmFrom rfl hnone
  rw [hrun]
  exact
    { config := hsettings.1
      refused := by
        rw [hfault]
        split <;> simp [hvalid]
      unchanged := fun hinvalid => absurd hinvalid hvalid
      root := fun _ => ⟨directory, hdirectory, hsettings.2⟩
      tooFew := by
        rw [hfault]
        split
        · next hboth => simpa [hvalid] using hboth
        · next hneither => simpa [hvalid] using hneither
      emptied := by
        intro htooFew
        exact congrArg Site.cache (site_warmFrom_of_some htooFew)
      succeeds := by
        rw [hfault]
        split
        · next hboth => simpa [hvalid] using hboth
        · next hneither => simpa [hvalid] using hneither
      keys := by
        intro hnone path
        simpa [sources] using @HoldsSources.mem_keys_iff _ _ _ path (hholds hnone)
      listed := by
        intro hnone path hpath text listing htext hlisting
        rw [(hholds hnone).get?_of_mem_keys hpath htext, hlisting]
        rfl
      faulty := by
        intro hnone path hpath text fault htext hlisting
        rw [(hholds hnone).get?_of_mem_keys hpath htext, hlisting]
        rfl }

theorem startsAs_start (settings : Config.Settings values)
    (hconfig : site.config = Config.ofValues values) :
    site.StartsAs tree file settings (site.start tree file) := by
  cases hdirectory : file.directory? tree.cwdPath with
  | none =>
      rw [ConfigFile.directory?_eq_none_iff.1 hdirectory]
      exact startsAs_of_invalid settings
  | some directory =>
      exact startsAs_of_directory settings hconfig hdirectory

end Site

namespace Session

/-- A file is read under one root, and both are listed for the next: once more under another spelling,
with a number among the sources and a file that is not there. -/
def movingSteps : List Step :=
  [.configure [("sources", .list [.text "lib/a.js"])], .start .unknown,
    .page "first" [] "::: js:autodoc\n  :file: lib/b.js\n",
    .configure [("source_root", .text "lib"), ("max_workers", .int 1), ("sources",
      .list [.text "a.js", .text "./b.js", .int 5, .text "../lib/a.js", .text "c.js"])]]

end Session
end ScriptDoc
