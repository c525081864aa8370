import ScriptDoc.Proofs.Site.Requests
import ScriptDoc.Site.Session

/-!
# History — where the entities that are kept come from

A session is told together with the look-ups that it has made since the root was last set. They are
read off the steps and the files, and not off what is kept.

- `Session.lookups`          : the look-ups that a step makes
- `Session.pastAfter`           : the look-ups since the root was set, after one more step
- `Session.history`          : the same for a run
- `Session.remembers_step`, `Session.remembers_run` : each path is kept with its first finding
- `Session.keepsFirstFound_run` : what that means for entries, steps and later look-ups
-/

namespace ScriptDoc
namespace Session

/-- The root that a start sets, if it gets that far. -/
def newRoot? (session : Session) (file : Site.ConfigFile) : Option String :=
  if session.isConfigured then Site.newRoot? session.site.config session.tree file else none

def setsRoot (session : Session) : Step → Bool
  | .start file => (session.newRoot? file).isSome
  | _ => false

/-- A start looks up the sources, and a page what its directives name. Without options neither of
them reads a file. -/
def lookups (session : Session) : Step → List Lookup
  | .start file =>
      match session.newRoot? file with
      | none => []
      | some root => (session.site.movedTo root).startLookups session.tree
  | .page name more markdown =>
      if session.isConfigured then
        let metadata := Metadata.merge ((session.pages.get? name).getD []) more
        (session.site.requests metadata (Segment.ofPage markdown.toList).1).map
          (session.site.ask session.tree)
      else []
  | _ => []

def pastAfter (session : Session) (past : List Lookup) (step : Step) : List Lookup :=
  if session.setsRoot step then session.lookups step else past ++ session.lookups step

def history (session : Session) (past : List Lookup) : List Step → List Lookup
  | [] => past
  | step :: steps => (session.step step).1.history (session.pastAfter past step) steps

variable {session : Session} {past : List Lookup}

/-! ## Steps -/

theorem site_start_of_newRoot {file : Site.ConfigFile} {root : String}
    (h : session.newRoot? file = some root) :
    Site.newRoot? session.site.config session.tree file = some root ∧
      (session.start file).site = (session.site.start session.tree file).site := by
  cases hconfigured : session.isConfigured with
  | true =>
      simpa [newRoot?, start, hconfigured] using h
  | false =>
      simp [newRoot?, hconfigured] at h

theorem site_start_of_no_root {file : Site.ConfigFile} (h : session.newRoot? file = none) :
    (session.start file).site = session.site := by
  cases hconfigured : session.isConfigured with
  | true =>
      have hroot : Site.newRoot? session.site.config session.tree file = none := by
        simpa [newRoot?, hconfigured] using h
      simpa [start, hconfigured] using Site.site_start_of_no_root hroot
  | false =>
      simp [start, hconfigured]

theorem root_page (session : Session) (metadata : Metadata) (markdown : String) :
    (session.page metadata markdown).site.root = session.site.root := by
  cases hconfigured : session.isConfigured with
  | true =>
      simpa [page, hconfigured] using
        (Site.sameView_page session.site session.tree metadata markdown).root
  | false =>
      simp [page, hconfigured, Site.site_pageUnconfigured]

/-- Nothing but a start moves the root. -/
theorem root_step {step : Step} (h : session.setsRoot step = false) :
    (session.step step).1.site.root = session.site.root := by
  cases step with
  | start file =>
      have hnone : session.newRoot? file = none := Option.isNone_iff_eq_none.1 (by
        simpa [setsRoot] using h)
      exact congrArg Site.root (site_start_of_no_root hnone)
  | page name more markdown =>
      exact root_page session _ markdown
  | _ =>
      rfl

theorem pastAfter_of_no_lookups {step : Step} (hroot : session.setsRoot step = false)
    (hnone : session.lookups step = []) : session.pastAfter past step = past := by
  simp [pastAfter, hroot, hnone]

theorem pastAfter_of_newRoot {file : Site.ConfigFile} {root : String}
    (h : session.newRoot? file = some root) :
    session.pastAfter past (.start file) =
      (session.site.movedTo root).startLookups session.tree := by
  simp [pastAfter, setsRoot, lookups, h]

/-- One step makes its look-ups, and no other. -/
theorem remembers_step (h : session.site.Remembers past) (step : Step) :
    (session.step step).1.site.Remembers (session.pastAfter past step) := by
  cases step with
  | start file =>
      cases hroot : session.newRoot? file with
      | none =>
          have hsame := site_start_of_no_root hroot
          have hpast : session.pastAfter past (.start file) = past :=
            pastAfter_of_no_lookups (by simp [setsRoot, hroot]) (by simp [lookups, hroot])
          simpa only [Session.step, hsame, hpast] using h
      | some root =>
          -- Nothing from before counts any more, neither what was kept nor what was looked up.
          rcases site_start_of_newRoot hroot with ⟨hnew, hsame⟩
          simpa only [Session.step, hsame, pastAfter_of_newRoot hroot] using
            Site.remembers_start hnew
  | page name more markdown =>
      let metadata := Metadata.merge ((session.pages.get? name).getD []) more
      change (session.page metadata markdown).site.Remembers _
      cases hconfigured : session.isConfigured with
      | true =>
          have hpast : session.pastAfter past (.page name more markdown) =
              past ++ (session.site.requests metadata (Segment.ofPage markdown.toList).1).map
                (session.site.ask session.tree) := by
            simp [pastAfter, setsRoot, lookups, hconfigured, metadata]
          have hpage : session.page metadata markdown =
              session.site.page session.tree metadata markdown := if_pos hconfigured
          rw [hpast, hpage]
          exact Site.remembers_page h session.tree metadata markdown
      | false =>
          have hpast : session.pastAfter past (.page name more markdown) = past :=
            pastAfter_of_no_lookups rfl (by simp [lookups, hconfigured])
          have hpage : (session.page metadata markdown).site = session.site := by
            simp [page, hconfigured, Site.site_pageUnconfigured]
          rw [hpast, hpage]
          exact h
  | _ =>
      -- Files and options may change, but no file is looked up.
      rw [pastAfter_of_no_lookups rfl rfl]
      exact h

theorem remembers_run (h : session.site.Remembers past) (steps : List Step) :
    (session.run steps).1.site.Remembers (session.history past steps) := by
  induction steps generalizing session past with
  | nil =>
      exact h
  | cons step steps ih =>
      exact ih (remembers_step h step)

/-! ## What is kept -/

theorem remembers_initial (tree : FileTree) : (Session.mk {} false tree []).site.Remembers [] :=
  fun _ => rfl

/-- What has been found stays found until the root is set again. -/
theorem kept_step (h : session.site.Remembers past) {step : Step}
    (hstep : session.setsRoot step = false) {path : String} {entities : List Entity}
    (hkept : session.site.cache.get? path = some entities) :
    (session.step step).1.site.cache.get? path = some entities := by
  have hpast : session.pastAfter past step = past ++ session.lookups step := by
    simp [pastAfter, hstep]
  have hfound : Lookup.firstFound? session.site.root path past = some entities :=
    (h path).symm.trans hkept
  calc
    (session.step step).1.site.cache.get? path
        = Lookup.firstFound? (session.step step).1.site.root path (session.pastAfter past step) :=
          remembers_step h step path
    _ = (Lookup.firstFound? session.site.root path past).or
          (Lookup.firstFound? session.site.root path (session.lookups step)) := by
          simp only [root_step hstep, hpast, Lookup.firstFound?_append]
    _ = some entities := by
          simp only [hfound, Option.some_or]

/-- A file that no look-up has found is seen, and kept, once it is there. -/
theorem found_when_there (h : session.site.Remembers past) {path : String}
    (hnever : ∀ l ∈ past, l.path = path → l.hitsFile = false)
    (hfile : session.tree.isFile path.toList = true) :
    let run := session.site.entitiesOf session.tree path
    run.entities = (session.site.ask session.tree path).entities session.site.root ∧
      run.site.cache.get? path = some run.entities := by
  intro run
  have hcold : session.site.cache.get? path = none :=
    (h path).trans (Lookup.firstFound?_eq_none_iff.2 hnever)
  have hfound : (session.site.ask session.tree path).found? session.site.root =
      some ((session.site.ask session.tree path).entities session.site.root) :=
    Lookup.found?_eq_some_iff.2 ⟨hfile, rfl⟩
  have hshown : session.site.shown? session.tree path =
      some ((session.site.ask session.tree path).entities session.site.root) := by
    simp only [Site.shown?, hcold, hfound, Option.none_or]
  have hentities : run.entities =
      (session.site.ask session.tree path).entities session.site.root := by
    simp only [run, Site.entities_entitiesOf, hshown, Option.getD_some]
  refine ⟨hentities, ?_⟩
  simp only [hentities, run, Site.cache_entitiesOf, if_true, hshown]

/-- What can be said of a session and the look-ups since its root was set. -/
structure KeepsFirstFound (session : Session) (past : List Lookup) : Prop where
  /-- What is kept under a path was found by the first look-up that led to a file there. -/
  origin : ∀ path entities, session.site.cache.get? path = some entities ↔
    ∃ first, Lookup.IsFirstHit path past first ∧ entities = first.entities session.site.root
  /-- Only a start that sets the root changes it or takes it away. -/
  stays : ∀ step path entities, session.setsRoot step = false →
    session.site.cache.get? path = some entities →
      (session.step step).1.site.cache.get? path = some entities
  /-- A look-up that leads to no file keeps nothing. -/
  misses : ∀ path, session.tree.isFile path.toList = false →
    (session.site.entitiesOf session.tree path).site = session.site
  /-- The next look-up then finds the file, once it is there. -/
  appears : ∀ path, (∀ l ∈ past, l.path = path → l.hitsFile = false) →
    session.tree.isFile path.toList = true →
      let run := session.site.entitiesOf session.tree path
      run.entities = (session.site.ask session.tree path).entities session.site.root ∧
        run.site.cache.get? path = some run.entities

/-- It can be said at every point of every run. -/
theorem keepsFirstFound_run (tree : FileTree) (steps : List Step) :
    let initial : Session := { tree := tree }
    KeepsFirstFound (initial.run steps).1 (initial.history [] steps) := by
  intro initial
  have hpast : (initial.run steps).1.site.Remembers (initial.history [] steps) :=
    remembers_run (remembers_initial tree) steps
  exact
    { origin := by
        intro path entities
        rw [hpast path]
        exact Lookup.firstFound?_eq_some_iff
      stays := fun step path entities hstep hkept => kept_step hpast hstep hkept
      misses := fun path hmiss => Site.site_entitiesOf_of_no_file _ _ path hmiss
      appears := fun path hnever hfile => found_when_there hpast hnever hfile }

/-- One source, and no file yet for the page that asks for another. -/
def changingTree : FileTree :=
  (FileTree.empty [['s']]).write "lib/a.js".toList
    ("/** F. */\nfunction f() \x7b\x7d\n".toList.map Char.toUInt8)

/-- The source is read in advance and then changed, so that it has a fault; a page asks for a file
that is made only afterwards. -/
def changingSteps : List Step :=
  [.configure [("source_root", .text "lib"), ("sources", .list [.text "a.js"])], .start .unknown,
    .page "first" [] "::: js:autodoc\n  :file: b.js\n",
    .write "lib/a.js" ("/** @param */".toList.map Char.toUInt8),
    .write "lib/b.js" ("/** G. */\nvar g = 1;\n".toList.map Char.toUInt8)]

def changed : Session :=
  (run { tree := changingTree } changingSteps).1

def changedPast : List Lookup :=
  history { tree := changingTree } [] changingSteps

theorem keepsFirstFound_changed :
    (∃ entities, changed.site.cache.get? "/s/lib/a.js" = some entities ∧
        (∃ first, Lookup.IsFirstHit "/s/lib/a.js" changedPast first ∧
          entities = first.entities changed.site.root) ∧
          (changed.step (.remove "lib/a.js")).1.site.cache.get? "/s/lib/a.js" = some entities) ∧
      (changed.site.entitiesOf changed.tree "/s/lib/c.js").site = changed.site ∧
      let run := changed.site.entitiesOf changed.tree "/s/lib/b.js"
      run.entities =
          (changed.site.ask changed.tree "/s/lib/b.js").entities changed.site.root ∧
        run.site.cache.get? "/s/lib/b.js" = some run.entities := by
  have hsome : (changed.site.cache.get? "/s/lib/a.js").isSome = true := by
    decide +kernel
  have hmiss : changed.tree.isFile "/s/lib/c.js".toList = false := by
    decide +kernel
  have hnever : ∀ l ∈ changedPast, l.path = "/s/lib/b.js" → l.hitsFile = false := by
    decide +kernel
  have hfile : changed.tree.isFile "/s/lib/b.js".toList = true := by
    decide +kernel
  have hrun : KeepsFirstFound changed changedPast :=
    keepsFirstFound_run changingTree changingSteps
  rcases Option.isSome_iff_exists.1 hsome with ⟨entities, hentities⟩
  exact ⟨⟨entities, hentities, (hrun.origin _ _).1 hentities,
    hrun.stays (.remove "lib/a.js") _ _ rfl hentities⟩, hrun.misses _ hmiss,
    hrun.appears _ hnever hfile⟩

end Session
end ScriptDoc
