import ScriptDoc.Proofs.Site.Options
import ScriptDoc.Proofs.Site.View
import ScriptDoc.Site.Session

/-!
# Independence — what a page does not depend on

The sources that are read in advance and the pages that are made first decide which files have been
kept, and nothing else that a page could tell.

- `Step.IsPageBeside`                 : a step that makes another page
- `Session.SameFor`                   : two sessions in which one page comes out the same
- `Session.sameFor_run`               : other pages do not matter
- `Session.page_independent`          : neither do the sources that are read in advance
-/

namespace ScriptDoc

/-- A step that makes a page, but not the one with the name. -/
def Step.IsPageBeside (name : String) : Step → Prop
  | .page other _ _ => other ≠ name
  | _ => False

namespace Session

/-- What the page with the name depends on is the same in both sessions. -/
structure SameFor (name : String) (session other : Session) : Prop where
  tree : session.tree = other.tree
  isConfigured : session.isConfigured = true
  isConfiguredOther : other.isConfigured = true
  metadata : session.pages.get? name = other.pages.get? name
  view : Site.SameView session.tree session.site other.site

variable {session other third : Session} {name : String}

namespace SameFor

theorem symm (h : SameFor name session other) : SameFor name other session where
  tree := h.tree.symm
  isConfigured := h.isConfiguredOther
  isConfiguredOther := h.isConfigured
  metadata := h.metadata.symm
  view := h.tree ▸ h.view.symm

theorem trans (h : SameFor name session other) (h' : SameFor name other third) :
    SameFor name session third where
  tree := h.tree.trans h'.tree
  isConfigured := h.isConfigured
  isConfiguredOther := h'.isConfiguredOther
  metadata := h.metadata.trans h'.metadata
  view := h.view.trans (h.tree ▸ h'.view)

end SameFor

/-! ## Pages -/

theorem page_of_configured (h : session.isConfigured = true) (metadata : Metadata)
    (markdown : String) :
    session.page metadata markdown = session.site.page session.tree metadata markdown :=
  if_pos h

theorem sameFor_step {step : Step} (hconfigured : session.isConfigured = true)
    (hstep : step.IsPageBeside name) : SameFor name (session.step step).1 session := by
  cases step with
  | page another more markdown =>
      have hname : name ≠ another := Ne.symm hstep
      have hpage := page_of_configured hconfigured
        (Metadata.merge ((session.pages.get? another).getD []) more) markdown
      exact
        { tree := rfl
          isConfigured := hconfigured
          isConfiguredOther := hconfigured
          metadata := Keyed.get?_put_of_ne hname _ _
          view := by
            simp only [step, hpage]
            exact Site.sameView_page session.site session.tree _ markdown }
  | _ =>
      cases hstep

/-- The pages before change which files have been kept, and what is shown of none. -/
theorem sameFor_run {steps : List Step} (hconfigured : session.isConfigured = true)
    (hsteps : ∀ step ∈ steps, step.IsPageBeside name) :
    SameFor name (session.run steps).1 session := by
  induction steps generalizing session with
  | nil =>
      exact ⟨rfl, hconfigured, hconfigured, rfl, Site.SameView.refl _ _⟩
  | cons step steps ih =>
      have hfirst := sameFor_step hconfigured (hsteps step List.mem_cons_self)
      have hmore := ih hfirst.isConfigured fun later hlater =>
        hsteps later (List.mem_cons_of_mem _ hlater)
      exact hmore.trans hfirst

theorem page_of_sameFor (h : SameFor name session other) (more : Keyed Value)
    (markdown : String) :
    ∃ run run', (session.step (.page name more markdown)).2 = .page run ∧
      (other.step (.page name more markdown)).2 = .page run' ∧
        run.text = run'.text ∧ run.metadata = run'.metadata := by
  let metadata := Metadata.merge ((session.pages.get? name).getD []) more
  have hmetadata : Metadata.merge ((other.pages.get? name).getD []) more = metadata := by
    simp only [metadata, h.metadata]
  have hpage := page_of_configured h.isConfigured metadata markdown
  have hpageOther := page_of_configured h.isConfiguredOther metadata markdown
  rw [← h.tree] at hpageOther
  rcases Site.page_congr h.view metadata markdown with ⟨hmeta, htext⟩
  refine ⟨session.page metadata markdown, other.page metadata markdown, rfl, ?_, ?_, ?_⟩
  · simp only [step, hmetadata]
  · simpa only [hpage, hpageOther] using htext
  · simpa only [hpage, hpageOther] using hmeta

/-! ## Starts -/

/-- The session after it has been given options and started. -/
def startedWith (session : Session) (options : Keyed Value) (file : Site.ConfigFile) : Session :=
  (session.run [.configure options, .start file]).1

theorem sameFor_startedWith {options others : Keyed Value} {file : Site.ConfigFile}
    (hagree : Config.Agree "sources" options others)
    (haccepted : (Config.check options).rejected = none)
    (hothers : (Config.check others).rejected = none) :
    SameFor name (session.startedWith options file) (session.startedWith others file) := by
  rcases Config.load_agree hagree haccepted hothers with ⟨sources, hload⟩
  let site : Site := { session.site with config := (Config.load options).1 }
  let other : Site := { session.site with config := (Config.load others).1 }
  -- Before the start the two sites differ in the sources that they have not read yet.
  have hview : Site.SameView session.tree site other := by
    simp only [site, other, hload]
    exact Site.sameView_withSources session.tree session.site _ sources
  have hroot : site.config.sourceRoot = other.config.sourceRoot := by
    simp only [site, other, hload]
  exact
    { tree := rfl
      isConfigured := rfl
      isConfiguredOther := rfl
      metadata := rfl
      view := Site.sameView_start hview hroot file }

/-- Neither the sources that are read in advance nor the pages that are made before show in the text
or in the metadata of a page. A start with a fault has read nothing in advance, which is no
different. -/
theorem page_independent (session : Session) {options others : Keyed Value}
    (file : Site.ConfigFile) {before beforeOther : List Step} {name : String}
    (more : Keyed Value) (markdown : String)
    (hagree : Config.Agree "sources" options others)
    (haccepted : (Config.check options).rejected = none)
    (hothers : (Config.check others).rejected = none)
    (hbefore : ∀ step ∈ before, step.IsPageBeside name)
    (hbeforeOther : ∀ step ∈ beforeOther, step.IsPageBeside name) :
    ∃ run run',
      ((session.run (.configure options :: .start file :: before)).1.step
          (.page name more markdown)).2 = .page run ∧
        ((session.run (.configure others :: .start file :: beforeOther)).1.step
            (.page name more markdown)).2 = .page run' ∧
          run.text = run'.text ∧ run.metadata = run'.metadata := by
  have hstarted : SameFor name (session.startedWith options file)
      (session.startedWith others file) := sameFor_startedWith hagree haccepted hothers
  have hrun : SameFor name ((session.startedWith options file).run before).1
      (session.startedWith options file) := sameFor_run rfl hbefore
  have hrunOther : SameFor name ((session.startedWith others file).run beforeOther).1
      (session.startedWith others file) := sameFor_run rfl hbeforeOther
  exact page_of_sameFor ((hrun.trans hstarted).trans hrunOther.symm) more markdown

/-- A file with a public and a private entity, and one with a fault. -/
def twoFiles : FileTree :=
  let named :=
    "/** F. */\nfunction f() \x7b\x7d\n/** G.\n * @private */\nvar g = 1;\n".toList
  let faulty := "/** @param */\n".toList
  ((FileTree.empty [['s']]).write "lib/a.js".toList (named.map Char.toUInt8)).write
    "lib/b.js".toList (faulty.map Char.toUInt8)

/-- One session reads both files in advance, once under another spelling and with a file that is not
there. The other one reads the first for a page that leaves out private entities. -/
theorem page_independent_twoFiles :
    let session : Session := { tree := twoFiles }
    let root : String × Value := ("source_root", .text "lib")
    let listed : Keyed Value :=
      [root, ("sources", .list [.text "a.js", .text "./b.js", .text "../lib/a.js", .text "c.js"])]
    let unlisted : Keyed Value := [root]
    let first : Step := .page "first" [] "::: js:autodoc\n  :file: a.js\n  :private: no\n"
    let page : Step := .page "second" [] "::: js:autodoc\n  :file: a.js\n"
    Config.Agree "sources" listed unlisted ∧ (Config.check listed).rejected = none ∧
      (Config.check unlisted).rejected = none ∧ ∃ run run',
        ((session.run [.configure listed, .start .unknown]).1.step page).2 = .page run ∧
          ((session.run [.configure unlisted, .start .unknown, first]).1.step page).2 =
              .page run' ∧
            run.text = run'.text ∧ run.metadata = run'.metadata := by
  intro session root listed unlisted first page
  have hagree : Config.Agree "sources" listed unlisted := by
    intro name hname
    simp [listed, unlisted, Keyed.get?, Ne.symm hname]
  have hfirst : ∀ step ∈ [first], step.IsPageBeside "second" := by
    intro step hstep
    simp [List.mem_singleton.1 hstep, first, Step.IsPageBeside]
  have hlisted : (Config.check listed).rejected = none := by
    decide
  have hunlisted : (Config.check unlisted).rejected = none := by
    decide
  have hnone : ∀ step ∈ ([] : List Step), step.IsPageBeside "second" :=
    fun _ hstep => absurd hstep List.not_mem_nil
  exact ⟨hagree, hlisted, hunlisted,
    page_independent session .unknown [] _ hagree hlisted hunlisted hnone hfirst⟩

end Session
end ScriptDoc
