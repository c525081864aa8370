import ScriptDoc.Proofs.Listing.Acceptance
import ScriptDoc.Proofs.Page.OwnLines
import ScriptDoc.Proofs.Site.Configured
import ScriptDoc.Proofs.Site.Options

/-!
# Failures — when a page fails, and what is left then

A block needs a list to be added to, or a place where nothing is yet. So a page fails at its first
directive that names a file, before anything has been added, or does not fail at all.

- `Metadata.HoldsOther`           : something that a block cannot be added to
- `NamesFile`, `TakesFile`        : a page on which a directive names a file, by its lines as they are
  written, and by those that are read
- `Site.segments_of_holdsOther`   : such a page fails, and its metadata stays as it was
- `Site.exists_text_of_segments`  : any other page does not fail
- `Site.HidesFile`                : a file of which nothing can be shown
- `Session.FailsCleanly`          : how a page fails
- `Session.page_failsCleanly`     : so it is after any run that has given accepted options
-/

namespace ScriptDoc

open Text

/-! ## Metadata -/

/-- Something other than a list is under the key. -/
def Metadata.HoldsOther (key : MetadataKey) (metadata : Metadata) : Prop :=
  ∃ value, metadata.get? key = some value ∧ ∀ items, value ≠ .list items

theorem Metadata.takesBlocks_iff {key : MetadataKey} {metadata : Metadata} :
    Site.takesBlocks (some key) metadata = true ↔ ¬metadata.HoldsOther key := by
  cases hget : metadata.get? key with
  | none =>
      simp [Site.takesBlocks, HoldsOther, hget]
  | some value =>
      cases value with
      | list items => simp [Site.takesBlocks, HoldsOther, hget]
      | _ => simp [Site.takesBlocks, HoldsOther, hget]

/-! ## Pages that name files -/

variable {page : List Char}

/-- The directive is one of the page. The last line ends in no line feed and belongs to no
directive. -/
def DirectiveText.StandsOn (d : DirectiveText) (page : List Char) : Prop :=
  ∃ before last passages, Text.lines page = before ++ [last] ∧ MadeOf before passages ∧
    .directive d ∈ passages

/-- By the lines as they are written, some directive of the page names a file. -/
def NamesFile (page : List Char) : Prop :=
  ∃ d : DirectiveText, d.StandsOn page ∧ OptionLine.FillsFile d.options

/-- By the lines that are read, some directive of the page names a file. -/
def TakesFile (page : List Char) : Prop :=
  ∃ d : DirectiveText, d.StandsOn page ∧ OptionLine.TakesFile d.options

theorem exists_standsOn_iff {holds : List OptionLine → Prop} :
    (∃ d : DirectiveText, d.StandsOn page ∧ holds d.options) ↔
      ∃ options, .directive options ∈ (Segment.ofPage page).1 ∧ holds options := by
  constructor
  · rintro ⟨d, ⟨before, last, passages, hlines, hpassages, hd⟩, hholds⟩
    rw [Segment.ofPage_of_lines hlines, hpassages.segments_eq]
    exact ⟨d.options, List.mem_map.2 ⟨.directive d, hd, rfl⟩, hholds⟩
  · rintro ⟨options, hoptions, hholds⟩
    rcases exists_lines_eq page with ⟨before, last, hlines⟩
    rcases exists_madeOf before with ⟨passages, hpassages⟩
    rw [Segment.ofPage_of_lines hlines, hpassages.segments_eq] at hoptions
    rcases List.mem_map.1 hoptions with ⟨passage, hpassage, hsame⟩
    cases passage with
    | line text =>
        cases hsame
    | directive d =>
        cases hsame
        exact ⟨d, ⟨before, last, passages, hlines, hpassages, hpassage⟩, hholds⟩

theorem takesFile_iff :
    TakesFile page ↔ ∃ part ∈ (Segment.ofPage page).1, ∃ file, part.file? = some file := by
  have hfile : ∀ options : List OptionLine,
      (∃ file, (Segment.directive options).file? = some file) ↔ OptionLine.TakesFile options :=
    fun options => by
      rw [← OptionLine.fileOf_read_ne_empty_iff]
      simp [Segment.file?]
  rw [TakesFile, exists_standsOn_iff]
  constructor
  · rintro ⟨options, hoptions, htakes⟩
    exact ⟨.directive options, hoptions, (hfile options).2 htakes⟩
  · rintro ⟨part, hpart, file, hsome⟩
    cases part with
    | line text =>
        cases hsome
    | directive options =>
        exact ⟨options, hpart, (hfile options).1 ⟨file, hsome⟩⟩

theorem exists_standsOn_iff_of_single {holds : List OptionLine → Prop} {d : DirectiveText}
    (hd : d.StandsOn page)
    (hsingle : ∀ other : DirectiveText, other.StandsOn page → other.options = d.options) :
    (∃ other : DirectiveText, other.StandsOn page ∧ holds other.options) ↔ holds d.options := by
  constructor
  · rintro ⟨other, hother, hholds⟩
    rwa [hsingle other hother] at hholds
  · exact fun hholds => ⟨d, hd, hholds⟩

/-- What holds of each directive holds of the page. -/
theorem takesFile_iff_namesFile (h : ∀ d : DirectiveText, d.StandsOn page →
    (OptionLine.TakesFile d.options ↔ OptionLine.FillsFile d.options)) :
    TakesFile page ↔ NamesFile page :=
  exists_congr fun d => and_congr_right fun hd => h d hd

namespace Site

variable {site : Site} {tree : FileTree} {metadata : Metadata} {key : MetadataKey}
  {last : List Char} {parts : List Segment} {respond : Site → Metadata → Keyed String → PageRun}

/-! ## Directives -/

theorem appendBlock_of_holdsOther (h : metadata.HoldsOther key) (block : Value) :
    appendBlock (some key) block metadata = .error .notAList := by
  rcases h with ⟨value, hget, hother⟩
  cases value with
  | list items => exact absurd rfl (hother items)
  | _ => simp only [appendBlock, hget]

/-- The file is looked up all the same. -/
theorem answer_of_holdsOther {written : List OptionLine} {file : String}
    (hfile : (Segment.directive written).file? = some file)
    (hkey : site.config.metadataKey = some key) (h : metadata.HoldsOther key) :
    ∃ events, site.answer tree metadata (OptionLine.read written) =
      ⟨(site.entitiesOf tree (site.resolve file)).site, metadata, events, .error .notAList⟩ := by
  rcases answer_of_file? hfile with ⟨entities, events, hanswer⟩
  have hreply : site.reply metadata (OptionLine.read written) entities =
      (metadata, .error .notAList) := by
    simp only [reply, hkey, appendBlock_of_holdsOther h]
  rw [hreply] at hanswer
  exact ⟨events, hanswer⟩

/-! ## Pages -/

/-- Lines, and directives that name no file, leave the site and the metadata to what follows. -/
theorem segments_cons_of_no_file
    (hrespond : ∀ site metadata options,
      respond site metadata options = site.answer tree metadata options)
    {part : Segment} (h : part.file? = none) (rest : List Segment) :
    ∃ text, segments respond site metadata last (part :: rest) =
      (segments respond site metadata last rest).before text := by
  cases part with
  | line text =>
      exact ⟨text ++ ['\n'], rfl⟩
  | directive written =>
      have hrun := (hrespond site metadata (OptionLine.read written)).trans (answer_of_no_file? h)
      have htext := congrArg PageRun.text hrun
      refine ⟨missingFileComment, ?_⟩
      simp only [segments_of_ok htext, hrun, List.nil_append]

/-- The first directive that names a file ends the page, before anything has been added. -/
theorem segments_of_holdsOther
    (hrespond : ∀ site metadata options,
      respond site metadata options = site.answer tree metadata options)
    (hkey : site.config.metadataKey = some key) (h : metadata.HoldsOther key)
    (hparts : ∃ part ∈ parts, ∃ file, part.file? = some file) :
    (segments respond site metadata last parts).text = .error .notAList ∧
      (segments respond site metadata last parts).metadata = metadata := by
  induction parts with
  | nil =>
      rcases hparts with ⟨part, hpart, -⟩
      cases hpart
  | cons part rest ih =>
      cases hfile : part.file? with
      | none =>
          rw [List.exists_mem_cons_iff] at hparts
          rcases ih (hparts.resolve_left (by simp [hfile])) with ⟨hmore, hmetadata⟩
          rcases segments_cons_of_no_file hrespond hfile rest with ⟨text, hpage⟩
          rw [hpage]
          exact ⟨congrArg (Except.map (text ++ ·)) hmore, hmetadata⟩
      | some file =>
          cases part with
          | line text =>
              cases hfile
          | directive written =>
              rcases @answer_of_holdsOther _ tree _ _ _ _ hfile hkey h with ⟨events, hreply⟩
              have hrun := (hrespond site metadata (OptionLine.read written)).trans hreply
              have htext := congrArg PageRun.text hrun
              simp only [segments_of_error htext, hrun, and_self]

/-- Where blocks are taken, or none are made, each directive has its comment. -/
theorem exists_text_of_segments
    (hrespond : ∀ site metadata options,
      respond site metadata options = site.answer tree metadata options)
    (h : takesBlocks site.config.metadataKey metadata = true ∨
      ∀ part ∈ parts, part.file? = none) :
    ∃ text, (segments respond site metadata last parts).text = .ok text := by
  -- On the parts of the page; a block that is taken changes the metadata, which takes the next one.
  induction parts generalizing site metadata with
  | nil =>
      exact ⟨last, rfl⟩
  | cons part rest ih =>
      cases hfile : part.file? with
      | none =>
          have hrest := h.imp_right fun hnone => (List.forall_mem_cons.1 hnone).2
          rcases ih hrest with ⟨more, hmore⟩
          rcases segments_cons_of_no_file hrespond hfile rest with ⟨text, hpage⟩
          rw [hpage]
          exact ⟨_, congrArg (Except.map (text ++ ·)) hmore⟩
      | some file =>
          have htakes := h.resolve_right fun hnone => by
            simpa [hfile] using (List.forall_mem_cons.1 hnone).1
          cases part with
          | line text =>
              cases hfile
          | directive written =>
              rcases answer_of_takes hfile htakes with ⟨next, text, events, hreply, hnext⟩
              have hrun := (hrespond site metadata (OptionLine.read written)).trans hreply
              have htext := congrArg PageRun.text hrun
              have hconfig := (settings_entitiesOf site tree (site.resolve file)).1
              rcases ih (Or.inl (hconfig.symm ▸ hnext)) with ⟨more, hmore⟩
              simp only [segments_of_ok htext, hrun]
              exact ⟨_, congrArg (Except.map (text ++ ·)) hmore⟩

variable {markdown : String}

theorem page_of_holdsOther (hkey : site.config.metadataKey = some key)
    (h : metadata.HoldsOther key) (htakes : TakesFile markdown.toList) :
    (site.page tree metadata markdown).text = .error .notAList ∧
      (site.page tree metadata markdown).metadata = metadata :=
  segments_of_holdsOther (fun _ _ _ => rfl) hkey h (takesFile_iff.1 htakes)

theorem exists_text_of_page (hkey : site.config.metadataKey = some key)
    (h : ¬(metadata.HoldsOther key ∧ TakesFile markdown.toList)) :
    ∃ text, (site.page tree metadata markdown).text = .ok text := by
  refine exists_text_of_segments (fun _ _ _ => rfl) ?_
  rw [hkey, Metadata.takesBlocks_iff]
  by_cases hother : metadata.HoldsOther key
  · refine Or.inr fun part hpart => Option.eq_none_iff_forall_ne_some.2 fun file hfile => ?_
    exact h ⟨hother, takesFile_iff.2 ⟨part, hpart, file, hfile⟩⟩
  · exact Or.inl hother

/-! ## Files of which nothing can be shown -/

/-- Nothing is kept of the file, and it is not there, or what it says cannot be listed. What is not
encoded as it should be does not hide a file. -/
inductive HidesFile (site : Site) (tree : FileTree) (path : String) : Prop where
  | missing : site.cache.get? path = none → tree.isFile path.toList = false →
      HidesFile site tree path
  | faulty {text : String} {fault : ListingFault} : site.cache.get? path = none →
      tree.readText path.toList = .ok text →
        Listing.ofSource site.config.sourceOptions (site.nameOf tree path) text = .error fault →
          HidesFile site tree path

theorem HidesFile.shown {path : String} (h : site.HidesFile tree path) :
    (site.shown? tree path).getD [] = [] := by
  cases h with
  | missing hcold hfile =>
      have hmiss : (site.ask tree path).found? site.root = none :=
        Lookup.found?_eq_none_iff.2 hfile
      simp only [shown?, hcold, hmiss, Option.or_none, Option.getD_none]
  | faulty hcold htext hfault =>
      rw [shown?_of_readText _ _ _ hcold htext, hfault]
      rfl

theorem entities_of_hidesFile {options : Keyed String} {m : Mention}
    (hm : site.mention? tree options = some m)
    (h : site.HidesFile tree (site.resolve m.file)) : m.entities = [] := by
  rw [(of_mention?_eq_some hm).2, listed, h.shown, shownWith, List.filter_nil, ite_self]

end Site

/-! ## Sessions -/

namespace Session

/-- The page fails if a directive names a file by its lines as they are written, and something other
than a list is under the key, and it does not fail otherwise. -/
def FailsAsWritten (session : Session) (key : MetadataKey) (metadata : Metadata)
    (markdown : String) : Prop :=
  (session.page metadata markdown).text = .error .notAList ↔
    metadata.HoldsOther key ∧ NamesFile markdown.toList

/-- How a page fails, and that it does not fail otherwise. -/
structure FailsCleanly (session : Session) (key : MetadataKey) (metadata : Metadata)
    (markdown : String) : Prop where
  fails_iff : (session.page metadata markdown).text = .error .notAList ↔
    metadata.HoldsOther key ∧ TakesFile markdown.toList
  asWritten_iff : session.FailsAsWritten key metadata markdown ↔
    (metadata.HoldsOther key → (TakesFile markdown.toList ↔ NamesFile markdown.toList))
  /-- It is enough if no blank line for a file takes another line, and none with a value is taken. -/
  asWritten_of_own :
    (∀ d : DirectiveText, d.StandsOn markdown.toList →
      (d.options.map OptionLine.name).Nodup ∧ OptionLine.ReadsOwnFile d.options) →
        session.FailsAsWritten key metadata markdown
  /-- With one directive, whose options have different names, that is what it takes. -/
  asWritten_single_iff : ∀ d : DirectiveText, d.StandsOn markdown.toList →
    (∀ other : DirectiveText, other.StandsOn markdown.toList → other.options = d.options) →
      (d.options.map OptionLine.name).Nodup →
        (session.FailsAsWritten key metadata markdown ↔
          (metadata.HoldsOther key → OptionLine.ReadsOwnFile d.options))
  /-- Without regard to names it is enough if all option lines are filled in. -/
  asWritten_of_filledIn :
    (∀ d : DirectiveText, d.StandsOn markdown.toList → OptionLine.AreFilledIn d.options) →
      session.FailsAsWritten key metadata markdown
  only : ∀ fault, (session.page metadata markdown).text = .error fault → fault = .notAList
  unchanged : ∀ fault, (session.page metadata markdown).text = .error fault →
    (session.page metadata markdown).metadata = metadata
  /-- Whichever files there are, and whatever they say, is no different. -/
  regardless : ∀ (other : FileTree) fault,
    (({ session with tree := other } : Session).page metadata markdown).text = .error fault ↔
      (session.page metadata markdown).text = .error fault
  /-- A file of which nothing can be shown counts as one without entities. -/
  hidden : ∀ m, some m ∈ session.mentions markdown →
    session.site.HidesFile session.tree (session.site.resolve m.file) → m.entities = []

variable {session : Session} {key : MetadataKey}

theorem text_page_eq_error_iff (hconfigured : session.isConfigured = true)
    (hkey : session.site.config.metadataKey = some key) {metadata : Metadata} {markdown : String}
    {fault : Site.PageFault} : (session.page metadata markdown).text = .error fault ↔
      fault = .notAList ∧ metadata.HoldsOther key ∧ TakesFile markdown.toList := by
  rw [page_of_configured hconfigured]
  by_cases h : metadata.HoldsOther key ∧ TakesFile markdown.toList
  · rw [(Site.page_of_holdsOther hkey h.1 h.2).1, Except.error.injEq]
    exact ⟨fun heq => ⟨heq.symm, h⟩, fun hboth => hboth.1.symm⟩
  · rcases @Site.exists_text_of_page _ session.tree _ _ _ hkey h with ⟨text, htext⟩
    rw [htext]
    exact ⟨nofun, fun hboth => absurd hboth.2 h⟩

theorem failsAsWritten_iff (hconfigured : session.isConfigured = true)
    (hkey : session.site.config.metadataKey = some key) {metadata : Metadata} {markdown : String} :
    session.FailsAsWritten key metadata markdown ↔
      (metadata.HoldsOther key → (TakesFile markdown.toList ↔ NamesFile markdown.toList)) := by
  rw [FailsAsWritten, text_page_eq_error_iff hconfigured hkey, and_iff_right rfl]
  exact and_congr_right_iff

theorem failsCleanly (hconfigured : session.isConfigured = true)
    (hkey : session.site.config.metadataKey = some key) (metadata : Metadata)
    (markdown : String) : session.FailsCleanly key metadata markdown where
  fails_iff := (text_page_eq_error_iff hconfigured hkey).trans (and_iff_right rfl)
  asWritten_iff := failsAsWritten_iff hconfigured hkey
  asWritten_of_own hown := (failsAsWritten_iff hconfigured hkey).2 fun _ =>
    takesFile_iff_namesFile fun d hd =>
      (OptionLine.takesFile_iff_fillsFile_iff (hown d hd).1).2 (hown d hd).2
  asWritten_single_iff d hd hsingle hnames := by
    rw [failsAsWritten_iff hconfigured hkey, TakesFile, NamesFile,
      exists_standsOn_iff_of_single hd hsingle, exists_standsOn_iff_of_single hd hsingle,
      OptionLine.takesFile_iff_fillsFile_iff hnames]
  asWritten_of_filledIn hfilled := (failsAsWritten_iff hconfigured hkey).2 fun _ =>
    takesFile_iff_namesFile fun d hd => OptionLine.takesFile_iff_of_areFilledIn (hfilled d hd)
  only fault h := ((text_page_eq_error_iff hconfigured hkey).1 h).1
  unchanged fault h := by
    rcases (text_page_eq_error_iff hconfigured hkey).1 h with ⟨-, hother, htakes⟩
    rw [page_of_configured hconfigured]
    exact (Site.page_of_holdsOther hkey hother htakes).2
  regardless other fault := by
    have hother : ({ session with tree := other } : Session).isConfigured = true := hconfigured
    exact (text_page_eq_error_iff hother hkey).trans
      (text_page_eq_error_iff hconfigured hkey).symm
  hidden m hm h := by
    rcases List.mem_map.1 hm with ⟨options, -, hmention⟩
    exact Site.entities_of_hidesFile hmention h

/-- Whatever has happened to a session, and whatever the files are now, a page fails cleanly if the
options that were given last are accepted. -/
theorem page_failsCleanly (before tree : FileTree) (steps : List Step) {options : Keyed Value}
    (hgiven : givenOptions steps = some options)
    (haccepted : (Config.check options).rejected = none) (metadata : Metadata)
    (markdown : String) :
    let session : Session := { (run { tree := before } steps).1 with tree := tree }
    ∃ settings : Config.Settings (Config.check options).values,
      session.FailsCleanly (.text settings.metadataKey) metadata markdown := by
  intro session
  have hoptions : (run { tree := before } steps).1.HasOptions (some options) :=
    hgiven ▸ @hasOptions_run { tree := before } none rfl steps
  rcases hoptions with ⟨hconfigured, hconfig⟩
  rcases Config.settings_of_accepted haccepted with ⟨settings⟩
  have hkey : session.site.config.metadataKey = some (.text settings.metadataKey) :=
    (congrArg Config.metadataKey hconfig).trans settings.metadataKey_ofValues
  exact ⟨settings, @failsCleanly session _ hconfigured hkey metadata markdown⟩

/-- Two files as before, and one that is not encoded as it should be. -/
def threeFiles : FileTree :=
  twoFiles.write "lib/c.js".toList ("/** ".toList.map Char.toUInt8 ++ [0xff, 0xfe] ++
    " */\nvar c;\n".toList.map Char.toUInt8)

/-- The blocks have a key of their own, and a file has been asked for that is not there. -/
def keyedSteps : List Step :=
  [.configure [("meta_key", .text "api"), ("source_root", .text "lib")], .start .unknown,
    .page "first" [] "::: js:autodoc\n  :file: gone.js\n"]

/-- A directive that names no file, and then one for each way in which a file can be bad. -/
def badFiles : String :=
  "Files\n::: js:autodoc\n::: js:autodoc\n  :file: gone.js\n::: js:autodoc\n  :file: b.js\n" ++
    "::: js:autodoc\n  :file: c.js\n"

theorem page_failsCleanly_badFiles :
    ∃ options, givenOptions keyedSteps = some options ∧
      (Config.check options).rejected = none ∧
        let session : Session :=
          { (run { tree := twoFiles } keyedSteps).1 with tree := threeFiles }
        let taken : Metadata := [(.text "dox", .list []), (.text "api", .text "draft")]
        let free : Metadata := [(.text "dox", .text "draft")]
        (session.page taken badFiles).text = .error .notAList ∧
          (session.page free badFiles).text.isOk = true ∧
            session.site.HidesFile threeFiles "/s/lib/gone.js" ∧
              session.site.HidesFile threeFiles "/s/lib/b.js" ∧
                ∃ settings : Config.Settings (Config.check options).values,
                  session.FailsCleanly (.text settings.metadataKey) taken badFiles := by
  refine ⟨_, rfl, by decide, ?_⟩
  intro session taken free
  have htext : threeFiles.readText "/s/lib/b.js".toList = .ok "/** @param */\n" := by
    decide +kernel
  have hfault : Comment.ofSource session.site.config.sourceOptions "/** @param */\n" =
      .error (.noName "param" "") := by
    decide +kernel
  refine ⟨?_, ?_, ?_, ?_, ?_⟩
  · decide +kernel
  · decide +kernel
  · exact .missing (by decide +kernel) (by decide +kernel)
  · exact .faulty (by decide +kernel) htext (Listing.ofSource_of_error hfault _)
  · exact page_failsCleanly twoFiles threeFiles keyedSteps rfl (by decide) taken badFiles

/-- A line for the file is taken for a value, so the page does not fail. A blank one takes the next
line for the name of a file, so the page fails. -/
theorem not_failsAsWritten_hiddenFile :
    let session := configuredWith (FileTree.empty []) []
    let key : MetadataKey := .text "dox"
    let metadata : Metadata := [(key, .text "draft")]
    let hidden := "::: js:autodoc\n    :private:\n    :file: lib.js\n"
    let blank := "::: js:autodoc\n    :file:\n    :private: true\n"
    (Config.check []).rejected = none ∧ session.site.config.metadataKey = some key ∧
      (session.page metadata hidden).text.isOk = true ∧
        ¬ session.FailsAsWritten key metadata hidden ∧
          (session.page metadata blank).text = .error .notAList ∧
            ¬ session.FailsAsWritten key metadata blank := by
  intro session key metadata hidden blank
  have hother : metadata.HoldsOther key := ⟨.text "draft", rfl, nofun⟩
  have hpassed : (session.page metadata hidden).text.isOk = true := by
    decide +kernel
  have hfailed : (session.page metadata blank).text = .error .notAList := by
    decide +kernel
  have hhidden : (Segment.ofPage hidden.toList).1 =
      [.directive [⟨"private".toList, []⟩, ⟨"file".toList, " lib.js".toList⟩]] := by
    decide
  have hblank : (Segment.ofPage blank.toList).1 =
      [.directive [⟨"file".toList, []⟩, ⟨"private".toList, " true".toList⟩]] := by
    decide
  refine ⟨by decide, rfl, hpassed, fun hwritten => ?_, hfailed, fun hwritten => ?_⟩
  · have hnames : NamesFile hidden.toList := by
      refine exists_standsOn_iff.2 ⟨_, hhidden ▸ List.mem_singleton_self _, ?_⟩
      exact ⟨_, rfl, by decide⟩
    rw [hwritten.2 ⟨hother, hnames⟩] at hpassed
    cases hpassed
  · rcases exists_standsOn_iff.1 (hwritten.1 hfailed).2 with ⟨options, hoptions, p, hlast, hvalue⟩
    rw [hblank, List.mem_singleton] at hoptions
    cases hoptions
    cases hlast
    exact absurd hvalue (by decide)

end Session
end ScriptDoc
