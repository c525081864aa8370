import ScriptDoc.Proofs.Entity.Ordering
import ScriptDoc.Proofs.Page.Failures

/-!
# Blocks — what the blocks of a page hold

A block holds the entities of its file in order, with or without the private ones. That is asked for
by the last line for `private` that is read, which need not be the last one that is written.

- `Site.listedFor`               : the entities of a file, with or without the private ones
- `Site.HoldsAsWritten`          : a block that goes by the option lines as they are written
- `Site.TellsOf`                 : what a directive mentions, by its option lines
- `Session.page_tells_of_blocks` : the comments of a page tell of its blocks, and these hold what
  the directives ask for
-/

namespace ScriptDoc

open Text

namespace Site

variable {site : Site} {tree : FileTree} {file : String} {m : Mention}

/-! ## Directives -/

/-- The entities of a file in order, all of them or the public ones. -/
def listedFor (site : Site) (tree : FileTree) (file : String) (showsAll : Bool) : List Entity :=
  if showsAll then site.listed tree file else (site.listed tree file).filter (!·.isPrivate)

/-- Private entities are left out if the last line for `private` does not ask for them, or, where
there is no such line, the site does not. -/
def HoldsAsWritten (site : Site) (tree : FileTree) (options : List OptionLine) (m : Mention) :
    Prop :=
  m.entities = site.listedFor tree m.file
    (OptionLine.asks site.config.includePrivate (OptionLine.places options))

/-- What a directive mentions, by its option lines. -/
structure TellsOf (site : Site) (tree : FileTree) (options : List OptionLine)
    (mention : Option Mention) : Prop where
  named_iff : mention.isSome = true ↔ OptionLine.TakesFile options
  file : ∀ m ∈ mention, ∀ p,
    OptionLine.lastFor? "file".toList (OptionLine.heard options) = some p →
      m.file.toList = p.value
  entities : ∀ m ∈ mention, m.entities = site.listedFor tree m.file
    (OptionLine.asks site.config.includePrivate (OptionLine.heard options))
  /-- Lines that are not read make a difference only where there is something private. -/
  asWritten_iff : ∀ m ∈ mention, site.HoldsAsWritten tree options m ↔
    OptionLine.asks site.config.includePrivate (OptionLine.heard options) =
        OptionLine.asks site.config.includePrivate (OptionLine.places options) ∨
      ∀ e ∈ site.listed tree m.file, e.isPrivate = false
  asWritten_of_filledIn : OptionLine.AreFilledIn options →
    ∀ m ∈ mention, site.HoldsAsWritten tree options m

theorem listedFor_eq_iff {shown other : Bool} :
    site.listedFor tree file shown = site.listedFor tree file other ↔
      shown = other ∨ ∀ e ∈ site.listed tree file, e.isPrivate = false := by
  have hpublic : site.listedFor tree file false = site.listedFor tree file true ↔
      ∀ e ∈ site.listed tree file, e.isPrivate = false := by
    simp [listedFor]
  by_cases hsame : shown = other
  · simp [hsame]
  · -- One of the two is for all entities and the other one for those that are public.
    rw [or_iff_right hsame, ← hpublic]
    cases shown with
    | true =>
        have hother : other = false := by simpa using hsame
        rw [hother, eq_comm]
    | false =>
        have hother : other = true := by simpa using hsame
        rw [hother]

theorem mention?_eq_some {options : Keyed String} {all : List Entity} (shown : Bool)
    (hlisted : site.listed tree file = all) (hfile : fileOf options = file) (hne : file ≠ "")
    (hshown : showsPrivate site.config options = shown) :
    site.mention? tree options =
      some ⟨file, if shown then all else all.filter (!·.isPrivate)⟩ := by
  subst hlisted hfile hshown
  exact mention?_of_file site tree (by simpa using hne)

theorem tellsOf_mention? (site : Site) (tree : FileTree) (options : List OptionLine) :
    site.TellsOf tree options (site.mention? tree (OptionLine.read options)) := by
  have hsome : ∀ m ∈ site.mention? tree (OptionLine.read options),
      m.file = fileOf (OptionLine.read options) ∧
        m.entities = site.listedFor tree m.file
          (OptionLine.asks site.config.includePrivate (OptionLine.heard options)) := by
    intro m hm
    rcases of_mention?_eq_some hm with ⟨hfile, hentities⟩
    exact ⟨hfile, by rw [hentities, shownWith, OptionLine.showsPrivate_read, listedFor]⟩
  refine ⟨?_, fun m hm p hp => ?_, fun m hm => (hsome m hm).2, fun m hm => ?_,
    fun hfilled m hm => ?_⟩
  · rw [← OptionLine.fileOf_read_ne_empty_iff, ← not_iff_not, not_not, Bool.not_eq_true,
      Option.isSome_eq_false_iff, Option.isNone_iff_eq_none]
    exact mention?_eq_none_iff
  · rw [(hsome m hm).1, OptionLine.fileOf_read, hp]
    exact String.toList_ofList
  · rw [HoldsAsWritten, (hsome m hm).2, listedFor_eq_iff]
  · rw [HoldsAsWritten, (hsome m hm).2, OptionLine.heard_of_areFilledIn hfilled]

end Site

/-! ## Files -/

/-- Entities that are in order already are those of their file. -/
theorem Listing.shownEntities_of_ordered {options : SourceOptions} {filename source : String}
    {all : List Comment} {entities : List Entity}
    (hall : Comment.ofSource options source = .ok all)
    (hentities : let kept := all.filter (!·.isIgnored)
      kept.map (Entity.ofComment? filename (Link.Index.ofComments filename kept)) =
        entities.map some)
    (hordered : entities.Pairwise (Entity.comesFirst · · = true)) :
    Listing.shownEntities (Listing.ofSource options filename source) = entities := by
  rw [Listing.ofSource_of_ok hall, Listing.shownEntities, Listing.ofComments]
  simp only [hentities]
  exact Entity.assemble_map_some hordered

/-! ## Pages -/

namespace Session

variable {session : Session} {metadata : Metadata} {markdown : String} {text : List Char}

theorem forall₂_tellsOf {before : List (List Char)} {last : List Char} {passages : List Passage}
    (hlines : lines markdown.toList = before ++ [last]) (hpassages : MadeOf before passages) :
    List.Forall₂ (session.site.TellsOf session.tree)
      (Segment.directives (passages.map Passage.segment)) (session.mentions markdown) := by
  rw [mentions, Segment.ofPage_of_lines hlines, hpassages.segments_eq, Site.mentions,
    List.forall₂_map_right_iff, List.forall₂_same]
  exact fun options _ => Site.tellsOf_mention? session.site session.tree options

/-- The comments in the text of a page and the blocks in its metadata tell of the same files with
the same numbers of entities, in the order of the directives. Of each of these the option lines say
which file and which entities of it. -/
theorem page_tells_of_blocks (h : (session.page metadata markdown).text = .ok text) :
    let mentions := session.mentions markdown
    let comments := mentions.map Mention.commentOf
    Commented markdown.toList text comments ∧
      (comments.filterMap Mention.told?).map some =
          (Mention.blocksOf mentions).map Mention.listed? ∧
        metadata.Adds session.site.config.metadataKey (Mention.blocksOf mentions)
          (session.page metadata markdown).metadata ∧
          ∀ before last passages, lines markdown.toList = before ++ [last] →
            MadeOf before passages →
              List.Forall₂ (session.site.TellsOf session.tree)
                (Segment.directives (passages.map Passage.segment)) mentions := by
  intro mentions comments
  rcases commented_page h with ⟨hcommented, hadds⟩
  exact ⟨hcommented, Mention.told?_commentOf_eq_listed? mentions, hadds,
    fun before last passages hlines hpassages => forall₂_tellsOf hlines hpassages⟩

/-! ## A page of two files -/

/-- The public entity of the first of the two files. -/
def publicEntity : Entity :=
  { uid := "lib-a.js-f", name := "f", kind := "function", description := "F.", line := 1 }

/-- The private entity of the first of the two files. -/
def privateEntity : Entity :=
  { uid := "lib-a.js-g", name := "g", kind := "declaration", description := "G.",
    isPrivate := true, line := 3, notFunction := true }

def namedComments : List Comment :=
  [{ description := "F.", context := some ⟨"function", "f()"⟩, line := 1 },
    { description := "G.", tags := [{ word := "private" }], context := some ⟨"declaration", "g"⟩,
      isPrivate := true, line := 3 }]

/-- What a site that is asked for the first time finds in the two files. -/
theorem listed_twoFiles {site : Site} {tree : FileTree} (htree : tree = twoFiles)
    (hcold : site.cache = []) (hroot : site.root = "") (hoptions : site.config.sourceOptions = {}) :
    site.listed tree "lib/a.js" = [publicEntity, privateEntity] ∧
      site.listed tree "lib/b.js" = [] := by
  subst htree
  have hfirst : site.resolve "lib/a.js" = "lib/a.js" := by
    rw [Site.resolve, hroot]
    decide
  have hsecond : site.resolve "lib/b.js" = "lib/b.js" := by
    rw [Site.resolve, hroot]
    decide
  have hname : site.nameOf twoFiles "lib/a.js" = "lib/a.js" := by
    rw [Site.nameOf, hroot]
    decide +kernel
  let named := "/** F. */\nfunction f() \x7b\x7d\n/** G.\n * @private */\nvar g = 1;\n"
  let faulty := "/** @param */\n"
  have hnamed : twoFiles.readText "lib/a.js".toList = .ok named := by
    decide +kernel
  have hfaulty : twoFiles.readText "lib/b.js".toList = .ok faulty := by
    decide +kernel
  have hcomments : Comment.ofSource {} named = .ok namedComments := by
    decide +kernel
  have hfault : Comment.ofSource {} faulty = .error (.noName "param" "") := by
    decide +kernel
  constructor
  · rw [Site.listed, hfirst, Site.shown?_of_readText _ _ _ (hcold ▸ rfl) hnamed, hoptions, hname]
    exact Listing.shownEntities_of_ordered hcomments (by decide +kernel) (by decide)
  · rw [Site.listed, hsecond, Site.shown?_of_readText _ _ _ (hcold ▸ rfl) hfaulty, hoptions,
      Listing.ofSource_of_error hfault]
    rfl

/-- The page has a block already. It shows all of a file, then only what is public of it, and then a
file of which nothing can be read; one directive between them names no file. -/
theorem page_tells_of_blocks_twoFiles :
    let session := configuredWith twoFiles
      [("source_root", .text "."), ("include_private", .bool false)]
    let metadata : Metadata := [(.text "title", .text "T"), (.text "dox", .list [.text "first"])]
    let markdown := "A\n::: js:autodoc\n\n  :file: lib/a.js\n  :private: YES\nB\n" ++
      " ::: js:autodoc\n   :file: lib/a.js\n::: js:autodoc\nC\n" ++
      "::: js:autodoc\n  :file: lib/b.js\nD"
    let text := "A\n<!-- dox: lib/a.js (2 entities) -->\nB\n" ++
      "<!-- dox: lib/a.js (1 entities) -->\n<!-- dox: missing :file: for js:autodoc -->\nC\n" ++
      "<!-- dox: lib/b.js (0 entities) -->\nD"
    let blocks := [Site.block "lib/a.js" [publicEntity, privateEntity],
      Site.block "lib/a.js" [publicEntity], Site.block "lib/b.js" []]
    let mentions := session.mentions markdown
    let comments := mentions.map Mention.commentOf
    (session.page metadata markdown).text = .ok text.toList ∧
      (session.page metadata markdown).metadata.get? (.text "dox") =
          some (.list (.text "first" :: blocks)) ∧
        Commented markdown.toList text.toList comments ∧
          (comments.filterMap Mention.told?).map some =
              (Mention.blocksOf mentions).map Mention.listed? ∧
            metadata.Adds session.site.config.metadataKey (Mention.blocksOf mentions)
              (session.page metadata markdown).metadata ∧
              ∀ before last passages, lines markdown.toList = before ++ [last] →
                MadeOf before passages →
                  List.Forall₂ (session.site.TellsOf session.tree)
                    (Segment.directives (passages.map Passage.segment)) mentions := by
  intro session metadata markdown text blocks mentions comments
  rcases @listed_twoFiles session.site session.tree rfl rfl rfl rfl with ⟨hfirst, hsecond⟩
  have hparts : Segment.ofPage markdown.toList =
      ([.line "A".toList,
        .directive [⟨"file".toList, " lib/a.js".toList⟩, ⟨"private".toList, " YES".toList⟩],
        .line "B".toList, .directive [⟨"file".toList, " lib/a.js".toList⟩], .directive [],
        .line "C".toList, .directive [⟨"file".toList, " lib/b.js".toList⟩]], "D".toList) := by
    decide +kernel
  have hall : session.site.mention? session.tree (OptionLine.read
      [⟨"file".toList, " lib/a.js".toList⟩, ⟨"private".toList, " YES".toList⟩]) =
        some ⟨"lib/a.js", [publicEntity, privateEntity]⟩ :=
    Site.mention?_eq_some true hfirst (by decide) (by decide) (by decide)
  have hpublic : session.site.mention? session.tree (OptionLine.read
      [⟨"file".toList, " lib/a.js".toList⟩]) = some ⟨"lib/a.js", [publicEntity]⟩ :=
    Site.mention?_eq_some false hfirst (by decide) (by decide) (by decide)
  have hnone : session.site.mention? session.tree (OptionLine.read []) = none := by
    rfl
  have hfaulty : session.site.mention? session.tree (OptionLine.read
      [⟨"file".toList, " lib/b.js".toList⟩]) = some ⟨"lib/b.js", []⟩ :=
    Site.mention?_eq_some false hsecond (by decide) (by decide) (by decide)
  have hmentions : mentions = [some ⟨"lib/a.js", [publicEntity, privateEntity]⟩,
      some ⟨"lib/a.js", [publicEntity]⟩, none, some ⟨"lib/b.js", []⟩] := by
    simp only [mentions, Session.mentions, Site.mentions, hparts, Segment.directives, List.map_cons,
      List.map_nil, hall, hpublic, hnone, hfaulty]
  have hlist : ¬metadata.HoldsOther (.text "dox") := by
    rintro ⟨value, hvalue, hother⟩
    have hfirst : metadata.get? (.text "dox") = some (.list [.text "first"]) := rfl
    exact hother _ (Option.some.inj (hvalue.symm.trans hfirst))
  have hread : ∃ own, (session.page metadata markdown).text = .ok own := by
    rw [page_of_configured rfl]
    exact Site.exists_text_of_page rfl fun hboth => hlist hboth.1
  rcases hread with ⟨own, hown⟩
  have hpage := page_tells_of_blocks hown
  have htext : own = text.toList := by
    have hcommented : Commented markdown.toList own (mentions.map Mention.commentOf) := hpage.1
    rw [hcommented.text_eq, hmentions, hparts]
    decide +kernel
  have hblocks : Mention.blocksOf mentions = blocks := by
    rw [hmentions]
    rfl
  have hadds : metadata.Adds (some (.text "dox")) blocks
      (session.page metadata markdown).metadata :=
    hblocks ▸ hpage.2.2.1
  rw [htext] at hown hpage
  exact ⟨hown, hadds.get?_eq (by simp [blocks]) rfl, hpage⟩

/-- An option with no value, then that for private entities, and the file. -/
def hiddenPrivate : DirectiveText :=
  plainDirective ["    :foo:".toList, "    :private: false".toList, "    :file: lib/a.js".toList]
    [⟨"foo".toList, []⟩, ⟨"private".toList, " false".toList⟩, ⟨"file".toList, " lib/a.js".toList⟩]
    (.cons (by decide) (.cons (by decide) (.cons (by decide) .nil)))

/-- The line for private entities is taken for a value, so they stay. -/
theorem not_holdsAsWritten_hiddenPrivate :
    let session := configuredWith twoFiles []
    let markdown := "::: js:autodoc\n    :foo:\n    :private: false\n    :file: lib/a.js\n"
    let m : Mention := ⟨"lib/a.js", [publicEntity, privateEntity]⟩
    lines markdown.toList = hiddenPrivate.lines ++ [[]] ∧
      MadeOf hiddenPrivate.lines [.directive hiddenPrivate] ∧
        (session.page [] markdown).text.toOption.isSome = true ∧
          session.mentions markdown = [some m] ∧
            ¬ session.site.HoldsAsWritten session.tree hiddenPrivate.options m := by
  intro session markdown m
  rcases @listed_twoFiles session.site session.tree rfl rfl rfl rfl with ⟨hfirst, -⟩
  have hdirectives : Segment.directives (Segment.ofPage markdown.toList).1 =
      [hiddenPrivate.options] := by
    decide +kernel
  have hmention : session.site.mention? session.tree (OptionLine.read hiddenPrivate.options) =
        some m :=
    Site.mention?_eq_some true hfirst (by decide) (by decide) (by decide)
  refine ⟨by decide, .single hiddenPrivate, by decide +kernel, ?_, fun hholds => ?_⟩
  · simp only [mentions, Site.mentions, hdirectives, List.map_cons, List.map_nil, hmention]
  · have hasked : OptionLine.asks session.site.config.includePrivate
        (OptionLine.places hiddenPrivate.options) = false := by
      decide
    rw [Site.HoldsAsWritten, hasked, Site.listedFor, hfirst] at hholds
    exact absurd hholds (by decide)

end Session
end ScriptDoc
