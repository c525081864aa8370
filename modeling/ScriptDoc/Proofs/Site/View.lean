import ScriptDoc.Proofs.Site.Answer
import ScriptDoc.Proofs.Site.Start

/-!
# View — what a page can tell of a site

A page sees of a site where its files are, how they are read, what its directives do, and what is
shown of each file. It does not see which files have been kept.

- `Site.SameView`          : two sites that look the same to every page
- `Site.sameView_page`     : a page does not change what the next one sees
- `Site.page_congr`        : sites that look the same make the same of a page
- `Site.sameView_start`    : which sources have been read in advance cannot be seen
-/

namespace ScriptDoc
namespace Site

structure SameView (tree : FileTree) (site other : Site) : Prop where
  root : site.root = other.root
  sourceOptions : site.config.sourceOptions = other.config.sourceOptions
  metadataKey : site.config.metadataKey = other.config.metadataKey
  includePrivate : site.config.includePrivate = other.config.includePrivate
  shown? : ∀ path, site.shown? tree path = other.shown? tree path

variable {site other third : Site} {tree : FileTree} {metadata : Metadata}

namespace SameView

theorem refl (tree : FileTree) (site : Site) : SameView tree site site :=
  ⟨rfl, rfl, rfl, rfl, fun _ => rfl⟩

theorem symm (h : SameView tree site other) : SameView tree other site :=
  ⟨h.root.symm, h.sourceOptions.symm, h.metadataKey.symm, h.includePrivate.symm,
    fun path => (h.shown? path).symm⟩

theorem trans (h : SameView tree site other) (h' : SameView tree other third) :
    SameView tree site third :=
  ⟨h.root.trans h'.root, h.sourceOptions.trans h'.sourceOptions,
    h.metadataKey.trans h'.metadataKey, h.includePrivate.trans h'.includePrivate,
    fun path => (h.shown? path).trans (h'.shown? path)⟩

/-- Where neither the options nor the root change, only what is kept can make a difference. -/
theorem of_settings (h : site.config = other.config ∧ site.root = other.root)
    (hshown : ∀ path, site.shown? tree path = other.shown? tree path) :
    SameView tree site other where
  root := h.2
  sourceOptions := congrArg Config.sourceOptions h.1
  metadataKey := congrArg Config.metadataKey h.1
  includePrivate := congrArg Config.includePrivate h.1
  shown? := hshown

end SameView

/-! ## Directives -/

theorem sameView_entitiesOf (site : Site) (tree : FileTree) (path : String) :
    SameView tree (site.entitiesOf tree path).site site :=
  SameView.of_settings (settings_entitiesOf site tree path) (shown?_entitiesOf site tree path)

theorem sameView_answer (site : Site) (tree : FileTree) (metadata : Metadata)
    (options : Keyed String) : SameView tree (site.answer tree metadata options).site site := by
  cases hfile : (fileOf options).isEmpty with
  | true =>
      simpa only [answer_of_no_file hfile] using SameView.refl tree site
  | false =>
      simpa only [answer_of_file hfile] using sameView_entitiesOf site tree _

theorem resolve_congr (h : SameView tree site other) (file : String) :
    site.resolve file = other.resolve file := by
  simp only [resolve, h.root]

theorem showsPrivate_congr (h : SameView tree site other) (options : Keyed String) :
    showsPrivate site.config options = showsPrivate other.config options := by
  simp only [showsPrivate, h.includePrivate]

theorem reply_congr (h : SameView tree site other) (options : Keyed String)
    (entities : List Entity) :
    site.reply metadata options entities = other.reply metadata options entities := by
  simp only [reply, h.metadataKey, showsPrivate_congr h]

theorem answer_congr (h : SameView tree site other) (options : Keyed String) :
    (site.answer tree metadata options).metadata = (other.answer tree metadata options).metadata ∧
      (site.answer tree metadata options).text = (other.answer tree metadata options).text := by
  cases hfile : (fileOf options).isEmpty with
  | true =>
      simp only [answer_of_no_file hfile, and_self]
  | false =>
      have hpath := resolve_congr h (fileOf options)
      have hshown := h.shown? (other.resolve (fileOf options))
      simp only [answer_of_file hfile, hpath, hshown, reply_congr h, and_self]

/-! ## Pages -/

variable {respond : Site → Metadata → Keyed String → PageRun} {last : List Char}

/-- Both runs go through the page directive by directive, with the same text and the same metadata
so far, and the sites keep looking the same though they do not keep the same files. -/
theorem segments_congr
    (hkeeps : ∀ site metadata options, SameView tree (respond site metadata options).site site)
    (hcongr : ∀ site other metadata options, SameView tree site other →
      (respond site metadata options).metadata = (respond other metadata options).metadata ∧
        (respond site metadata options).text = (respond other metadata options).text)
    (h : SameView tree site other) (metadata : Metadata) (parts : List Segment) :
    (segments respond site metadata last parts).metadata =
        (segments respond other metadata last parts).metadata ∧
      (segments respond site metadata last parts).text =
        (segments respond other metadata last parts).text := by
  induction parts generalizing site other metadata with
  | nil =>
      exact ⟨rfl, rfl⟩
  | cons part rest ih =>
      cases part with
      | line text =>
          rcases ih h metadata with ⟨hmetadata, htext⟩
          exact ⟨hmetadata, congrArg (Except.map (text ++ ['\n'] ++ ·)) htext⟩
      | directive written =>
          rcases hcongr site other metadata (OptionLine.read written) h with ⟨hmetadata, htext⟩
          cases hfirst : (respond site metadata (OptionLine.read written)).text with
          | error fault =>
              have hsecond := htext.symm.trans hfirst
              simpa only [segments_of_error hfirst, segments_of_error hsecond] using
                And.intro hmetadata htext
          | ok text =>
              have hsecond := htext.symm.trans hfirst
              have hnext := ((hkeeps site metadata (OptionLine.read written)).trans h).trans
                (hkeeps other metadata (OptionLine.read written)).symm
              rcases ih hnext (respond other metadata (OptionLine.read written)).metadata with
                ⟨hmoreMetadata, hmoreText⟩
              simp only [segments_of_ok hfirst, segments_of_ok hsecond, hmetadata]
              exact ⟨hmoreMetadata, congrArg (Except.map (text ++ ·)) hmoreText⟩

theorem sameView_page (site : Site) (tree : FileTree) (metadata : Metadata) (markdown : String) :
    SameView tree (site.page tree metadata markdown).site site :=
  segments_keep (SameView.refl tree) SameView.trans
    (fun site metadata options => sameView_answer site tree metadata options)
    site metadata (Segment.ofPage markdown.toList).1

theorem page_congr (h : SameView tree site other) (metadata : Metadata) (markdown : String) :
    (site.page tree metadata markdown).metadata = (other.page tree metadata markdown).metadata ∧
      (site.page tree metadata markdown).text = (other.page tree metadata markdown).text :=
  segments_congr (fun site metadata options => sameView_answer site tree metadata options)
    (fun _ _ _ options hview => answer_congr hview options) h metadata
    (Segment.ofPage markdown.toList).1

/-! ## Starts -/

/-- What is read in advance is what would be found if it were asked for now. -/
theorem or_firstFound?_startLookups (site : Site) (tree : FileTree) (path : String) :
    (Lookup.firstFound? site.root path (site.startLookups tree)).or
        ((site.ask tree path).found? site.root) = (site.ask tree path).found? site.root := by
  unfold startLookups
  split
  · rw [firstFound?_map_ask]
    split
    · exact Option.or_self
    · rfl
  · rfl

theorem sameView_warm (h : site.cache = []) : SameView tree (site.warm tree).site site := by
  rcases settings_warm site tree with ⟨hconfig, hroot⟩
  refine SameView.of_settings ⟨hconfig, hroot⟩ fun path => ?_
  have hask : (site.warm tree).site.ask tree path = site.ask tree path := by
    simp only [ask, hconfig]
  have hcold : site.cache.get? path = none := by
    simp only [h, Keyed.get?]
  calc
    (site.warm tree).site.shown? tree path
        = ((Lookup.firstFound? site.root path (site.startLookups tree)).or none).or
            ((site.ask tree path).found? site.root) := by
          simp only [shown?, cache_warm, hask, hroot, hcold]
    _ = (site.ask tree path).found? site.root := by
          simp only [Option.or_none, or_firstFound?_startLookups]
    _ = site.shown? tree path := by
          simp only [shown?, hcold, Option.none_or]

/-- What a site has for sources does not show until it starts. -/
theorem sameView_withSources (tree : FileTree) (site : Site) (config : Config)
    (sources : Option (List String)) :
    SameView tree { site with config := config }
      { site with config := { config with sources := sources } } :=
  ⟨rfl, rfl, rfl, rfl, fun _ => rfl⟩

/-- Two sites that keep nothing look the same if they find the same. -/
theorem sameView_movedTo (h : SameView tree site other) (root : String) :
    SameView tree (site.movedTo root) (other.movedTo root) where
  root := rfl
  sourceOptions := h.sourceOptions
  metadataKey := h.metadataKey
  includePrivate := h.includePrivate
  shown? path := by
    have hask : (site.movedTo root).ask tree path = (other.movedTo root).ask tree path :=
      congrArg (Lookup.mk path tree) h.sourceOptions
    exact congrArg (fun l => Option.or none (l.found? root)) hask

/-- Which sources have been read in advance cannot be seen after a start. -/
theorem sameView_start (h : SameView tree site other)
    (hroot : site.config.sourceRoot = other.config.sourceRoot) (file : ConfigFile) :
    SameView tree (site.start tree file).site (other.start tree file).site := by
  have hsame : newRoot? site.config tree file = newRoot? other.config tree file := by
    simp only [newRoot?, hroot]
  cases hnew : newRoot? site.config tree file with
  | none =>
      have hother : newRoot? other.config tree file = none := hsame.symm.trans hnew
      simpa only [site_start_of_no_root hnew, site_start_of_no_root hother] using h
  | some root =>
      have hother : newRoot? other.config tree file = some root := hsame.symm.trans hnew
      have hfirst : SameView tree ((site.movedTo root).warm tree).site (site.movedTo root) :=
        sameView_warm rfl
      have hsecond : SameView tree ((other.movedTo root).warm tree).site (other.movedTo root) :=
        sameView_warm rfl
      simp only [start_of_newRoot hnew, start_of_newRoot hother]
      exact (hfirst.trans (sameView_movedTo h root)).trans hsecond.symm

end Site
end ScriptDoc
