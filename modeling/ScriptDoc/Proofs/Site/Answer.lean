import ScriptDoc.Proofs.Site.Lookup
import ScriptDoc.Site.Page

/-!
# Answer — what becomes of a directive

- `Site.fileOf`                   : the file that a directive names
- `Site.takesBlocks`              : whether a block can be added to the metadata
- `Site.reply`                    : the metadata and the text, given the entities of the file
- `Site.answer_of_file`           : a directive asks for its file and replies with what it is given
- `Site.segments_of_ok`, `Site.segments_of_error` : a page goes on after a directive, or ends there
- `Site.segments_keep`            : what each directive keeps of a site, the page keeps
-/

namespace ScriptDoc

namespace Site

/-- The file that a directive with these options names; empty if there is none. -/
def fileOf (options : Keyed String) : String :=
  (options.get? "file").getD ""

/-! ## Blocks -/

/-- There is a key, and under it stands a list or nothing. -/
def takesBlocks (key : Option MetadataKey) (metadata : Metadata) : Bool :=
  match key with
  | none => false
  | some key =>
      match metadata.get? key with
      | none => true
      | some (.list _) => true
      | some _ => false

variable {key : Option MetadataKey} {metadata : Metadata}

/-- Metadata that took one block will take the next. -/
theorem appendBlock_of_takes (h : takesBlocks key metadata = true) (block : Value) :
    ∃ next, appendBlock key block metadata = .ok next ∧ takesBlocks key next = true := by
  cases key with
  | none =>
      cases h
  | some key =>
      have hput : ∀ blocks,
          takesBlocks (some key) (metadata.put key (.list blocks)) = true := by
        intro blocks
        have hget : (metadata.put key (.list blocks)).get? key = some (.list blocks) :=
          Metadata.get?_put_same rfl _ _
        simp [takesBlocks, hget]
      cases hget : metadata.get? key with
      | none =>
          exact ⟨metadata.put key (.list [block]), by simp [appendBlock, hget], hput _⟩
      | some value =>
          cases value with
          | list blocks =>
              exact ⟨metadata.put key (.list (blocks ++ [block])), by simp [appendBlock, hget],
                hput _⟩
          | _ =>
              simp [takesBlocks, hget] at h

theorem appendBlock_of_not_takes (h : takesBlocks key metadata = false) (block : Value) :
    ∃ fault, appendBlock key block metadata = .error fault := by
  cases key with
  | none =>
      exact ⟨.noKey, rfl⟩
  | some key =>
      cases hget : metadata.get? key with
      | none =>
          simp [takesBlocks, hget] at h
      | some value =>
          cases value with
          | list blocks =>
              simp [takesBlocks, hget] at h
          | _ =>
              exact ⟨.notAList, by simp [appendBlock, hget]⟩

/-! ## Directives -/

/-- The metadata and the text that a directive leaves when it is given the entities of its file. -/
def reply (site : Site) (metadata : Metadata) (options : Keyed String) (entities : List Entity) :
    Metadata × Except PageFault (List Char) :=
  let file := fileOf options
  let shown :=
    if showsPrivate site.config options then entities else entities.filter (!·.isPrivate)
  match appendBlock site.config.metadataKey (block file shown) metadata with
  | .error fault => (metadata, .error fault)
  | .ok metadata => (metadata, .ok (fileComment file shown.length))

variable {site : Site} {tree : FileTree} {options : Keyed String}

theorem reply_of_takes (h : takesBlocks site.config.metadataKey metadata = true)
    (entities : List Entity) :
    ∃ next text, site.reply metadata options entities = (next, .ok text) ∧
      takesBlocks site.config.metadataKey next = true := by
  let shown :=
    if showsPrivate site.config options then entities else entities.filter (!·.isPrivate)
  rcases appendBlock_of_takes h (block (fileOf options) shown) with ⟨next, happend, hnext⟩
  refine ⟨next, fileComment (fileOf options) shown.length, ?_, hnext⟩
  simp only [reply, shown] at happend ⊢
  simp only [happend]

theorem reply_of_not_takes (h : takesBlocks site.config.metadataKey metadata = false)
    (entities : List Entity) :
    ∃ fault, site.reply metadata options entities = (metadata, .error fault) := by
  let shown :=
    if showsPrivate site.config options then entities else entities.filter (!·.isPrivate)
  rcases appendBlock_of_not_takes h (block (fileOf options) shown) with ⟨fault, happend⟩
  refine ⟨fault, ?_⟩
  simp only [reply, shown] at happend ⊢
  simp only [happend]

theorem answer_of_no_file (h : (fileOf options).isEmpty = true) :
    site.answer tree metadata options = ⟨site, metadata, [], .ok missingFileComment⟩ :=
  if_pos h

/-- A directive asks for its file, and replies with what is shown of it. -/
theorem answer_of_file (h : (fileOf options).isEmpty = false) :
    let path := site.resolve (fileOf options)
    let result := site.reply metadata options ((site.shown? tree path).getD [])
    site.answer tree metadata options =
      ⟨(site.entitiesOf tree path).site, result.1, (site.entitiesOf tree path).events,
        result.2⟩ := by
  intro path result
  have hresult : result = site.reply metadata options (site.entitiesOf tree path).entities := by
    simp only [result, entities_entitiesOf]
  refine (if_neg (Bool.eq_false_iff.1 h)).trans ?_
  simp only [hresult, reply, path, fileOf]
  cases appendBlock site.config.metadataKey (block _ _) metadata with
  | error fault => rfl
  | ok next => rfl

/-! ## Pages -/

variable {respond : Site → Metadata → Keyed String → PageRun} {last text : List Char}
  {written : List OptionLine} {rest : List Segment}

theorem segments_of_ok (h : (respond site metadata (OptionLine.read written)).text = .ok text) :
    let run := respond site metadata (OptionLine.read written)
    let more := segments respond run.site run.metadata last rest
    segments respond site metadata last (.directive written :: rest) =
      ({ more with events := run.events ++ more.events } : PageRun).before text := by
  simp only [segments, h]

theorem segments_of_error {fault : PageFault}
    (h : (respond site metadata (OptionLine.read written)).text = .error fault) :
    segments respond site metadata last (.directive written :: rest) =
      respond site metadata (OptionLine.read written) := by
  simp only [segments, h]

/-- What each directive keeps of a site, the page keeps. -/
theorem segments_keep {Kept : Site → Site → Prop} (hrefl : ∀ site, Kept site site)
    (htrans : ∀ {next site before}, Kept next site → Kept site before → Kept next before)
    (hkeeps : ∀ site metadata options, Kept (respond site metadata options).site site)
    (site : Site) (metadata : Metadata) (parts : List Segment) :
    Kept (segments respond site metadata last parts).site site := by
  induction parts generalizing site metadata with
  | nil =>
      exact hrefl site
  | cons part rest ih =>
      cases part with
      | line text =>
          exact ih site metadata
      | directive written =>
          have hfirst := hkeeps site metadata (OptionLine.read written)
          cases htext : (respond site metadata (OptionLine.read written)).text with
          | error fault =>
              simpa only [segments_of_error htext] using hfirst
          | ok text =>
              have hmore := ih (respond site metadata (OptionLine.read written)).site
                (respond site metadata (OptionLine.read written)).metadata
              simp only [segments_of_ok htext]
              exact htrans hmore hfirst

end Site
end ScriptDoc
