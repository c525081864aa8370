import ScriptDoc.Proofs.Site.View

/-!
# Requests — what a page asks for, and what is kept of it

- `Site.Remembers`            : what is kept is what the first of some look-ups found
- `Site.remembers_entitiesOf` : a file that is asked for is one look-up more
- `Segment.file?`             : the file that a directive names
- `Site.requests`             : the paths that a page asks for
- `Site.remembers_page`       : a page is these look-ups, one after the other
- `Site.remembers_start`      : a start that sets the root forgets all look-ups but its own
-/

namespace ScriptDoc

/-- The file that a directive names. -/
def Segment.file? : Segment → Option String
  | .line _ => none
  | .directive written =>
      let file := Site.fileOf (OptionLine.read written)
      if file.isEmpty then none else some file

namespace Site

/-- Each path is kept with what its first look-up that led to a file found, and not at all if there
was none. -/
def Remembers (site : Site) (past : List Lookup) : Prop :=
  ∀ path, site.cache.get? path = Lookup.firstFound? site.root path past

variable {site : Site} {tree : FileTree} {past : List Lookup}

theorem remembers_entitiesOf (h : site.Remembers past) (tree : FileTree) (path : String) :
    (site.entitiesOf tree path).site.Remembers (past ++ [site.ask tree path]) := by
  intro other
  have hroot := (settings_entitiesOf site tree path).2
  have hlast : Lookup.firstFound? site.root other [site.ask tree path] =
      if other = path then (site.ask tree path).found? site.root else none := by
    by_cases hsame : other = path
    · simpa [hsame] using firstFound?_map_ask site tree path site.root [path]
    · simpa [hsame] using firstFound?_map_ask site tree other site.root [path]
  calc
    (site.entitiesOf tree path).site.cache.get? other
        = if other = path then site.shown? tree path else site.cache.get? other :=
          cache_entitiesOf site tree path other
    _ = (Lookup.firstFound? site.root other past).or
          (if other = path then (site.ask tree path).found? site.root else none) := by
          by_cases hsame : other = path
          · simp only [hsame, if_true, shown?, h path]
          · simp only [hsame, if_false, h other, Option.or_none]
    _ = Lookup.firstFound? (site.entitiesOf tree path).site.root other
          (past ++ [site.ask tree path]) := by
          simp only [hroot, Lookup.firstFound?_append, hlast]

/-! ## Pages -/

/-- The paths that the parts of a page ask for, in order. A block that cannot be added ends the
page, and if the first one can be added, all can. -/
def requests (site : Site) (metadata : Metadata) (parts : List Segment) : List String :=
  let paths := (parts.filterMap Segment.file?).map site.resolve
  if takesBlocks site.config.metadataKey metadata then paths else paths.take 1

variable {metadata next : Metadata} {part : Segment} {rest : List Segment} {file : String}

theorem requests_cons_of_no_file (h : part.file? = none) :
    site.requests metadata (part :: rest) = site.requests metadata rest := by
  simp only [requests, List.filterMap_cons, h]

theorem requests_cons_of_takes (h : part.file? = some file)
    (htakes : takesBlocks site.config.metadataKey metadata = true) :
    site.requests metadata (part :: rest) = site.resolve file :: site.requests metadata rest := by
  simp only [requests, List.filterMap_cons, h, htakes, if_true, List.map_cons]

theorem requests_cons_of_not_takes (h : part.file? = some file)
    (htakes : takesBlocks site.config.metadataKey metadata = false) :
    site.requests metadata (part :: rest) = [site.resolve file] := by
  simp [requests, h, htakes]

/-- What is kept, and which metadata it is, do not matter to what a page asks for. -/
theorem requests_congr {other : Site} (h : SameView tree site other)
    (htakes : takesBlocks other.config.metadataKey next =
      takesBlocks other.config.metadataKey metadata) (parts : List Segment) :
    site.requests next parts = other.requests metadata parts := by
  have hresolve : site.resolve = other.resolve := funext (resolve_congr h)
  simp only [requests, hresolve, h.metadataKey, htakes]

theorem ask_congr {other : Site} (h : SameView tree site other) :
    site.ask tree = other.ask tree :=
  funext fun path => congrArg (Lookup.mk path tree) h.sourceOptions

/-! ## Directives that name a file -/

theorem answer_of_file? {written : List OptionLine}
    (h : (Segment.directive written).file? = some file) :
    ∃ entities events,
      site.answer tree metadata (OptionLine.read written) =
        ⟨(site.entitiesOf tree (site.resolve file)).site,
          (site.reply metadata (OptionLine.read written) entities).1, events,
          (site.reply metadata (OptionLine.read written) entities).2⟩ := by
  cases hempty : (fileOf (OptionLine.read written)).isEmpty with
  | true =>
      simp [Segment.file?, hempty] at h
  | false =>
      have hfile : fileOf (OptionLine.read written) = file := by
        simpa [Segment.file?, hempty] using h
      subst hfile
      exact ⟨_, _, answer_of_file hempty⟩

theorem answer_of_takes {written : List OptionLine}
    (h : (Segment.directive written).file? = some file)
    (htakes : takesBlocks site.config.metadataKey metadata = true) :
    ∃ next text events,
      site.answer tree metadata (OptionLine.read written) =
        ⟨(site.entitiesOf tree (site.resolve file)).site, next, events, .ok text⟩ ∧
      takesBlocks site.config.metadataKey next = true := by
  rcases answer_of_file? h with ⟨entities, events, hanswer⟩
  rcases reply_of_takes htakes entities with ⟨next, text, hreply, hnext⟩
  rw [hreply] at hanswer
  exact ⟨next, text, events, hanswer, hnext⟩

/-- The file is looked up before its block turns out not to fit. -/
theorem answer_of_not_takes {written : List OptionLine}
    (h : (Segment.directive written).file? = some file)
    (htakes : takesBlocks site.config.metadataKey metadata = false) :
    ∃ fault events,
      site.answer tree metadata (OptionLine.read written) =
        ⟨(site.entitiesOf tree (site.resolve file)).site, metadata, events, .error fault⟩ := by
  rcases answer_of_file? h with ⟨entities, events, hanswer⟩
  rcases reply_of_not_takes htakes entities with ⟨fault, hreply⟩
  rw [hreply] at hanswer
  exact ⟨fault, events, hanswer⟩

theorem answer_of_no_file? {written : List OptionLine}
    (h : (Segment.directive written).file? = none) :
    site.answer tree metadata (OptionLine.read written) =
      ⟨site, metadata, [], .ok missingFileComment⟩ := by
  cases hempty : (fileOf (OptionLine.read written)).isEmpty with
  | true =>
      exact answer_of_no_file hempty
  | false =>
      simp [Segment.file?, hempty] at h

/-! ## Whole pages -/

theorem remembers_segments {respond : Site → Metadata → Keyed String → PageRun}
    (hrespond : ∀ site metadata options,
      respond site metadata options = site.answer tree metadata options)
    (h : site.Remembers past) (metadata : Metadata) (last : List Char) (parts : List Segment) :
    (segments respond site metadata last parts).site.Remembers
      (past ++ (site.requests metadata parts).map (site.ask tree)) := by
  -- On the parts of the page; the site and what it remembers change from one to the next.
  induction parts generalizing site metadata past with
  | nil =>
      have hnone : site.requests metadata [] = [] := by
        simp [requests]
      simp only [hnone, List.map_nil, List.append_nil]
      exact h
  | cons part rest ih =>
      cases part with
      | line text =>
          have hsame : site.requests metadata (.line text :: rest) =
              site.requests metadata rest := requests_cons_of_no_file rfl
          simp only [hsame]
          exact ih h metadata
      | directive written =>
          have hanswer := hrespond site metadata (OptionLine.read written)
          cases hfile : (Segment.directive written).file? with
          | none =>
              have hrun := hanswer.trans (answer_of_no_file? hfile)
              have htext := congrArg PageRun.text hrun
              simp only [requests_cons_of_no_file hfile, segments_of_ok htext, hrun]
              exact ih h metadata
          | some file =>
              let path := site.resolve file
              have hasked := remembers_entitiesOf h tree path
              cases htakes : takesBlocks site.config.metadataKey metadata with
              | true =>
                  rcases answer_of_takes hfile htakes with ⟨next, text, events, hreply, hnext⟩
                  have hrun := hanswer.trans hreply
                  have htext := congrArg PageRun.text hrun
                  -- The rest of the page asks the changed site for what it would have asked this.
                  have hview := sameView_entitiesOf site tree path
                  have hlater : (site.entitiesOf tree path).site.requests next rest =
                      site.requests metadata rest :=
                    requests_congr hview (hnext.trans htakes.symm) rest
                  have hmore := ih hasked next
                  simp only [hlater, ask_congr hview, List.append_assoc,
                    List.singleton_append] at hmore
                  simp only [requests_cons_of_takes hfile htakes, segments_of_ok htext, hrun,
                    List.map_cons]
                  exact hmore
              | false =>
                  rcases answer_of_not_takes hfile htakes with ⟨fault, events, hreply⟩
                  have hrun := hanswer.trans hreply
                  have htext := congrArg PageRun.text hrun
                  simp only [requests_cons_of_not_takes hfile htakes, segments_of_error htext, hrun]
                  exact hasked

theorem remembers_page (h : site.Remembers past) (tree : FileTree) (metadata : Metadata)
    (markdown : String) :
    (site.page tree metadata markdown).site.Remembers
      (past ++ (site.requests metadata (Segment.ofPage markdown.toList).1).map (site.ask tree)) :=
  remembers_segments (fun _ _ _ => rfl) h metadata _ _

/-- Without options no file is read. -/
theorem site_pageUnconfigured (site : Site) (tree : FileTree) (metadata : Metadata)
    (markdown : String) : (site.pageUnconfigured tree metadata markdown).site = site := by
  have hrefuse : ∀ site metadata options, (refuse site tree metadata options).site = site := by
    intro site metadata options
    unfold refuse
    dsimp only
    split
    · rfl
    · rfl
  exact segments_keep (fun _ => rfl) Eq.trans hrefuse site metadata _

/-! ## Starts -/

theorem remembers_start {file : ConfigFile} {root : String}
    (h : newRoot? site.config tree file = some root) :
    (site.start tree file).site.Remembers ((site.movedTo root).startLookups tree) := by
  intro path
  have hroot := (settings_warm (site.movedTo root) tree).2
  have hcold : (site.movedTo root).cache.get? path = none := rfl
  have hwarm : ((site.movedTo root).warm tree).site.cache.get? path =
      (Lookup.firstFound? root path ((site.movedTo root).startLookups tree)).or
        ((site.movedTo root).cache.get? path) := cache_warm
  simp only [start_of_newRoot h, hroot, hwarm, hcold, Option.or_none]
  rfl

end Site
end ScriptDoc
