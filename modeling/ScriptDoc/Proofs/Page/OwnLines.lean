import ScriptDoc.Proofs.Page.Commented
import ScriptDoc.Proofs.Page.HeardLines

/-!
# OwnLines — options that are read off their own lines

A line with a blank value takes the next line for its value, if it has not been taken itself. So the
options of a directive are read off their own lines only if each line but the last has a value, and
something stands after the colon of the last one.

- `OptionLine.readsOwnLines_iff`    : when all values come from their own lines
- `OptionLine.heard_of_areFilledIn` : lines that are filled in are all read
- `Session.MissesFile`              : a directive that is told that it names no file
- `Session.page_readsOwnLines_iff`  : when that, and when all values are those of their lines
-/

namespace ScriptDoc

open Text

namespace OptionLine

variable {options before upTo after : List OptionLine} {o : OptionLine} {p : Place}

/-! ## Own lines -/

/-- All options have the trimmed texts on their own lines for values. -/
def ReadsOwnLines (options : List OptionLine) : Prop :=
  ∀ o ∈ options, (read options).get? (String.ofList o.name) = some (String.ofList (trim o.value))

/-- Each line but the last has a value, and after the colon of the last one stands something, be it
blank. -/
def AreFilledIn (options : List OptionLine) : Prop :=
  (∀ o ∈ options.dropLast, o.isBlankValue = false) ∧ ∀ o ∈ options.getLast?, o.value ≠ []

/-- A line gives its own value if it has not been taken and takes no other line. -/
theorem Place.isOwn_iff :
    p.isHeard = true ∧ p.value = trim p.line.value ↔
      takesNext p.upTo = false ∧ (p.after = [] → p.line.value ≠ []) ∧
        (p.after ≠ [] → p.line.isBlankValue = false) := by
  rcases p with ⟨upTo, o, after⟩
  cases after with
  | nil =>
      simp [Place.isHeard, Place.value]
  | cons next rest =>
      cases hblank : o.isBlankValue with
      | true =>
          have hnil : trim o.value = [] := trim_eq_nil_iff.2 hblank
          simp [Place.value, hblank, hnil, trim_asWritten]
      | false =>
          simp [Place.isHeard, Place.value, hblank]

theorem mem_dropLast_append (hafter : after ≠ []) : o ∈ (upTo ++ o :: after).dropLast := by
  rw [List.dropLast_append_of_ne_nil (by simp), List.dropLast_cons_of_ne_nil hafter]
  simp

theorem exists_append_of_mem_dropLast (h : o ∈ options.dropLast) :
    ∃ upTo after, options = upTo ++ o :: after ∧ after ≠ [] := by
  rcases List.append_of_mem h with ⟨upTo, rest, hsplit⟩
  have hne : options ≠ [] := by
    rintro rfl
    cases h
  refine ⟨upTo, rest ++ [options.getLast hne], ?_, by simp⟩
  rw [← List.cons_append, ← List.append_assoc, ← hsplit, List.dropLast_append_getLast]

theorem takesNext_eq_false (h : ∀ o ∈ before, o.isBlankValue = false) :
    takesNext before = false := by
  induction before with
  | nil =>
      rfl
  | cons b before ih =>
      rw [List.forall_mem_cons] at h
      simpa [takesNext, h.1] using ih h.2

/-- No line takes another one, so all have the values that are written on them. -/
theorem isOwn_of_areFilledIn (h : AreFilledIn options) (hp : p ∈ places options) :
    p.isHeard = true ∧ p.value = trim p.line.value := by
  rcases p with ⟨upTo, o, after⟩
  obtain rfl : options = upTo ++ o :: after := mem_places_iff.1 hp
  refine Place.isOwn_iff.2 ⟨takesNext_eq_false fun b hb => h.1 b ?_, ?_, fun hafter => ?_⟩
  · rw [List.dropLast_append_of_ne_nil (by simp)]
    exact List.mem_append_left _ hb
  · rintro rfl
    exact h.2 o (by simp)
  · exact h.1 o (mem_dropLast_append hafter)

theorem get?_read_eq_own_iff (hnames : (options.map name).Nodup) (hp : p ∈ places options) :
    (read options).get? (String.ofList p.line.name) = some (String.ofList (trim p.line.value)) ↔
      p.isHeard = true ∧ p.value = trim p.line.value := by
  rw [get?_read, lastFor?_heard_of_nodup hnames hp]
  cases p.isHeard with
  | true => simp [String.ofList_inj]
  | false => simp

theorem readsOwnLines_iff (hnames : (options.map name).Nodup) :
    ReadsOwnLines options ↔ AreFilledIn options := by
  constructor
  · intro hown
    have hplace : ∀ upTo o after, options = upTo ++ o :: after →
        (after = [] → o.value ≠ []) ∧ (after ≠ [] → o.isBlankValue = false) := by
      rintro upTo o after rfl
      have hp := @mem_places_iff _ ⟨upTo, o, after⟩ |>.2 rfl
      exact (Place.isOwn_iff.1 ((get?_read_eq_own_iff hnames hp).1 (hown o (by simp)))).2
    refine ⟨fun o ho => ?_, fun o ho => ?_⟩
    · rcases exists_append_of_mem_dropLast ho with ⟨upTo, after, hsplit, hafter⟩
      exact (hplace upTo o after hsplit).2 hafter
    · rcases List.getLast?_eq_some_iff.1 ho with ⟨upTo, hsplit⟩
      exact (hplace upTo o [] hsplit).1 rfl
  · intro hfilled o ho
    rcases List.append_of_mem ho with ⟨upTo, after, hsplit⟩
    have hp : ⟨upTo, o, after⟩ ∈ places options := mem_places_iff.2 hsplit
    exact (get?_read_eq_own_iff hnames hp).2 (isOwn_of_areFilledIn hfilled hp)

/-- A blank line for the file names none, unless it takes the next line for the name. -/
theorem fileOf_read_eq_empty_iff (hnames : ((upTo ++ o :: after).map name).Nodup)
    (hname : o.name = "file".toList) (hblank : o.isBlankValue = true) :
    Site.fileOf (read (upTo ++ o :: after)) = "" ↔ takesNext upTo = true ∨ after = [] := by
  have hp : ⟨upTo, o, after⟩ ∈ places (upTo ++ o :: after) := mem_places_iff.2 rfl
  rw [← not_iff_not, ← ne_eq, fileOf_read_ne_empty_iff, takesFile_iff_of_nodup hnames hp hname]
  simp [hblank]

theorem heard_of_areFilledIn (h : AreFilledIn options) : heard options = places options :=
  List.filter_eq_self.2 fun _ hp => (isOwn_of_areFilledIn h hp).1

/-- Where all lines are filled in, it is the last lines that count. -/
theorem takesFile_iff_of_areFilledIn (h : AreFilledIn options) :
    TakesFile options ↔ FillsFile options := by
  rw [TakesFile, FillsFile, heard_of_areFilledIn h]
  refine exists_congr fun p => and_congr_right fun hlast => or_iff_left_of_imp fun hafter => ?_
  exact (Place.isOwn_iff.1 (isOwn_of_areFilledIn h (mem_of_lastFor? hlast).1)).2.2 hafter

end OptionLine

/-! ## Directives without a file -/

namespace Site

theorem mentions_append (site : Site) (tree : FileTree) (parts more : List Segment) :
    site.mentions tree (parts ++ more) = site.mentions tree parts ++ site.mentions tree more := by
  simp only [mentions, Segment.directives_append, List.map_append]

end Site

namespace Mention

/-- No file is called what the comment says where none is named. -/
theorem commentOf_eq_none_iff {mention : Option Mention} :
    commentOf mention = commentOf none ↔ mention = none := by
  constructor
  · intro hsame
    have htold := congrArg told? hsame
    simpa [told?_commentOf] using htold
  · rintro rfl
    rfl

end Mention

namespace Session

variable {session : Session} {metadata : Metadata} {markdown : String} {last : List Char}
  {before : List (List Char)} {earlier later : List Passage} {d : DirectiveText}
  {options : Keyed String}

/-- What the directives among some passages mention. -/
def mentionsIn (session : Session) (passages : List Passage) : List (Option Mention) :=
  session.site.mentions session.tree (passages.map Passage.segment)

/-- The directive is told that it names no file, whatever is kept and whatever the metadata is, and
nothing else comes of it. On its page this comment stands in its place, and all blocks are those of
the other directives. -/
structure MissesFile (session : Session) (metadata : Metadata) (markdown : String)
    (earlier : List Passage) (d : DirectiveText) (later : List Passage) : Prop where
  answer : ∀ site metadata, session.respond site metadata (OptionLine.read d.options) =
    ⟨site, metadata, [], .ok Site.missingFileComment⟩
  page : ∀ text, (session.page metadata markdown).text = .ok text →
    Commented markdown.toList text ((session.mentionsIn earlier).map Mention.commentOf ++
        Mention.commentOf none :: (session.mentionsIn later).map Mention.commentOf) ∧
      metadata.Adds session.site.config.metadataKey
        (Mention.blocksOf (session.mentionsIn earlier) ++
          Mention.blocksOf (session.mentionsIn later)) (session.page metadata markdown).metadata

theorem mentions_of_directive (hlines : lines markdown.toList = before ++ [last])
    (hpassages : MadeOf before (earlier ++ .directive d :: later)) :
    session.mentions markdown = session.mentionsIn earlier ++
      session.site.mention? session.tree (OptionLine.read d.options) ::
        session.mentionsIn later := by
  rw [mentions, Segment.ofPage_of_lines hlines, hpassages.segments_eq, List.map_append,
    Site.mentions_append]
  rfl

theorem respond_of_no_file (h : Site.fileOf options = "") (site : Site) (metadata : Metadata) :
    session.respond site metadata options = ⟨site, metadata, [], .ok Site.missingFileComment⟩ := by
  have hempty : (Site.fileOf options).isEmpty = true := by simp [h]
  unfold respond
  split
  · exact if_pos hempty
  · exact if_pos hempty

/-- The comment on a missing file is that of a directive that names none. -/
theorem fileOf_eq_empty_of_respond {site : Site}
    (h : (session.respond site metadata options).text = .ok Site.missingFileComment) :
    Site.fileOf options = "" := by
  have hcomment := (session.repliesWith_respond h).comment
  rw [Mention.missingFileComment_eq, List.append_cancel_right_eq] at hcomment
  exact Site.mention?_eq_none_iff.1 (Mention.commentOf_eq_none_iff.1 hcomment.symm)

theorem missesFile_iff (metadata : Metadata) (hlines : lines markdown.toList = before ++ [last])
    (hpassages : MadeOf before (earlier ++ .directive d :: later)) :
    MissesFile session metadata markdown earlier d later ↔
      Site.fileOf (OptionLine.read d.options) = "" := by
  constructor
  · intro hmisses
    have hanswer := hmisses.answer session.site metadata
    exact fileOf_eq_empty_of_respond (congrArg Site.PageRun.text hanswer)
  · intro hfile
    refine ⟨respond_of_no_file hfile, fun text htext => ?_⟩
    -- Among the comments and blocks of the page, the directive has a comment and no block.
    have hpage := commented_page htext
    rw [mentions_of_directive hlines hpassages, Site.mention?_eq_none_iff.2 hfile,
      List.map_append, Mention.blocksOf_append] at hpage
    exact hpage

/-- The options of a directive have the values of their own lines if these are filled in. A blank line
for the file goes for a missing one if the line before it takes it, or if no line comes after it. -/
theorem page_readsOwnLines_iff (session : Session) (metadata : Metadata)
    (hlines : lines markdown.toList = before ++ [last])
    (hpassages : MadeOf before (earlier ++ .directive d :: later))
    (hnames : (d.options.map OptionLine.name).Nodup) :
    (OptionLine.ReadsOwnLines d.options ↔ OptionLine.AreFilledIn d.options) ∧
      ∀ upTo o after, d.options = upTo ++ o :: after → o.name = "file".toList →
        o.isBlankValue = true →
          (MissesFile session metadata markdown earlier d later ↔
            OptionLine.takesNext upTo = true ∨ after = []) := by
  refine ⟨OptionLine.readsOwnLines_iff hnames, fun upTo o after hsplit hname hblank => ?_⟩
  rw [missesFile_iff metadata hlines hpassages, hsplit]
  rw [hsplit] at hnames
  exact OptionLine.fileOf_read_eq_empty_iff hnames hname hblank

theorem indentOf?_plainHead : OpenDirective.indentOf? "::: js:autodoc".toList = some [] := by
  decide

theorem all_isBlank_of_mem_nil : ∀ line ∈ ([] : List (List Char)), line.all isBlank = true := by
  simp

/-- A directive that is not indented, with its option lines right after the head. -/
def plainDirective (body : List (List Char)) (options : List OptionLine)
    (taken : List.Forall₂ (fun line o => OptionLine.ofLine? [] line = some o) body options) :
    DirectiveText where
  indent := []
  head := "::: js:autodoc".toList
  gap := []
  body := body
  options := options
  opens := indentOf?_plainHead
  blank := all_isBlank_of_mem_nil
  taken := taken

/-- Two option lines, the last of them with a blank after its colon. -/
def blankAtEnd : DirectiveText :=
  plainDirective ["  :private: no".toList, "  :file: ".toList]
    [⟨"private".toList, " no".toList⟩, ⟨"file".toList, " ".toList⟩]
    (.cons (by decide) (.cons (by decide) .nil))

/-- After the blank line for the file comes no line that it could take. -/
theorem page_readsOwnLines_iff_blankAtEnd :
    let session := configuredWith (FileTree.empty []) []
    let markdown := "A\n::: js:autodoc\n  :private: no\n  :file: \nB"
    let upTo : List OptionLine := [⟨"private".toList, " no".toList⟩]
    let o : OptionLine := ⟨"file".toList, " ".toList⟩
    let before := ['A'] :: blankAtEnd.lines
    let earlier : List Passage := [.line ['A']]
    lines markdown.toList = before ++ [['B']] ∧
      MadeOf before (earlier ++ [.directive blankAtEnd]) ∧
        (blankAtEnd.options.map OptionLine.name).Nodup ∧ blankAtEnd.options = upTo ++ [o] ∧
          o.name = "file".toList ∧ o.isBlankValue = true ∧
            (OptionLine.ReadsOwnLines blankAtEnd.options ↔
              OptionLine.AreFilledIn blankAtEnd.options) ∧
              (MissesFile session [] markdown earlier blankAtEnd [] ↔
                OptionLine.takesNext upTo = true ∨ ([] : List OptionLine) = []) := by
  intro session markdown upTo o before earlier
  have hlines : lines markdown.toList = before ++ [['B']] := by
    decide
  have hpassages : MadeOf before (earlier ++ [.directive blankAtEnd]) :=
    .line (by decide) (.single blankAtEnd)
  have hnames : (blankAtEnd.options.map OptionLine.name).Nodup := by
    decide
  have hblank : o.isBlankValue = true := by
    decide
  have hpage := page_readsOwnLines_iff session [] hlines hpassages hnames
  exact ⟨hlines, hpassages, hnames, rfl, rfl, hblank, hpage.1, hpage.2 upTo o [] rfl rfl hblank⟩

/-- A blank line for the file, with an option after it. -/
def blankFile : DirectiveText :=
  plainDirective ["    :file:".toList, "    :private: true".toList]
    [⟨"file".toList, []⟩, ⟨"private".toList, " true".toList⟩]
    (.cons (by decide) (.cons (by decide) .nil))

/-- The option after the blank line is taken for the name of the file. -/
theorem not_missesFile_blankFile :
    let session := configuredWith (FileTree.empty []) []
    let markdown := "::: js:autodoc\n    :file:\n    :private: true\n"
    lines markdown.toList = blankFile.lines ++ [[]] ∧
      MadeOf blankFile.lines [.directive blankFile] ∧
        (blankFile.options.map OptionLine.name).Nodup ∧
          (session.page [] markdown).text =
              .ok "<!-- dox: :private: true (0 entities) -->\n".toList ∧
            ¬ OptionLine.ReadsOwnLines blankFile.options ∧
              ¬ MissesFile session [] markdown [] blankFile [] := by
  intro session markdown
  have hlines : lines markdown.toList = blankFile.lines ++ [[]] := by
    decide
  have hnames : (blankFile.options.map OptionLine.name).Nodup := by
    decide
  have htext : (session.page [] markdown).text =
      .ok "<!-- dox: :private: true (0 entities) -->\n".toList := by
    decide +kernel
  refine ⟨hlines, .single blankFile, hnames, htext, fun hown => ?_, fun hmisses => ?_⟩
  · have hfilled := (OptionLine.readsOwnLines_iff hnames).1 hown
    exact absurd (hfilled.1 ⟨"file".toList, []⟩ (by decide)) (by decide)
  · have hfile := fileOf_eq_empty_of_respond
      (congrArg Site.PageRun.text (hmisses.answer session.site []))
    exact absurd hfile (by decide +kernel)

end Session
end ScriptDoc
