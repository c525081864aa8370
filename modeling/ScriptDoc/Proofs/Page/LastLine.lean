import ScriptDoc.Proofs.Page.Commented

/-!
# LastLine — what a line feed at the end of a page changes

The last line of a page is no part of a directive, for it does not end in a line feed. With one more
line feed it is read like any other line: as a head, or as an option line of the directive before it.

- `MadeOf.directives_append_head`, `MadeOf.directives_append_option`,
  `MadeOf.directives_append_plain` : what one more line does to the directives
- `Site.segments_of_directives` : metadata and fault come from the directives only
- `Session.RepliedAlike`        : two pages that are left with the same comments and blocks
- `Session.page_append_newline` : when a page and the page with one more line feed are
-/

namespace ScriptDoc

open Text

/-! ## One more line -/

namespace Segment

variable {d : DirectiveText} {last indent : List Char} {o : OptionLine}

theorem directives_ofLines_head (h : OpenDirective.indentOf? last = some indent) :
    directives (ofLines [last]) = [[]] := by
  have hhead : OpenDirective.ofLine? last = some ⟨indent, []⟩ := by
    simp only [OpenDirective.ofLine?, h, Option.map_some]
  simp [ofLines, ofLinesFrom, hhead, close, directives]

theorem directives_ofLines_plain (h : OpenDirective.indentOf? last = none) :
    directives (ofLines [last]) = [] := by
  rw [ofLines_line h]
  rfl

/-- A line that is not of the directive ends it. -/
theorem directives_ofLinesFrom_of_isOver (h : d.IsOver last) :
    directives (ofLinesFrom (some d.toOpen) [last]) =
      d.options :: directives (ofLines [last]) := by
  have hend : d.EndsBefore [last] := by
    rintro line ⟨⟩
    exact h
  rw [ofLinesFrom_end hend]
  rfl

theorem directives_ofLinesFrom_option (h : OptionLine.ofLine? d.indent last = some o) :
    directives (ofLinesFrom (some d.toOpen) [last]) = [d.options ++ [o]] := by
  have hgoOn : OpenDirective.goOn? last d.toOpen = some ⟨d.indent, d.options ++ [o]⟩ :=
    goOn?_option d.options h
  simp [ofLinesFrom, hgoOn, close, directives]

end Segment

namespace DirectiveText

variable {d : DirectiveText} {last indent : List Char}

theorem isOver_of_head (h : OpenDirective.indentOf? last = some indent) : d.IsOver last := by
  refine ⟨?_, fun _ => OpenDirective.not_blank_of_indentOf? h⟩
  refine Option.eq_none_iff_forall_ne_some.2 fun o ho => ?_
  have hindent : ∀ c ∈ d.indent, isIndent c = true := fun c hc =>
    OpenDirective.isIndent_of_mem_indent d.opens hc
  cases (OptionLine.indentOf?_eq_none hindent ho).symm.trans h

/-- A line that is neither a head nor an option line of the directive makes no difference to it, even
if it is a blank line that comes before the first option. -/
theorem directives_ofLinesFrom_plain (hhead : OpenDirective.indentOf? last = none)
    (hoption : OptionLine.ofLine? d.indent last = none) :
    Segment.directives (Segment.ofLinesFrom (some d.toOpen) [last]) = [d.options] := by
  by_cases hover : d.IsOver last
  · rw [Segment.directives_ofLinesFrom_of_isOver hover, Segment.directives_ofLines_plain hhead]
  · -- What goes on without an option is a blank line before the first one.
    have hgoOn : OpenDirective.goOn? last d.toOpen = some d.toOpen := by
      simp only [IsOver, hoption, true_and, Classical.not_imp, Bool.not_eq_false] at hover
      simp [OpenDirective.goOn?, toOpen, hover]
    simp only [Segment.ofLinesFrom, Option.bind_some, hgoOn]
    rfl

end DirectiveText

namespace MadeOf

variable {ls : List (List Char)} {passages : List Passage} {last indent : List Char}

theorem directives_append_head (h : MadeOf ls passages)
    (hhead : OpenDirective.indentOf? last = some indent) :
    Segment.directives (Segment.ofLines (ls ++ [last])) =
      Segment.directives (Segment.ofLines ls) ++ [[]] := by
  rcases h.ofLines_append [last] with ⟨before, d, rfl, hread⟩ | ⟨hlast, hread⟩
  · have hover : d.IsOver last := DirectiveText.isOver_of_head hhead
    simp [hread, h.segments_eq, Segment.directives_append,
      Segment.directives_ofLinesFrom_of_isOver hover, Segment.directives_ofLines_head hhead,
      Passage.segment, Segment.directives]
  · simp [hread, h.segments_eq, Segment.directives_append, Segment.directives_ofLines_head hhead]

theorem directives_append_option {d : DirectiveText} {o : OptionLine} (h : MadeOf ls passages)
    (hlast : passages.getLast? = some (.directive d))
    (hoption : OptionLine.ofLine? d.indent last = some o) :
    ∃ earlier, Segment.directives (Segment.ofLines ls) = earlier ++ [d.options] ∧
      Segment.directives (Segment.ofLines (ls ++ [last])) = earlier ++ [d.options ++ [o]] := by
  rcases h.ofLines_append [last] with ⟨before, own, rfl, hread⟩ | ⟨hnone, hread⟩
  · have hsame : own = d := by simpa using hlast
    subst hsame
    refine ⟨Segment.directives (before.map Passage.segment), ?_, ?_⟩
    · simp [h.segments_eq, Segment.directives_append, Passage.segment, Segment.directives]
    · simp [hread, Segment.directives_append, Segment.directives_ofLinesFrom_option hoption]
  · exact absurd hlast (hnone d)

theorem directives_append_plain (h : MadeOf ls passages)
    (hhead : OpenDirective.indentOf? last = none)
    (hoption : ∀ d, passages.getLast? = some (.directive d) →
      OptionLine.ofLine? d.indent last = none) :
    Segment.directives (Segment.ofLines (ls ++ [last])) =
      Segment.directives (Segment.ofLines ls) := by
  rcases h.ofLines_append [last] with ⟨before, d, rfl, hread⟩ | ⟨hlast, hread⟩
  · have hnone : OptionLine.ofLine? d.indent last = none := hoption d (by simp)
    simp [hread, h.segments_eq, Segment.directives_append,
      DirectiveText.directives_ofLinesFrom_plain hhead hnone, Passage.segment, Segment.directives]
  · simp [hread, h.segments_eq, Segment.directives_append, Segment.directives_ofLines_plain hhead]

end MadeOf

/-! ## Replies to the same directives -/

namespace Site

variable {respond : Site → Metadata → Keyed String → PageRun}

/-- The lines of a page come out in its text only. -/
theorem segments_of_directives (respond : Site → Metadata → Keyed String → PageRun) (site : Site)
    (metadata : Metadata) (last : List Char) (parts : List Segment) :
    let run := segments respond site metadata last parts
    let bare := segments respond site metadata []
      ((Segment.directives parts).map Segment.directive)
    run.metadata = bare.metadata ∧ run.text.map (fun _ => ()) = bare.text.map (fun _ => ()) := by
  have hmap : ∀ (text : List Char) (run : PageRun),
      (run.before text).text.map (fun _ => ()) = run.text.map (fun _ => ()) := by
    rintro text ⟨site, metadata, events, text' | fault⟩
    · rfl
    · rfl
  induction parts generalizing site metadata with
  | nil =>
      exact ⟨rfl, rfl⟩
  | cons part rest ih =>
      cases part with
      | line text =>
          rcases ih site metadata with ⟨hmetadata, htext⟩
          exact ⟨hmetadata, (hmap _ _).trans htext⟩
      | directive written =>
          intro run bare
          cases hfirst : (respond site metadata (OptionLine.read written)).text with
          | error fault =>
              simp only [run, bare, Segment.directives, List.map_cons, segments_of_error hfirst,
                and_self]
          | ok text =>
              -- The replies so far are the same, and the rest goes on from the same site.
              rcases ih (respond site metadata (OptionLine.read written)).site
                (respond site metadata (OptionLine.read written)).metadata with ⟨hmetadata, htext⟩
              simp only [run, bare, Segment.directives, List.map_cons, segments_of_ok hfirst]
              exact ⟨hmetadata, (hmap _ _).trans (htext.trans (hmap _ _).symm)⟩

/-- The metadata and the fault of a page depend on its directives only. -/
theorem pageWith_of_directives (respond : Site → Metadata → Keyed String → PageRun) (site : Site)
    (metadata : Metadata) {markdown other : String}
    (h : Segment.directives (Segment.ofPage markdown.toList).1 =
      Segment.directives (Segment.ofPage other.toList).1) :
    let run := pageWith respond site metadata markdown
    let run' := pageWith respond site metadata other
    run.metadata = run'.metadata ∧ run.text.map (fun _ => ()) = run'.text.map (fun _ => ()) := by
  have hfirst := segments_of_directives respond site metadata (Segment.ofPage markdown.toList).2
    (Segment.ofPage markdown.toList).1
  have hsecond := segments_of_directives respond site metadata (Segment.ofPage other.toList).2
    (Segment.ofPage other.toList).1
  rw [← h] at hsecond
  exact ⟨hfirst.1.trans hsecond.1.symm, hfirst.2.trans hsecond.2.symm⟩

end Site

namespace Session

/-- Either both pages are left with the same comments and the same blocks, or both come to the same
fault. -/
inductive RepliedAlike (session : Session) (metadata : Metadata) (markdown other : String) : Prop where
  | texts {text text' : List Char} {comments : List (List Char)} {blocks : List Value} :
      (session.page metadata markdown).text = .ok text →
        (session.page metadata other).text = .ok text' →
          Commented markdown.toList text comments → Commented other.toList text' comments →
            metadata.Adds session.site.config.metadataKey blocks
                (session.page metadata markdown).metadata →
              metadata.Adds session.site.config.metadataKey blocks
                  (session.page metadata other).metadata →
                RepliedAlike session metadata markdown other
  | faults {fault : Site.PageFault} :
      (session.page metadata markdown).text = .error fault →
        (session.page metadata other).text = .error fault →
          (session.page metadata markdown).metadata = (session.page metadata other).metadata →
            RepliedAlike session metadata markdown other

variable {session : Session} {metadata : Metadata} {markdown other : String}
  {text text' last : List Char} {before : List (List Char)} {passages : List Passage}

/-- Comments and blocks are read off the text and the metadata of a page. -/
theorem repliedAlike_iff_of_ok (h : (session.page metadata markdown).text = .ok text)
    (h' : (session.page metadata other).text = .ok text') :
    RepliedAlike session metadata markdown other ↔
      (session.mentions markdown).map Mention.commentOf =
          (session.mentions other).map Mention.commentOf ∧
        Mention.blocksOf (session.mentions markdown) =
          Mention.blocksOf (session.mentions other) := by
  rcases commented_page h with ⟨hcommented, hadds⟩
  rcases commented_page h' with ⟨hcommented', hadds'⟩
  constructor
  · intro halike
    cases halike with
    | texts hown hown' hsame hsame' hblocks hblocks' =>
        cases h.symm.trans hown
        cases h'.symm.trans hown'
        exact ⟨(hcommented.unique hsame).trans (hsame'.unique hcommented'),
          (hadds.blocks_eq hblocks).trans (hblocks'.blocks_eq hadds')⟩
    | faults hfault hfault' hmetadata =>
        cases h.symm.trans hfault
  · rintro ⟨hcomments, hblocks⟩
    exact .texts h h' (hcomments ▸ hcommented) hcommented' (hblocks ▸ hadds) hadds'

/-- Pages with the same directives are replied to alike. -/
theorem repliedAlike_of_directives (session : Session) (metadata : Metadata)
    (h : Segment.directives (Segment.ofPage markdown.toList).1 =
      Segment.directives (Segment.ofPage other.toList).1) :
    RepliedAlike session metadata markdown other := by
  rcases Site.pageWith_of_directives session.respond session.site metadata h with
    ⟨hmetadata, htext⟩
  simp only [← page_eq_pageWith] at hmetadata htext
  cases hrun : (session.page metadata markdown).text with
  | error fault =>
      rw [hrun] at htext
      exact .faults hrun (Outcome.map_eq_error_iff.1 htext.symm) hmetadata
  | ok text =>
      rw [hrun] at htext
      rcases Outcome.map_eq_ok_iff.1 htext.symm with ⟨text', hrun', -⟩
      have hmentions : session.mentions markdown = session.mentions other := by
        simp only [mentions, Site.mentions, h]
      exact (repliedAlike_iff_of_ok hrun hrun').2 (by simp only [hmentions, and_self])

/-! ## One more line feed -/

theorem mentions_of_lines (h : lines markdown.toList = before ++ [last]) :
    session.mentions markdown = (Segment.directives (Segment.ofLines before)).map
      fun options => session.site.mention? session.tree (OptionLine.read options) := by
  simp only [mentions, Site.mentions, Segment.ofPage_of_lines h]

theorem lines_of_newline (h : lines markdown.toList = before ++ [last]) :
    lines (markdown ++ "\n").toList = before ++ [last] ++ [[]] := by
  rw [String.toList_append, ← h]
  exact lines_append_newline markdown.toList []

/-- The last line is no head, and no option line of a directive that ends before it. -/
def StandsAlone (passages : List Passage) (last : List Char) : Prop :=
  OpenDirective.indentOf? last = none ∧ ∀ d, passages.getLast? = some (.directive d) →
    OptionLine.ofLine? d.indent last = none

/-- The last line is no head, and if it is an option line of a directive that ends before it, then the
directive has the same block without it. -/
def AddsNothing (session : Session) (passages : List Passage) (last : List Char) : Prop :=
  OpenDirective.indentOf? last = none ∧ ∀ d o, passages.getLast? = some (.directive d) →
    OptionLine.ofLine? d.indent last = some o →
      (session.site.mention? session.tree (OptionLine.read d.options)).map Mention.block =
        (session.site.mention? session.tree (OptionLine.read (d.options ++ [o]))).map Mention.block

theorem repliedAlike_of_standsAlone (session : Session) (metadata : Metadata)
    (hlines : lines markdown.toList = before ++ [last]) (hpassages : MadeOf before passages)
    (h : StandsAlone passages last) :
    RepliedAlike session metadata markdown (markdown ++ "\n") := by
  refine repliedAlike_of_directives session metadata ?_
  rw [Segment.ofPage_of_lines hlines, Segment.ofPage_of_lines (lines_of_newline hlines)]
  exact (hpassages.directives_append_plain h.1 h.2).symm

/-- One more head is one more comment. -/
theorem not_repliedAlike_of_head {indent : List Char}
    (hlines : lines markdown.toList = before ++ [last]) (hpassages : MadeOf before passages)
    (hhead : OpenDirective.indentOf? last = some indent)
    (h : (session.page metadata markdown).text = .ok text)
    (h' : (session.page metadata (markdown ++ "\n")).text = .ok text') :
    ¬ RepliedAlike session metadata markdown (markdown ++ "\n") := by
  intro halike
  have hcomments := ((repliedAlike_iff_of_ok h h').1 halike).1
  rw [mentions_of_lines hlines, mentions_of_lines (lines_of_newline hlines),
    hpassages.directives_append_head hhead] at hcomments
  simpa using congrArg List.length hcomments

/-- With one more option line the mentions are the same up to that of the last directive. -/
theorem repliedAlike_iff_of_option {d : DirectiveText} {o : OptionLine}
    (hlines : lines markdown.toList = before ++ [last]) (hpassages : MadeOf before passages)
    (hlast : passages.getLast? = some (.directive d))
    (hoption : OptionLine.ofLine? d.indent last = some o)
    (h : (session.page metadata markdown).text = .ok text)
    (h' : (session.page metadata (markdown ++ "\n")).text = .ok text') :
    RepliedAlike session metadata markdown (markdown ++ "\n") ↔
      (session.site.mention? session.tree (OptionLine.read d.options)).map Mention.block =
        (session.site.mention? session.tree
          (OptionLine.read (d.options ++ [o]))).map Mention.block := by
  rcases hpassages.directives_append_option hlast hoption with ⟨earlier, hown, hmore⟩
  let mentionOf := fun options => session.site.mention? session.tree (OptionLine.read options)
  have hfirst : session.mentions markdown = earlier.map mentionOf ++ [mentionOf d.options] := by
    rw [mentions_of_lines hlines, hown, List.map_append]
    rfl
  have hsecond : session.mentions (markdown ++ "\n") =
      earlier.map mentionOf ++ [mentionOf (d.options ++ [o])] := by
    rw [mentions_of_lines (lines_of_newline hlines), hmore, List.map_append]
    rfl
  rw [repliedAlike_iff_of_ok h h', hfirst, hsecond]
  exact Mention.alike_append_iff

theorem repliedAlike_iff_addsNothing
    (hlines : lines markdown.toList = before ++ [last]) (hpassages : MadeOf before passages)
    (h : (session.page metadata markdown).text = .ok text)
    (h' : (session.page metadata (markdown ++ "\n")).text = .ok text') :
    RepliedAlike session metadata markdown (markdown ++ "\n") ↔
      AddsNothing session passages last := by
  constructor
  · intro halike
    refine ⟨Option.eq_none_iff_forall_ne_some.2 fun indent hhead => ?_, ?_⟩
    · exact not_repliedAlike_of_head hlines hpassages hhead h h' halike
    · intro d o hlast ho
      exact (repliedAlike_iff_of_option hlines hpassages hlast ho h h').1 halike
  · rintro ⟨hhead, hsame⟩
    -- Either the last line is an option line after all, or nothing is read on.
    by_cases hread : ∃ d o, passages.getLast? = some (.directive d) ∧
        OptionLine.ofLine? d.indent last = some o
    · rcases hread with ⟨d, o, hlast, ho⟩
      exact (repliedAlike_iff_of_option hlines hpassages hlast ho h h').2 (hsame d o hlast ho)
    · refine repliedAlike_of_standsAlone session metadata hlines hpassages ⟨hhead, ?_⟩
      intro d hlast
      refine Option.eq_none_iff_forall_ne_some.2 fun o ho => ?_
      exact hread ⟨d, o, hlast, ho⟩

/-- A last line that is neither a head nor an option line of the directive before it is treated as it
would be with a line feed. Otherwise the line feed makes a difference, if both pages come out, unless
the last line is an option line that the directive can do without. -/
theorem page_append_newline (session : Session) (metadata : Metadata)
    (hlines : lines markdown.toList = before ++ [last]) (hpassages : MadeOf before passages) :
    (StandsAlone passages last → RepliedAlike session metadata markdown (markdown ++ "\n")) ∧
      ∀ text text', (session.page metadata markdown).text = .ok text →
        (session.page metadata (markdown ++ "\n")).text = .ok text' →
          (RepliedAlike session metadata markdown (markdown ++ "\n") ↔
            AddsNothing session passages last) :=
  ⟨repliedAlike_of_standsAlone session metadata hlines hpassages,
    fun _ _ h h' => repliedAlike_iff_addsNothing hlines hpassages h h'⟩

/-- A directive with one option line, after a line with a blank. -/
def naming : DirectiveText where
  indent := []
  head := ":::  js:autodoc".toList
  gap := [[' ']]
  body := ["  :file: a.js".toList]
  options := [⟨"file".toList, " a.js".toList⟩]
  opens := by decide
  blank := by decide
  taken := .cons (by decide) .nil

/-- After the first page nothing is read on. After the second one an option is, and what it shows of a
file that is not there is nothing either way. -/
theorem page_append_newline_naming :
    let session := configuredWith (FileTree.empty []) []
    let first := ":::  js:autodoc\n \n  :file: a.js\nEnd"
    let second := ":::  js:autodoc\n \n  :file: a.js\n  :private: no"
    let passages : List Passage := [.directive naming]
    let text := "<!-- dox: a.js (0 entities) -->\n".toList
    MadeOf naming.lines passages ∧ lines first.toList = naming.lines ++ ["End".toList] ∧
      lines second.toList = naming.lines ++ ["  :private: no".toList] ∧
        StandsAlone passages "End".toList ∧
          RepliedAlike session [] first (first ++ "\n") ∧
            (session.page [] second).text = .ok (text ++ "  :private: no".toList) ∧
              (session.page [] (second ++ "\n")).text = .ok text ∧
                (RepliedAlike session [] second (second ++ "\n") ↔
                  AddsNothing session passages "  :private: no".toList) := by
  intro session first second passages text
  have hmade : MadeOf naming.lines passages := .single naming
  have hfirst : lines first.toList = naming.lines ++ ["End".toList] := by
    decide
  have hsecond : lines second.toList = naming.lines ++ ["  :private: no".toList] := by
    decide
  have halone : StandsAlone passages "End".toList := by
    refine ⟨by decide, ?_⟩
    rintro d ⟨⟩
    decide
  have htext : (session.page [] second).text = .ok (text ++ "  :private: no".toList) := by
    decide +kernel
  have htext' : (session.page [] (second ++ "\n")).text = .ok text := by
    decide +kernel
  exact ⟨hmade, hfirst, hsecond, halone, (page_append_newline session [] hfirst hmade).1 halone,
    htext, htext', (page_append_newline session [] hsecond hmade).2 _ _ htext htext'⟩

/-- An option line at the end of a page is left out of its directive, and then no file is named. -/
theorem not_repliedAlike_optionAtEnd :
    let session := configuredWith (FileTree.empty []) []
    let markdown := "::: js:autodoc\n    :file: lib.js"
    let text := "<!-- dox: missing :file: for js:autodoc -->\n    :file: lib.js".toList
    let text' := "<!-- dox: lib.js (0 entities) -->\n".toList
    (session.page [] markdown).text = .ok text ∧
      (session.page [] (markdown ++ "\n")).text = .ok text' ∧
        ¬ RepliedAlike session [] markdown (markdown ++ "\n") := by
  intro session markdown text text'
  have htext : (session.page [] markdown).text = .ok text := by
    decide +kernel
  have htext' : (session.page [] (markdown ++ "\n")).text = .ok text' := by
    decide +kernel
  refine ⟨htext, htext', fun halike => ?_⟩
  have hcomments := ((repliedAlike_iff_of_ok htext htext').1 halike).1
  exact absurd hcomments (by decide +kernel)

end Session
end ScriptDoc
