import ScriptDoc.Proofs.Page.Passages
import ScriptDoc.Proofs.Page.Replies
import ScriptDoc.Proofs.Site.Independence

/-!
# Commented — a page with comments in the place of its directives

The comments in the text of a page and the blocks in its metadata are those of what its directives
mention, in their order.

- `Segment.directives`          : the options of each directive of a page
- `Segment.weave`               : the lines of a page with comments between them
- `Commented`                   : a text that is a page with comments in the place of its directives
- `Site.segments_of_replies`    : what replies leave of a page
- `Session.commented_page`      : what the directives of a session mention is what a page is left with
-/

namespace ScriptDoc

open Text

/-! ## Comments in the place of directives -/

namespace Segment

/-- The options of each directive. -/
def directives : List Segment → List (List OptionLine)
  | [] => []
  | .line _ :: rest => directives rest
  | .directive options :: rest => options :: directives rest

/-- The lines, and a comment in the place of each directive for as long as there are comments. -/
def weave : List Segment → List (List Char) → List (List Char)
  | [], _ => []
  | .line text :: rest, comments => text :: weave rest comments
  | .directive _ :: rest, comment :: comments => comment :: weave rest comments
  | .directive _ :: rest, [] => weave rest []

variable {parts : List Segment} {comments others : List (List Char)}

theorem mem_directives {options : List OptionLine} :
    options ∈ directives parts ↔ .directive options ∈ parts := by
  induction parts with
  | nil =>
      simp [directives]
  | cons part rest ih =>
      cases part with
      | line text =>
          simp [directives, ih]
      | directive own =>
          simp [directives, ih]

theorem directives_append (parts more : List Segment) :
    directives (parts ++ more) = directives parts ++ directives more := by
  induction parts with
  | nil =>
      rfl
  | cons part parts ih =>
      cases part with
      | line text =>
          exact ih
      | directive options =>
          exact congrArg (options :: ·) ih

theorem mem_of_mem_weave {line : List Char} (h : line ∈ weave parts comments) :
    .line line ∈ parts ∨ line ∈ comments := by
  fun_induction weave parts comments with
  | case1 comments =>
      cases h
  | case2 comments text rest ih =>
      rcases List.mem_cons.1 h with rfl | hlater
      · exact Or.inl List.mem_cons_self
      · exact (ih hlater).imp_left (List.mem_cons_of_mem _)
  | case3 rest options comment comments ih =>
      rcases List.mem_cons.1 h with rfl | hlater
      · exact Or.inr List.mem_cons_self
      · exact (ih hlater).imp (List.mem_cons_of_mem _) (List.mem_cons_of_mem _)
  | case4 rest options ih =>
      exact (ih h).imp_left (List.mem_cons_of_mem _)

/-- The comments can be read off, given that there is one for each directive. -/
theorem weave_inj (hcount : comments.length = (directives parts).length)
    (hothers : others.length = (directives parts).length)
    (h : weave parts comments = weave parts others) : comments = others := by
  induction parts generalizing comments others with
  | nil =>
      simp only [directives, List.length_nil, List.length_eq_zero_iff] at hcount hothers
      exact hcount.trans hothers.symm
  | cons part rest ih =>
      cases part with
      | line text =>
          exact ih hcount hothers (List.cons.inj h).2
      | directive options =>
          cases comments with
          | nil =>
              cases hcount
          | cons comment comments =>
              cases others with
              | nil =>
                  cases hothers
              | cons other others =>
                  rcases List.cons.inj h with ⟨hfirst, hrest⟩
                  exact congrArg₂ List.cons hfirst
                    (ih (Nat.succ.inj hcount) (Nat.succ.inj hothers) hrest)

end Segment

/-- The text is the page with one of the comments in the place of each directive. -/
structure Commented (page text : List Char) (comments : List (List Char)) : Prop where
  count : comments.length = (Segment.directives (Segment.ofPage page).1).length
  lines : Text.lines text =
    Segment.weave (Segment.ofPage page).1 comments ++ [(Segment.ofPage page).2]

theorem Commented.text_eq {page text : List Char} {comments : List (List Char)}
    (h : Commented page text comments) :
    text = unlines (Segment.weave (Segment.ofPage page).1 comments ++
      [(Segment.ofPage page).2]) :=
  (unlines_lines text).symm.trans (congrArg unlines h.lines)

theorem Commented.unique {page text : List Char} {comments others : List (List Char)}
    (h : Commented page text comments) (h' : Commented page text others) : comments = others :=
  Segment.weave_inj h.count h'.count (List.append_cancel_right (h.lines.symm.trans h'.lines))

/-! ## Replies -/

namespace Site

variable {respond : Site → Metadata → Keyed String → PageRun} {tree : FileTree} {site : Site}
  {metadata : Metadata} {last text : List Char} {parts : List Segment}

/-- What the directives of a page mention. -/
def mentions (site : Site) (tree : FileTree) (parts : List Segment) : List (Option Mention) :=
  (Segment.directives parts).map fun options => site.mention? tree (OptionLine.read options)

theorem mentions_congr {other : Site} (h : SameView tree site other) (parts : List Segment) :
    site.mentions tree parts = other.mentions tree parts :=
  List.map_congr_left fun options _ => mention?_congr h (OptionLine.read options)

theorem unlines_cons_last (line : List Char) (ls : List (List Char)) (last : List Char) :
    line ++ ['\n'] ++ unlines (ls ++ [last]) = unlines (line :: ls ++ [last]) := by
  have hcons : unlines (line :: (ls ++ [last])) = line ++ '\n' :: unlines (ls ++ [last]) :=
    unlines_cons (by simp)
  simpa using hcons.symm

/-- Every reply puts its comment before the text of the rest, and its block before those of the rest;
the rest sees what was seen before. -/
theorem segments_of_replies (hreplies : RepliesWith tree respond)
    (h : (segments respond site metadata last parts).text = .ok text) :
    text = unlines (Segment.weave parts ((site.mentions tree parts).map Mention.commentOf) ++
        [last]) ∧
      metadata.Adds site.config.metadataKey (Mention.blocksOf (site.mentions tree parts))
        (segments respond site metadata last parts).metadata := by
  induction parts generalizing site metadata text with
  | nil =>
      exact ⟨(Except.ok.inj h).symm, .nothing metadata⟩
  | cons part rest ih =>
      cases part with
      | line own =>
          rcases Outcome.map_eq_ok_iff.1 h with ⟨more, hmore, rfl⟩
          rcases ih hmore with ⟨htext, hadds⟩
          refine ⟨?_, hadds⟩
          rw [htext]
          exact unlines_cons_last own _ last
      | directive written =>
          let options := OptionLine.read written
          cases hfirst : (respond site metadata options).text with
          | error fault =>
              -- The page would end here, without a text.
              rw [segments_of_error hfirst, hfirst] at h
              cases h
          | ok comment =>
              have hreply := hreplies hfirst
              have hmentions := mentions_congr hreply.view rest
              rw [segments_of_ok hfirst] at h ⊢
              rcases Outcome.map_eq_ok_iff.1 h with ⟨more, hmore, rfl⟩
              rcases ih hmore with ⟨htext, hadds⟩
              rw [hmentions, hreply.view.metadataKey] at hadds
              refine ⟨?_, ?_⟩
              · rw [htext, hreply.comment, hmentions]
                exact unlines_cons_last _ _ last
              · have hblocks := Mention.blocksOf_append [site.mention? tree options]
                  (site.mentions tree rest)
                exact hblocks ▸ hreply.adds.trans hadds

/-! ## What a comment is made of -/

theorem newline_not_mem_commentOf {mention : Option Mention}
    (h : ∀ m ∈ mention, '\n' ∉ m.file.toList) : '\n' ∉ Mention.commentOf mention := by
  cases mention with
  | none =>
      decide
  | some m =>
      have hdigits : '\n' ∉ Nat.toDigits 10 m.entities.length := fun hmem =>
        absurd (Nat.isDigit_of_mem_toDigits (by decide) (by decide) hmem) (by decide)
      have hopening : '\n' ∉ Mention.opening := by decide
      have hcount : '\n' ∉ Mention.beforeCount := by decide
      have hclosing : '\n' ∉ Mention.closing := by decide
      have hcomment : Mention.commentOf (some m) = Mention.comment m.file m.entities.length := rfl
      simp only [hcomment, Mention.comment, List.mem_append, not_or]
      exact ⟨hopening, h m rfl, hcount, hdigits, hclosing⟩

/-- The name of a file is made of characters of option lines. -/
theorem mem_of_mem_file {options : List OptionLine} {m : Mention} {c : Char}
    (h : site.mention? tree (OptionLine.read options) = some m) (hc : c ∈ m.file.toList) :
    ∃ o ∈ options, c ∈ o.asWritten := by
  have hfile := (of_mention?_eq_some h).1
  cases hget : (OptionLine.read options).get? "file" with
  | none =>
      simp [hfile, fileOf, hget] at hc
  | some file =>
      exact OptionLine.mem_of_mem_read hget (by simpa [hfile, fileOf, hget] using hc)

end Site

/-- Each option of a directive has its line. -/
theorem DirectiveText.exists_line_of_mem {d : DirectiveText} {o : OptionLine}
    (h : o ∈ d.options) : ∃ line ∈ d.body, OptionLine.ofLine? d.indent line = some o := by
  rcases List.mem_iff_get.1 h with ⟨n, rfl⟩
  have hn : n.1 < d.body.length := by simpa only [d.taken.length_eq] using n.2
  exact ⟨d.body.get ⟨n.1, hn⟩, List.get_mem _ _, d.taken.get hn n.2⟩

namespace MadeOf

variable {ls : List (List Char)} {passages : List Passage}

theorem mem_of_line {text : List Char} (h : MadeOf ls passages)
    (hline : .line text ∈ Segment.ofLines ls) : text ∈ ls := by
  rw [h.segments_eq] at hline
  rw [h.lines_eq]
  rcases List.mem_map.1 hline with ⟨passage, hpassage, hsame⟩
  cases passage with
  | line own =>
      cases hsame
      exact List.mem_flatMap.2 ⟨.line text, hpassage, List.mem_singleton_self text⟩
  | directive d =>
      cases hsame

theorem exists_line_of_option {options : List OptionLine} {o : OptionLine}
    (h : MadeOf ls passages) (hoptions : options ∈ Segment.directives (Segment.ofLines ls))
    (ho : o ∈ options) : ∃ line ∈ ls, ∀ c ∈ o.asWritten, c ∈ line := by
  rw [Segment.mem_directives, h.segments_eq] at hoptions
  rw [h.lines_eq]
  rcases List.mem_map.1 hoptions with ⟨passage, hpassage, hsame⟩
  cases passage with
  | line own =>
      cases hsame
  | directive d =>
      cases hsame
      -- The option is written out at the end of its line.
      rcases DirectiveText.exists_line_of_mem ho with ⟨line, hline, hoption⟩
      rcases OptionLine.eq_of_ofLine? hoption with ⟨margin, -, -, rfl, -, -⟩
      have hmem : d.indent ++ (margin ++ o.asWritten) ∈ d.lines := by
        simp [DirectiveText.lines, hline]
      refine ⟨_, List.mem_flatMap.2 ⟨.directive d, hpassage, hmem⟩, fun c hc => ?_⟩
      simp [hc]

end MadeOf

/-! ## Pages -/

namespace Site

variable {respond : Site → Metadata → Keyed String → PageRun} {tree : FileTree} {site : Site}
  {metadata : Metadata} {text : List Char} {markdown : String}

/-- The comments are made of characters of lines of the page. -/
theorem newline_not_mem_of_mem_mentions {page comment : List Char}
    (h : comment ∈ (site.mentions tree (Segment.ofPage page).1).map Mention.commentOf) :
    '\n' ∉ comment := by
  rcases exists_lines_eq page with ⟨before, last, hlines⟩
  rcases exists_madeOf before with ⟨passages, hpassages⟩
  rw [Segment.ofPage_of_lines hlines] at h
  rcases List.mem_map.1 h with ⟨mention, hmention, rfl⟩
  rcases List.mem_map.1 hmention with ⟨options, hoptions, rfl⟩
  refine newline_not_mem_commentOf fun m hm hnewline => ?_
  -- A line feed in the name of a file would stand in a line of the page too.
  rcases mem_of_mem_file hm hnewline with ⟨o, ho, hwritten⟩
  rcases hpassages.exists_line_of_option hoptions ho with ⟨line, hline, hmem⟩
  have hpage : line ∈ lines page := hlines ▸ List.mem_append_left [last] hline
  exact newline_not_mem_of_mem_lines hpage (hmem '\n' hwritten)

theorem lines_unlines_weave {page : List Char} {comments : List (List Char)}
    (h : ∀ comment ∈ comments, '\n' ∉ comment) :
    let parts := Segment.ofPage page
    lines (unlines (Segment.weave parts.1 comments ++ [parts.2])) =
      Segment.weave parts.1 comments ++ [parts.2] := by
  intro parts
  rcases exists_lines_eq page with ⟨before, last, hlines⟩
  rcases exists_madeOf before with ⟨passages, hpassages⟩
  have hparts : parts = (Segment.ofLines before, last) := Segment.ofPage_of_lines hlines
  refine lines_unlines (by simp) fun line hline => ?_
  -- Each line is a line of the page or one of the comments.
  rw [hparts] at hline
  rcases List.mem_append.1 hline with hweave | hlast
  · rcases Segment.mem_of_mem_weave hweave with hown | hcomment
    · have hpage : line ∈ lines page :=
        hlines ▸ List.mem_append_left [last] (hpassages.mem_of_line hown)
      exact newline_not_mem_of_mem_lines hpage
    · exact h line hcomment
  · have hpage : line ∈ lines page := hlines ▸ List.mem_append_right before hlast
    exact newline_not_mem_of_mem_lines hpage

/-- What replies make of a page. -/
theorem commented_of_replies (hreplies : RepliesWith tree respond)
    (h : (pageWith respond site metadata markdown).text = .ok text) :
    let mentions := site.mentions tree (Segment.ofPage markdown.toList).1
    Commented markdown.toList text (mentions.map Mention.commentOf) ∧
      metadata.Adds site.config.metadataKey (Mention.blocksOf mentions)
        (pageWith respond site metadata markdown).metadata := by
  intro mentions
  rcases segments_of_replies hreplies h with ⟨rfl, hadds⟩
  refine ⟨⟨?_, ?_⟩, hadds⟩
  · simp [mentions, Site.mentions]
  · exact lines_unlines_weave fun comment hcomment => newline_not_mem_of_mem_mentions hcomment

end Site

namespace Session

/-- What the directives of a page mention before anything is made of it. -/
def mentions (session : Session) (markdown : String) : List (Option Mention) :=
  session.site.mentions session.tree (Segment.ofPage markdown.toList).1

/-- What becomes of a directive, which depends on whether there are options yet. -/
def respond (session : Session) : Site → Metadata → Keyed String → Site.PageRun :=
  if session.isConfigured then
    fun site metadata options => site.answer session.tree metadata options
  else
    fun site metadata options => site.refuse session.tree metadata options

theorem repliesWith_respond (session : Session) :
    Site.RepliesWith session.tree session.respond := by
  unfold respond
  split
  · exact Site.repliesWith_answer session.tree
  · exact Site.repliesWith_refuse session.tree

theorem page_eq_pageWith (session : Session) (metadata : Metadata) (markdown : String) :
    session.page metadata markdown =
      Site.pageWith session.respond session.site metadata markdown := by
  unfold page respond
  split
  · rfl
  · rfl

variable {session : Session} {metadata : Metadata} {markdown : String} {text : List Char}

theorem commented_page (h : (session.page metadata markdown).text = .ok text) :
    Commented markdown.toList text ((session.mentions markdown).map Mention.commentOf) ∧
      metadata.Adds session.site.config.metadataKey (Mention.blocksOf (session.mentions markdown))
        (session.page metadata markdown).metadata := by
  rw [page_eq_pageWith] at h ⊢
  exact Site.commented_of_replies session.repliesWith_respond h

/-- A session that has just been given options. -/
def configuredWith (tree : FileTree) (options : Keyed Value) : Session :=
  (({ tree := tree } : Session).step (.configure options)).1

end Session
end ScriptDoc
