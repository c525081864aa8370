import ScriptDoc.Proofs.Page.Commented

/-!
# KeptLines — what stays of a page beside its directives

A directive takes the blank lines between its head and its options with it, and a head without a line
feed at the end of the page stays. Apart from that the lines of a page that are neither a head nor an
option line of a directive are those that stay.

- `Passage.standing`             : the lines that stand for themselves
- `Passage.others`, `otherLines` : the lines that are neither a head nor an option line
- `standing_eq_others_iff`       : they are the same where no directive takes blank lines with it
- `KeepsOthers`                  : a text with all other lines of its page, and no line more
- `Session.page_keepsOthers_iff` : when the text of a page is one
-/

namespace ScriptDoc

open Text

namespace Passage

def standing : Passage → List (List Char)
  | .line text => [text]
  | .directive _ => []

/-- The lines that are neither the head nor an option line of a directive. -/
def others : Passage → List (List Char)
  | .line text => [text]
  | .directive d => d.gap

end Passage

/-- The lines of a page that are neither a head nor an option line of a directive; `last` is what
follows the last line feed. -/
def otherLines (passages : List Passage) (last : List Char) : List (List Char) :=
  passages.flatMap Passage.others ++
    if OpenDirective.indentOf? last = none then [last] else []

/-! ## Passages -/

/-- Without comments only the lines that stand for themselves are left. -/
theorem weave_segment_nil (passages : List Passage) :
    Segment.weave (passages.map Passage.segment) [] = passages.flatMap Passage.standing := by
  induction passages with
  | nil =>
      rfl
  | cons passage passages ih =>
      cases passage with
      | line text =>
          exact congrArg (text :: ·) ih
      | directive d =>
          exact ih

theorem length_standing_le (passages : List Passage) :
    (passages.flatMap Passage.standing).length ≤ (passages.flatMap Passage.others).length := by
  induction passages with
  | nil =>
      exact le_rfl
  | cons passage passages ih =>
      cases passage with
      | line text =>
          simpa [Passage.standing, Passage.others] using ih
      | directive d =>
          simpa [Passage.standing, Passage.others] using Nat.le_add_left_of_le ih

theorem standing_eq_others_iff (passages : List Passage) :
    passages.flatMap Passage.standing = passages.flatMap Passage.others ↔
      ∀ d, .directive d ∈ passages → d.gap = [] := by
  induction passages with
  | nil =>
      simp
  | cons passage passages ih =>
      cases passage with
      | line text =>
          simpa [Passage.standing, Passage.others] using ih
      | directive d =>
          have hlength := length_standing_le passages
          constructor
          · intro h
            -- The lines after the directive cannot make up for a longer gap.
            have hgap : d.gap = [] := by
              have hsame := congrArg List.length h
              simp only [List.flatMap_cons, Passage.standing, Passage.others, List.nil_append,
                List.length_append] at hsame
              exact List.eq_nil_of_length_eq_zero (by omega)
            have hrest := ih.1 (by simpa [Passage.standing, Passage.others, hgap] using h)
            intro own hown
            rcases List.mem_cons.1 hown with hfirst | hlater
            · cases hfirst
              exact hgap
            · exact hrest own hlater
          · intro h
            have hgap : d.gap = [] := h d List.mem_cons_self
            have hrest := ih.2 fun own hown => h own (List.mem_cons_of_mem _ hown)
            simpa [Passage.standing, Passage.others, hgap] using hrest

/-- No head is among the other lines. -/
theorem MadeOf.indentOf?_of_mem_others {ls : List (List Char)} {passages : List Passage}
    (h : MadeOf ls passages) {line : List Char} (hline : line ∈ passages.flatMap Passage.others) :
    OpenDirective.indentOf? line = none := by
  induction h with
  | nil =>
      cases hline
  | @line text rest passages htext hrest ih =>
      rcases List.mem_append.1 hline with hfirst | hlater
      · exact List.mem_singleton.1 hfirst ▸ htext
      · exact ih hlater
  | @directive d rest passages hend hrest ih =>
      rcases List.mem_append.1 hline with hgap | hlater
      · refine Option.eq_none_iff_forall_ne_some.2 fun indent hhead => ?_
        have hblank := d.blank line hgap
        rw [OpenDirective.not_blank_of_indentOf? hhead] at hblank
        cases hblank
      · exact ih hlater

theorem MadeOf.standing_eq_otherLines_iff {ls : List (List Char)} {passages : List Passage}
    (h : MadeOf ls passages) (last : List Char) :
    passages.flatMap Passage.standing ++ [last] = otherLines passages last ↔
      (∀ d, .directive d ∈ passages → d.gap = []) ∧ OpenDirective.indentOf? last = none := by
  cases hlast : OpenDirective.indentOf? last with
  | none =>
      simp [otherLines, hlast, standing_eq_others_iff]
  | some indent =>
      -- A head at the very end stays, and it is none of the other lines.
      have hne : passages.flatMap Passage.standing ++ [last] ≠ otherLines passages last := by
        intro hsame
        have hmem : last ∈ passages.flatMap Passage.others := by
          have hstays : last ∈ passages.flatMap Passage.standing ++ [last] := by simp
          simpa [hsame, otherLines, hlast] using hstays
        cases (h.indentOf?_of_mem_others hmem).symm.trans hlast
      simp [hne]

/-! ## Pages -/

/-- Beside the comments the text has the other lines of the page, and nothing else. -/
def KeepsOthers (page text : List Char) (passages : List Passage) (last : List Char) : Prop :=
  ∃ comments, Commented page text comments ∧
    Segment.weave (Segment.ofPage page).1 [] ++ [last] = otherLines passages last

namespace Session

variable {session : Session} {metadata : Metadata} {markdown : String} {text last : List Char}
  {before : List (List Char)} {passages : List Passage}

/-- The other lines of a page stay, unless blank lines go with a directive or a head stands at the
very end. -/
theorem page_keepsOthers_iff (h : (session.page metadata markdown).text = .ok text)
    (hlines : lines markdown.toList = before ++ [last]) (hpassages : MadeOf before passages) :
    KeepsOthers markdown.toList text passages last ↔
      (∀ d, .directive d ∈ passages → d.gap = []) ∧ OpenDirective.indentOf? last = none := by
  have hstanding : Segment.weave (Segment.ofPage markdown.toList).1 [] =
      passages.flatMap Passage.standing := by
    simp only [Segment.ofPage_of_lines hlines, hpassages.segments_eq, weave_segment_nil]
  rw [← hpassages.standing_eq_otherLines_iff last, ← hstanding]
  constructor
  · rintro ⟨comments, -, hsame⟩
    exact hsame
  · intro hsame
    exact ⟨_, (commented_page h).1, hsame⟩

/-- A head and an option line right after it. -/
def headAndOption : DirectiveText where
  indent := [' ']
  head := " ::: js:autodoc".toList
  gap := []
  body := ["   :file: a.js".toList]
  options := [⟨"file".toList, " a.js".toList⟩]
  opens := by decide
  blank := by simp
  taken := .cons (by decide) .nil

/-- All blank lines of this page stay, for none of them follows a head. -/
theorem page_keepsOthers_iff_headAndOption :
    let session := configuredWith (FileTree.empty []) []
    let markdown := "A\n\n ::: js:autodoc\n   :file: a.js\n\nB"
    let text := "A\n\n<!-- dox: a.js (0 entities) -->\n\nB".toList
    let before := ['A'] :: [] :: (headAndOption.lines ++ [[]])
    let passages : List Passage := [.line ['A'], .line [], .directive headAndOption, .line []]
    (session.page [] markdown).text = .ok text ∧ lines markdown.toList = before ++ [['B']] ∧
      MadeOf before passages ∧
        (KeepsOthers markdown.toList text passages ['B'] ↔
          (∀ d, .directive d ∈ passages → d.gap = []) ∧
            OpenDirective.indentOf? ['B'] = none) := by
  intro session markdown text before passages
  have htext : (session.page [] markdown).text = .ok text := by
    decide +kernel
  have hlines : lines markdown.toList = before ++ [['B']] := by
    decide
  have hend : headAndOption.EndsBefore [[]] := by
    rintro line ⟨⟩
    exact ⟨by decide, by decide⟩
  have hmade : MadeOf before passages :=
    .line (by decide) (.line (by decide) (.directive hend (.line (by decide) .nil)))
  exact ⟨htext, hlines, hmade, page_keepsOthers_iff htext hlines hmade⟩

/-- A head and a blank line, and nothing that belongs to the directive. -/
def headAndBlank : DirectiveText where
  indent := []
  head := "::: js:autodoc".toList
  gap := [[]]
  body := []
  options := []
  opens := by decide
  blank := by decide
  taken := .nil

/-- The blank line between a head and the text after it is lost. -/
theorem not_keepsOthers_headAndBlank :
    let session := configuredWith (FileTree.empty []) []
    let markdown := "::: js:autodoc\n\nText\n"
    let text := "<!-- dox: missing :file: for js:autodoc -->\nText\n".toList
    let before := headAndBlank.lines ++ ["Text".toList]
    let passages : List Passage := [.directive headAndBlank, .line "Text".toList]
    (session.page [] markdown).text = .ok text ∧ lines markdown.toList = before ++ [[]] ∧
      MadeOf before passages ∧ ¬ KeepsOthers markdown.toList text passages [] := by
  intro session markdown text before passages
  have htext : (session.page [] markdown).text = .ok text := by
    decide +kernel
  have hlines : lines markdown.toList = before ++ [[]] := by
    decide
  have hend : headAndBlank.EndsBefore ["Text".toList] := by
    rintro line ⟨⟩
    exact ⟨by decide, by decide⟩
  have hmade : MadeOf before passages :=
    .directive hend (.line (by decide) .nil)
  refine ⟨htext, hlines, hmade, ?_⟩
  rintro ⟨comments, -, hsame⟩
  -- Two lines are left beside the comment, and three are neither a head nor an option line.
  exact absurd (congrArg List.length hsame) (by decide)

end Session
end ScriptDoc
