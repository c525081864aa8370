import Mathlib.Data.List.Forall2
import ScriptDoc.Proofs.Page.OptionLines

/-!
# Passages — what the lines of a page belong to

A directive begins with its head. Blank lines may follow, and then come its option lines, as many as
there are. All other lines of a page stand for themselves.

- `DirectiveText`         : the lines of one directive, with what makes them so
- `Passage`               : a line that stands for itself, or a directive
- `MadeOf`                : the passages that lines are made of, one after the other
- `exists_madeOf`         : all lines are made of passages
- `MadeOf.segments_eq`    : they are the segments that a page is read as
- `MadeOf.ofLines_append` : lines that follow are read on from the last passage
-/

namespace ScriptDoc

open Text

/-! ## Directives -/

structure DirectiveText where
  indent : List Char
  head : List Char
  gap : List (List Char)
  body : List (List Char)
  options : List OptionLine
  opens : OpenDirective.indentOf? head = some indent
  blank : ∀ line ∈ gap, line.all isBlank = true
  taken : List.Forall₂ (fun line o => OptionLine.ofLine? indent line = some o) body options

namespace DirectiveText

def lines (d : DirectiveText) : List (List Char) :=
  d.head :: (d.gap ++ d.body)

/-- The line is none of the directive's: no option line of it, and no blank line before the first
one. -/
def IsOver (d : DirectiveText) (line : List Char) : Prop :=
  OptionLine.ofLine? d.indent line = none ∧ (d.options = [] → line.all isBlank = false)

/-- Nothing follows the directive, or a line that is none of its own. -/
def EndsBefore (d : DirectiveText) (rest : List (List Char)) : Prop :=
  ∀ line ∈ rest.head?, d.IsOver line

/-- The directive as far as it has been read at its last line. -/
def toOpen (d : DirectiveText) : OpenDirective :=
  ⟨d.indent, d.options⟩

end DirectiveText

/-! ## Passages -/

inductive Passage where
  | line (text : List Char)
  | directive (d : DirectiveText)

namespace Passage

def lines : Passage → List (List Char)
  | .line text => [text]
  | .directive d => d.lines

def segment : Passage → Segment
  | .line text => .line text
  | .directive d => .directive d.options

end Passage

inductive MadeOf : List (List Char) → List Passage → Prop where
  | nil : MadeOf [] []
  | line {text : List Char} {rest : List (List Char)} {passages : List Passage} :
      OpenDirective.indentOf? text = none → MadeOf rest passages →
        MadeOf (text :: rest) (.line text :: passages)
  | directive {d : DirectiveText} {rest : List (List Char)} {passages : List Passage} :
      d.EndsBefore rest → MadeOf rest passages →
        MadeOf (d.lines ++ rest) (.directive d :: passages)

theorem MadeOf.single (d : DirectiveText) : MadeOf d.lines [.directive d] := by
  have hend : d.EndsBefore [] := by
    rintro line ⟨⟩
  simpa using MadeOf.directive hend .nil

/-! ## Every page is made of passages -/

/-- All that comes first and is alike, and the rest. -/
theorem exists_span {α : Type} (p : α → Bool) (all : List α) :
    ∃ taken rest, all = taken ++ rest ∧ (∀ x ∈ taken, p x = true) ∧
      ∀ x ∈ rest.head?, p x = false := by
  refine ⟨all.takeWhile p, all.dropWhile p, List.takeWhile_append_dropWhile.symm,
    fun x hx => List.mem_takeWhile_imp hx, ?_⟩
  intro x hx
  have hstop := List.head?_dropWhile_not p all
  rw [Option.mem_def.1 hx] at hstop
  exact hstop

theorem forall₂_filterMap_of_isSome {indent : List Char} {body : List (List Char)}
    (h : ∀ line ∈ body, (OptionLine.ofLine? indent line).isSome = true) :
    List.Forall₂ (fun line o => OptionLine.ofLine? indent line = some o) body
      (body.filterMap (OptionLine.ofLine? indent)) := by
  induction body with
  | nil =>
      exact .nil
  | cons line body ih =>
      rcases List.forall_mem_cons.1 h with ⟨hfirst, hothers⟩
      rcases Option.isSome_iff_exists.1 hfirst with ⟨o, ho⟩
      rw [List.filterMap_cons_some ho]
      exact .cons ho (ih hothers)

/-- A head takes the blank lines after it, and the option lines after these. -/
theorem exists_directiveText {head indent : List Char}
    (h : OpenDirective.indentOf? head = some indent) (after : List (List Char)) :
    ∃ (d : DirectiveText) (rest : List (List Char)),
      head :: after = d.lines ++ rest ∧ d.EndsBefore rest := by
  rcases exists_span (·.all isBlank) after with ⟨gap, more, rfl, hgap, hmore⟩
  rcases exists_span (fun line => (OptionLine.ofLine? indent line).isSome) more with
    ⟨body, rest, rfl, hbody, hrest⟩
  let d : DirectiveText :=
    { indent := indent
      head := head
      gap := gap
      body := body
      options := body.filterMap (OptionLine.ofLine? indent)
      opens := h
      blank := hgap
      taken := forall₂_filterMap_of_isSome hbody }
  refine ⟨d, rest, by simp [d, DirectiveText.lines], ?_⟩
  intro line hline
  refine ⟨Option.not_isSome_iff_eq_none.1 (by simpa using hrest line hline), ?_⟩
  intro hnone
  -- Without option lines the rest begins where the blank lines have ended.
  have hbody : body = [] := by
    have hlength : body.length = d.options.length := d.taken.length_eq
    simpa [hnone] using hlength
  exact hmore line (by simpa [hbody] using hline)

/-- Each passage takes a line at least, so the rest is shorter. -/
theorem exists_madeOf (ls : List (List Char)) : ∃ passages, MadeOf ls passages := by
  match ls with
  | [] =>
      exact ⟨[], .nil⟩
  | text :: more =>
      cases hhead : OpenDirective.indentOf? text with
      | none =>
          rcases exists_madeOf more with ⟨passages, hpassages⟩
          exact ⟨.line text :: passages, .line hhead hpassages⟩
      | some indent =>
          rcases exists_directiveText hhead more with ⟨d, rest, hlines, hend⟩
          have hshorter : rest.length ≤ more.length := by
            have hlength := congrArg List.length hlines
            simp only [DirectiveText.lines, List.length_cons, List.length_append] at hlength
            omega
          rcases exists_madeOf rest with ⟨passages, hpassages⟩
          exact ⟨.directive d :: passages, hlines ▸ .directive hend hpassages⟩
termination_by ls.length

/-! ## Reading passages -/

namespace DirectiveText

variable {d : DirectiveText} {rest : List (List Char)} {line : List Char}

theorem goOn?_eq_none (h : d.IsOver line) : OpenDirective.goOn? line d.toOpen = none := by
  rcases h with ⟨hoption, hblank⟩
  cases hnone : d.options with
  | nil =>
      simp [OpenDirective.goOn?, toOpen, hnone, hoption, hblank hnone]
  | cons o options =>
      simp [OpenDirective.goOn?, toOpen, hnone, hoption]

end DirectiveText

namespace Segment

variable {indent : List Char} {rest : List (List Char)}

theorem ofLinesFrom_gap {gap : List (List Char)} (h : ∀ line ∈ gap, line.all isBlank = true) :
    ofLinesFrom (some ⟨indent, []⟩) (gap ++ rest) = ofLinesFrom (some ⟨indent, []⟩) rest := by
  induction gap with
  | nil =>
      rfl
  | cons line gap ih =>
      rcases List.forall_mem_cons.1 h with ⟨hfirst, hothers⟩
      have hgoOn : OpenDirective.goOn? line ⟨indent, []⟩ = some ⟨indent, []⟩ := by
        simp [OpenDirective.goOn?, hfirst]
      simp only [List.cons_append, ofLinesFrom, Option.bind_some, hgoOn, ih hothers]

theorem goOn?_option {line : List Char} {o : OptionLine} (options : List OptionLine)
    (h : OptionLine.ofLine? indent line = some o) :
    OpenDirective.goOn? line ⟨indent, options⟩ = some ⟨indent, options ++ [o]⟩ := by
  simp [OpenDirective.goOn?, OptionLine.not_blank_of_ofLine? h, h]

theorem ofLinesFrom_body {body : List (List Char)} {options : List OptionLine}
    (h : List.Forall₂ (fun line o => OptionLine.ofLine? indent line = some o) body options)
    (before : List OptionLine) :
    ofLinesFrom (some ⟨indent, before⟩) (body ++ rest) =
      ofLinesFrom (some ⟨indent, before ++ options⟩) rest := by
  induction h generalizing before with
  | nil =>
      simp
  | @cons line o body options hline hothers ih =>
      have hgoOn := goOn?_option before hline
      simp [ofLinesFrom, hgoOn, ih]

/-- All lines of a directive are read before the first line after it. -/
theorem ofLines_directive (d : DirectiveText) (rest : List (List Char)) :
    ofLines (d.lines ++ rest) = ofLinesFrom (some d.toOpen) rest := by
  have hhead : OpenDirective.ofLine? d.head = some ⟨d.indent, []⟩ := by
    simp [OpenDirective.ofLine?, d.opens]
  calc
    ofLines (d.lines ++ rest)
        = ofLinesFrom (some ⟨d.indent, []⟩) (d.gap ++ (d.body ++ rest)) := by
          simp [ofLines, DirectiveText.lines, ofLinesFrom, close, hhead]
    _ = ofLinesFrom (some ⟨d.indent, []⟩) (d.body ++ rest) := ofLinesFrom_gap d.blank
    _ = ofLinesFrom (some d.toOpen) rest := ofLinesFrom_body d.taken []

theorem ofLinesFrom_end {d : DirectiveText} (h : d.EndsBefore rest) :
    ofLinesFrom (some d.toOpen) rest = .directive d.options :: ofLines rest := by
  cases rest with
  | nil =>
      rfl
  | cons line rest =>
      have hover : OpenDirective.goOn? line ⟨d.indent, d.options⟩ = none :=
        DirectiveText.goOn?_eq_none (h line rfl)
      simp [ofLines, ofLinesFrom, hover, close, DirectiveText.toOpen]

theorem ofLines_line {text : List Char} (h : OpenDirective.indentOf? text = none) :
    ofLines (text :: rest) = .line text :: ofLines rest := by
  have hhead : OpenDirective.ofLine? text = none := by
    simp [OpenDirective.ofLine?, h]
  simp [ofLines, ofLinesFrom, close, hhead]

end Segment

namespace MadeOf

variable {ls : List (List Char)} {passages : List Passage}

theorem lines_eq (h : MadeOf ls passages) : ls = passages.flatMap Passage.lines := by
  induction h with
  | nil =>
      rfl
  | line htext hrest ih =>
      simp [Passage.lines, ih]
  | directive hend hrest ih =>
      simp [Passage.lines, ih]

theorem segments_eq (h : MadeOf ls passages) :
    Segment.ofLines ls = passages.map Passage.segment := by
  induction h with
  | nil =>
      rfl
  | line htext hrest ih =>
      simp only [Segment.ofLines_line htext, ih, List.map_cons, Passage.segment]
  | directive hend hrest ih =>
      simp only [Segment.ofLines_directive, Segment.ofLinesFrom_end hend, ih, List.map_cons,
        Passage.segment]

theorem eq_nil (h : MadeOf [] passages) : passages = [] := by
  cases passages with
  | nil =>
      rfl
  | cons passage passages =>
      have hlines := h.lines_eq
      cases passage with
      | line text =>
          simp [Passage.lines] at hlines
      | directive d =>
          simp [Passage.lines, DirectiveText.lines] at hlines

/-- A directive at the end goes on with the lines that follow, and any other last line does not. -/
theorem ofLines_append (h : MadeOf ls passages) (more : List (List Char)) :
    (∃ before d, passages = before ++ [.directive d] ∧
        Segment.ofLines (ls ++ more) =
          before.map Passage.segment ++ Segment.ofLinesFrom (some d.toOpen) more) ∨
      ((∀ d, passages.getLast? ≠ some (.directive d)) ∧
        Segment.ofLines (ls ++ more) =
          passages.map Passage.segment ++ Segment.ofLines more) := by
  induction h with
  | nil =>
      exact Or.inr ⟨by simp, rfl⟩
  | @line text rest passages htext hrest ih =>
      have hfirst : Segment.ofLines (text :: (rest ++ more)) =
          .line text :: Segment.ofLines (rest ++ more) :=
        Segment.ofLines_line htext
      rcases ih with ⟨before, d, rfl, hmore⟩ | ⟨hlast, hmore⟩
      · exact Or.inl ⟨.line text :: before, d, rfl, by simp [hfirst, hmore, Passage.segment]⟩
      · refine Or.inr ⟨?_, by simp [hfirst, hmore, Passage.segment]⟩
        intro d hd
        cases passages with
        | nil =>
            simp at hd
        | cons passage passages =>
            exact hlast d (by simpa using hd)
  | @directive d rest passages hend hrest ih =>
      cases rest with
      | nil =>
          have hnone := hrest.eq_nil
          refine Or.inl ⟨[], d, by simp [hnone], ?_⟩
          simpa using Segment.ofLines_directive d more
      | cons line rest =>
          -- The directive has ended with the next line, whatever follows.
          have hfirst : Segment.ofLines (d.lines ++ (line :: rest ++ more)) =
              .directive d.options :: Segment.ofLines (line :: rest ++ more) := by
            rw [Segment.ofLines_directive]
            exact Segment.ofLinesFrom_end hend
          rcases ih with ⟨before, last, rfl, hmore⟩ | ⟨hlast, hmore⟩
          · refine Or.inl ⟨.directive d :: before, last, rfl, ?_⟩
            rw [List.append_assoc, hfirst, hmore]
            rfl
          · refine Or.inr ⟨?_, ?_⟩
            · intro last hd
              cases passages with
              | nil =>
                  have hlines := hrest.lines_eq
                  simp at hlines
              | cons passage passages =>
                  exact hlast last (by simpa using hd)
            · rw [List.append_assoc, hfirst, hmore]
              rfl

end MadeOf

/-! ## Pages -/

theorem Segment.ofPage_of_lines {page last : List Char} {before : List (List Char)}
    (h : lines page = before ++ [last]) : ofPage page = (ofLines before, last) := by
  simp [ofPage, h]

/-- The last line of a page is there even if nothing stands in it. -/
theorem exists_lines_eq (page : List Char) :
    ∃ before last, lines page = before ++ [last] :=
  ⟨_, _, (List.dropLast_append_getLast (lines_ne_nil page)).symm⟩

end ScriptDoc
