import Mathlib.Data.List.Infix
import ScriptDoc.Text.Lines

/-!
# LineEnds — what folding the ends of lines does to a text

- `foldCrLf_append`    : a text is folded in two parts, unless a line end is cut in two
- `count_foldCrLf`     : there are as many lines after folding as before
- `infix_of_foldCrLf`  : a text without line ends in it occurs in folded text only where it did before
- `withLineEnds`       : a text written with one kind of line end
- `foldLineEnds_withLineEnds` : whichever kind that is, folding gives the text back
-/

namespace ScriptDoc
namespace Text

/-! ## Carriage returns before line feeds -/

theorem foldCrLf_cons {c : Char} {s : List Char} (h : c ≠ '\r' ∨ s.head? ≠ some '\n') :
    foldCrLf (c :: s) = c :: foldCrLf s := by
  rw [foldCrLf]
  rintro rest rfl rfl
  simp at h

theorem foldCrLf_append {a b : List Char} (h : a.getLast? ≠ some '\r' ∨ b.head? ≠ some '\n') :
    foldCrLf (a ++ b) = foldCrLf a ++ foldCrLf b := by
  fun_induction foldCrLf a with
  | case1 s ih =>
      have hrest : s.getLast? ≠ some '\r' ∨ b.head? ≠ some '\n' := by
        refine h.imp_left ?_
        intro hlast hs
        exact hlast (by simp [List.getLast?_cons, hs])
      simp only [List.cons_append, foldCrLf, ih hrest]
  | case2 c s hcut ih =>
      cases s with
      | nil =>
          -- All that was before the seam is one character, which it must not cut off.
          have hseam : c ≠ '\r' ∨ b.head? ≠ some '\n' := by simpa using h
          simpa [foldCrLf] using foldCrLf_cons hseam
      | cons d s =>
          have hseam : c ≠ '\r' ∨ (d :: s ++ b).head? ≠ some '\n' := by
            by_cases hc : c = '\r'
            · refine Or.inr ?_
              intro hd
              exact hcut s hc (by simpa using hd)
            · exact Or.inl hc
          have hrest := ih (by simpa [List.getLast?_cons] using h)
          rw [List.cons_append, foldCrLf_cons hseam, hrest, List.cons_append]
  | case3 =>
      rfl

/-- A character that is no part of a line end is a place where a text can be cut. -/
theorem foldCrLf_append_cons {c : Char} (hreturn : c ≠ '\r') (hfeed : c ≠ '\n') (a b : List Char) :
    foldCrLf (a ++ c :: b) = foldCrLf a ++ c :: foldCrLf b := by
  rw [foldCrLf_append (Or.inr (by simpa using hfeed)), foldCrLf_cons (Or.inl hreturn)]

theorem foldCrLf_ne_nil {s : List Char} (h : s ≠ []) : foldCrLf s ≠ [] := by
  fun_cases foldCrLf s with
  | case1 s =>
      exact List.cons_ne_nil _ _
  | case2 c s _ =>
      exact List.cons_ne_nil _ _
  | case3 =>
      exact h

theorem count_foldCrLf (s : List Char) : (foldCrLf s).count '\n' = s.count '\n' := by
  fun_induction foldCrLf s with
  | case1 s ih =>
      simp [ih]
  | case2 c s hcut ih =>
      simp [List.count_cons, ih]
  | case3 =>
      rfl

theorem mem_foldCrLf_iff {c : Char} (hreturn : c ≠ '\r') (s : List Char) :
    c ∈ foldCrLf s ↔ c ∈ s := by
  fun_induction foldCrLf s with
  | case1 s ih =>
      simp [ih, hreturn]
  | case2 d s hcut ih =>
      simp [ih]
  | case3 =>
      rfl

theorem getLast?_foldCrLf {s : List Char} (h : s.getLast? = some '\n') :
    (foldCrLf s).getLast? = some '\n' := by
  rcases List.getLast?_eq_some_iff.1 h with ⟨before, rfl⟩
  -- The line feed stays the last character, whether it takes a carriage return with it or not.
  rcases List.eq_nil_or_concat before with rfl | ⟨front, c, rfl⟩
  · rfl
  · rw [List.concat_eq_append]
    by_cases hc : c = '\r'
    · have hfold : foldCrLf (front ++ ['\r', '\n']) = foldCrLf front ++ ['\n'] :=
        foldCrLf_append (Or.inr (by simp))
      simp [hc, hfold]
    · have hlast : (front ++ [c]).getLast? ≠ some '\r' := by simpa using hc
      have hfold : foldCrLf (front ++ [c] ++ ['\n']) = foldCrLf (front ++ [c]) ++ ['\n'] :=
        foldCrLf_append (Or.inl hlast)
      rw [hfold]
      simp

theorem prefix_of_foldCrLf {p s : List Char} (hreturn : '\r' ∉ p) (hfeed : '\n' ∉ p)
    (h : p <+: foldCrLf s) : p <+: s := by
  fun_induction foldCrLf s generalizing p with
  | case1 s ih =>
      cases p with
      | nil =>
          exact List.nil_prefix
      | cons c p =>
          have hc : c = '\n' := (List.cons_prefix_cons.1 h).1
          exact absurd (hc ▸ List.mem_cons_self) hfeed
  | case2 d s hcut ih =>
      cases p with
      | nil =>
          exact List.nil_prefix
      | cons c p =>
          rcases List.cons_prefix_cons.1 h with ⟨rfl, hrest⟩
          have hreturn' : '\r' ∉ p := fun hmem => hreturn (List.mem_cons_of_mem _ hmem)
          have hfeed' : '\n' ∉ p := fun hmem => hfeed (List.mem_cons_of_mem _ hmem)
          exact List.cons_prefix_cons.2 ⟨rfl, ih hreturn' hfeed' hrest⟩
  | case3 =>
      exact h

theorem infix_of_foldCrLf {p s : List Char} (hreturn : '\r' ∉ p) (hfeed : '\n' ∉ p)
    (h : p <:+: foldCrLf s) : p <:+: s := by
  fun_induction foldCrLf s with
  | case1 s ih =>
      rcases List.infix_cons_iff.1 h with hstart | hlater
      · have hsame : '\n' :: foldCrLf s = foldCrLf ('\r' :: '\n' :: s) := rfl
        rw [hsame] at hstart
        exact (prefix_of_foldCrLf hreturn hfeed hstart).isInfix
      · exact List.infix_cons (List.infix_cons (ih hlater))
  | case2 c s hcut ih =>
      rcases List.infix_cons_iff.1 h with hstart | hlater
      · have hsame : c :: foldCrLf s = foldCrLf (c :: s) := by
          rw [foldCrLf]
          exact hcut
        rw [hsame] at hstart
        exact (prefix_of_foldCrLf hreturn hfeed hstart).isInfix
      · exact List.infix_cons (ih hlater)
  | case3 =>
      exact h

/-! ## Kinds of line ends -/

inductive LineEnd where
  | lf
  | crLf
  | cr
  deriving DecidableEq, Repr

def LineEnd.chars : LineEnd → List Char
  | .lf => ['\n']
  | .crLf => ['\r', '\n']
  | .cr => ['\r']

def withLineEnds (ending : LineEnd) (s : List Char) : List Char :=
  s.flatMap fun c => if c = '\n' then ending.chars else [c]

variable {ending : LineEnd}

/-- A lone carriage return is not completed by what is written after it. -/
theorem head?_withLineEnds (h : ending = .cr) (s : List Char) :
    (withLineEnds ending s).head? ≠ some '\n' := by
  cases s with
  | nil =>
      simp [withLineEnds]
  | cons c s =>
      by_cases hc : c = '\n'
      · simp [withLineEnds, hc, h, LineEnd.chars]
      · simp [withLineEnds, hc]

theorem foldLineEnds_chars_append {s : List Char} (h : ending = .cr → s.head? ≠ some '\n') :
    foldLineEnds (ending.chars ++ s) = '\n' :: foldLineEnds s := by
  cases ending with
  | lf =>
      rfl
  | crLf =>
      rfl
  | cr =>
      have hhead := h rfl
      cases s with
      | nil =>
          rfl
      | cons c s =>
          have hc : c ≠ '\n' := by simpa using hhead
          simp [LineEnd.chars, foldLineEnds, hc]

theorem foldLineEnds_cons {c : Char} (h : c ≠ '\r') (s : List Char) :
    foldLineEnds (c :: s) = c :: foldLineEnds s := by
  rw [foldLineEnds]
  · exact fun _ hc _ => h hc
  · exact h

theorem foldLineEnds_withLineEnds {s : List Char} (h : '\r' ∉ s) :
    foldLineEnds (withLineEnds ending s) = s := by
  induction s with
  | nil =>
      rfl
  | cons c s ih =>
      rw [List.mem_cons, not_or] at h
      have hrest := ih h.2
      -- A line end is folded back to a line feed, and nothing else is written as one.
      by_cases hc : c = '\n'
      · have hsplit : withLineEnds ending (c :: s) = ending.chars ++ withLineEnds ending s := by
          simp [withLineEnds, hc]
        have hnext : ending = .cr → (withLineEnds ending s).head? ≠ some '\n' := by
          intro hcr
          exact head?_withLineEnds hcr s
        rw [hsplit, foldLineEnds_chars_append hnext, hrest, hc]
      · have hsplit : withLineEnds ending (c :: s) = c :: withLineEnds ending s := by
          simp [withLineEnds, hc]
        rw [hsplit, foldLineEnds_cons (Ne.symm h.1), hrest]

end Text
end ScriptDoc
