import ScriptDoc.Comment.Block
import ScriptDoc.Proofs.Outcome

/-!
# Escaping — raw and escaped descriptions

Whether descriptions are kept raw is a matter of the descriptions alone. An escaped one can be read
back, also where the raw one looks as if it were escaped already.

- `Body.unescapeMarkup`           : escaped characters read back, from left to right
- `Comment.describedBy`           : a comment with its description changed
- `Comment.ofSource_of_not_raw`   : the comments of a source, escaped, are the raw ones so changed
-/

namespace ScriptDoc

namespace Body

/-- The three references to characters that markup needs. -/
def unescapeMarkup : List Char → List Char
  | '&' :: 'a' :: 'm' :: 'p' :: ';' :: s => '&' :: unescapeMarkup s
  | '&' :: 'l' :: 't' :: ';' :: s => '<' :: unescapeMarkup s
  | '&' :: 'g' :: 't' :: ';' :: s => '>' :: unescapeMarkup s
  | c :: s => c :: unescapeMarkup s
  | [] => []

def escapeText (s : String) : String :=
  String.ofList (escapeMarkup s.toList)

def unescapeText (s : String) : String :=
  String.ofList (unescapeMarkup s.toList)

theorem unescapeMarkup_cons {c : Char} (h : c ≠ '&') (s : List Char) :
    unescapeMarkup (c :: s) = c :: unescapeMarkup s := by
  rw [unescapeMarkup]
  all_goals
    rintro rest rfl
    exact absurd rfl h

theorem unescapeMarkup_escapeMarkup (s : List Char) : unescapeMarkup (escapeMarkup s) = s := by
  unfold escapeMarkup
  induction s with
  | nil =>
      rfl
  | cons c s ih =>
      rw [List.flatMap_cons]
      by_cases hamp : c = '&'
      · simp [hamp, escapeMarkupChar, unescapeMarkup, ih]
      · by_cases hless : c = '<'
        · simp [hless, escapeMarkupChar, unescapeMarkup, ih]
        · by_cases hgreater : c = '>'
          · simp [hgreater, escapeMarkupChar, unescapeMarkup, ih]
          · -- Any other character stands for itself, and begins no reference.
            have hplain : escapeMarkupChar c = [c] := by
              simp [escapeMarkupChar, hamp, hless, hgreater]
            rw [hplain, List.singleton_append, unescapeMarkup_cons hamp, ih]

theorem unescapeText_escapeText (s : String) : unescapeText (escapeText s) = s := by
  simp [unescapeText, escapeText, unescapeMarkup_escapeMarkup]

theorem isEmpty_escapeText (s : String) : (escapeText s).isEmpty = s.isEmpty := by
  have hempty : escapeText s = "" ↔ s = "" := by
    constructor
    · intro h
      -- Nothing is read back from nothing.
      have hback := unescapeText_escapeText s
      rw [h] at hback
      exact hback.symm
    · rintro rfl
      rfl
  rw [Bool.eq_iff_iff]
  simpa using hempty

end Body

namespace Comment

def describedBy (change : String → String) (c : Comment) : Comment :=
  { c with description := change c.description }

theorem parse_of_not_raw (line : Int) (code body : List Char) :
    parse false line code body = (parse true line code body).map (describedBy Body.escapeText) := by
  simp only [parse]
  split
  · rfl
  · simp [Except.map, describedBy, Body.escapeText]

theorem ofBlock_of_not_raw (b : Block) :
    ofBlock false b = (ofBlock true b).map (describedBy Body.escapeText) := by
  have hparse := parse_of_not_raw b.line b.code b.body
  unfold ofBlock
  cases b.mark with
  | ignored =>
      -- There is no description to be escaped.
      rfl
  | plain =>
      exact hparse
  | doc =>
      exact hparse

theorem ofSource_of_not_raw (skipSingleStar : Bool) (source : String) :
    ofSource ⟨false, skipSingleStar⟩ source =
      (ofSource ⟨true, skipSingleStar⟩ source).map (List.map (describedBy Body.escapeText)) := by
  have hread : ofBlock false = fun b => (ofBlock true b).map (describedBy Body.escapeText) := by
    funext b
    exact ofBlock_of_not_raw b
  simp only [ofSource, hread]
  exact Outcome.mapM_map_result _ _ _

end Comment
end ScriptDoc
