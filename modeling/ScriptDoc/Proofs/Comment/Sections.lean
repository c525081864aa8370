import Mathlib.Data.List.Forall2
import Mathlib.Data.List.TakeWhile
import ScriptDoc.Comment.Body
import ScriptDoc.Proofs.Text.Trim

/-!
# Sections — the lines of a comment, told apart

- `Body.OpensTag`             : a line that opens a tag
- `Body.tagLine?_eq_some_iff` : what is read off such a line
- `Body.ofLines`              : the description and the tags that lines hold
- `Body.ofLines_lines_trim`   : blanks around a text do not change them
-/

namespace ScriptDoc
namespace Body

open Text

/-! ## Lines that open a tag -/

/-- White space, `@` and a word character. -/
def OpensTag (line : List Char) : Prop :=
  ∃ blanks c rest, (∀ b ∈ blanks, isBlank b = true) ∧ isWord c = true ∧
    line = blanks ++ '@' :: c :: rest

/-- What follows the word of a tag, less one blank. -/
def afterWord : List Char → List Char
  | [] => []
  | c :: rest => if isBlank c then rest else c :: rest

theorem tagLine?_of_trimStart {line s : List Char} (h : trimStart line = '@' :: s) :
    tagLine? line =
      if s.takeWhile isWord = [] then none
      else some (s.takeWhile isWord, afterWord (s.dropWhile isWord)) := by
  simp only [tagLine?, h]
  cases hword : s.takeWhile isWord with
  | nil =>
      rfl
  | cons d word =>
      cases hrest : s.dropWhile isWord with
      | nil =>
          simp [afterWord]
      | cons c rest =>
          simp [afterWord]

theorem tagLine?_eq_some_iff {line word first : List Char} :
    tagLine? line = some (word, first) ↔
      ∃ blanks rest, line = blanks ++ '@' :: (word ++ rest) ∧ (∀ b ∈ blanks, isBlank b = true) ∧
        word ≠ [] ∧ (∀ c ∈ word, isWord c = true) ∧ rest.head?.any isWord = false ∧
          first = afterWord rest := by
  constructor
  · intro h
    have hat : ∃ s, trimStart line = '@' :: s := by
      unfold tagLine? at h
      split at h
      · next s hstart =>
        exact ⟨s, hstart⟩
      · cases h
    rcases hat with ⟨s, hstart⟩
    rw [tagLine?_of_trimStart hstart] at h
    split at h
    · cases h
    · next hword =>
      cases h
      have hline : line.takeWhile isBlank ++ trimStart line = line :=
        List.takeWhile_append_dropWhile
      have hs : s.takeWhile isWord ++ s.dropWhile isWord = s := List.takeWhile_append_dropWhile
      have hstop : (s.dropWhile isWord).head?.any isWord = false := by
        have hhead := List.head?_dropWhile_not isWord s
        cases hrest : (s.dropWhile isWord).head? with
        | none =>
            rfl
        | some c =>
            rw [hrest] at hhead
            exact hhead
      refine ⟨line.takeWhile isBlank, s.dropWhile isWord, ?_, fun _ => List.mem_takeWhile_imp, hword,
        fun _ => List.mem_takeWhile_imp, hstop, rfl⟩
      rw [hs, ← hstart, hline]
  · rintro ⟨blanks, rest, rfl, hblanks, hword, hwords, hstop, rfl⟩
    have hstart : trimStart (blanks ++ '@' :: (word ++ rest)) = '@' :: (word ++ rest) :=
      trimStart_blanks_append hblanks (by decide) _
    -- The word ends where the word characters do.
    have hend : rest.takeWhile isWord = [] ∧ rest.dropWhile isWord = rest := by
      cases rest with
      | nil =>
          exact ⟨rfl, rfl⟩
      | cons c rest =>
          have hc : isWord c = false := hstop
          simp [hc]
    rw [tagLine?_of_trimStart hstart, List.takeWhile_append_of_pos hwords,
      List.dropWhile_append_of_pos hwords, hend.1, hend.2, List.append_nil, if_neg hword]

theorem mem_of_mem_first {line word first : List Char} {c : Char}
    (h : tagLine? line = some (word, first)) (hc : c ∈ first) : c ∈ line := by
  rcases tagLine?_eq_some_iff.1 h with ⟨blanks, rest, rfl, -, -, -, -, rfl⟩
  have hrest : c ∈ rest := by
    cases rest with
    | nil =>
        exact hc
    | cons d rest =>
        rw [afterWord] at hc
        split at hc
        · exact List.mem_cons_of_mem _ hc
        · exact hc
  simp [hrest]

theorem isSome_tagLine?_iff {line : List Char} : (tagLine? line).isSome = true ↔ OpensTag line := by
  rw [Option.isSome_iff_exists]
  constructor
  · rintro ⟨⟨word, first⟩, h⟩
    rcases tagLine?_eq_some_iff.1 h with ⟨blanks, rest, hline, hblanks, hword, hwords, -, -⟩
    rcases List.exists_cons_of_ne_nil hword with ⟨c, others, rfl⟩
    exact ⟨blanks, c, others ++ rest, hblanks, hwords c List.mem_cons_self, hline⟩
  · rintro ⟨blanks, c, rest, hblanks, hc, rfl⟩
    have hstart : trimStart (blanks ++ '@' :: c :: rest) = '@' :: c :: rest :=
      trimStart_blanks_append hblanks (by decide) _
    refine ⟨((c :: rest).takeWhile isWord, afterWord ((c :: rest).dropWhile isWord)), ?_⟩
    rw [tagLine?_of_trimStart hstart, if_neg (by simp [hc])]

theorem tagLine?_eq_none_iff {line : List Char} : tagLine? line = none ↔ ¬ OpensTag line := by
  rw [← isSome_tagLine?_iff, Option.not_isSome_iff_eq_none]

instance (line : List Char) : Decidable (OpensTag line) :=
  decidable_of_iff _ isSome_tagLine?_iff

theorem not_opensTag_nil : ¬ OpensTag [] := by
  decide

theorem tagLine?_cons_blank {c : Char} (h : isBlank c = true) (line : List Char) :
    tagLine? (c :: line) = tagLine? line := by
  have hstart : trimStart (c :: line) = trimStart line := List.dropWhile_cons_of_pos h
  unfold tagLine?
  rw [hstart]

theorem opensTag_cons_blank {c : Char} (h : isBlank c = true) {line : List Char} :
    OpensTag (c :: line) ↔ OpensTag line := by
  rw [← isSome_tagLine?_iff, ← isSome_tagLine?_iff, tagLine?_cons_blank h]

theorem OpensTag.append {line : List Char} (h : OpensTag line) (more : List Char) :
    OpensTag (line ++ more) := by
  rcases h with ⟨blanks, c, rest, hblanks, hc, rfl⟩
  exact ⟨blanks, c, rest ++ more, hblanks, hc, by simp⟩

theorem OpensTag.of_append_blank {line : List Char} {c : Char} (hc : isBlank c = true)
    (h : OpensTag (line ++ [c])) : OpensTag line := by
  rcases h with ⟨blanks, d, rest, hblanks, hd, hsame⟩
  rcases List.eq_nil_or_concat rest with rfl | ⟨before, last, rfl⟩
  · -- The blank at the end is not the word character.
    have hlast := (List.append_inj' (hsame.trans (List.append_cons blanks '@' [d])) rfl).2
    cases hlast
    rw [isWord_eq_false_of_isBlank hc] at hd
    cases hd
  · rw [List.concat_eq_append] at hsame
    have hsame' : line ++ [c] = (blanks ++ '@' :: d :: before) ++ [last] := by
      rw [hsame]
      simp
    exact ⟨blanks, d, before, hblanks, hd, (List.append_inj' hsame' rfl).1⟩

theorem tagLine?_append_blank {line word first : List Char} {c : Char} (hc : isBlank c = true)
    (h : tagLine? line = some (word, first)) :
    tagLine? (line ++ [c]) = some (word, first) ∨
      tagLine? (line ++ [c]) = some (word, first ++ [c]) := by
  rcases tagLine?_eq_some_iff.1 h with ⟨blanks, rest, rfl, hblanks, hword, hwords, hstop, rfl⟩
  cases rest with
  | nil =>
      -- This blank is the one that ends the word.
      refine Or.inl (tagLine?_eq_some_iff.2 ⟨blanks, [c], by simp, hblanks, hword, hwords, ?_, ?_⟩)
      · exact isWord_eq_false_of_isBlank hc
      · simp [afterWord, hc]
  | cons d rest =>
      refine Or.inr (tagLine?_eq_some_iff.2
        ⟨blanks, d :: rest ++ [c], by simp, hblanks, hword, hwords, hstop, ?_⟩)
      by_cases hd : isBlank d = true
      · simp [afterWord, hd]
      · simp [afterWord, hd]

/-! ## Sections of lines -/

theorem sections_cons_of_tag {line word first : List Char}
    (h : tagLine? line = some (word, first)) (more : List (List Char)) :
    sections (line :: more) =
      ([], (word, first :: (sections more).1) :: (sections more).2) := by
  simp [sections, h]

theorem sections_cons_of_plain {line : List Char} (h : ¬ OpensTag line)
    (more : List (List Char)) :
    sections (line :: more) = (line :: (sections more).1, (sections more).2) := by
  simp [sections, tagLine?_eq_none_iff.2 h]

/-- The description and the tags that lines hold, as trimmed texts. -/
def ofLines (ls : List (List Char)) : List Char × List (List Char × List Char) :=
  (trim (unlines (sections ls).1),
    (sections ls).2.map fun (word, own) => (word, trim (unlines own)))

theorem split_eq (body : List Char) : split body = ofLines (lines (undecorate body)) :=
  rfl

/-! ## Blanks at the end -/

/-- Lines that are equal but for blanks after the last one. -/
def EndsAlike (own own' : List (List Char)) : Prop :=
  (own = [] ↔ own' = []) ∧
    ∃ blanks, (∀ b ∈ blanks, isBlank b = true) ∧ unlines own' = unlines own ++ blanks

namespace EndsAlike

theorem refl (own : List (List Char)) : EndsAlike own own :=
  ⟨Iff.rfl, [], by simp, by simp⟩

theorem cons {own own' : List (List Char)} (h : EndsAlike own own') (line : List Char) :
    EndsAlike (line :: own) (line :: own') := by
  rcases h with ⟨hempty, blanks, hblanks, hsame⟩
  refine ⟨by simp, ?_⟩
  by_cases hnil : own = []
  · rw [hnil, hempty.1 hnil]
    exact ⟨[], by simp, by simp⟩
  · have hnil' : own' ≠ [] := fun h => hnil (hempty.2 h)
    refine ⟨blanks, hblanks, ?_⟩
    rw [unlines_cons hnil, unlines_cons hnil', hsame, List.append_assoc, List.cons_append]

theorem trim_eq {own own' : List (List Char)} (h : EndsAlike own own') :
    trim (unlines own') = trim (unlines own) := by
  rcases h with ⟨-, blanks, hblanks, hsame⟩
  rw [hsame, trim_append_blanks hblanks]

theorem blankLine (line : List Char) : EndsAlike [line] [line, []] :=
  ⟨by simp, ['\n'], by simp [isBlank], unlines_cons (by simp)⟩

theorem blank {c : Char} (h : isBlank c = true) (line : List Char) :
    EndsAlike [line] [line ++ [c]] :=
  ⟨by simp, [c], by simpa using h, rfl⟩

end EndsAlike

/-- Sections that are equal but for blanks at the end of the last one. -/
def Alike (a b : List (List Char) × List (List Char × List (List Char))) : Prop :=
  EndsAlike a.1 b.1 ∧ List.Forall₂ (fun t u => t.1 = u.1 ∧ EndsAlike t.2 u.2) a.2 b.2

theorem alike_append {last last' : List (List Char)} (h : Alike (sections last) (sections last'))
    (before : List (List Char)) :
    Alike (sections (before ++ last)) (sections (before ++ last')) := by
  induction before with
  | nil =>
      exact h
  | cons line before ih =>
      rw [List.cons_append, List.cons_append]
      cases htag : tagLine? line with
      | some tag =>
          rw [sections_cons_of_tag htag, sections_cons_of_tag htag]
          exact ⟨EndsAlike.refl [], .cons ⟨rfl, ih.1.cons tag.2⟩ ih.2⟩
      | none =>
          have hplain := tagLine?_eq_none_iff.1 htag
          rw [sections_cons_of_plain hplain, sections_cons_of_plain hplain]
          exact ⟨ih.1.cons line, ih.2⟩

theorem ofLines_eq_of_alike {ls ls' : List (List Char)} (h : Alike (sections ls) (sections ls')) :
    ofLines ls' = ofLines ls := by
  have htags : (sections ls').2.map (fun (word, own) => (word, trim (unlines own))) =
      (sections ls).2.map (fun (word, own) => (word, trim (unlines own))) := by
    rw [← List.forall₂_eq_eq_eq, List.forall₂_map_left_iff, List.forall₂_map_right_iff]
    refine List.Forall₂.flip (h.2.imp ?_)
    rintro ⟨word, own⟩ ⟨word', own'⟩ ⟨hword, hown⟩
    exact Prod.ext hword.symm hown.trim_eq
  unfold ofLines
  rw [h.1.trim_eq, htags]

theorem alike_blankLine (line : List Char) : Alike (sections [line]) (sections [line, []]) := by
  cases htag : tagLine? line with
  | some tag =>
      rw [sections_cons_of_tag htag, sections_cons_of_tag htag,
        sections_cons_of_plain not_opensTag_nil]
      exact ⟨EndsAlike.refl [], .cons ⟨rfl, .blankLine tag.2⟩ .nil⟩
  | none =>
      have hplain := tagLine?_eq_none_iff.1 htag
      rw [sections_cons_of_plain hplain, sections_cons_of_plain hplain,
        sections_cons_of_plain not_opensTag_nil]
      exact ⟨.blankLine line, .nil⟩

theorem alike_blank {c : Char} (hc : isBlank c = true) (line : List Char) :
    Alike (sections [line]) (sections [line ++ [c]]) := by
  cases htag : tagLine? line with
  | some tag =>
      rw [sections_cons_of_tag htag]
      rcases tagLine?_append_blank hc htag with hsame | hlonger
      · rw [sections_cons_of_tag hsame]
        exact ⟨EndsAlike.refl [], .cons ⟨rfl, EndsAlike.refl _⟩ .nil⟩
      · rw [sections_cons_of_tag hlonger]
        exact ⟨EndsAlike.refl [], .cons ⟨rfl, .blank hc tag.2⟩ .nil⟩
  | none =>
      have hplain := tagLine?_eq_none_iff.1 htag
      have hplain' : ¬ OpensTag (line ++ [c]) := fun h => hplain (h.of_append_blank hc)
      rw [sections_cons_of_plain hplain, sections_cons_of_plain hplain']
      exact ⟨.blank hc line, .nil⟩

theorem ofLines_append_blank {c : Char} (hc : isBlank c = true) (s : List Char) :
    ofLines (lines (s ++ [c])) = ofLines (lines s) := by
  rcases exists_lines_append s c with ⟨before, last, hlines, hlonger⟩
  rw [hlonger, hlines]
  apply ofLines_eq_of_alike
  apply alike_append
  split
  · exact alike_blankLine last
  · exact alike_blank hc last

/-! ## Blanks at the start -/

theorem ofLines_cons_blank {c : Char} (hc : isBlank c = true) (s : List Char) :
    ofLines (lines (c :: s)) = ofLines (lines s) := by
  by_cases hnewline : c = '\n'
  · rw [hnewline, lines_cons_newline]
    unfold ofLines
    rw [sections_cons_of_plain not_opensTag_nil]
    have hlead : trim (unlines ([] :: (sections (lines s)).1)) =
        trim (unlines (sections (lines s)).1) := by
      by_cases hnil : (sections (lines s)).1 = []
      · rw [hnil]
        rfl
      · rw [unlines_cons hnil]
        exact trim_cons_blank (by decide) _
    rw [hlead]
  · rw [lines_cons_of_ne hnewline]
    cases hlines : lines s with
    | nil =>
        exact absurd hlines (lines_ne_nil s)
    | cons line more =>
        rw [consFirst]
        unfold ofLines
        cases htag : tagLine? line with
        | some tag =>
            have htag' : tagLine? (c :: line) = some tag := (tagLine?_cons_blank hc line).trans htag
            rw [sections_cons_of_tag htag, sections_cons_of_tag htag']
        | none =>
            have hplain := tagLine?_eq_none_iff.1 htag
            have hplain' : ¬ OpensTag (c :: line) := fun h => hplain ((opensTag_cons_blank hc).1 h)
            have hlead : unlines ((c :: line) :: (sections more).1) =
                c :: unlines (line :: (sections more).1) :=
              join_consFirst ['\n'] c (line :: (sections more).1) (List.cons_ne_nil _ _)
            rw [sections_cons_of_plain hplain, sections_cons_of_plain hplain', hlead,
              trim_cons_blank hc]

/-- Blanks around a text do not change what its lines hold. -/
theorem ofLines_lines_trim (s : List Char) : ofLines (lines (trim s)) = ofLines (lines s) := by
  apply trim_induction (motive := fun t => ofLines (lines t) = ofLines (lines s))
  · intro c t hc h
    exact (ofLines_cons_blank hc t).symm.trans h
  · intro t c hc h
    exact (ofLines_append_blank hc t).symm.trans h
  · rfl

end Body
end ScriptDoc
