import ScriptDoc.Text.Lines
import ScriptDoc.Text.Replace

/-!
# Replace — what a replacement passes over

- `replaceAll_append_of_notMem` : a text that no occurrence begins in stays as it is
- `replaceAll_join`             : a text put together with what is replaced
- `replaceFirst_append_of_notMem` : a text before the first occurrence stays as it is
- `join_append`, `join_map_enclosed` : texts put together in two parts, or each with its brackets
-/

namespace ScriptDoc
namespace Text

variable {c : Char} {old new s t : List Char}

/-! ## Putting texts together -/

theorem join_cons (sep piece : List Char) (pieces : List (List Char)) :
    join sep (piece :: pieces) = piece ++ pieces.flatMap (sep ++ ·) := by
  induction pieces generalizing piece with
  | nil =>
      simp [join]
  | cons next pieces ih =>
      have hrest := ih next
      simp [join, hrest]

theorem join_append (sep : List Char) {pieces : List (List Char)} (ne : pieces ≠ [])
    (more : List (List Char)) :
    join sep (pieces ++ more) = join sep pieces ++ more.flatMap (sep ++ ·) := by
  cases pieces with
  | nil =>
      exact absurd rfl ne
  | cons piece pieces =>
      simp only [List.cons_append, join_cons, List.flatMap_append, List.append_assoc]

theorem flatMap_append_eq_append_join (sep : List Char) {pieces : List (List Char)}
    (ne : pieces ≠ []) : pieces.flatMap (sep ++ ·) = sep ++ join sep pieces := by
  cases pieces with
  | nil =>
      exact absurd rfl ne
  | cons piece pieces =>
      simp [join_cons]

/-- Pieces in brackets of their own are pieces in one pair, with the brackets between two of them. -/
theorem join_map_enclosed (sep opening closing : List Char) {pieces : List (List Char)}
    (ne : pieces ≠ []) :
    join sep (pieces.map fun piece => opening ++ (piece ++ closing)) =
      opening ++ (join (closing ++ (sep ++ opening)) pieces ++ closing) := by
  cases pieces with
  | nil =>
      exact absurd rfl ne
  | cons piece pieces =>
      -- A closing bracket may be moved from the end of each piece to the front of the next.
      have hshift : ∀ rest : List (List Char),
          closing ++ (rest.map fun piece => opening ++ (piece ++ closing)).flatMap (sep ++ ·) =
            rest.flatMap (closing ++ (sep ++ opening) ++ ·) ++ closing := by
        intro rest
        induction rest with
        | nil =>
            simp
        | cons next rest ih =>
            simp only [List.map_cons, List.flatMap_cons, List.append_assoc] at ih ⊢
            rw [ih]
      simp only [List.map_cons, join_cons, List.append_assoc, hshift]

theorem not_mem_join {sep : List Char} {pieces : List (List Char)} (hsep : c ∉ sep)
    (h : ∀ piece ∈ pieces, c ∉ piece) : c ∉ join sep pieces := by
  intro hmem
  rcases mem_of_mem_join hmem with hc | ⟨piece, hpiece, hc⟩
  · exact hsep hc
  · exact h piece hpiece hc

/-! ## Every occurrence -/

theorem replaceAll_cons_of_not_prefix (h : old.isPrefixOf (c :: s) = false) :
    replaceAll old new (c :: s) = c :: replaceAll old new s := by
  simp [replaceAll, replaceFrom, h]

/-- No occurrence begins where its first character is missing. -/
theorem replaceAll_append_of_notMem (h : c ∉ s) :
    replaceAll (c :: old) new (s ++ t) = s ++ replaceAll (c :: old) new t := by
  induction s with
  | nil =>
      rfl
  | cons d s ih =>
      rw [List.mem_cons, not_or] at h
      have hnone : (c :: old).isPrefixOf (d :: (s ++ t)) = false := by
        simp [List.isPrefixOf, h.1]
      rw [List.cons_append, replaceAll_cons_of_not_prefix hnone, ih h.2]
      rfl

theorem replaceFrom_length_append (s t : List Char) :
    replaceFrom old new s.length (s ++ t) = replaceFrom old new 0 t := by
  induction s with
  | nil =>
      rfl
  | cons d s ih =>
      exact ih

theorem replaceAll_occurrence (c : Char) (old new t : List Char) :
    replaceAll (c :: old) new (c :: old ++ t) = new ++ replaceAll (c :: old) new t := by
  have hprefix : (c :: old).isPrefixOf (c :: (old ++ t)) = true :=
    List.isPrefixOf_iff_prefix.2 (List.prefix_append (c :: old) t)
  have hskip : replaceFrom (c :: old) new ((c :: old).length - 1) (old ++ t) =
      replaceFrom (c :: old) new 0 t :=
    replaceFrom_length_append old t
  simp only [replaceAll, List.cons_append, replaceFrom, hprefix, if_true, hskip]

/-- Pieces that hold no occurrence are put together with the new text instead of the old. -/
theorem replaceAll_join {pieces : List (List Char)} (h : ∀ piece ∈ pieces, c ∉ piece)
    (t : List Char) :
    replaceAll (c :: old) new (join (c :: old) pieces ++ t) =
      join new pieces ++ replaceAll (c :: old) new t := by
  cases pieces with
  | nil =>
      rfl
  | cons piece pieces =>
      rcases List.forall_mem_cons.1 h with ⟨hfirst, hothers⟩
      have hrest : replaceAll (c :: old) new (pieces.flatMap (c :: old ++ ·) ++ t) =
          pieces.flatMap (new ++ ·) ++ replaceAll (c :: old) new t := by
        clear h
        induction pieces with
        | nil =>
            rfl
        | cons next pieces ih =>
            rcases List.forall_mem_cons.1 hothers with ⟨hnext, hothers⟩
            simp only [List.flatMap_cons, List.append_assoc]
            rw [replaceAll_occurrence, replaceAll_append_of_notMem hnext, ih hothers]
      simp only [join_cons, List.append_assoc]
      rw [replaceAll_append_of_notMem hfirst, hrest]

/-! ## The first occurrence -/

theorem replaceFirst_occurrence (c : Char) (old new t : List Char) :
    replaceFirst (c :: old) new (c :: old ++ t) = new ++ t := by
  have hafter : after? (c :: old) (c :: (old ++ t)) = some t := after?_eq_some_iff.2 rfl
  simp only [List.cons_append, replaceFirst, hafter]

theorem replaceFirst_cons_of_not_prefix (h : ∀ rest, c :: s ≠ old ++ rest) :
    replaceFirst old new (c :: s) = c :: replaceFirst old new s := by
  have hafter : after? old (c :: s) = none :=
    Option.eq_none_iff_forall_ne_some.2 fun rest hrest => h rest (after?_eq_some_iff.1 hrest)
  simp only [replaceFirst, hafter]

/-- No occurrence begins in a text if its last character is missing there and in as much of the rest
as an occurrence could reach into. -/
theorem replaceFirst_append_of_notMem (hs : c ∉ s) (ht : c ∉ t.take old.length) :
    replaceFirst (old ++ [c]) new (s ++ t) = s ++ replaceFirst (old ++ [c]) new t := by
  induction s with
  | nil =>
      rfl
  | cons d s ih =>
      have hnone : ∀ rest, d :: (s ++ t) ≠ old ++ [c] ++ rest := by
        intro rest hsame
        -- The last character of the occurrence is among as many characters as the occurrence has.
        have htake : (d :: s ++ t).take (old.length + 1) = old ++ [c] := by
          have hlength : (old ++ [c]).length = old.length + 1 := by simp
          rw [List.cons_append, hsame, ← hlength]
          exact List.take_left
        have hmem : c ∈ (d :: s ++ t).take (old.length + 1) :=
          htake ▸ List.mem_append_right old (List.mem_singleton_self c)
        rw [List.take_append, List.mem_append] at hmem
        rcases hmem with hhere | hlater
        · exact hs (List.mem_of_mem_take hhere)
        · have hle : old.length + 1 - (d :: s).length ≤ old.length := by simp
          exact ht (List.take_subset_take_left t hle hlater)
      rw [List.mem_cons, not_or] at hs
      rw [List.cons_append, replaceFirst_cons_of_not_prefix hnone, ih hs.2]
      rfl

end Text
end ScriptDoc
