import Mathlib.Data.List.Infix
import ScriptDoc.Comment.Block
import ScriptDoc.Proofs.Outcome

/-!
# Scan — what the scan for blocks takes off a text

- `Block.untilEnd_append`          : the end of a block is the first one after its opening
- `Block.scanFrom_append`          : text without an opening is passed over
- `Comment.pairwise_line_ofSource` : the lines of comments never go back
-/

namespace ScriptDoc

namespace Block

/-! ## Lines -/

theorem le_line_of_mem_scanFrom {line : Nat} {s : List Char} {b : Block}
    (h : b ∈ scanFrom line s) : line ≤ b.line := by
  fun_induction scanFrom line s with
  | case1 =>
      exact absurd h List.not_mem_nil
  | case2 line inside mark body rest hfound ih =>
      rcases List.mem_cons.1 h with rfl | hrest
      · exact Nat.le_refl _
      · exact Nat.le_trans (Nat.le_add_right _ _) (ih hrest)
  | case3 line inside hfound ih =>
      exact ih h
  | case4 line c s hopening ih =>
      -- The text that is passed over may end a line, which takes the count up and never down.
      have hnext : (if c = '\n' then line + 1 else line) ≤ b.line := ih h
      have hstep : line ≤ if c = '\n' then line + 1 else line := by
        split
        · exact Nat.le_succ line
        · exact Nat.le_refl line
      exact Nat.le_trans hstep hnext

theorem pairwise_line_scanFrom (line : Nat) (s : List Char) :
    (scanFrom line s).Pairwise fun a b => a.line ≤ b.line := by
  fun_induction scanFrom line s with
  | case1 =>
      exact List.Pairwise.nil
  | case2 line inside mark body rest hfound ih =>
      refine List.pairwise_cons.2 ⟨?_, ih⟩
      intro b hb
      have hafter : line + body.count '\n' ≤ b.line := le_line_of_mem_scanFrom hb
      exact Nat.le_trans (Nat.le_add_right _ _) hafter
  | case3 line inside hfound ih =>
      exact ih
  | case4 line c s hopening ih =>
      exact ih

theorem pairwise_line_scan (s : List Char) :
    (scan s).Pairwise fun a b => a.line ≤ b.line :=
  pairwise_line_scanFrom 1 s

/-! ## Marks of two characters -/

/-- Two different characters do not occur across the seam before an occurrence of them. -/
theorem not_prefix_append {a b c : Char} {before : List Char} (hne : a ≠ b)
    (h : ¬ [a, b] <:+: c :: before) (after : List Char) :
    ¬ [a, b] <+: c :: (before ++ a :: b :: after) := by
  intro hstarts
  rcases List.cons_prefix_cons.1 hstarts with ⟨rfl, hsecond⟩
  cases before with
  | nil =>
      -- The second character would be the first one of the occurrence.
      exact hne (List.cons_prefix_cons.1 hsecond).1.symm
  | cons d before =>
      rcases List.cons_prefix_cons.1 hsecond with ⟨rfl, -⟩
      exact h ⟨[], before, rfl⟩

/-- A text is cut in one way only at the first occurrence of two different characters. -/
theorem eq_of_append_mark {a b : Char} (hne : a ≠ b) {before before' after after' : List Char}
    (h : ¬ [a, b] <:+: before) (h' : ¬ [a, b] <:+: before')
    (hsame : before ++ a :: b :: after = before' ++ a :: b :: after') :
    before = before' ∧ after = after' := by
  induction before generalizing before' with
  | nil =>
      cases before' with
      | nil =>
          cases hsame
          exact ⟨rfl, rfl⟩
      | cons c before' =>
          rw [List.cons_append] at hsame
          exact absurd ⟨after, hsame⟩ (not_prefix_append hne h' after')
  | cons c before ih =>
      cases before' with
      | nil =>
          rw [List.cons_append] at hsame
          exact absurd ⟨after', hsame.symm⟩ (not_prefix_append hne h after)
      | cons c' before' =>
          rcases List.cons.inj hsame with ⟨rfl, hrest⟩
          have htail : ¬ [a, b] <:+: before := fun hin => h (List.infix_cons hin)
          have htail' : ¬ [a, b] <:+: before' := fun hin => h' (List.infix_cons hin)
          rcases ih htail htail' hrest with ⟨rfl, rfl⟩
          exact ⟨rfl, rfl⟩

/-! ## Ends of blocks -/

theorem untilEnd_cons {c : Char} {s : List Char} (h : ¬ ['*', '/'] <+: c :: s) :
    untilEnd (c :: s) = (untilEnd s).map fun (body, rest) => (c :: body, rest) := by
  rw [untilEnd]
  rintro rest rfl rfl
  exact h ⟨rest, rfl⟩

/-- The end of a block is the first one after its opening. -/
theorem untilEnd_append {inside : List Char} (h : ¬ ['*', '/'] <:+: inside) (after : List Char) :
    untilEnd (inside ++ '*' :: '/' :: after) = some (inside, after) := by
  induction inside with
  | nil =>
      rfl
  | cons c inside ih =>
      have hstart := not_prefix_append (by decide) h after
      have htail : ¬ ['*', '/'] <:+: inside := fun hin => h (List.infix_cons hin)
      rw [List.cons_append, untilEnd_cons hstart, ih htail]
      rfl

theorem untilEnd_eq_none_iff {s : List Char} : untilEnd s = none ↔ ¬ ['*', '/'] <:+: s := by
  induction s with
  | nil =>
      simp [untilEnd]
  | cons c s ih =>
      rw [List.infix_cons_iff]
      by_cases hstart : ['*', '/'] <+: c :: s
      · rcases hstart with ⟨rest, hrest⟩
        cases hrest
        simp [untilEnd]
      · rw [untilEnd_cons hstart, Option.map_eq_none_iff, ih]
        simp [hstart]

theorem untilEnd_tail_eq_none {c : Char} {s : List Char} (h : ¬ ['*', '/'] <:+: c :: s) :
    untilEnd s = none := by
  apply untilEnd_eq_none_iff.2
  intro hin
  exact h (List.infix_cons hin)

theorem not_infix_of_untilEnd {s body rest : List Char} (h : untilEnd s = some (body, rest)) :
    ¬ ['*', '/'] <:+: body := by
  induction s generalizing body with
  | nil =>
      cases h
  | cons c s ih =>
      by_cases hstart : ['*', '/'] <+: c :: s
      · rcases hstart with ⟨tail, htail⟩
        cases htail
        cases h
        simp
      · rw [untilEnd_cons hstart] at h
        rcases Option.map_eq_some_iff.1 h with ⟨⟨body', rest'⟩, hfound, hsame⟩
        cases hsame
        rw [List.infix_cons_iff]
        rintro (hstarts | hinside)
        · -- An end that opens the body would open the whole text.
          rcases hstarts with ⟨tail, htail⟩
          refine hstart ⟨tail ++ '*' :: '/' :: rest, ?_⟩
          have hwhole := eq_of_untilEnd hfound
          rw [hwhole, ← List.cons_append, ← htail]
          simp
        · exact ih hfound hinside

/-! ## Openings -/

theorem afterOpening_eq_none {s : List Char} (h : ¬ ['*', '/'] <:+: s) :
    afterOpening s = none := by
  have hwhole := untilEnd_eq_none_iff.2 h
  unfold afterOpening
  split
  · have hmarked := untilEnd_tail_eq_none h
    simp [hmarked, hwhole]
  · have hmarked := untilEnd_tail_eq_none h
    simp [hmarked, hwhole]
  · simp [hwhole]

/-- A star after the opening is a mark when the comment goes on after it. -/
theorem afterOpening_star {body : List Char} (h : ¬ ['*', '/'] <:+: body) (after : List Char) :
    afterOpening ('*' :: (body ++ '*' :: '/' :: after)) = some (.doc, body, after) := by
  simp [afterOpening, untilEnd_append h]

theorem afterOpening_bang {body : List Char} (h : ¬ ['*', '/'] <:+: body) (after : List Char) :
    afterOpening ('!' :: (body ++ '*' :: '/' :: after)) = some (.ignored, body, after) := by
  simp [afterOpening, untilEnd_append h]

theorem afterOpening_other {c : Char} {body : List Char} (hstar : c ≠ '*') (hbang : c ≠ '!')
    (h : ¬ ['*', '/'] <:+: c :: body) (after : List Char) :
    afterOpening (c :: (body ++ '*' :: '/' :: after)) = some (.plain, c :: body, after) := by
  have hend := untilEnd_append h after
  rw [List.cons_append] at hend
  simp [afterOpening, hstar, hbang, hend]

/-- The star of an end is no mark when there is no other end to close the comment. -/
theorem afterOpening_end {after : List Char} (h : ¬ ['*', '/'] <:+: after) :
    afterOpening ('*' :: '/' :: after) = some (.plain, [], after) := by
  -- The slash that is left of the end does not begin another one.
  have hmarked : untilEnd ('/' :: after) = none := by
    apply untilEnd_eq_none_iff.2
    intro hin
    rcases List.infix_cons_iff.1 hin with hstarts | hlater
    · simp at hstarts
    · exact h hlater
  simp [afterOpening, hmarked, untilEnd]

/-- It is one when there is another. -/
theorem afterOpening_end_of_later {after : List Char} (h : ['*', '/'] <:+: after) :
    ∃ body rest, afterOpening ('*' :: '/' :: after) = some (.doc, '/' :: body, rest) ∧
      after = body ++ '*' :: '/' :: rest := by
  cases hend : untilEnd after with
  | none =>
      exact absurd h (untilEnd_eq_none_iff.1 hend)
  | some cut =>
      rcases cut with ⟨body, rest⟩
      refine ⟨body, rest, ?_, eq_of_untilEnd hend⟩
      have hmarked : untilEnd ('/' :: after) = some ('/' :: body, rest) := by
        rw [untilEnd_cons (by simp), hend]
        rfl
      simp [afterOpening, hmarked]

/-! ## Steps of the scan -/

theorem scanFrom_eq_nil {line : Nat} {s : List Char}
    (h : ∀ before rest, s = before ++ '/' :: '*' :: rest → ¬ ['*', '/'] <:+: rest) :
    scanFrom line s = [] := by
  fun_induction scanFrom line s with
  | case1 =>
      rfl
  | case2 line inside mark body rest hfound ih =>
      rw [afterOpening_eq_none (h [] inside rfl)] at hfound
      cases hfound
  | case3 line inside hnone ih =>
      apply ih
      intro before rest hsame
      exact h ('/' :: before) rest (by rw [hsame, List.cons_append])
  | case4 line c s hopening ih =>
      apply ih
      intro before rest hsame
      exact h (c :: before) rest (by rw [hsame, List.cons_append])

theorem scanFrom_opening {line : Nat} {s body rest : List Char} {mark : Mark}
    (h : afterOpening s = some (mark, body, rest)) :
    scanFrom line ('/' :: '*' :: s) =
      ⟨mark, body, line, rest⟩ :: scanFrom (line + body.count '\n') rest := by
  rw [scanFrom]
  split
  · next hfound =>
    rw [h] at hfound
    cases hfound
    rfl
  · next hnone =>
    rw [h] at hnone
    cases hnone

theorem scanFrom_cons {line : Nat} {c : Char} {s : List Char} (h : ¬ ['/', '*'] <+: c :: s) :
    scanFrom line (c :: s) = scanFrom (line + [c].count '\n') s := by
  have hcount : line + [c].count '\n' = if c = '\n' then line + 1 else line := by
    by_cases hc : c = '\n'
    · simp [hc]
    · simp [hc, List.count_eq_zero_of_not_mem, Ne.symm hc]
  rw [hcount, scanFrom]
  rintro inside rfl rfl
  exact h ⟨inside, rfl⟩

/-- Text without an opening is passed over. -/
theorem scanFrom_append {before : List Char} (h : ¬ ['/', '*'] <:+: before) (line : Nat)
    (s : List Char) :
    scanFrom line (before ++ '/' :: '*' :: s) =
      scanFrom (line + before.count '\n') ('/' :: '*' :: s) := by
  induction before generalizing line with
  | nil =>
      rfl
  | cons c before ih =>
      have hstart := not_prefix_append (by decide) h s
      have htail : ¬ ['/', '*'] <:+: before := fun hin => h (List.infix_cons hin)
      have hcount : (c :: before).count '\n' = [c].count '\n' + before.count '\n' :=
        @List.count_append _ _ '\n' [c] before
      calc
        scanFrom line (c :: before ++ '/' :: '*' :: s)
            = scanFrom (line + [c].count '\n') (before ++ '/' :: '*' :: s) :=
              scanFrom_cons hstart
        _ = scanFrom (line + [c].count '\n' + before.count '\n') ('/' :: '*' :: s) :=
              ih htail _
        _ = scanFrom (line + (c :: before).count '\n') ('/' :: '*' :: s) := by
              rw [hcount, Nat.add_assoc]

end Block

namespace Comment

theorem line_of_parse {raw : Bool} {line : Int} {code body : List Char} {c : Comment}
    (h : parse raw line code body = .ok c) : c.line = line := by
  unfold parse at h
  simp only at h
  split at h
  · cases h
  · cases h
    rfl

theorem line_of_ofBlock {raw : Bool} {b : Block} {c : Comment} (h : ofBlock raw b = .ok c) :
    c.line = b.line := by
  unfold ofBlock at h
  split at h
  · cases h
    rfl
  · exact line_of_parse h

theorem pairwise_line_ofSource {options : SourceOptions} {source : String} {all : List Comment}
    (h : ofSource options source = .ok all) : all.Pairwise fun a b => a.line ≤ b.line := by
  have hblocks := Outcome.mapM_eq_ok_iff.1 h
  have hlines : List.Forall₂ (fun (b : Block) (c : Comment) => (b.line : Int) = c.line)
      ((Block.scan (Text.foldCrLf source.toList)).filter (isWanted options)) all :=
    hblocks.imp fun b c hread => (line_of_ofBlock hread).symm
  have hordered : ((Block.scan (Text.foldCrLf source.toList)).filter
      (isWanted options)).Pairwise fun a b => a.line ≤ b.line :=
    (Block.pairwise_line_scan _).filter _
  -- What is read off a block has the line of the block.
  have hmapped : all.map Comment.line =
      ((Block.scan (Text.foldCrLf source.toList)).filter (isWanted options)).map
        fun b => (b.line : Int) := by
    have hsame := List.forall₂_map_right_iff.2 (List.forall₂_map_left_iff.2 hlines)
    rw [List.forall₂_eq_eq_eq] at hsame
    exact hsame.symm
  have hints : (all.map Comment.line).Pairwise (· ≤ ·) := by
    rw [hmapped]
    refine List.pairwise_map.2 (hordered.imp ?_)
    intro a b hab
    exact Int.ofNat_le.2 hab
  exact List.pairwise_map.1 hints

end Comment
end ScriptDoc
