import ScriptDoc.Proofs.Comment.Scan

/-!
# Delimited — where the comments of a source begin and end

Outside a comment the next `/*` opens one, and the first `*/` after these two characters closes
it. Strings, patterns and line comments are not told apart from other text.

- `Span`                       : a comment and the text around it
- `Delimits`                   : the comments of a text, one after the other
- `Delimits.exists_spans`, `Delimits.unique` : every text has its comments, in one way only
- `Span.Swallows`              : an empty comment whose end the scan passes over
- `Block.scanFrom_eq_iff`      : the scan finds these comments exactly when none of them does
- `Comment.ofSource_delimited` : what that means for the comments that are read
-/

namespace ScriptDoc

/-- The text before the `/*`, between it and the `*/`, and after that. -/
structure Span where
  before : List Char
  inside : List Char
  after : List Char
  deriving DecidableEq, Repr

namespace Span

def line (s : Span) : Nat :=
  1 + s.before.count '\n'

def toBlock (s : Span) : Block :=
  match s.inside with
  | '*' :: body => ⟨.doc, body, s.line, s.after⟩
  | '!' :: body => ⟨.ignored, body, s.line, s.after⟩
  | body => ⟨.plain, body, s.line, s.after⟩

/-- Comments without a mark are skipped on demand. -/
def isRead (options : SourceOptions) (s : Span) : Bool :=
  match s.inside with
  | '*' :: _ => true
  | '!' :: _ => true
  | _ => !options.skipSingleStar

/-- A comment to be left out is read as its line only. -/
def read (raw : Bool) (s : Span) : Except TagFault Comment :=
  match s.inside with
  | '*' :: body => Comment.parse raw s.line s.toBlock.code body
  | '!' :: _ => .ok { isIgnored := true, line := s.line }
  | body => Comment.parse raw s.line s.toBlock.code body

/-- An empty comment with another `*/` somewhere after it. -/
def Swallows (s : Span) : Prop :=
  s.inside = [] ∧ ['*', '/'] <:+: s.after

instance (s : Span) : Decidable s.Swallows :=
  inferInstanceAs (Decidable (_ ∧ _))

end Span

/-- The comments of the text `ahead` when the text `passed` stands before it. A `/*` that no `*/`
follows opens none. -/
inductive Delimits : List Char → List Char → List Span → Prop where
  | done {passed ahead : List Char}
      (hnone : ∀ before inside after,
        ahead ≠ before ++ '/' :: '*' :: (inside ++ '*' :: '/' :: after)) :
      Delimits passed ahead []
  | next {passed before inside after : List Char} {spans : List Span}
      (hfirst : ¬ ['/', '*'] <:+: before) (hclosest : ¬ ['*', '/'] <:+: inside)
      (hmore : Delimits (passed ++ before ++ '/' :: '*' :: (inside ++ ['*', '/'])) after spans) :
      Delimits passed (before ++ '/' :: '*' :: (inside ++ '*' :: '/' :: after))
        (⟨passed ++ before, inside, after⟩ :: spans)

/-! ## Every text has its comments -/

namespace Delimits

theorem cons {passed s : List Char} {c : Char} {spans : List Span}
    (h : Delimits (passed ++ [c]) s spans) (hstart : ¬ ['/', '*'] <+: c :: s) :
    Delimits passed (c :: s) spans := by
  cases h with
  | done hnone =>
      apply Delimits.done
      intro before inside after hsame
      cases before with
      | nil =>
          exact hstart ⟨inside ++ '*' :: '/' :: after, hsame.symm⟩
      | cons d before =>
          exact hnone before inside after (List.cons.inj hsame).2
  | @next _ before inside after spans hfirst hclosest hmore =>
      have hbefore : ¬ ['/', '*'] <:+: c :: before := by
        rw [List.infix_cons_iff]
        rintro (⟨rest, hrest⟩ | hin)
        · -- Marks at the start of a part are at the start of the whole.
          rw [← List.cons_append, ← hrest] at hstart
          exact hstart ⟨rest ++ '/' :: '*' :: (inside ++ '*' :: '/' :: after), by simp⟩
        · exact hfirst hin
      have hpassed : passed ++ [c] ++ before = passed ++ c :: before := by simp
      rw [hpassed] at hmore ⊢
      exact .next hbefore hclosest hmore

/-- The mark that closes a later comment is after the first opening too. -/
theorem infix_of_opening {rest before inside after : List Char}
    (h : '/' :: '*' :: rest = before ++ '/' :: '*' :: (inside ++ '*' :: '/' :: after)) :
    ['*', '/'] <:+: rest := by
  cases before with
  | nil =>
      cases h
      exact ⟨inside, after, by simp⟩
  | cons c before =>
      cases before with
      | nil =>
          -- The star of the first opening is not the slash of another.
          cases h
      | cons d before =>
          cases h
          exact ⟨before ++ '/' :: '*' :: inside, after, by simp⟩

/-- Every text has its comments. -/
theorem exists_spans (passed ahead : List Char) : ∃ spans, Delimits passed ahead spans := by
  match ahead with
  | [] =>
      refine ⟨[], .done ?_⟩
      intro before inside after hsame
      simp at hsame
  | c :: s =>
      by_cases hstart : ['/', '*'] <+: c :: s
      · rcases hstart with ⟨rest, hrest⟩
        have hopened : c :: s = '/' :: '*' :: rest := hrest.symm
        cases hend : Block.untilEnd rest with
        | none =>
            -- What does not close this comment closes no later one either.
            refine ⟨[], .done ?_⟩
            intro before inside after hsame
            rw [hopened] at hsame
            exact Block.untilEnd_eq_none_iff.1 hend (infix_of_opening hsame)
        | some cut =>
            rcases cut with ⟨inside, after⟩
            have hshorter : after.length < (c :: s).length := by
              have hrest := Block.length_untilEnd hend
              rw [hopened]
              exact Nat.lt_succ_of_lt (Nat.lt_succ_of_lt hrest)
            rcases exists_spans (passed ++ [] ++ '/' :: '*' :: (inside ++ ['*', '/'])) after with
              ⟨spans, hspans⟩
            have hclosest := Block.not_infix_of_untilEnd hend
            refine ⟨⟨passed ++ [], inside, after⟩ :: spans, ?_⟩
            rw [hopened, Block.eq_of_untilEnd hend]
            exact @next passed [] inside after spans (by simp) hclosest hspans
      · rcases exists_spans (passed ++ [c]) s with ⟨spans, hspans⟩
        exact ⟨spans, hspans.cons hstart⟩
termination_by ahead.length
decreasing_by
  · exact hshorter
  · exact Nat.lt_succ_self s.length

theorem of_not_opened {passed ahead : List Char} (h : ¬ ['/', '*'] <:+: ahead) :
    Delimits passed ahead [] := by
  apply Delimits.done
  intro before inside after hsame
  exact h ⟨before, inside ++ '*' :: '/' :: after, by simp [hsame]⟩

/-- A text has its comments in one way only. -/
theorem unique {passed ahead : List Char} {spans others : List Span}
    (h : Delimits passed ahead spans) (h' : Delimits passed ahead others) : others = spans := by
  induction h generalizing others with
  | done hnone =>
      cases h' with
      | done hnone' =>
          rfl
      | next hfirst hclosest hmore =>
          exact absurd rfl (hnone _ _ _)
  | @next passed before inside after spans hfirst hclosest hmore ih =>
      generalize hahead : before ++ '/' :: '*' :: (inside ++ '*' :: '/' :: after) = ahead at h'
      cases h' with
      | done hnone =>
          exact absurd hahead.symm (hnone _ _ _)
      | next hfirst' hclosest' hmore' =>
          -- Both openings are the first one, and then both ends are the closest one.
          rcases Block.eq_of_append_mark (by decide) hfirst hfirst' hahead with ⟨rfl, hrest⟩
          rcases Block.eq_of_append_mark (by decide) hclosest hclosest' hrest with ⟨rfl, rfl⟩
          rw [ih hmore']

end Delimits

/-! ## Comments as blocks -/

namespace Span

theorem line_toBlock (s : Span) : s.toBlock.line = s.line := by
  unfold toBlock
  split <;> rfl

theorem rest_toBlock (s : Span) : s.toBlock.rest = s.after := by
  unfold toBlock
  split <;> rfl

/-- A mark is not a line break. -/
theorem count_body_toBlock (s : Span) :
    s.toBlock.body.count '\n' = s.inside.count '\n' := by
  unfold toBlock
  split
  · next body hinside =>
    simp [hinside]
  · next body hinside =>
    simp [hinside]
  · rfl

theorem mark_of_swallows {s : Span} (h : s.Swallows) : s.toBlock.mark = .plain := by
  simp only [toBlock, h.1]

theorem isWanted_toBlock (options : SourceOptions) (s : Span) :
    Comment.isWanted options s.toBlock = s.isRead options := by
  unfold toBlock isRead
  split <;> rfl

theorem ofBlock_toBlock (raw : Bool) (s : Span) :
    Comment.ofBlock raw s.toBlock = s.read raw := by
  unfold read
  split
  · next body hinside =>
    have hmark : s.toBlock = ⟨.doc, body, s.line, s.after⟩ := by simp only [toBlock, hinside]
    rw [hmark]
    rfl
  · next body hinside =>
    have hmark : s.toBlock = ⟨.ignored, body, s.line, s.after⟩ := by simp only [toBlock, hinside]
    rw [hmark]
    rfl
  · next hstar hbang =>
    have hmark : s.toBlock = ⟨.plain, s.inside, s.line, s.after⟩ := by
      unfold toBlock
      split
      · next body hinside => exact absurd hinside (hstar body)
      · next body hinside => exact absurd hinside (hbang body)
      · rfl
    rw [hmark]
    rfl

theorem afterOpening_toBlock {s : Span} (hclosest : ¬ ['*', '/'] <:+: s.inside)
    (hwhole : ¬ s.Swallows) :
    Block.afterOpening (s.inside ++ '*' :: '/' :: s.after) =
      some (s.toBlock.mark, s.toBlock.body, s.after) := by
  rcases s with ⟨before, inside, after⟩
  cases inside with
  | nil =>
      -- An empty comment does not swallow, so no other end comes after its own.
      exact Block.afterOpening_end fun hin => hwhole ⟨rfl, hin⟩
  | cons c body =>
      have hbody : ¬ ['*', '/'] <:+: body := fun hin => hclosest (List.infix_cons hin)
      by_cases hstar : c = '*'
      · cases hstar
        exact Block.afterOpening_star hbody after
      · by_cases hbang : c = '!'
        · cases hbang
          exact Block.afterOpening_bang hbody after
        · have hplain : toBlock ⟨before, c :: body, after⟩ =
              ⟨.plain, c :: body, line ⟨before, c :: body, after⟩, after⟩ := by
            simp [toBlock, hstar, hbang]
          rw [hplain]
          exact Block.afterOpening_other hstar hbang hclosest after

end Span

namespace Block

/-- A comment is one block, and the scan goes on right after it. -/
theorem scanFrom_span {passed before : List Char} {s : Span} (hbefore : s.before = passed ++ before)
    (hfirst : ¬ ['/', '*'] <:+: before) (hclosest : ¬ ['*', '/'] <:+: s.inside)
    (hwhole : ¬ s.Swallows) :
    scanFrom (1 + passed.count '\n')
        (before ++ '/' :: '*' :: (s.inside ++ '*' :: '/' :: s.after)) =
      s.toBlock ::
        scanFrom (1 + (s.before ++ '/' :: '*' :: (s.inside ++ ['*', '/'])).count '\n') s.after := by
  have hstart : 1 + passed.count '\n' + before.count '\n' = s.toBlock.line := by
    rw [Span.line_toBlock, Span.line, hbefore, List.count_append, Nat.add_assoc]
  have hend : s.toBlock.line + s.toBlock.body.count '\n' =
      1 + (s.before ++ '/' :: '*' :: (s.inside ++ ['*', '/'])).count '\n' := by
    rw [Span.line_toBlock, Span.count_body_toBlock]
    simp [Span.line, Nat.add_assoc]
  have hopened := Span.afterOpening_toBlock hclosest hwhole
  calc
    scanFrom (1 + passed.count '\n') (before ++ '/' :: '*' :: (s.inside ++ '*' :: '/' :: s.after))
        = scanFrom s.toBlock.line ('/' :: '*' :: (s.inside ++ '*' :: '/' :: s.after)) := by
          rw [scanFrom_append hfirst, hstart]
    _ = s.toBlock :: scanFrom (s.toBlock.line + s.toBlock.body.count '\n') s.after := by
          rw [scanFrom_opening hopened, ← Span.rest_toBlock]
    _ = s.toBlock ::
          scanFrom (1 + (s.before ++ '/' :: '*' :: (s.inside ++ ['*', '/'])).count '\n')
            s.after := by
          rw [hend]

/-- Else the star of its `*/` is taken for a mark, and the block goes on to another end. -/
theorem scanFrom_of_swallows {before : List Char} {s : Span} (hfirst : ¬ ['/', '*'] <:+: before)
    (hswallows : s.Swallows) (line : Nat) :
    ∃ body rest more,
      scanFrom line (before ++ '/' :: '*' :: (s.inside ++ '*' :: '/' :: s.after)) =
        ⟨.doc, '/' :: body, line + before.count '\n', rest⟩ :: more ∧
      s.after = body ++ '*' :: '/' :: rest := by
  rcases afterOpening_end_of_later hswallows.2 with ⟨body, rest, hopened, hafter⟩
  refine ⟨body, rest, scanFrom (line + before.count '\n' + ('/' :: body).count '\n') rest, ?_,
    hafter⟩
  rw [scanFrom_append hfirst, hswallows.1, List.nil_append]
  exact scanFrom_opening hopened

/-- The scan finds the comments as long as none of them swallows what follows. -/
theorem scanFrom_eq_iff {passed ahead : List Char} {spans : List Span}
    (h : Delimits passed ahead spans) :
    scanFrom (1 + passed.count '\n') ahead = spans.map Span.toBlock ↔
      ∀ s ∈ spans, ¬ s.Swallows := by
  induction h with
  | @done passed ahead hnone =>
      have hnothing : scanFrom (1 + passed.count '\n') ahead = [] := by
        apply scanFrom_eq_nil
        rintro before rest hsame ⟨inside, after, hclosed⟩
        apply hnone before inside after
        rw [hsame, ← hclosed]
        simp
      simp [hnothing]
  | @next passed before inside after spans hfirst hclosest hmore ih =>
      rw [List.map_cons, List.forall_mem_cons]
      by_cases hswallows : Span.Swallows ⟨passed ++ before, inside, after⟩
      · rcases scanFrom_of_swallows hfirst hswallows (1 + passed.count '\n') with
          ⟨body, rest, more, hscan, -⟩
        rw [hscan]
        constructor
        · intro hsame
          -- The first block is marked, and the comment it stands for is not.
          have hmarks := congrArg Block.mark (List.cons.inj hsame).1
          rw [Span.mark_of_swallows hswallows] at hmarks
          cases hmarks
        · intro hwhole
          exact absurd hswallows hwhole.1
      · rw [scanFrom_span rfl hfirst hclosest hswallows, List.cons_inj_right, ih]
        exact (and_iff_right hswallows).symm

/-- The first comment that swallows what follows is a block that goes on to another end. -/
theorem scanFrom_of_first_swallows {passed ahead : List Char} {whole more : List Span} {s : Span}
    (h : Delimits passed ahead (whole ++ s :: more)) (hwhole : ∀ t ∈ whole, ¬ t.Swallows)
    (hswallows : s.Swallows) :
    ∃ body rest blocks,
      scanFrom (1 + passed.count '\n') ahead =
        whole.map Span.toBlock ++ ⟨.doc, '/' :: body, s.line, rest⟩ :: blocks ∧
      s.after = body ++ '*' :: '/' :: rest := by
  induction whole generalizing passed ahead with
  | nil =>
      rw [List.nil_append] at h
      cases h with
      | @next _ before inside after _ hfirst hclosest hmore =>
          rcases scanFrom_of_swallows hfirst hswallows (1 + passed.count '\n') with
            ⟨body, rest, blocks, hscan, hafter⟩
          refine ⟨body, rest, blocks, ?_, hafter⟩
          simpa [Span.line, Nat.add_assoc] using hscan
  | cons t whole ih =>
      rw [List.cons_append] at h
      have ht := hwhole t List.mem_cons_self
      have hlater : ∀ t ∈ whole, ¬ t.Swallows := by
        intro other hother
        exact hwhole other (List.mem_cons_of_mem _ hother)
      cases h with
      | @next _ before inside after _ hfirst hclosest hmore =>
          rcases ih hmore hlater with ⟨body, rest, blocks, hscan, hafter⟩
          refine ⟨body, rest, blocks, ?_, hafter⟩
          rw [scanFrom_span rfl hfirst hclosest ht, hscan]
          rfl

end Block

/-! ## Records -/

namespace Comment

/-- Every text has its comments in one way. They are the blocks that are scanned, and the ones
that are read, unless one is empty and another `*/` follows it. -/
theorem ofSource_delimited (options : SourceOptions) (source : String) :
    ∃ spans,
      (∀ others, Delimits [] (Text.foldCrLf source.toList) others ↔ others = spans) ∧
      (Block.scan (Text.foldCrLf source.toList) = spans.map Span.toBlock ↔
        ∀ s ∈ spans, ¬ s.Swallows) ∧
      ((∀ s ∈ spans, ¬ s.Swallows) →
        ofSource options source =
          (spans.filter (Span.isRead options)).mapM (Span.read options.raw)) ∧
      ∀ whole s more, spans = whole ++ s :: more → (∀ t ∈ whole, ¬ t.Swallows) → s.Swallows →
        ∃ body rest blocks,
          Block.scan (Text.foldCrLf source.toList) =
            whole.map Span.toBlock ++ ⟨.doc, '/' :: body, s.line, rest⟩ :: blocks ∧
          s.after = body ++ '*' :: '/' :: rest := by
  rcases Delimits.exists_spans [] (Text.foldCrLf source.toList) with ⟨spans, hspans⟩
  have hscan := Block.scanFrom_eq_iff hspans
  refine ⟨spans, ?_, hscan, ?_, ?_⟩
  · intro others
    constructor
    · exact fun hothers => hspans.unique hothers
    · rintro rfl
      exact hspans
  · intro hwhole
    have hblocks : Block.scan (Text.foldCrLf source.toList) = spans.map Span.toBlock :=
      hscan.2 hwhole
    have hwanted : isWanted options ∘ Span.toBlock = Span.isRead options := by
      funext s
      exact Span.isWanted_toBlock options s
    have hread : ofBlock options.raw ∘ Span.toBlock = Span.read options.raw := by
      funext s
      exact Span.ofBlock_toBlock options.raw s
    calc
      ofSource options source
          = ((spans.map Span.toBlock).filter (isWanted options)).mapM (ofBlock options.raw) := by
            simp only [ofSource, hblocks]
      _ = ((spans.filter (Span.isRead options)).map Span.toBlock).mapM (ofBlock options.raw) := by
            rw [List.filter_map, hwanted]
      _ = (spans.filter (Span.isRead options)).mapM (Span.read options.raw) := by
            rw [List.mapM_map, hread]
  · rintro whole s more rfl hwhole hswallows
    exact Block.scanFrom_of_first_swallows hspans hwhole hswallows

/-- An empty comment, a line of code, and a doc comment. -/
def emptyBeforeDoc : String :=
  "/**/\nvar a = 1;\n/** Doc. */\nfunction f() {}\n"

theorem emptyBeforeDoc_swallows :
    ∃ spans, Delimits [] (Text.foldCrLf emptyBeforeDoc.toList) spans ∧
      (∃ s ∈ spans, s.Swallows) ∧
      ofSource {} emptyBeforeDoc ≠
        (spans.filter (Span.isRead {})).mapM (Span.read true) := by
  have hrest : Delimits "/**/\nvar a = 1;\n/** Doc. */".toList "\nfunction f() {}\n".toList [] :=
    .of_not_opened (by decide)
  have hdoc := @Delimits.next "/**/".toList "\nvar a = 1;\n".toList "* Doc. ".toList _ _
    (by decide) (by decide) hrest
  have hempty := @Delimits.next [] [] [] _ _ (by decide) (by decide) hdoc
  refine ⟨_, hempty, ?_, ?_⟩
  · exact ⟨_, List.mem_cons_self, by decide⟩
  · decide +kernel

end Comment
end ScriptDoc
