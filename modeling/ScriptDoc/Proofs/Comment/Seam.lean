import Mathlib.Data.List.TakeWhile
import ScriptDoc.Proofs.Comment.Delimited
import ScriptDoc.Proofs.Text.LineEnds
import ScriptDoc.Proofs.Text.Trim

/-!
# Seam — a source read in two parts

Text that ends a line outside every comment, with code after the last of them, is read as if
nothing followed it, and what follows it is read as if it stood alone but for its line numbers.

- `IsSelfContained`         : such a text, with its comments
- `EndsInCode`              : the same comment by comment, as the scan goes through it
- `Block.scanFrom_seam`     : the blocks of both parts are those of the one and then of the other
- `Comment.ofSource_append` : so are the comments, or the first fault of either
-/

namespace ScriptDoc

open Text

/-- The text after the last comment, all of it if there is none. -/
def Span.afterLast : List Char → List Span → List Char
  | text, [] => text
  | _, s :: spans => afterLast s.after spans

/-- A text that leaves no comment open at its end, where a line is over, and has no empty comment in
it; after its last comment, if it has any, there is more than white space. -/
structure IsSelfContained (text : List Char) (spans : List Span) : Prop where
  delimits : Delimits [] text spans
  endsLine : text.getLast? = some '\n'
  noEmpty : ¬ ['/', '*', '*', '/'] <:+: text
  closed : ¬ ['/', '*'] <:+: Span.afterLast text spans
  code : spans ≠ [] → ∃ c ∈ Span.afterLast text spans, isBlank c = false

/-! ## Comment by comment -/

/-- What is left of such a text after any of its comments is such a text again. -/
inductive EndsInCode : List Char → Prop where
  | code {text : List Char} :
      ¬ ['/', '*'] <:+: text → text.getLast? = some '\n' → EndsInCode text
  | comment {before inside after : List Char} :
      ¬ ['/', '*'] <:+: before → ¬ ['*', '/'] <:+: inside → inside ≠ [] →
        (∃ c ∈ after, isBlank c = false) → EndsInCode after →
          EndsInCode (before ++ '/' :: '*' :: (inside ++ '*' :: '/' :: after))

namespace EndsInCode

theorem of_delimits {passed text : List Char} {spans : List Span} (h : Delimits passed text spans)
    (hline : text.getLast? = some '\n') (hempty : ¬ ['/', '*', '*', '/'] <:+: text)
    (hclosed : ¬ ['/', '*'] <:+: Span.afterLast text spans)
    (hcode : spans ≠ [] → ∃ c ∈ Span.afterLast text spans, isBlank c = false) :
    EndsInCode text := by
  induction h with
  | done _ =>
      exact .code hclosed hline
  | @next passed before inside after spans hfirst hclosest hmore ih =>
      have hinside : inside ≠ [] := by
        rintro rfl
        exact hempty ⟨before, after, by simp⟩
      have hlater : ¬ ['/', '*', '*', '/'] <:+: after := by
        intro hin
        have hsuffix : after <:+ before ++ '/' :: '*' :: (inside ++ '*' :: '/' :: after) :=
          ⟨before ++ '/' :: '*' :: (inside ++ ['*', '/']), by simp⟩
        exact hempty (hin.trans hsuffix.isInfix)
      have hline' : after.getLast? = some '\n' := by
        cases after with
        | nil =>
            -- The last character would be the slash of the comment's end.
            simp [List.getLast?_append, List.getLast?_cons] at hline
        | cons c after =>
            simpa [List.getLast?_append, List.getLast?_cons] using hline
      have hcode' : ∃ c ∈ after, isBlank c = false := by
        cases hmore with
        | done _ =>
            exact hcode (by simp)
        | next _ _ _ =>
            -- The next comment begins with a character that is not blank.
            exact ⟨'/', by simp, rfl⟩
      refine .comment hfirst hclosest hinside hcode' (ih hline' hlater hclosed ?_)
      intro _
      exact hcode (by simp)

theorem getLast? {text : List Char} (h : EndsInCode text) : text.getLast? = some '\n' := by
  induction h with
  | code _ hline =>
      exact hline
  | @comment before inside after _ _ _ _ _ ih =>
      simp [List.getLast?_append, List.getLast?_cons, ih]

/-- Folding the ends of lines neither opens nor closes a comment. -/
theorem foldCrLf {text : List Char} (h : EndsInCode text) : EndsInCode (foldCrLf text) := by
  induction h with
  | @code text hopening hline =>
      refine .code ?_ (getLast?_foldCrLf hline)
      intro hin
      exact hopening (infix_of_foldCrLf (by decide) (by decide) hin)
  | @comment before inside after hfirst hclosest hinside hcode _ ih =>
      have hcut : Text.foldCrLf (before ++ '/' :: '*' :: (inside ++ '*' :: '/' :: after)) =
          Text.foldCrLf before ++
            '/' :: '*' :: (Text.foldCrLf inside ++ '*' :: '/' :: Text.foldCrLf after) := by
        rw [foldCrLf_append_cons (by decide) (by decide), foldCrLf_cons (Or.inl (by decide)),
          foldCrLf_append_cons (by decide) (by decide), foldCrLf_cons (Or.inl (by decide))]
      rw [hcut]
      refine .comment ?_ ?_ ?_ ?_ ih
      · intro hin
        exact hfirst (infix_of_foldCrLf (by decide) (by decide) hin)
      · intro hin
        exact hclosest (infix_of_foldCrLf (by decide) (by decide) hin)
      · exact foldCrLf_ne_nil hinside
      · rcases hcode with ⟨c, hmem, hc⟩
        have hreturn : c ≠ '\r' := by
          rintro rfl
          cases hc
        exact ⟨c, (mem_foldCrLf_iff hreturn after).2 hmem, hc⟩

end EndsInCode

/-! ## Blocks -/

/-- The mark and the body of a comment are read off its inside alone. -/
theorem Span.toBlock_congr {s t : Span} (h : s.inside = t.inside) :
    s.toBlock.mark = t.toBlock.mark ∧ s.toBlock.body = t.toBlock.body := by
  unfold toBlock
  rw [h]
  split
  · exact ⟨rfl, rfl⟩
  · exact ⟨rfl, rfl⟩
  · exact ⟨rfl, rfl⟩

namespace Block

def followedBy (more : List Char) (b : Block) : Block :=
  { b with rest := b.rest ++ more }

def movedDown (count : Nat) (b : Block) : Block :=
  { b with line := b.line + count }

/-- A comment is one block with the same mark and body whatever stands after it. -/
theorem scanFrom_comment {before inside : List Char} (hfirst : ¬ ['/', '*'] <:+: before)
    (hclosest : ¬ ['*', '/'] <:+: inside) (hinside : inside ≠ []) :
    ∃ mark body, body.count '\n' = inside.count '\n' ∧ ∀ line after,
      scanFrom line (before ++ '/' :: '*' :: (inside ++ '*' :: '/' :: after)) =
        ⟨mark, body, line + before.count '\n', after⟩ ::
          scanFrom (line + before.count '\n' + body.count '\n') after := by
  let s : Span := ⟨before, inside, []⟩
  refine ⟨s.toBlock.mark, s.toBlock.body, Span.count_body_toBlock s, ?_⟩
  intro line after
  let t : Span := ⟨before, inside, after⟩
  have hsame : t.toBlock.mark = s.toBlock.mark ∧ t.toBlock.body = s.toBlock.body :=
    Span.toBlock_congr rfl
  have hwhole : ¬ t.Swallows := fun h => hinside h.1
  have hopened : afterOpening (inside ++ '*' :: '/' :: after) =
      some (s.toBlock.mark, s.toBlock.body, after) := by
    rw [← hsame.1, ← hsame.2]
    exact Span.afterOpening_toBlock (s := t) hclosest hwhole
  rw [scanFrom_append hfirst, scanFrom_opening hopened]

theorem scanFrom_append_plain {text : List Char} (hopening : ¬ ['/', '*'] <:+: text)
    (hslash : text.getLast? ≠ some '/') (line : Nat) (more : List Char) :
    scanFrom line (text ++ more) = scanFrom (line + text.count '\n') more := by
  induction text generalizing line with
  | nil =>
      rfl
  | cons c text ih =>
      have htail : ¬ ['/', '*'] <:+: text := fun hin => hopening (List.infix_cons hin)
      have hstart : ¬ ['/', '*'] <+: c :: (text ++ more) := by
        intro hstarts
        rcases List.cons_prefix_cons.1 hstarts with ⟨rfl, hstar⟩
        cases text with
        | nil =>
            exact hslash rfl
        | cons d text =>
            have hd : '*' = d := (List.cons_prefix_cons.1 hstar).1
            subst hd
            exact hopening ⟨[], text, rfl⟩
      have hslash' : text.getLast? ≠ some '/' := by
        intro hlast
        exact hslash (by simp [List.getLast?_cons, hlast])
      have hcount : (c :: text).count '\n' = [c].count '\n' + text.count '\n' :=
        @List.count_append _ _ '\n' [c] text
      rw [List.cons_append, scanFrom_cons hstart, ih htail hslash', hcount, Nat.add_assoc]

/-- The blocks of a text that ends in code are not changed by what follows it, but for the text
that stands after them; the scan goes on at the seam. -/
theorem scanFrom_seam {text : List Char} (h : EndsInCode text) (line : Nat) (more : List Char) :
    scanFrom line (text ++ more) =
      (scanFrom line text).map (followedBy more) ++ scanFrom (line + text.count '\n') more := by
  induction h generalizing line with
  | @code text hopening hline =>
      have hslash : text.getLast? ≠ some '/' := by simp [hline]
      have hnone : scanFrom line text = [] := by
        have hpassed := scanFrom_append_plain hopening hslash line []
        rwa [List.append_nil, scanFrom] at hpassed
      rw [scanFrom_append_plain hopening hslash, hnone]
      rfl
  | @comment before inside after hfirst hclosest hinside _ _ ih =>
      rcases scanFrom_comment hfirst hclosest hinside with ⟨mark, body, hbody, hscan⟩
      have hassoc : before ++ '/' :: '*' :: (inside ++ '*' :: '/' :: after) ++ more =
          before ++ '/' :: '*' :: (inside ++ '*' :: '/' :: (after ++ more)) := by
        simp
      have hcount : line + before.count '\n' + body.count '\n' + after.count '\n' =
          line + (before ++ '/' :: '*' :: (inside ++ '*' :: '/' :: after)).count '\n' := by
        simp [hbody, Nat.add_assoc]
      rw [hassoc, hscan, hscan, ih, hcount]
      rfl

/-- Text with an ended line after something that is not blank. -/
def HasCodeLine (text : List Char) : Prop :=
  text.getLast? = some '\n' ∧ ∃ c ∈ text, isBlank c = false

theorem trimStart_of_hasCodeLine {text : List Char} (h : HasCodeLine text) :
    '\n' ∈ trimStart text ∧ ∀ more, trimStart (text ++ more) = trimStart text ++ more := by
  rcases h with ⟨hline, c, hmem, hc⟩
  have hfilled : trimStart text ≠ [] := by
    intro hnil
    have hblank := List.dropWhile_eq_nil_iff.1 hnil c hmem
    rw [hc] at hblank
    cases hblank
  constructor
  · -- What is trimmed off the start does not reach the last character.
    have hwhole : text.takeWhile isBlank ++ trimStart text = text :=
      List.takeWhile_append_dropWhile
    have hlast := List.getLast?_append_of_ne_nil (text.takeWhile isBlank) hfilled
    rw [hwhole, hline] at hlast
    exact List.mem_of_getLast? hlast.symm
  · intro more
    have hempty : (trimStart text).isEmpty = false := List.isEmpty_eq_false_iff.2 hfilled
    simp only [trimStart, List.dropWhile_append] at hempty ⊢
    simp [hempty]

theorem takeWhile_append_of_newline_mem {text : List Char} (h : '\n' ∈ text) (more : List Char) :
    (text ++ more).takeWhile (· != '\n') = text.takeWhile (· != '\n') := by
  rw [List.takeWhile_append, if_neg]
  intro hlength
  have hall : text.takeWhile (· != '\n') = text := (List.takeWhile_prefix _).eq_of_length hlength
  rw [← hall] at h
  have hnewline := List.mem_takeWhile_imp h
  simp at hnewline

theorem hasCodeLine_of_mem_scanFrom {text : List Char} (h : EndsInCode text) {line : Nat} {b : Block}
    (hb : b ∈ scanFrom line text) : HasCodeLine b.rest := by
  induction h generalizing line with
  | @code text hopening hline =>
      have hslash : text.getLast? ≠ some '/' := by simp [hline]
      have hpassed := scanFrom_append_plain hopening hslash line []
      rw [List.append_nil, scanFrom] at hpassed
      rw [hpassed] at hb
      cases hb
  | @comment before inside after hfirst hclosest hinside hcode hafter ih =>
      rcases scanFrom_comment hfirst hclosest hinside with ⟨mark, body, -, hscan⟩
      rw [hscan] at hb
      rcases List.mem_cons.1 hb with rfl | hlater
      · exact ⟨hafter.getLast?, hcode⟩
      · exact ih hlater

/-- The line of code after a block ends before the seam. -/
theorem code_followedBy {b : Block} (h : HasCodeLine b.rest) (more : List Char) :
    (b.followedBy more).code = b.code := by
  rcases trimStart_of_hasCodeLine h with ⟨hnewline, hstart⟩
  have hline := takeWhile_append_of_newline_mem hnewline more
  simp only [code, followedBy, hstart, hline]

theorem scanFrom_unclosed {line : Nat} {inside : List Char} (h : afterOpening inside = none) :
    scanFrom line ('/' :: '*' :: inside) = scanFrom line ('*' :: inside) := by
  rw [scanFrom]
  split
  · next hfound =>
    rw [h] at hfound
    cases hfound
  · rfl

theorem scanFrom_movedDown (line count : Nat) (text : List Char) :
    scanFrom (line + count) text = (scanFrom line text).map (movedDown count) := by
  fun_induction scanFrom line text with
  | case1 line =>
      rw [scanFrom]
      rfl
  | case2 line inside mark body rest hfound ih =>
      have hnext : line + count + body.count '\n' = line + body.count '\n' + count := by omega
      rw [scanFrom_opening hfound, hnext, ih]
      rfl
  | case3 line inside hnone ih =>
      rw [scanFrom_unclosed hnone, ih]
  | case4 line c text hopening ih =>
      have hnext : (if c = '\n' then line + count + 1 else line + count) =
          (if c = '\n' then line + 1 else line) + count := by
        split <;> omega
      rw [dite_eq_ite] at ih
      rw [scanFrom, hnext, ih]
      exact hopening

end Block

/-! ## Comments -/

namespace Comment

def movedDown (count : Nat) (c : Comment) : Comment :=
  { c with line := c.line + count }

theorem parse_movedDown (raw : Bool) (line : Int) (count : Nat) (code body : List Char) :
    parse raw (line + count) code body = (parse raw line code body).map (movedDown count) := by
  simp only [parse]
  split
  · rfl
  · rfl

theorem ofBlock_movedDown (raw : Bool) (count : Nat) (b : Block) :
    ofBlock raw (b.movedDown count) = (ofBlock raw b).map (movedDown count) := by
  have hline : ((b.movedDown count).line : Int) = b.line + count := Int.natCast_add b.line count
  have hmark : (b.movedDown count).mark = b.mark := rfl
  have hparse := parse_movedDown raw b.line count b.code b.body
  unfold ofBlock
  rw [hline, hmark]
  cases b.mark with
  | ignored =>
      rfl
  | plain =>
      exact hparse
  | doc =>
      exact hparse

theorem ofBlock_followedBy (raw : Bool) {b : Block} (h : Block.HasCodeLine b.rest)
    (more : List Char) : ofBlock raw (b.followedBy more) = ofBlock raw b := by
  have hcode := Block.code_followedBy h more
  unfold ofBlock
  rw [hcode]
  rfl

/-- The blocks that are read of a text that ends in code and of the text after it. -/
theorem filter_scan_seam {text : List Char} (h : EndsInCode text) (options : SourceOptions)
    (more : List Char) :
    (Block.scan (text ++ more)).filter (isWanted options) =
      ((Block.scan text).filter (isWanted options)).map (Block.followedBy more) ++
        ((Block.scan more).filter (isWanted options)).map (Block.movedDown (text.count '\n')) := by
  have hscan : Block.scan (text ++ more) =
      (Block.scan text).map (Block.followedBy more) ++
        (Block.scan more).map (Block.movedDown (text.count '\n')) := by
    have hseam := Block.scanFrom_seam h 1 more
    rwa [Block.scanFrom_movedDown] at hseam
  have hfollowed : isWanted options ∘ Block.followedBy more = isWanted options := rfl
  have hmoved : isWanted options ∘ Block.movedDown (text.count '\n') = isWanted options := rfl
  rw [hscan, List.filter_append, List.filter_map, List.filter_map, hfollowed, hmoved]

/-- The two parts of a source are read one after the other, and the lines of the second are counted
on from the end of the first. -/
theorem ofSource_append {first : String} {spans : List Span}
    (h : IsSelfContained first.toList spans) (options : SourceOptions) (second : String) :
    ofSource options (first ++ second) =
      ofSource options first >>= fun before =>
        (ofSource options second).map fun after =>
          before ++ after.map (movedDown (first.toList.count '\n')) := by
  have hcode : EndsInCode (Text.foldCrLf first.toList) :=
    (EndsInCode.of_delimits h.delimits h.endsLine h.noEmpty h.closed h.code).foldCrLf
  have hfold : Text.foldCrLf (first ++ second).toList =
      Text.foldCrLf first.toList ++ Text.foldCrLf second.toList := by
    rw [String.toList_append]
    exact foldCrLf_append (Or.inl (by simp [h.endsLine]))
  let wanted (s : String) := (Block.scan (Text.foldCrLf s.toList)).filter (isWanted options)
  have hread : ∀ s, ofSource options s = (wanted s).mapM (ofBlock options.raw) := fun s => rfl
  -- The blocks of the first part are read the same before other text.
  have hfirst : (wanted first).mapM (ofBlock options.raw ∘
      Block.followedBy (Text.foldCrLf second.toList)) = ofSource options first := by
    apply Outcome.mapM_congr
    intro b hb
    have hb' := (List.mem_filter.1 hb).1
    exact ofBlock_followedBy options.raw (Block.hasCodeLine_of_mem_scanFrom hcode hb') _
  -- Those of the second are the same on later lines.
  have hsecond : (wanted second).mapM (ofBlock options.raw ∘
      Block.movedDown (first.toList.count '\n')) =
        (ofSource options second).map (List.map (movedDown (first.toList.count '\n'))) := by
    rw [hread, ← Outcome.mapM_map_result]
    apply Outcome.mapM_congr
    intro b _
    exact ofBlock_movedDown options.raw _ b
  have hwanted : wanted (first ++ second) =
      (wanted first).map (Block.followedBy (Text.foldCrLf second.toList)) ++
        (wanted second).map (Block.movedDown (first.toList.count '\n')) := by
    have hseam := filter_scan_seam hcode options (Text.foldCrLf second.toList)
    rwa [← hfold, count_foldCrLf] at hseam
  rw [hread, hwanted, List.mapM_append, List.mapM_map, List.mapM_map, hfirst, hsecond]
  cases ofSource options second with
  | error fault =>
      rfl
  | ok after =>
      rfl

/-- A comment that is skipped, a doc comment with a tag, and a line of code. -/
def twoComments : String :=
  "/* x */\r\n/** F.\r\n * @param a\r\n */\r\nfunction f() {}\r\n"

theorem ofSource_append_twoComments :
    ∃ spans, IsSelfContained twoComments.toList spans ∧
      (ofSource {} (twoComments ++ "/** G. */ g = 1")).toOption.isSome = true ∧
      ofSource {} (twoComments ++ "/** G. */ g = 1") =
        ofSource {} twoComments >>= fun before =>
          (ofSource {} "/** G. */ g = 1").map fun after =>
            before ++ after.map (movedDown (twoComments.toList.count '\n')) := by
  have hrest : Delimits "/* x */\r\n/** F.\r\n * @param a\r\n */".toList
      "\r\nfunction f() {}\r\n".toList [] := .of_not_opened (by decide)
  have hdoc := @Delimits.next "/* x */".toList "\r\n".toList "* F.\r\n * @param a\r\n ".toList _ _
    (by decide) (by decide) hrest
  have hall := @Delimits.next [] [] " x ".toList _ _ (by decide) (by decide) hdoc
  have hself : IsSelfContained twoComments.toList _ :=
    ⟨hall, by decide +kernel, by decide +kernel, by decide +kernel, fun _ => ⟨'f', by decide, rfl⟩⟩
  exact ⟨_, hself, by decide +kernel, ofSource_append hself {} _⟩

end Comment
end ScriptDoc
