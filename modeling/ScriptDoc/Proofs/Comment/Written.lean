import ScriptDoc.Proofs.Comment.Sections
import ScriptDoc.Proofs.Outcome
import ScriptDoc.Proofs.Tag.Parts

/-!
# Written — comments written out and read back

- `Body.write`          : a description and tags as the body of a doc comment
- `Body.IsWritable`     : descriptions and tags that can be told apart when they are written
- `Body.split_write`    : these are read back as they were
- `Body.isWritable_split` : and all that is ever read can be written
- `Comment.parse_write` : the same for comments
-/

namespace ScriptDoc
namespace Body

open Text

/-! ## Writing -/

def decorate (line : List Char) : List Char :=
  ' ' :: '*' :: ' ' :: line

def tagText (tag : List Char × List Char) : List Char :=
  '@' :: (tag.1 ++ ' ' :: tag.2)

/-- The lines of a description, if there is any, and those of the tags. -/
def written (description : List Char) (tags : List (List Char × List Char)) : List (List Char) :=
  (if description.isEmpty then [] else lines description) ++
    tags.flatMap fun tag => lines (tagText tag)

def write (description : List Char) (tags : List (List Char × List Char)) : List Char :=
  unlines ((written description tags).map decorate)

/-- No line that would open a tag stands where another section goes on. -/
structure IsWritable (description : List Char) (tags : List (List Char × List Char)) : Prop where
  trimmed : IsTrimmed description
  plain : ∀ line ∈ lines description, ¬ OpensTag line
  words : ∀ tag ∈ tags, tag.1 ≠ [] ∧ ∀ c ∈ tag.1, isWord c = true
  texts : ∀ tag ∈ tags, IsTrimmed tag.2
  continued : ∀ tag ∈ tags, ∀ line ∈ (lines tag.2).tail, ¬ OpensTag line

instance (description : List Char) (tags : List (List Char × List Char)) :
    Decidable (IsWritable description tags) :=
  decidable_of_iff
    ((decide (IsTrimmed description) && (lines description).all (fun line => !OpensTag line) &&
      tags.all fun tag => !tag.1.isEmpty && tag.1.all isWord && decide (IsTrimmed tag.2) &&
        (lines tag.2).tail.all fun line => !OpensTag line) = true) <| by
    simp only [Bool.and_eq_true, List.all_eq_true, Bool.not_eq_true', decide_eq_true_eq,
      decide_eq_false_iff_not, List.isEmpty_eq_false_iff]
    constructor
    · rintro ⟨⟨trimmed, plain⟩, htags⟩
      exact ⟨trimmed, plain, fun tag htag => (htags tag htag).1.1,
        fun tag htag => (htags tag htag).1.2, fun tag htag => (htags tag htag).2⟩
    · intro h
      exact ⟨⟨h.trimmed, h.plain⟩, fun tag htag =>
        ⟨⟨h.words tag htag, h.texts tag htag⟩, h.continued tag htag⟩⟩

/-! ## Stars -/

theorem undecorateLine_decorate (line : List Char) : undecorateLine (decorate line) = line := by
  simp [undecorateLine, decorate, isIndent]

theorem newline_not_mem_of_mem_written {description line : List Char}
    {tags : List (List Char × List Char)} (h : line ∈ written description tags) : '\n' ∉ line := by
  rcases List.mem_append.1 h with hlead | htag
  · split at hlead
    · cases hlead
    · exact newline_not_mem_of_mem_lines hlead
  · rcases List.mem_flatMap.1 htag with ⟨tag, -, hline⟩
    exact newline_not_mem_of_mem_lines hline

theorem undecorate_decorated {ls : List (List Char)} (h : ∀ line ∈ ls, '\n' ∉ line) :
    undecorate (unlines (ls.map decorate)) = trim (unlines ls) := by
  cases ls with
  | nil =>
      rfl
  | cons line ls =>
      have hlines : lines (unlines ((line :: ls).map decorate)) = (line :: ls).map decorate := by
        apply lines_unlines (by simp)
        intro decorated hdecorated
        rcases List.mem_map.1 hdecorated with ⟨own, hown, rfl⟩
        simpa [decorate] using h own hown
      have hsame : undecorateLine ∘ decorate = id := by
        funext own
        exact undecorateLine_decorate own
      unfold undecorate
      rw [hlines, List.map_map, hsame, List.map_id]

theorem ofLines_lines_unlines {ls : List (List Char)} (h : ∀ line ∈ ls, '\n' ∉ line) :
    ofLines (lines (unlines ls)) = ofLines ls := by
  cases ls with
  | nil =>
      rfl
  | cons line ls =>
      rw [lines_unlines (by simp) h]

theorem split_write_eq (description : List Char) (tags : List (List Char × List Char)) :
    split (write description tags) = ofLines (written description tags) := by
  have hlines : ∀ line ∈ written description tags, '\n' ∉ line :=
    fun line => newline_not_mem_of_mem_written
  rw [split_eq, write, undecorate_decorated hlines, ofLines_lines_trim,
    ofLines_lines_unlines hlines]

/-! ## Reading what was written -/

theorem sections_append_plain {ls : List (List Char)} (h : ∀ line ∈ ls, ¬ OpensTag line)
    (more : List (List Char)) :
    sections (ls ++ more) = (ls ++ (sections more).1, (sections more).2) := by
  induction ls with
  | nil =>
      rfl
  | cons line ls ih =>
      rw [List.forall_mem_cons] at h
      rw [List.cons_append, sections_cons_of_plain h.1, ih h.2, List.cons_append]

/-- A tag that is written is one section, with all lines of its text. -/
theorem sections_tagText {tag : List Char × List Char}
    (hword : tag.1 ≠ [] ∧ ∀ c ∈ tag.1, isWord c = true)
    (hplain : ∀ line ∈ (lines tag.2).tail, ¬ OpensTag line) (more : List (List Char)) :
    sections (lines (tagText tag) ++ more) =
      ([], (tag.1, lines tag.2 ++ (sections more).1) :: (sections more).2) := by
  rcases tag with ⟨word, text⟩
  cases hlines : lines text with
  | nil =>
      exact absurd hlines (lines_ne_nil text)
  | cons first others =>
      have hstart : '\n' ∉ '@' :: (word ++ [' ']) := by
        intro hmem
        have hinside : '\n' ∈ word := by simpa using hmem
        have hno : isWord '\n' = true := hword.2 '\n' hinside
        revert hno
        decide
      have hwhole : lines (tagText (word, text)) = ('@' :: (word ++ ' ' :: first)) :: others := by
        have hcut := lines_append_of_not_mem hstart hlines
        simpa [tagText] using hcut
      have hspace : isWord ' ' = false := by decide
      have htag : tagLine? ('@' :: (word ++ ' ' :: first)) = some (word, first) :=
        tagLine?_eq_some_iff.2 ⟨[], ' ' :: first, rfl, by simp, hword.1, hword.2, hspace, rfl⟩
      rw [hlines, List.tail_cons] at hplain
      rw [hwhole, List.cons_append, sections_cons_of_tag htag, sections_append_plain hplain]
      rfl

theorem sections_tagTexts {tags : List (List Char × List Char)}
    (hwords : ∀ tag ∈ tags, tag.1 ≠ [] ∧ ∀ c ∈ tag.1, isWord c = true)
    (hplain : ∀ tag ∈ tags, ∀ line ∈ (lines tag.2).tail, ¬ OpensTag line) :
    sections (tags.flatMap fun tag => lines (tagText tag)) =
      ([], tags.map fun tag => (tag.1, lines tag.2)) := by
  induction tags with
  | nil =>
      rfl
  | cons tag tags ih =>
      rw [List.forall_mem_cons] at hwords hplain
      rw [List.flatMap_cons, sections_tagText hwords.1 hplain.1, ih hwords.2 hplain.2,
        List.append_nil, List.map_cons]

theorem split_write {description : List Char} {tags : List (List Char × List Char)}
    (h : IsWritable description tags) : split (write description tags) = (description, tags) := by
  have hlead : ∀ line ∈ if description.isEmpty then [] else lines description,
      ¬ OpensTag line := by
    intro line hline
    split at hline
    · cases hline
    · exact h.plain line hline
  have hdescription :
      unlines (if description.isEmpty then [] else lines description) = description := by
    split
    · next hempty =>
      rw [List.isEmpty_iff.1 hempty]
      rfl
    · exact unlines_lines description
  have htags : tags.map (fun tag => (tag.1, trim (unlines (lines tag.2)))) = tags := by
    refine (List.map_congr_left ?_).trans (List.map_id tags)
    intro tag htag
    rw [unlines_lines, trim_eq_self (h.texts tag htag)]
    rfl
  rw [split_write_eq, written, ofLines, sections_append_plain hlead,
    sections_tagTexts h.words h.continued]
  simp only [List.append_nil, List.map_map, Function.comp_def]
  rw [hdescription, trim_eq_self h.trimmed, htags]

/-! ## Writing what was read -/

/-- No line from number `n` on opens a tag; the first line has number `0`. -/
def PlainFrom (n : Nat) (s : List Char) : Prop :=
  ∀ line ∈ (lines s).drop n, ¬ OpensTag line

namespace PlainFrom

variable {n : Nat} {s : List Char} {c : Char}

theorem of_cons_blank (hc : isBlank c = true) (h : PlainFrom n (c :: s)) : PlainFrom n s := by
  unfold PlainFrom at *
  by_cases hnewline : c = '\n'
  · rw [hnewline, lines_cons_newline] at h
    intro line hline
    apply h line
    -- There is one more line now in front of those that were asked for.
    have hlater : line ∈ (([] :: lines s).drop n).drop 1 := by
      rw [List.drop_drop]
      exact hline
    exact List.mem_of_mem_drop hlater
  · rw [lines_cons_of_ne hnewline] at h
    cases hlines : lines s with
    | nil =>
        exact absurd hlines (lines_ne_nil s)
    | cons first others =>
        rw [hlines, consFirst] at h
        cases n with
        | zero =>
            rw [List.drop_zero, List.forall_mem_cons, opensTag_cons_blank hc] at h
            exact List.forall_mem_cons.2 h
        | succ n =>
            exact h

theorem of_append (h : PlainFrom n (s ++ [c])) : PlainFrom n s := by
  unfold PlainFrom at *
  rcases exists_lines_append s c with ⟨before, last, hlines, hlonger⟩
  rw [hlonger, List.drop_append] at h
  rw [hlines, List.drop_append]
  intro line hline
  rcases List.mem_append.1 hline with hbefore | hlast
  · exact h line (List.mem_append_left _ hbefore)
  · -- The last line was asked for, and it opens no tag if a longer one does not.
    cases hn : n - before.length with
    | succ k =>
        rw [hn] at hlast
        simp at hlast
    | zero =>
        rw [hn] at h hlast
        have hline : line = last := by simpa using hlast
        rw [hline]
        split at h
        · exact h last (by simp)
        · intro hopens
          exact h (last ++ [c]) (by simp) (hopens.append [c])

theorem trim (h : PlainFrom n s) : PlainFrom n (trim s) :=
  trim_induction (motive := PlainFrom n) (fun _ _ hc h => h.of_cons_blank hc)
    (fun _ _ _ h => h.of_append) h

end PlainFrom

/-- Lines of a text that are put together again are the same lines, or there are none. -/
theorem plainFrom_unlines {n : Nat} {ls : List (List Char)} (hlines : ∀ line ∈ ls, '\n' ∉ line)
    (h : ∀ line ∈ ls.drop n, ¬ OpensTag line) : PlainFrom n (unlines ls) := by
  cases ls with
  | nil =>
      intro line hline
      have hempty : line = [] := by
        simpa [unlines, join, lines, splitOn] using List.mem_of_mem_drop hline
      rw [hempty]
      exact not_opensTag_nil
  | cons first others =>
      unfold PlainFrom
      rwa [lines_unlines (by simp) hlines]

theorem plain_of_mem_lead {ls : List (List Char)} {line : List Char}
    (h : line ∈ (sections ls).1) : line ∈ ls ∧ ¬ OpensTag line := by
  induction ls with
  | nil =>
      cases h
  | cons first ls ih =>
      cases htag : tagLine? first with
      | some tag =>
          rw [sections_cons_of_tag htag] at h
          cases h
      | none =>
          have hplain := tagLine?_eq_none_iff.1 htag
          rw [sections_cons_of_plain hplain] at h
          rcases List.mem_cons.1 h with rfl | hlater
          · exact ⟨List.mem_cons_self, hplain⟩
          · exact ⟨List.mem_cons_of_mem _ (ih hlater).1, (ih hlater).2⟩

/-- A section of a tag has the line that opens it and lines that open none. -/
theorem exists_of_mem_tags {ls : List (List Char)} {tag : List Char × List (List Char)}
    (h : tag ∈ (sections ls).2) :
    ∃ line ∈ ls, ∃ first others, tagLine? line = some (tag.1, first) ∧ tag.2 = first :: others ∧
      ∀ other ∈ others, other ∈ ls ∧ ¬ OpensTag other := by
  induction ls with
  | nil =>
      cases h
  | cons line ls ih =>
      have hlater : tag ∈ (sections ls).2 → ∃ line' ∈ line :: ls, ∃ first others,
          tagLine? line' = some (tag.1, first) ∧ tag.2 = first :: others ∧
            ∀ other ∈ others, other ∈ line :: ls ∧ ¬ OpensTag other := by
        intro hmem
        rcases ih hmem with ⟨line', hline', first, others, htag, hown, hothers⟩
        refine ⟨line', List.mem_cons_of_mem _ hline', first, others, htag, hown, ?_⟩
        intro other hother
        exact ⟨List.mem_cons_of_mem _ (hothers other hother).1, (hothers other hother).2⟩
      cases htag : tagLine? line with
      | some opened =>
          rw [sections_cons_of_tag htag] at h
          rcases List.mem_cons.1 h with rfl | hmem
          · refine ⟨line, List.mem_cons_self, opened.2, (sections ls).1, htag, rfl, ?_⟩
            intro other hother
            have hplain := plain_of_mem_lead hother
            exact ⟨List.mem_cons_of_mem _ hplain.1, hplain.2⟩
          · exact hlater hmem
      | none =>
          rw [sections_cons_of_plain (tagLine?_eq_none_iff.1 htag)] at h
          exact hlater h

theorem isWritable_ofLines {ls : List (List Char)} (hlines : ∀ line ∈ ls, '\n' ∉ line) :
    IsWritable (ofLines ls).1 (ofLines ls).2 := by
  have htags : ∀ tag ∈ (ofLines ls).2, ∃ line ∈ ls, ∃ first others,
      tagLine? line = some (tag.1, first) ∧ tag.2 = trim (unlines (first :: others)) ∧
        ∀ other ∈ others, other ∈ ls ∧ ¬ OpensTag other := by
    intro tag htag
    rcases List.mem_map.1 htag with ⟨own, hown, rfl⟩
    rcases exists_of_mem_tags hown with ⟨line, hline, first, others, hopened, hsame, hothers⟩
    exact ⟨line, hline, first, others, hopened, by rw [← hsame], hothers⟩
  constructor
  · exact isTrimmed_trim _
  · have hlead : PlainFrom 0 (unlines (sections ls).1) := by
      apply plainFrom_unlines
      · intro line hline
        exact hlines line (plain_of_mem_lead hline).1
      · intro line hline
        exact (plain_of_mem_lead hline).2
    exact hlead.trim
  · intro tag htag
    rcases htags tag htag with ⟨line, -, first, others, hopened, -, -⟩
    rcases tagLine?_eq_some_iff.1 hopened with ⟨blanks, rest, -, -, hword, hwords, -, -⟩
    exact ⟨hword, hwords⟩
  · intro tag htag
    rcases htags tag htag with ⟨line, -, first, others, -, htext, -⟩
    rw [htext]
    exact isTrimmed_trim _
  · intro tag htag
    rcases htags tag htag with ⟨line, hline, first, others, hopened, htext, hothers⟩
    have hown : PlainFrom 1 (unlines (first :: others)) := by
      apply plainFrom_unlines
      · rw [List.forall_mem_cons]
        refine ⟨?_, fun other hother => hlines other (hothers other hother).1⟩
        intro hmem
        exact hlines line hline (mem_of_mem_first hopened hmem)
      · intro other hother
        exact (hothers other hother).2
    rw [htext, ← List.drop_one]
    exact hown.trim

theorem isWritable_split (body : List Char) : IsWritable (split body).1 (split body).2 := by
  rw [split_eq]
  exact isWritable_ofLines fun line => newline_not_mem_of_mem_lines

end Body

/-! ## Comments -/

/-- What a tag was read from, but for the word that stands for its own. -/
def Tag.source (tag : Tag) : List Char × List Char :=
  (tag.word.toList, tag.text.toList)

namespace Comment

open Text

theorem parse_write {description : List Char} {tags : List (List Char × List Char)}
    (h : Body.IsWritable description tags) (line : Int) (code : List Char) :
    parse true line code (Body.write description tags) =
      (tags.mapM fun tag => Tag.parse (String.ofList tag.1) (String.ofList tag.2)).map
        fun read =>
          { description := String.ofList description
            tags := read
            context := Context.ofCode? code
            isPrivate := read.any Tag.hides
            line := line } := by
  unfold parse
  rw [Body.split_write h]
  simp only [if_true]
  split
  · next fault hfault =>
    rw [hfault]
    rfl
  · next read hread =>
    rw [hread]
    rfl

/-- The parts of a raw comment that was read. -/
theorem parse_raw_eq_ok {line : Int} {code body : List Char} {c : Comment}
    (h : parse true line code body = .ok c) :
    c.description = String.ofList (Body.split body).1 ∧
      ((Body.split body).2.mapM fun tag => Tag.parse (String.ofList tag.1) (String.ofList tag.2)) =
        .ok c.tags ∧
      c = { description := c.description
            tags := c.tags
            context := Context.ofCode? code
            isPrivate := c.tags.any Tag.hides
            line := line } := by
  simp only [parse, if_true] at h
  split at h
  · cases h
  · next read hread =>
    have hc := Except.ok.inj h
    subst hc
    exact ⟨rfl, hread, rfl⟩

theorem canonical_isWord {word : List Char} (hword : word ≠ [] ∧ ∀ c ∈ word, isWord c = true) :
    (Tag.canonical (String.ofList word)).toList ≠ [] ∧
      ∀ c ∈ (Tag.canonical (String.ofList word)).toList, isWord c = true := by
  have hparam : "param".toList.all isWord = true := by decide
  have hproperty : "property".toList.all isWord = true := by decide
  unfold Tag.canonical
  split
  · exact ⟨by simp, List.all_eq_true.1 hparam⟩
  · split
    · exact ⟨by simp, List.all_eq_true.1 hproperty⟩
    · rwa [String.toList_ofList]

theorem isWritable_of_parse {line : Int} {code body : List Char} {c : Comment}
    (h : parse true line code body = .ok c) :
    Body.IsWritable c.description.toList (c.tags.map Tag.source) := by
  rcases parse_raw_eq_ok h with ⟨hdescription, htags, -⟩
  have hsplit := Body.isWritable_split body
  have hsource : ∀ tag ∈ c.tags.map Tag.source, ∃ own ∈ (Body.split body).2,
      tag = ((Tag.canonical (String.ofList own.1)).toList, own.2) := by
    intro tag htag
    rcases List.mem_map.1 htag with ⟨read, hread, rfl⟩
    rcases Outcome.exists_of_mem_mapM htags hread with ⟨own, hown, hparse⟩
    refine ⟨own, hown, ?_⟩
    rw [Tag.source, Tag.word_of_parse hparse, Tag.text_of_parse hparse, String.toList_ofList]
  rw [hdescription, String.toList_ofList]
  refine ⟨hsplit.trimmed, hsplit.plain, ?_, ?_, ?_⟩
  · intro tag htag
    rcases hsource tag htag with ⟨own, hown, rfl⟩
    exact canonical_isWord (hsplit.words own hown)
  · intro tag htag
    rcases hsource tag htag with ⟨own, hown, rfl⟩
    exact hsplit.texts own hown
  · intro tag htag
    rcases hsource tag htag with ⟨own, hown, rfl⟩
    exact hsplit.continued own hown

theorem parse_write_of_parse {line : Int} {code body : List Char} {c : Comment}
    (h : parse true line code body = .ok c) :
    parse true line code (Body.write c.description.toList (c.tags.map Tag.source)) = .ok c := by
  rcases parse_raw_eq_ok h with ⟨-, htags, hwhole⟩
  -- Each tag is read again from what it was read from.
  have hagain : ((c.tags.map Tag.source).mapM fun tag =>
      Tag.parse (String.ofList tag.1) (String.ofList tag.2)) = .ok c.tags := by
    rw [Outcome.mapM_eq_ok_iff, List.forall₂_map_left_iff, List.forall₂_same]
    intro tag htag
    rcases Outcome.exists_of_mem_mapM htags htag with ⟨own, -, hparse⟩
    rw [Tag.source, String.ofList_toList, String.ofList_toList]
    exact Tag.parse_word hparse
  rw [parse_write (isWritable_of_parse h), hagain, String.ofList_toList, Except.map]
  exact congrArg Except.ok hwhole.symm

/-- What can be written is read back, or the first fault of its tags is found; and whatever is read
can be written, and is the same comment then. -/
theorem parse_written :
    (∀ (description : List Char) (tags : List (List Char × List Char)),
      Body.IsWritable description tags → ∀ (line : Int) (code : List Char),
        parse true line code (Body.write description tags) =
          (tags.mapM fun tag => Tag.parse (String.ofList tag.1) (String.ofList tag.2)).map
            fun read =>
              { description := String.ofList description
                tags := read
                context := Context.ofCode? code
                isPrivate := read.any Tag.hides
                line := line }) ∧
      ∀ (line : Int) (code body : List Char) (c : Comment), parse true line code body = .ok c →
        Body.IsWritable c.description.toList (c.tags.map Tag.source) ∧
          parse true line code (Body.write c.description.toList (c.tags.map Tag.source)) =
            .ok c := by
  constructor
  · intro description tags h line code
    exact parse_write h line code
  · intro line code body c h
    exact ⟨isWritable_of_parse h, parse_write_of_parse h⟩

/-- A description with stars and an `@` that opens no tag, and tags with an alias, with no text, and
with lines that look like decoration. -/
def starredDescription : List Char :=
  "* Adds.\n\n  * twice\n@ sea".toList

def starredTags : List (List Char × List Char) :=
  [("arg".toList, "\x7bT\x7d x first\n\n    * more".toList), ("private".toList, []),
    ("see".toList, "@other\n@ b".toList)]

theorem parse_written_starred :
    Body.IsWritable starredDescription starredTags ∧
      ∃ c, parse true 1 [] (Body.write starredDescription starredTags) = .ok c ∧
        c.description.toList = starredDescription ∧
          Body.IsWritable c.description.toList (c.tags.map Tag.source) ∧
            parse true 1 [] (Body.write c.description.toList (c.tags.map Tag.source)) = .ok c := by
  have hwritable : Body.IsWritable starredDescription starredTags := by
    decide +kernel
  have hsome : (parse true 1 [] (Body.write starredDescription starredTags)).toOption.isSome =
      true := by
    decide +kernel
  rcases Outcome.exists_ok_of_isSome hsome with ⟨c, hread⟩
  have hwhole := parse_written.1 starredDescription starredTags hwritable 1 []
  rcases Outcome.map_eq_ok_iff.1 (hwhole.symm.trans hread) with ⟨read, -, rfl⟩
  exact ⟨hwritable, _, hread, String.toList_ofList, parse_written.2 1 [] _ _ hread⟩

end Comment
end ScriptDoc
