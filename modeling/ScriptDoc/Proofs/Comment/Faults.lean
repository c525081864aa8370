import ScriptDoc.Comment.Block
import ScriptDoc.Proofs.Outcome
import ScriptDoc.Proofs.Tag.Faults

/-!
# Faults — the sources that are refused

- `Comment.writtenTags`          : the tags of a source in order, those of unread blocks left out
- `Comment.ofSource_refused_iff` : a source is refused for the first of them that has a fault
-/

namespace ScriptDoc

namespace Block

/-- Blocks to be left out are not read, and plain ones only if they are not skipped. -/
def isRead (options : SourceOptions) (b : Block) : Bool :=
  b.mark == .doc || (b.mark == .plain && !options.skipSingleStar)

/-- The word and the text of each tag. -/
def tags (b : Block) : List (String × String) :=
  (Body.split b.body).2.map fun (word, text) => (String.ofList word, String.ofList text)

end Block

namespace Comment

def writtenTags (options : SourceOptions) (source : String) : List (String × String) :=
  ((Block.scan (Text.foldCrLf source.toList)).filter (Block.isRead options)).flatMap Block.tags

/-! ## Blocks -/

theorem parse_eq_error_iff {raw : Bool} {line : Int} {code body : List Char} {fault : TagFault} :
    parse raw line code body = .error fault ↔
      ((Body.split body).2.mapM fun (word, text) =>
        Tag.parse (String.ofList word) (String.ofList text)) = .error fault := by
  simp only [parse]
  split
  · next own hown =>
    rw [hown]
    simp
  · next tags htags =>
    rw [htags]
    simp

/-- A block to be left out counts as one without tags. -/
def tagsRead (b : Block) : List (String × String) :=
  if b.mark = .ignored then [] else b.tags

theorem ofBlock_eq_error_iff (raw : Bool) (b : Block) (fault : TagFault) :
    ofBlock raw b = .error fault ↔
      ((tagsRead b).mapM fun tag => Tag.parse tag.1 tag.2) = .error fault := by
  unfold ofBlock tagsRead
  split
  · next hignored =>
    simp [hignored, pure, Except.pure]
  · next hread =>
    rw [if_neg hread, parse_eq_error_iff, Block.tags, List.mapM_map]
    rfl

theorem flatMap_tags_eq (options : SourceOptions) (blocks : List Block) :
    (blocks.filter (Block.isRead options)).flatMap Block.tags =
      (blocks.filter (isWanted options)).flatMap tagsRead := by
  induction blocks with
  | nil =>
      rfl
  | cons b blocks ih =>
      cases hmark : b.mark with
      | ignored =>
          simp [Block.isRead, isWanted, tagsRead, hmark, ih]
      | doc =>
          simp [Block.isRead, isWanted, tagsRead, hmark, ih]
      | plain =>
          cases hskip : options.skipSingleStar with
          | true =>
              simp [Block.isRead, isWanted, hmark, hskip, ih]
          | false =>
              simp [Block.isRead, isWanted, tagsRead, hmark, hskip, ih]

/-! ## Sources -/

variable {options : SourceOptions} {source : String} {fault : TagFault}

theorem mapM_writtenTags_eq_error_iff :
    ((writtenTags options source).mapM fun tag => Tag.parse tag.1 tag.2) = .error fault ↔
      ofSource options source = .error fault := by
  rw [writtenTags, flatMap_tags_eq]
  exact Outcome.mapM_flatMap_eq_error_iff (ofBlock_eq_error_iff options.raw)

/-- A tag without a fault is one that can be read. -/
theorem exists_parse_eq_ok_iff {tag : String × String} :
    (∃ result, Tag.parse tag.1 tag.2 = .ok result) ↔ ∀ own, ¬ Tag.HasFault tag.1 tag.2 own := by
  rw [Outcome.exists_ok_iff]
  exact forall_congr' fun own => not_congr Tag.parse_eq_error_iff

theorem ofSource_eq_error_iff :
    ofSource options source = .error fault ↔
      ∃ earlier tag later, writtenTags options source = earlier ++ tag :: later ∧
        Tag.HasFault tag.1 tag.2 fault ∧
          ∀ other ∈ earlier, ∀ own, ¬ Tag.HasFault other.1 other.2 own := by
  rw [← mapM_writtenTags_eq_error_iff, Outcome.mapM_eq_error_iff]
  simp only [Tag.parse_eq_error_iff, exists_parse_eq_ok_iff]

theorem exists_ofSource_eq_error_iff :
    (∃ fault, ofSource options source = .error fault) ↔
      ∃ b ∈ Block.scan (Text.foldCrLf source.toList), b.isRead options = true ∧
        ∃ tag ∈ b.tags, ∃ own, Tag.HasFault tag.1 tag.2 own := by
  have hrefused : (∃ fault, ofSource options source = .error fault) ↔
      ∃ tag ∈ writtenTags options source, ∃ own, Tag.HasFault tag.1 tag.2 own := by
    rw [← not_iff_not]
    simp only [← mapM_writtenTags_eq_error_iff, not_exists, not_and]
    rw [← Outcome.exists_ok_iff, Outcome.exists_mapM_eq_ok_iff]
    simp only [exists_parse_eq_ok_iff]
  rw [hrefused]
  simp only [writtenTags, List.mem_flatMap, List.mem_filter]
  constructor
  · rintro ⟨tag, ⟨b, ⟨hb, hread⟩, htag⟩, hfault⟩
    exact ⟨b, hb, hread, tag, htag, hfault⟩
  · rintro ⟨b, hb, hread, tag, htag, hfault⟩
    exact ⟨tag, ⟨b, ⟨hb, hread⟩, htag⟩, hfault⟩

/-- A tag is refused for a fault that it has. A source is refused if a block that is read has a tag
with a fault, and then for the first one, whatever the other blocks hold. -/
theorem ofSource_refused_iff :
    (∀ word text fault,
      Tag.parse word text = .error fault ↔ Tag.HasFault word text fault) ∧
    (∀ options source,
      (∃ fault, ofSource options source = .error fault) ↔
        ∃ b ∈ Block.scan (Text.foldCrLf source.toList), b.isRead options = true ∧
          ∃ tag ∈ b.tags, ∃ own, Tag.HasFault tag.1 tag.2 own) ∧
    ∀ options source fault,
      ofSource options source = .error fault ↔
        ∃ earlier tag later, writtenTags options source = earlier ++ tag :: later ∧
          Tag.HasFault tag.1 tag.2 fault ∧
            ∀ other ∈ earlier, ∀ own, ¬ Tag.HasFault other.1 other.2 own := by
  refine ⟨?_, ?_, ?_⟩
  · intro word text fault
    exact Tag.parse_eq_error_iff
  · intro options source
    exact exists_ofSource_eq_error_iff
  · intro options source fault
    exact ofSource_eq_error_iff

end Comment
end ScriptDoc
