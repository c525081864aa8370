import ScriptDoc.Proofs.Outcome
import ScriptDoc.Record

/-!
# Reading — when a record is accepted, and as what

- `Comment.IsSound`               : every parameter, property and context of a comment is named
- `Draft.check_ofComment_iff`     : the check accepts the sound comments, and changes none
- `Record.readAll_perm`           : the order of the records decides only the order of the comments
- `Record.eq_of_readAll_ofComment` : of comments handed over as records all but the ignored come back
-/

namespace ScriptDoc

/-- Parameters, properties and contexts have names. -/
structure Comment.IsSound (c : Comment) : Prop where
  named : ∀ tag ∈ c.tags, Tag.isNamed tag.word = true → tag.name ≠ ""
  context : ∀ context, c.context = some context → context.name ≠ ""

/-! ## Parts -/

theorem DraftTag.check_ofTag_iff {line : Int} {tag read : Tag} :
    (DraftTag.ofTag tag).check line = .ok read ↔
      (Tag.isNamed tag.word = true → tag.name ≠ "") ∧ read = tag := by
  rw [eq_comm (a := read)]
  cases hnamed : Tag.isNamed tag.word with
  | false =>
      simp [DraftTag.check, DraftTag.ofTag, hnamed]
  | true =>
      by_cases hname : tag.name = ""
      · simp [DraftTag.check, DraftTag.ofTag, hnamed, hname]
      · simp [DraftTag.check, DraftTag.ofTag, hnamed, hname]

theorem DraftTag.mapM_check_ofTag_iff {line : Int} {tags read : List Tag} :
    (tags.map DraftTag.ofTag).mapM (DraftTag.check line) = .ok read ↔
      (∀ tag ∈ tags, Tag.isNamed tag.word = true → tag.name ≠ "") ∧ read = tags := by
  rw [Outcome.mapM_eq_ok_iff, List.forall₂_map_left_iff]
  simp only [DraftTag.check_ofTag_iff]
  -- The sound tags are told apart from what they are read as, which is themselves.
  have hsame : (fun tag result : Tag => result = tag) = Eq := by
    funext tag result
    exact propext eq_comm
  rw [List.forall₂_and_left, hsame, List.forall₂_eq_eq_eq, eq_comm (a := read)]

theorem Draft.checkContext_ofComment_iff {c : Comment} {read : Option Context} :
    (Draft.ofComment c).checkContext = .ok read ↔
      (∀ context, c.context = some context → context.name ≠ "") ∧ read = c.context := by
  rw [eq_comm (a := read)]
  cases hcontext : c.context with
  | none =>
      simp [Draft.checkContext, Draft.ofComment, hcontext]
  | some context =>
      by_cases hname : context.name = ""
      · simp [Draft.checkContext, Draft.ofComment, DraftContext.check, DraftContext.ofContext,
          hcontext, hname, Except.map]
      · simp [Draft.checkContext, Draft.ofComment, DraftContext.check, DraftContext.ofContext,
          hcontext, hname, Except.map]

/-! ## Whole comments -/

theorem Draft.check_ofComment_iff {c read : Comment} :
    (Draft.ofComment c).check = .ok read ↔ c.IsSound ∧ read = c := by
  have hsteps : (Draft.ofComment c).check = .ok read ↔
      ∃ tags, (c.tags.map DraftTag.ofTag).mapM (DraftTag.check c.line) = .ok tags ∧
        ∃ context, (Draft.ofComment c).checkContext = .ok context ∧
          { c with tags := tags, context := context } = read := by
    simp only [Draft.check, Draft.ofComment, Outcome.bind_eq_ok_iff, pure, Except.pure,
      Except.ok.injEq]
  -- Each step accepts what it is given as it stands, or refuses it.
  rw [hsteps]
  constructor
  · rintro ⟨tags, htags, context, hcontext, hread⟩
    rcases DraftTag.mapM_check_ofTag_iff.1 htags with ⟨hnamed, rfl⟩
    rcases Draft.checkContext_ofComment_iff.1 hcontext with ⟨hname, rfl⟩
    exact ⟨⟨hnamed, hname⟩, hread.symm⟩
  · rintro ⟨hsound, rfl⟩
    exact ⟨_, DraftTag.mapM_check_ofTag_iff.2 ⟨hsound.named, rfl⟩, _,
      Draft.checkContext_ofComment_iff.2 ⟨hsound.context, rfl⟩, rfl⟩

/-! ## Lists of records -/

namespace Record

theorem readAll_perm {records shuffled : List Record} {comments : List Comment}
    (hperm : shuffled.Perm records) (hread : readAll records = .ok comments) :
    ∃ others, readAll shuffled = .ok others ∧ others.Perm comments :=
  Outcome.mapM_eq_ok_perm (hperm.filter _) hread

/-- A comment is ignored as a record exactly when it is marked so itself. -/
theorem filter_map_ofComment (all : List Comment) :
    (all.map ofComment).filter (!·.isIgnored) = (all.filter (!·.isIgnored)).map ofComment := by
  rw [List.filter_map]
  rfl

theorem eq_of_readAll_ofComment {all comments : List Comment}
    (hread : readAll (all.map ofComment) = .ok comments) :
    comments = all.filter (!·.isIgnored) := by
  unfold readAll at hread
  rw [filter_map_ofComment, Outcome.mapM_eq_ok_iff, List.forall₂_map_left_iff] at hread
  -- Each record that is read back is the comment it was made of.
  have hsame : List.Forall₂ Eq (all.filter (!·.isIgnored)) comments := by
    refine hread.imp ?_
    intro c result hresult
    have hcheck : (Draft.ofComment c).check = .ok result :=
      Outcome.mapError_eq_ok_iff.1 hresult
    exact (Draft.check_ofComment_iff.1 hcheck).2.symm
  rw [List.forall₂_eq_eq_eq] at hsame
  exact hsame.symm

end Record
end ScriptDoc
