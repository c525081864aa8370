import ScriptDoc.Proofs.Comment.Scan
import ScriptDoc.Proofs.Entity.Arrangement
import ScriptDoc.Proofs.Entity.Shown
import ScriptDoc.Proofs.Record.Reading
import ScriptDoc.Listing

/-!
# SourceOrder — which comments of a source are shown, and where

- `Comment.isOrdinary`, `Comment.declares` : the comments that are shown, in three groups
- `Listing.entities_of_ofSource`           : the entities of a source are those of the groups, each
  in the order of the source
-/

namespace ScriptDoc

namespace Comment

/-- A comment before code that has anything to say. -/
def isOrdinary (c : Comment) : Bool :=
  c.context.isSome && !(c.description.isEmpty && c.tags.isEmpty)

/-- A comment before no code whose first tag has a given word. -/
def declares (word : String) (c : Comment) : Bool :=
  c.context.isNone && decide (c.tags.head?.map Tag.word = some word)

end Comment

namespace Entity

variable {filename : String} {index : Link.Index}

/-! ## The group of an entity -/

theorem toBottom_of_ofComment? {c : Comment} {e : Entity}
    (h : ofComment? filename index c = some e) : (!e.toBottom) = c.isOrdinary := by
  have hempty : (c.description.isEmpty && c.tags.isEmpty) = false := by
    unfold ofComment? at h
    split at h
    · cases h
    · next hsome =>
      exact Bool.eq_false_iff.2 hsome
  -- A context puts an entity with the ordinary ones, a declaring tag puts it at the bottom.
  rcases ofComment?_eq_some h with ⟨context, hcontext, rfl⟩ | ⟨hcontext, tag, -, rfl⟩
  · simp [Comment.isOrdinary, hcontext, hempty, ofDeclaration]
  · simp [Comment.isOrdinary, hcontext, ofLinkable]

theorem isBottomOf_of_ofComment? {c : Comment} {e : Entity} (kind : String)
    (h : ofComment? filename index c = some e) : e.isBottomOf kind = c.declares kind := by
  rcases ofComment?_eq_some h with ⟨context, hcontext, rfl⟩ | ⟨hcontext, tag, htag, rfl⟩
  · simp [Comment.declares, isBottomOf, hcontext, ofDeclaration]
  · have hhead := (Comment.declaring?_eq_some htag).1
    rw [Bool.eq_iff_iff]
    simp only [Comment.declares, isBottomOf, hcontext, hhead, ofLinkable, Option.isNone_none,
      Option.map_some, Option.some.injEq, Bool.true_and]
    exact decide_eq_true_iff.trans decide_eq_true_iff.symm

theorem kind_of_ofComment? {c : Comment} {e : Entity}
    (h : ofComment? filename index c = some e) (hbottom : e.toBottom = true) :
    e.kind = "callback" ∨ e.kind = "typedef" := by
  rcases ofComment?_eq_some h with ⟨context, -, rfl⟩ | ⟨-, tag, htag, rfl⟩
  · cases hbottom
  · have hword := (Comment.declaring?_eq_some htag).2
    simpa [Comment.linkableWords, or_comm, ofLinkable] using hword

theorem line_of_ofComment? {c : Comment} {e : Entity}
    (h : ofComment? filename index c = some e) : e.line = c.line := by
  rcases ofComment?_eq_some h with ⟨context, -, rfl⟩ | ⟨-, tag, -, rfl⟩
  · rfl
  · rfl

theorem isSome_of_isOrdinary {c : Comment} (h : c.isOrdinary = true) :
    (ofComment? filename index c).isSome = true := by
  unfold Comment.isOrdinary at h
  rcases Bool.and_eq_true_iff.1 h with ⟨hcontext, hfilled⟩
  rcases Option.isSome_iff_exists.1 hcontext with ⟨context, hcontext⟩
  rw [Bool.not_eq_true'] at hfilled
  simp [ofComment?, hcontext, hfilled]

theorem isSome_of_declares {c : Comment} {word : String} (h : c.declares word = true)
    (hword : word ∈ Comment.linkableWords) : (ofComment? filename index c).isSome = true := by
  unfold Comment.declares at h
  rcases Bool.and_eq_true_iff.1 h with ⟨hcontext, hhead⟩
  rw [Option.isNone_iff_eq_none] at hcontext
  cases htags : c.tags with
  | nil =>
      simp [htags] at hhead
  | cons tag rest =>
      have htag : tag.word = word := by
        simpa [htags] using hhead
      have hdeclaring : c.declaring? = some tag := by
        simp [Comment.declaring?, htags, htag, hword]
      simp [ofComment?, hcontext, htags, hdeclaring]

/-! ## Groups of comments -/

/-- To pick entities is to pick comments, where a test on the one is a test on the other. -/
theorem filter_filterMap_ofComment? {entityOf : Comment → Option Entity} {picks : Entity → Bool}
    {test : Comment → Bool}
    (h : ∀ c e, entityOf c = some e → picks e = test c) (comments : List Comment) :
    (comments.filterMap entityOf).filter picks = (comments.filter test).filterMap entityOf := by
  rw [List.filter_filterMap, List.filterMap_filter]
  congr 1
  funext c
  cases hentity : entityOf c with
  | none =>
      simp
  | some e =>
      simp [Option.filter_some, h c e hentity]

theorem map_some_filterMap {entityOf : Comment → Option Entity} {comments : List Comment}
    (h : ∀ c ∈ comments, (entityOf c).isSome = true) :
    (comments.filterMap entityOf).map some = comments.map entityOf := by
  induction comments with
  | nil =>
      rfl
  | cons c comments ih =>
      rcases Option.isSome_iff_exists.1 (h c List.mem_cons_self) with ⟨e, he⟩
      have hrest : ∀ c ∈ comments, (entityOf c).isSome = true := by
        intro other hother
        exact h other (List.mem_cons_of_mem _ hother)
      rw [List.filterMap_cons_some he, List.map_cons, List.map_cons, ih hrest, he]

theorem groups_filterMap_ofComment? (comments : List Comment) :
    (groups (comments.filterMap (ofComment? filename index))).map some =
      (comments.filter Comment.isOrdinary ++ (comments.filter (Comment.declares "callback") ++
        comments.filter (Comment.declares "typedef"))).map (ofComment? filename index) := by
  have hordinary : ∀ c ∈ comments.filter Comment.isOrdinary,
      (ofComment? filename index c).isSome = true := by
    intro c hc
    exact isSome_of_isOrdinary (List.mem_filter.1 hc).2
  have hbottom : ∀ word ∈ Comment.linkableWords, ∀ c ∈ comments.filter (Comment.declares word),
      (ofComment? filename index c).isSome = true := by
    intro word hword c hc
    exact isSome_of_declares (List.mem_filter.1 hc).2 hword
  -- Each group of entities is that of the comments in one group, and those all have entities.
  unfold groups
  rw [filter_filterMap_ofComment? fun c e => toBottom_of_ofComment?,
    filter_filterMap_ofComment? fun c e => isBottomOf_of_ofComment? "callback",
    filter_filterMap_ofComment? fun c e => isBottomOf_of_ofComment? "typedef"]
  simp only [List.map_append]
  rw [map_some_filterMap hordinary, map_some_filterMap (hbottom "callback" (by decide)),
    map_some_filterMap (hbottom "typedef" (by decide))]

/-- Comments in line order give entities in line order, so sorting only groups them. -/
theorem assemble_eq_groups_of_lines {comments : List Comment}
    (hlines : comments.Pairwise fun a b => a.line ≤ b.line) :
    assemble (comments.map (ofComment? filename index)) =
      groups (comments.filterMap (ofComment? filename index)) := by
  have hentities : (comments.map (ofComment? filename index)).filterMap id =
      comments.filterMap (ofComment? filename index) := by
    rw [List.filterMap_map]
    rfl
  rw [← hentities]
  apply assemble_eq_groups
  · rw [hentities]
    refine List.Pairwise.filter _ (List.Pairwise.filterMap _ ?_ hlines)
    intro a b hab e he e' he'
    simpa [line_of_ofComment? he, line_of_ofComment? he'] using hab
  · intro e he hbottom
    rw [hentities] at he
    rcases List.mem_filterMap.1 he with ⟨c, -, hentity⟩
    exact kind_of_ofComment? hentity hbottom

end Entity

namespace Listing

theorem entities_ofComments (filename : String) (comments : List Comment) :
    (ofComments filename comments).entities = Entity.assemble
      (comments.map (Entity.ofComment? filename (Link.Index.ofComments filename comments))) :=
  rfl

theorem ofSource_eq_ok {options : SourceOptions} {filename source : String} {listing : Listing}
    (h : ofSource options filename source = .ok listing) :
    ∃ all, Comment.ofSource options source = .ok all ∧
      listing = ofComments filename (all.filter (!·.isIgnored)) := by
  unfold ofSource ofReader readSource at h
  cases hall : Comment.ofSource options source with
  | error fault =>
      rw [hall] at h
      cases h
  | ok all =>
      rw [hall] at h
      have hrecords : ofRecords filename (all.map Record.ofComment) = .ok listing :=
        Outcome.mapError_eq_ok_iff.1 h
      rcases Outcome.map_eq_ok_iff.1 hrecords with ⟨comments, hread, rfl⟩
      have hcomments : comments = all.filter (!·.isIgnored) :=
        Record.eq_of_readAll_ofComment hread
      cases hcomments
      exact ⟨all, rfl, rfl⟩

theorem entities_of_ofSource {options : SourceOptions} {filename source : String}
    {listing : Listing} (h : ofSource options filename source = .ok listing) :
    ∃ all, Comment.ofSource options source = .ok all ∧
      all.Pairwise (fun a b => a.line ≤ b.line) ∧
      listing.entities.map some =
        ((all.filter (!·.isIgnored)).filter Comment.isOrdinary ++
          ((all.filter (!·.isIgnored)).filter (Comment.declares "callback") ++
            (all.filter (!·.isIgnored)).filter (Comment.declares "typedef"))).map
          (Entity.ofComment? filename
            (Link.Index.ofComments filename (all.filter (!·.isIgnored)))) := by
  rcases ofSource_eq_ok h with ⟨all, hall, rfl⟩
  have hlines := Comment.pairwise_line_ofSource hall
  refine ⟨all, hall, hlines, ?_⟩
  -- Leaving out the ignored comments keeps the others in line order.
  have hkept := hlines.filter (!·.isIgnored)
  rw [entities_ofComments, Entity.assemble_eq_groups_of_lines hkept,
    Entity.groups_filterMap_ofComment?]

/-- Two comments begin in one line, and a type definition stands before all else. -/
def mixedSource : String :=
  "/** @typedef T */\n/** F. */ function f() {} /** G. */\nfunction g() {}\n/** @callback c */\n"

theorem entities_of_mixedSource :
    ∃ listing, ofSource {} "f.js" mixedSource = .ok listing ∧
      ∃ all, Comment.ofSource {} mixedSource = .ok all ∧
        all.Pairwise (fun a b => a.line ≤ b.line) ∧
        listing.entities.map some =
          ((all.filter (!·.isIgnored)).filter Comment.isOrdinary ++
            ((all.filter (!·.isIgnored)).filter (Comment.declares "callback") ++
              (all.filter (!·.isIgnored)).filter (Comment.declares "typedef"))).map
            (Entity.ofComment? "f.js"
              (Link.Index.ofComments "f.js" (all.filter (!·.isIgnored)))) := by
  have hread : (ofSource {} "f.js" mixedSource).toOption.isSome = true := by
    decide +kernel
  cases hlisting : ofSource {} "f.js" mixedSource with
  | error fault =>
      rw [hlisting] at hread
      cases hread
  | ok listing =>
      exact ⟨listing, rfl, entities_of_ofSource hlisting⟩

end Listing
end ScriptDoc
