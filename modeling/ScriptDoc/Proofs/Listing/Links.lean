import ScriptDoc.Proofs.Entity.Shown
import ScriptDoc.Proofs.Link.Declared
import ScriptDoc.Proofs.Link.Markup
import ScriptDoc.Proofs.Record.Reading

/-!
# Links — type names within one file

A type name is linked by what the whole file declares, wherever in the file that is.

- `Link.inFile`                       : how a type text stands in the entities of a file
- `Listing.exists_uid_eq_iff`         : the anchors that a listing has
- `Listing.linksDeclared_of_accepted` : the entities of a file show their types so, and a file
  without double declarations has the same entities in any order of its records
-/

namespace ScriptDoc

open Text

namespace Link

/-- A type text links to the last declaration of its name and is escaped if there is none. -/
def inFile (filename : String) (comments : List Comment) (t : String) : String :=
  match Declaration.last? comments (Name.bare t) with
  | some d => anchored (Anchor.within filename d.tag.text) (Name.bare t)
  | none => escaped (Name.bare t)

theorem resolve_ofComments (filename : String) (comments : List Comment) (t : String) :
    resolve (Index.ofComments filename comments) t = inFile filename comments t := by
  simp only [resolve, inFile, Index.get?_ofComments]
  cases Declaration.last? comments (Name.bare t) with
  | none =>
      rfl
  | some d =>
      rfl

/-- Linked and escaped texts never look alike, so the outcome tells whether the name is declared. -/
theorem inFile_eq_anchored_iff {filename uid name : String} {comments : List Comment} {t : String}
    (hquote : doubleMark ∉ uid.toList) :
    inFile filename comments t = anchored uid name ↔
      name = Name.bare t ∧ ∃ d, Declaration.last? comments (Name.bare t) = some d ∧
        Anchor.within filename d.tag.text = uid := by
  unfold inFile
  cases Declaration.last? comments (Name.bare t) with
  | none =>
      constructor
      · intro h
        -- An escaped text never looks like a link.
        exact absurd h (escaped_ne_anchored _ _ _)
      · rintro ⟨-, d, hd, -⟩
        cases hd
  | some d =>
      constructor
      · intro h
        have hown := Anchor.doubleMark_notMem_within filename d.tag.text
        rcases anchored_inj hown hquote h with ⟨huid, hname⟩
        exact ⟨hname.symm, d, rfl, huid⟩
      · rintro ⟨rfl, found, hfound, rfl⟩
        cases hfound
        rfl

theorem exists_inFile_eq_anchored_iff {filename : String} {comments : List Comment} {t : String} :
    (∃ uid, inFile filename comments t = anchored uid (Name.bare t)) ↔
      ∃ c ∈ comments, ∃ tag, c.declaring? = some tag ∧ tag.linkName = Name.bare t := by
  have hdeclared : (Declaration.last? comments (Name.bare t)).isSome = true ↔
      ∃ c ∈ comments, ∃ tag, c.declaring? = some tag ∧ tag.linkName = Name.bare t := by
    rw [Declaration.last?_isSome_iff]
    constructor
    · rintro ⟨d, hmem, hname⟩
      rcases Declaration.mem_all.1 hmem with ⟨hc, htag⟩
      exact ⟨d.comment, hc, d.tag, htag, hname⟩
    · rintro ⟨c, hc, tag, htag, hname⟩
      exact ⟨⟨c, tag⟩, Declaration.mem_all.2 ⟨hc, htag⟩, hname⟩
  rw [← hdeclared]
  unfold inFile
  cases Declaration.last? comments (Name.bare t) with
  | none =>
      simp [escaped_ne_anchored]
  | some d =>
      simp only [Option.isSome_some, iff_true]
      exact ⟨_, rfl⟩

end Link

namespace Listing

/-! ## Entities of a listing -/

theorem ofRecords_eq_ok_iff {filename : String} {records : List Record} {listing : Listing} :
    ofRecords filename records = .ok listing ↔
      ∃ comments, Record.readAll records = .ok comments ∧
        ofComments filename comments = listing :=
  Outcome.map_eq_ok_iff

theorem entities_ofComments_perm (filename : String) (comments : List Comment) :
    (ofComments filename comments).entities.Perm
      (comments.filterMap (Entity.ofComment? filename (Link.Index.ofComments filename comments))) :=
  Entity.assemble_map_perm _ comments

theorem mem_entities_ofComments {filename : String} {comments : List Comment} {e : Entity} :
    e ∈ (ofComments filename comments).entities ↔ ∃ c ∈ comments,
      Entity.ofComment? filename (Link.Index.ofComments filename comments) c = some e := by
  rw [(entities_ofComments_perm filename comments).mem_iff, List.mem_filterMap]

/-- The anchors of a listing are those of the own names of its comments. -/
theorem exists_uid_eq_iff {filename uid : String} {comments : List Comment} :
    (∃ e ∈ (ofComments filename comments).entities, e.uid = uid) ↔
      ∃ c ∈ comments, ∃ name, c.ownName? = some name ∧ Anchor.within filename name = uid := by
  constructor
  · rintro ⟨e, he, huid⟩
    rcases mem_entities_ofComments.1 he with ⟨c, hc, hentity⟩
    exact ⟨c, hc, Entity.exists_uid_eq_iff.1 ⟨e, hentity, huid⟩⟩
  · rintro ⟨c, hc, hname⟩
    rcases Entity.exists_uid_eq_iff.2 hname with ⟨e, hentity, huid⟩
    exact ⟨e, mem_entities_ofComments.2 ⟨c, hc, hentity⟩, huid⟩

/-! ## Order of the records -/

theorem entities_perm_of_perm {filename : String} {comments others : List Comment}
    (hperm : others.Perm comments)
    (hdistinct : ((Declaration.all comments).map Declaration.linkName).Nodup) :
    (ofComments filename others).entities.Perm (ofComments filename comments).entities := by
  have hresolve : Link.resolve (Link.Index.ofComments filename others) =
      Link.resolve (Link.Index.ofComments filename comments) := by
    funext t
    rw [Link.resolve_ofComments, Link.resolve_ofComments]
    simp only [Link.inFile, Declaration.last?_perm hperm hdistinct]
  have hothers := entities_ofComments_perm filename others
  -- The two indexes resolve alike, so both listings hold what one function gives.
  rw [Entity.ofComment?_congr hresolve] at hothers
  have hcomments := entities_ofComments_perm filename comments
  exact hothers.trans ((hperm.filterMap _).trans hcomments.symm)

/-- The types of an entity are those of the tags of its comment, in order, each emitted alike. -/
structure ShowsTypes (emit : String → String) (c : Comment) (e : Entity) : Prop where
  params : e.tags.params.map ParamDoc.types =
    (c.tags.filter (·.word = "param")).map fun tag => tag.types.map emit
  properties : e.tags.properties.map ParamDoc.types =
    (c.tags.filter (·.word = "property")).map fun tag => tag.types.map emit
  returns : e.tags.returns.map ReturnDoc.types =
    (c.tags.filter (Tag.isReturn ·.word)).map fun tag => tag.types.map emit

theorem showsTypes_ofComment? {filename : String} {comments : List Comment} {c : Comment}
    {e : Entity}
    (h : Entity.ofComment? filename (Link.Index.ofComments filename comments) c = some e) :
    ShowsTypes (Link.inFile filename comments) c e := by
  have hemit : Link.resolve (Link.Index.ofComments filename comments) =
      Link.inFile filename comments := by
    funext t
    exact Link.resolve_ofComments filename comments t
  have htags := Entity.tags_of_ofComment? h
  -- Each of the three kinds of tags is picked and emitted in the same way.
  constructor
  all_goals
    simp [htags, EntityTags.ofTags, ParamDoc.ofTag, ReturnDoc.ofTag, hemit, Function.comp_def]

/-- A type that is shown as a link is linked to a declaration of the same comments. -/
theorem exists_declaring?_of_link {filename shown : String} {comments : List Comment} {e : Entity}
    (he : e ∈ (ofComments filename comments).entities) (hshown : shown ∈ e.tags.shownTypes)
    (hlink : ∃ uid name, shown = Link.anchored uid name) :
    ∃ c ∈ comments, ∃ tag, c.declaring? = some tag ∧
      shown = Link.anchored (Anchor.within filename tag.text) tag.linkName := by
  rcases mem_entities_ofComments.1 he with ⟨c, -, hentity⟩
  rcases (Entity.mem_shownTypes hentity).1 hshown with ⟨t, -, hresolve⟩
  rw [Link.resolve_ofComments, Link.inFile] at hresolve
  cases hlast : Declaration.last? comments (Name.bare t) with
  | none =>
      -- The name of an undeclared type is escaped.
      rcases hlink with ⟨uid, name, hanchored⟩
      rw [hlast, hanchored] at hresolve
      exact absurd hresolve (Link.escaped_ne_anchored _ _ _)
  | some d =>
      rw [hlast] at hresolve
      rcases Declaration.last?_eq_some hlast with ⟨hmem, hname⟩
      rcases Declaration.mem_all.1 hmem with ⟨hc, htag⟩
      have hown : d.tag.linkName = Name.bare t := hname
      exact ⟨d.comment, hc, d.tag, htag, hown ▸ hresolve.symm⟩

/-- What the links of a listing depend on: the declarations of the file, not their places. -/
structure LinksDeclared (filename : String) (records : List Record) (comments : List Comment)
    (listing : Listing) : Prop where
  /-- the entities are those of the comments, each with the types of the whole file -/
  entities : listing.entities.Perm
    (comments.filterMap (Entity.ofComment? filename (Link.Index.ofComments filename comments)))
  types : ∀ c ∈ comments, ∀ e,
    Entity.ofComment? filename (Link.Index.ofComments filename comments) c = some e →
      ShowsTypes (Link.inFile filename comments) c e
  linked_iff : ∀ t, (∃ uid, Link.inFile filename comments t = Link.anchored uid (Name.bare t)) ↔
    ∃ c ∈ comments, ∃ tag, c.declaring? = some tag ∧ tag.linkName = Name.bare t
  anyOrder : ((Declaration.all comments).map Declaration.linkName).Nodup →
    ∀ shuffled, shuffled.Perm records → ∃ other, ofRecords filename shuffled = .ok other ∧
      other.entities.Perm listing.entities

theorem linksDeclared_of_accepted {filename : String} {records : List Record} {listing : Listing}
    (haccepted : ofRecords filename records = .ok listing) :
    ∃ comments, Record.readAll records = .ok comments ∧
      LinksDeclared filename records comments listing := by
  rcases ofRecords_eq_ok_iff.1 haccepted with ⟨comments, hread, rfl⟩
  refine ⟨comments, hread, ?_⟩
  constructor
  · exact entities_ofComments_perm filename comments
  · intro c _ e hentity
    exact showsTypes_ofComment? hentity
  · intro t
    exact Link.exists_inFile_eq_anchored_iff
  · intro hdistinct shuffled hshuffled
    rcases Record.readAll_perm hshuffled hread with ⟨others, hothers, hperm⟩
    exact ⟨ofComments filename others, ofRecords_eq_ok_iff.2 ⟨others, hothers, rfl⟩,
      entities_perm_of_perm hperm hdistinct⟩

/-- A file that uses a type before the comment that declares it. -/
def useBeforeTypedef : List Record :=
  [.draft
      { tags := some [{ word := "param", name := "x", types := some ["[T]", "U"] }]
        context := some ⟨"function", some "f()"⟩ },
    .draft { tags := some [{ word := "typedef", text := "{Object} T" }] }]

theorem linksDeclared_useBeforeTypedef :
    ∃ listing, ofRecords "f.js" useBeforeTypedef = .ok listing ∧
      ∃ comments, Record.readAll useBeforeTypedef = .ok comments ∧
        LinksDeclared "f.js" useBeforeTypedef comments listing :=
  ⟨_, rfl, linksDeclared_of_accepted rfl⟩

end Listing
end ScriptDoc
