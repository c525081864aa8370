import ScriptDoc.Entity.Order

/-!
# Shown — the entity of a comment, part by part

- `Comment.ownName?`       : the name whose anchor the entity of a comment carries
- `Comment.typeTexts`      : the type texts that are linked or escaped in that entity
- `Entity.uid_ofComment?`  : a comment has an entity exactly when it has a name of its own
- `Entity.mem_shownTypes`  : the types of an entity are the resolved type texts of its comment
- `Entity.assemble_perm`   : putting entities in order neither loses nor adds one
-/

namespace ScriptDoc

/-! ## Parts of a comment -/

namespace Comment

/-- A context names a comment before its tags do; a comment without text and tags has no name. -/
def ownName? (c : Comment) : Option String :=
  if c.description.isEmpty && c.tags.isEmpty then none
  else
    match c.context with
    | some context => some context.name
    | none => c.declaring?.map Tag.text

def typeTexts (c : Comment) : List String :=
  (c.tags.filter fun tag => Tag.isNamed tag.word || Tag.isReturn tag.word).flatMap Tag.types

theorem declaring?_eq_some {c : Comment} {tag : Tag} (h : c.declaring? = some tag) :
    c.tags.head? = some tag ∧ tag.word ∈ linkableWords := by
  unfold declaring? at h
  split at h
  · next first rest htags =>
    split at h
    · next hword =>
      cases h
      exact ⟨by rw [htags]; rfl, List.contains_iff_mem.1 hword⟩
    · cases h
  · cases h

theorem ownName?_of_declaring? {c : Comment} {tag : Tag} (htag : c.declaring? = some tag)
    (hcontext : c.context = none) : c.ownName? = some tag.text := by
  have hhead := (declaring?_eq_some htag).1
  have htags : c.tags.isEmpty = false := by
    cases hlist : c.tags with
    | nil =>
        simp [hlist] at hhead
    | cons first rest =>
        rfl
  simp [ownName?, htags, hcontext, htag]

end Comment

/-! ## Parts of an entity -/

/-- The types that an entity shows, in whichever of its tags. -/
def EntityTags.shownTypes (t : EntityTags) : List String :=
  t.params.flatMap ParamDoc.types ++ t.properties.flatMap ParamDoc.types ++
    t.returns.flatMap ReturnDoc.types

namespace EntityTags

/-- The type texts of those tags that a test picks. -/
theorem mem_typesOf {tags : List Tag} {picks : Tag → Bool} {t : String} :
    t ∈ (tags.filter picks).flatMap Tag.types ↔ ∃ tag ∈ tags, picks tag = true ∧ t ∈ tag.types := by
  simp only [List.mem_flatMap, List.mem_filter, and_assoc]

theorem shownTypes_ofTags (index : Link.Index) (tags : List Tag) :
    (ofTags index tags).shownTypes =
      ((tags.filter (·.word = "param")).flatMap Tag.types ++
        (tags.filter (·.word = "property")).flatMap Tag.types ++
          (tags.filter (Tag.isReturn ·.word)).flatMap Tag.types).map (Link.resolve index) := by
  simp only [shownTypes, ofTags, List.flatMap_map, List.map_append, List.map_flatMap,
    ParamDoc.ofTag, ReturnDoc.ofTag]

theorem ofTags_congr {index index' : Link.Index} (h : Link.resolve index = Link.resolve index') :
    ofTags index = ofTags index' := by
  have hparam : ParamDoc.ofTag index = ParamDoc.ofTag index' := by
    funext tag
    simp only [ParamDoc.ofTag, h]
  have hreturn : ReturnDoc.ofTag index = ReturnDoc.ofTag index' := by
    funext tag
    simp only [ReturnDoc.ofTag, h]
  funext tags
  simp only [ofTags, hparam, hreturn]

end EntityTags

namespace Entity

variable {filename : String} {index : Link.Index}

/-- A comment has at most one entity, of a context or else of a declaring tag. -/
theorem ofComment?_eq_some {c : Comment} {e : Entity}
    (h : ofComment? filename index c = some e) :
    (∃ context, c.context = some context ∧ e = ofDeclaration filename index c context) ∨
      (c.context = none ∧
        ∃ tag, c.declaring? = some tag ∧ e = ofLinkable filename index c tag) := by
  unfold ofComment? at h
  split at h
  · cases h
  · cases hcontext : c.context with
    | some context =>
        rw [hcontext] at h
        cases h
        exact Or.inl ⟨context, rfl, rfl⟩
    | none =>
        rw [hcontext] at h
        rcases Option.map_eq_some_iff.1 h with ⟨tag, htag, rfl⟩
        exact Or.inr ⟨rfl, tag, htag, rfl⟩

theorem uid_ofComment? (filename : String) (index : Link.Index) (c : Comment) :
    (ofComment? filename index c).map uid = c.ownName?.map (Anchor.within filename) := by
  unfold ofComment? Comment.ownName?
  split
  · rfl
  · -- The name and the entity are taken from the context, or else from the first tag.
    cases c.context with
    | some context =>
        rfl
    | none =>
        simp [Function.comp_def, ofLinkable]

/-- The entity of a comment carries the anchor of the comment's own name. -/
theorem exists_uid_eq_iff {uid : String} {c : Comment} :
    (∃ e, ofComment? filename index c = some e ∧ e.uid = uid) ↔
      ∃ name, c.ownName? = some name ∧ Anchor.within filename name = uid := by
  rw [← Option.map_eq_some_iff, ← Option.map_eq_some_iff, uid_ofComment?]

theorem isSome_ofComment?_iff {c : Comment} :
    (∃ e, ofComment? filename index c = some e) ↔ c.ownName?.isSome = true := by
  have huid := congrArg Option.isSome (uid_ofComment? filename index c)
  rw [Option.isSome_map, Option.isSome_map] at huid
  rw [← huid, Option.isSome_iff_exists]

theorem isPrivate_of_ofComment? {c : Comment} {e : Entity}
    (h : ofComment? filename index c = some e) : e.isPrivate = c.isPrivate := by
  rcases ofComment?_eq_some h with ⟨context, -, rfl⟩ | ⟨-, tag, -, rfl⟩
  · rfl
  · rfl

theorem tags_of_ofComment? {c : Comment} {e : Entity}
    (h : ofComment? filename index c = some e) : e.tags = EntityTags.ofTags index c.tags := by
  rcases ofComment?_eq_some h with ⟨context, -, rfl⟩ | ⟨-, tag, -, rfl⟩
  · rfl
  · rfl

theorem mem_shownTypes {c : Comment} {e : Entity} {shown : String}
    (h : ofComment? filename index c = some e) :
    shown ∈ e.tags.shownTypes ↔ ∃ t ∈ c.typeTexts, Link.resolve index t = shown := by
  -- A type text of a comment is one of a parameter, of a property or of a result.
  have htexts : ∀ t, t ∈ (c.tags.filter (·.word = "param")).flatMap Tag.types ++
      (c.tags.filter (·.word = "property")).flatMap Tag.types ++
        (c.tags.filter (Tag.isReturn ·.word)).flatMap Tag.types ↔ t ∈ c.typeTexts := by
    intro t
    simp only [Comment.typeTexts, Tag.isNamed, List.mem_append, EntityTags.mem_typesOf,
      Bool.or_eq_true, or_and_right, and_or_left, exists_or]
  have hshown := EntityTags.shownTypes_ofTags index c.tags
  rw [← tags_of_ofComment? h] at hshown
  simp only [hshown, List.mem_map, htexts]

/-- An index matters to an entity only by the types it resolves. -/
theorem ofComment?_congr {index' : Link.Index} (h : Link.resolve index = Link.resolve index') :
    ofComment? filename index = ofComment? filename index' := by
  have htags := EntityTags.ofTags_congr h
  have hlinkable : ofLinkable filename index = ofLinkable filename index' := by
    funext c tag
    simp only [ofLinkable, htags]
  funext c
  simp only [ofComment?, ofDeclaration, htags, hlinkable]

/-! ## Entities of a file -/

theorem assemble_perm (entities : List (Option Entity)) :
    (assemble entities).Perm (entities.filterMap id) :=
  List.mergeSort_perm _ _

theorem assemble_map_perm (entityOf : Comment → Option Entity) (comments : List Comment) :
    (assemble (comments.map entityOf)).Perm (comments.filterMap entityOf) := by
  have h := assemble_perm (comments.map entityOf)
  rwa [List.filterMap_map] at h

end Entity
end ScriptDoc
