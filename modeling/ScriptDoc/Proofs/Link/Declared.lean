import Mathlib.Data.List.Nodup
import Mathlib.Data.List.Perm.Basic
import ScriptDoc.Listing

/-!
# Declared — where the index of a file gets its anchors from

- `Declaration`             : a comment and the tag by which it declares a linkable name
- `Declaration.last?`       : the last declaration of a name in a file
- `Link.Index.get?_ofComments` : the index holds the anchor of the last declaration of each name
- `Declaration.last?_perm`  : where no name is declared twice, the order of comments does not count
-/

namespace ScriptDoc

structure Declaration where
  comment : Comment
  tag : Tag
  deriving DecidableEq, Repr

namespace Declaration

def ofComment? (c : Comment) : Option Declaration :=
  c.declaring?.map fun tag => ⟨c, tag⟩

def all (comments : List Comment) : List Declaration :=
  comments.filterMap ofComment?

def linkName (d : Declaration) : String :=
  d.tag.linkName

def last? (comments : List Comment) (name : String) : Option Declaration :=
  (all comments).reverse.find? (·.linkName = name)

/-! ## Membership -/

theorem ofComment?_eq_some_iff {c : Comment} {d : Declaration} :
    ofComment? c = some d ↔ d.comment = c ∧ c.declaring? = some d.tag := by
  unfold ofComment?
  cases htag : c.declaring? with
  | none =>
      simp
  | some tag =>
      rcases d with ⟨comment, declared⟩
      simp [eq_comm]

theorem mem_all {comments : List Comment} {d : Declaration} :
    d ∈ all comments ↔ d.comment ∈ comments ∧ d.comment.declaring? = some d.tag := by
  constructor
  · intro hmem
    rcases List.mem_filterMap.1 hmem with ⟨c, hc, hd⟩
    rcases ofComment?_eq_some_iff.1 hd with ⟨rfl, htag⟩
    exact ⟨hc, htag⟩
  · rintro ⟨hc, htag⟩
    exact List.mem_filterMap.2 ⟨d.comment, hc, ofComment?_eq_some_iff.2 ⟨rfl, htag⟩⟩

theorem map_tag_all (comments : List Comment) :
    (all comments).map Declaration.tag = comments.filterMap Comment.declaring? := by
  unfold all ofComment?
  rw [List.map_filterMap]
  congr 1
  funext c
  cases c.declaring? with
  | none =>
      rfl
  | some tag =>
      rfl

theorem last?_eq_some {comments : List Comment} {name : String} {d : Declaration}
    (h : last? comments name = some d) : d ∈ all comments ∧ d.linkName = name := by
  have hmem := List.mem_of_find?_eq_some h
  have hname := List.find?_some h
  exact ⟨List.mem_reverse.1 hmem, of_decide_eq_true hname⟩

theorem last?_isSome_iff {comments : List Comment} {name : String} :
    (last? comments name).isSome = true ↔ ∃ d ∈ all comments, d.linkName = name := by
  simp [last?]

end Declaration

/-! ## The index -/

namespace Link.Index

/-- Each entry put into an index hides those of its name that were put before. -/
theorem get?_foldl_put (uid : Tag → String) (name : String) (tags : List Tag) (index : Index) :
    (tags.foldl (fun index tag => Keyed.put tag.linkName (uid tag) index) index).get? name =
      ((tags.reverse.find? (·.linkName = name)).map uid).or (index.get? name) := by
  induction tags generalizing index with
  | nil =>
      simp
  | cons tag tags ih =>
      -- The name is looked up among the later tags, then here, then in the index so far.
      rw [List.foldl_cons, ih, List.reverse_cons, List.find?_append, Keyed.get?_put]
      cases tags.reverse.find? (·.linkName = name) with
      | some later =>
          simp
      | none =>
          by_cases hname : tag.linkName = name
          · simp [hname]
          · simp [hname, Ne.symm hname]

theorem get?_ofComments (filename name : String) (comments : List Comment) :
    (ofComments filename comments).get? name =
      (Declaration.last? comments name).map fun d => Anchor.within filename d.tag.text := by
  have htags := Declaration.map_tag_all comments
  -- Nothing is in the index before the first tag, so only the tags count.
  calc
    (ofComments filename comments).get? name
        = (((Declaration.all comments).map Declaration.tag).reverse.find? (·.linkName = name)).map
            (fun tag => Anchor.within filename tag.text) := by
          unfold ofComments
          rw [get?_foldl_put, htags, Keyed.get?, Option.or_none]
    _ = ((Declaration.all comments).reverse.find? (·.linkName = name)).map
            (fun d => Anchor.within filename d.tag.text) := by
          rw [← List.map_reverse, List.find?_map, Option.map_map]
          rfl

end Link.Index

/-! ## Order of declarations -/

namespace Declaration

theorem all_perm {comments others : List Comment} (h : others.Perm comments) :
    (all others).Perm (all comments) :=
  h.filterMap ofComment?

/-- Of a name that is declared once the last declaration is the only one. -/
theorem last?_eq_some_iff {comments : List Comment} {name : String} {d : Declaration}
    (hdistinct : ((all comments).map linkName).Nodup) :
    last? comments name = some d ↔ d ∈ all comments ∧ d.linkName = name := by
  constructor
  · exact last?_eq_some
  · rintro ⟨hmem, hname⟩
    have hsome : (last? comments name).isSome = true := last?_isSome_iff.2 ⟨d, hmem, hname⟩
    rcases Option.isSome_iff_exists.1 hsome with ⟨found, hfound⟩
    rcases last?_eq_some hfound with ⟨hfoundMem, hfoundName⟩
    have hsame : found = d :=
      List.inj_on_of_nodup_map hdistinct hfoundMem hmem (hfoundName.trans hname.symm)
    rw [hfound, hsame]

theorem last?_perm {comments others : List Comment} (h : others.Perm comments)
    (hdistinct : ((all comments).map linkName).Nodup) (name : String) :
    last? others name = last? comments name := by
  have hall := all_perm h
  have hdistinct' : ((all others).map linkName).Nodup :=
    (hall.map linkName).nodup_iff.2 hdistinct
  apply Option.ext
  intro d
  rw [last?_eq_some_iff hdistinct', last?_eq_some_iff hdistinct, hall.mem_iff]

end Declaration
end ScriptDoc
