import ScriptDoc.Proofs.Comment.Escaping
import ScriptDoc.Proofs.Listing.Acceptance

/-!
# Escaping — listings with raw and with escaped descriptions

- `Listing.describedBy`  : a listing with the descriptions of its entities changed
- `Listing.ofSource_raw` : a source with raw descriptions and with escaped ones has listings that
  differ in the descriptions only, and is refused for the same reason in both cases
-/

namespace ScriptDoc

/-! ## Entities -/

namespace Entity

def describedBy (change : String → String) (e : Entity) : Entity :=
  { e with description := change e.description }

variable {change : String → String}

theorem ofComment?_describedBy (hempty : ∀ s, (change s).isEmpty = s.isEmpty) (filename : String)
    (index : Link.Index) (c : Comment) :
    ofComment? filename index (c.describedBy change) =
      (ofComment? filename index c).map (describedBy change) := by
  have hshown : ((c.describedBy change).description.isEmpty && (c.describedBy change).tags.isEmpty) =
      (c.description.isEmpty && c.tags.isEmpty) := by
    simp only [Comment.describedBy, hempty]
  have hcontext : (c.describedBy change).context = c.context := rfl
  have hdeclaring : (c.describedBy change).declaring? = c.declaring? := rfl
  unfold ofComment?
  rw [hshown, hcontext, hdeclaring]
  split
  · rfl
  · cases c.context with
    | some context =>
        rfl
    | none =>
        cases c.declaring? with
        | some tag =>
            rfl
        | none =>
            rfl

/-- Descriptions do not count where entities are put in order. -/
theorem assemble_describedBy (change : String → String) (entities : List (Option Entity)) :
    assemble (entities.map (Option.map (describedBy change))) =
      (assemble entities).map (describedBy change) := by
  have hthere : (entities.map (Option.map (describedBy change))).filterMap id =
      (entities.filterMap id).map (describedBy change) := by
    rw [List.filterMap_map, List.map_filterMap]
    rfl
  unfold assemble
  rw [hthere]
  refine (List.map_mergeSort ?_).symm
  intro a _ b _
  rfl

end Entity

/-! ## Listings -/

namespace Listing

def describedBy (change : String → String) (listing : Listing) : Listing :=
  { listing with entities := listing.entities.map (Entity.describedBy change) }

variable {change : String → String}

theorem index_describedBy (change : String → String) (filename : String) (comments : List Comment) :
    Link.Index.ofComments filename (comments.map (Comment.describedBy change)) =
      Link.Index.ofComments filename comments := by
  have hdeclaring : Comment.declaring? ∘ Comment.describedBy change = Comment.declaring? := rfl
  unfold Link.Index.ofComments
  rw [List.filterMap_map, hdeclaring]

theorem ofComments_describedBy (hempty : ∀ s, (change s).isEmpty = s.isEmpty) (filename : String)
    (comments : List Comment) :
    ofComments filename (comments.map (Comment.describedBy change)) =
      (ofComments filename comments).describedBy change := by
  let index := Link.Index.ofComments filename comments
  have hentity : Entity.ofComment? filename index ∘ Comment.describedBy change =
      Option.map (Entity.describedBy change) ∘ Entity.ofComment? filename index := by
    funext c
    exact Entity.ofComment?_describedBy hempty filename index c
  have hentities : Entity.assemble ((comments.map (Comment.describedBy change)).map
      (Entity.ofComment? filename index)) =
        (Entity.assemble (comments.map (Entity.ofComment? filename index))).map
          (Entity.describedBy change) := by
    rw [List.map_map, hentity, ← List.map_map, Entity.assemble_describedBy]
  simp only [ofComments, index_describedBy]
  rw [hentities]
  simp [describedBy, index]

theorem kept_describedBy (change : String → String) (all : List Comment) :
    (all.map (Comment.describedBy change)).filter (!·.isIgnored) =
      (all.filter (!·.isIgnored)).map (Comment.describedBy change) := by
  rw [List.filter_map]
  rfl

theorem ofSource_of_not_raw (skipSingleStar : Bool) (filename source : String) :
    ofSource ⟨false, skipSingleStar⟩ filename source =
      (ofSource ⟨true, skipSingleStar⟩ filename source).map (describedBy Body.escapeText) := by
  have hcomments := Comment.ofSource_of_not_raw skipSingleStar source
  cases hall : Comment.ofSource ⟨true, skipSingleStar⟩ source with
  | error fault =>
      rw [hall] at hcomments
      rw [ofSource_of_error hall, ofSource_of_error hcomments]
      rfl
  | ok all =>
      rw [hall] at hcomments
      rw [ofSource_of_ok hall, ofSource_of_ok hcomments, kept_describedBy,
        ofComments_describedBy Body.isEmpty_escapeText]
      rfl

/-- Raw and escaped descriptions make the only difference, and each are found from the other. -/
theorem ofSource_raw (skipSingleStar : Bool) (filename source : String) :
    ofSource ⟨false, skipSingleStar⟩ filename source =
        (ofSource ⟨true, skipSingleStar⟩ filename source).map (describedBy Body.escapeText) ∧
      ofSource ⟨true, skipSingleStar⟩ filename source =
        (ofSource ⟨false, skipSingleStar⟩ filename source).map (describedBy Body.unescapeText) := by
  have hescaped := ofSource_of_not_raw skipSingleStar filename source
  refine ⟨hescaped, ?_⟩
  rw [hescaped]
  cases ofSource ⟨true, skipSingleStar⟩ filename source with
  | error fault =>
      rfl
  | ok listing =>
      have hback : Entity.describedBy Body.unescapeText ∘ Entity.describedBy Body.escapeText = id := by
        funext e
        simp [Entity.describedBy, Body.unescapeText_escapeText]
      simp [Except.map, describedBy, hback]

end Listing
end ScriptDoc
