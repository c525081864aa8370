import ScriptDoc.Proofs.Entity.Arrangement

/-!
# Ordering — the one list that an assembled page can be

- `Entity.IsArranged`              : the entities there are, in the order of a page
- `Entity.pairwise_comesFirst_iff` : the order of the sort, taken apart
- `Entity.isArranged_iff_assemble` : assembling gives that list, the only one of its kind
-/

namespace ScriptDoc
namespace Entity

open Stable

/-! ## Pages -/

def isOrdinaryAt (line : Int) (e : Entity) : Bool :=
  !e.toBottom && decide (e.line = line)

/-- Ordinary entities by line, then the others by kind, and no two equals that changed places. -/
structure IsArranged (entities : List (Option Entity)) (page : List Entity) : Prop where
  perm : page.Perm (entities.filterMap id)
  ordinaryFirst : page.Pairwise fun a b => a.toBottom = true → b.toBottom = true
  byLine : (page.filter (!·.toBottom)).Pairwise fun a b => a.line ≤ b.line
  -- Texts are compared by the code points of their characters.
  byKind : (page.filter (·.toBottom)).Pairwise fun a b => a.kind ≤ b.kind
  lineKept : ∀ line,
    page.filter (isOrdinaryAt line) = (entities.filterMap id).filter (isOrdinaryAt line)
  kindKept : ∀ kind,
    page.filter (isBottomOf kind) = (entities.filterMap id).filter (isBottomOf kind)

/-! ## The order of the sort -/

theorem comesFirst_iff {a b : Entity} :
    comesFirst a b = true ↔
      (a.toBottom = true → b.toBottom = true) ∧
      ((!a.toBottom) = true → (!b.toBottom) = true → a.line ≤ b.line) ∧
      (a.toBottom = true → b.toBottom = true → a.kind ≤ b.kind) := by
  unfold comesFirst
  cases a.toBottom with
  | false =>
      cases b.toBottom with
      | false =>
          simp
      | true =>
          simp
  | true =>
      cases b.toBottom with
      | false =>
          simp
      | true =>
          have hkind : ¬ b.kind < a.kind ↔ a.kind ≤ b.kind := String.not_lt
          simp only [Bool.not_eq_true', decide_eq_false_iff_not, hkind]
          simp

theorem pairwise_comesFirst_iff {page : List Entity} :
    page.Pairwise (comesFirst · · = true) ↔
      (page.Pairwise fun a b => a.toBottom = true → b.toBottom = true) ∧
      ((page.filter (!·.toBottom)).Pairwise fun a b => a.line ≤ b.line) ∧
      ((page.filter (·.toBottom)).Pairwise fun a b => a.kind ≤ b.kind) := by
  rw [List.pairwise_filter, List.pairwise_filter, ← List.pairwise_and_iff,
    ← List.pairwise_and_iff]
  exact List.Pairwise.iff fun _ _ => comesFirst_iff

/-! ## Equals -/

theorem ties_of_ordinary {a : Entity} (h : a.toBottom = false) :
    ties comesFirst a = isOrdinaryAt a.line := by
  funext e
  rw [Bool.eq_iff_iff, ties_comesFirst_iff]
  simp [isOrdinaryAt, h, eq_comm (a := a.line), eq_comm (a := false)]

theorem ties_of_bottom {a : Entity} (h : a.toBottom = true) :
    ties comesFirst a = isBottomOf a.kind := by
  funext e
  rw [Bool.eq_iff_iff, ties_comesFirst_iff]
  simp [isBottomOf, h, eq_comm (a := a.kind), eq_comm (a := true)]

theorem IsArranged.filter_ties {entities : List (Option Entity)} {page : List Entity}
    (h : IsArranged entities page) (a : Entity) :
    page.filter (ties comesFirst a) = (entities.filterMap id).filter (ties comesFirst a) := by
  cases ha : a.toBottom with
  | false =>
      rw [ties_of_ordinary ha]
      exact h.lineKept a.line
  | true =>
      rw [ties_of_bottom ha]
      exact h.kindKept a.kind

/-! ## Assembling -/

theorem pairwise_assemble (entities : List (Option Entity)) :
    (assemble entities).Pairwise (comesFirst · · = true) :=
  List.pairwise_mergeSort comesFirst_trans comesFirst_total _

theorem filter_ties_assemble (entities : List (Option Entity)) (a : Entity) :
    (assemble entities).filter (ties comesFirst a) =
      (entities.filterMap id).filter (ties comesFirst a) :=
  filter_ties_mergeSort comesFirst_trans comesFirst_total _ a

theorem isArranged_assemble (entities : List (Option Entity)) :
    IsArranged entities (assemble entities) := by
  rcases pairwise_comesFirst_iff.1 (pairwise_assemble entities) with ⟨hfirst, hline, hkind⟩
  refine ⟨List.mergeSort_perm _ _, hfirst, hline, hkind, ?_, ?_⟩
  -- A line or a kind is that of some entity, if perhaps of none on the page.
  · intro line
    have hties : ties comesFirst { name := "", kind := "", line := line } = isOrdinaryAt line :=
      ties_of_ordinary rfl
    rw [← hties]
    exact filter_ties_assemble entities _
  · intro kind
    have hties : ties comesFirst { name := "", kind := kind, toBottom := true } =
        isBottomOf kind :=
      ties_of_bottom rfl
    rw [← hties]
    exact filter_ties_assemble entities _

theorem IsArranged.eq_assemble {entities : List (Option Entity)} {page : List Entity}
    (h : IsArranged entities page) : page = assemble entities := by
  have hsorted : page.Pairwise (comesFirst · · = true) :=
    pairwise_comesFirst_iff.2 ⟨h.ordinaryFirst, h.byLine, h.byKind⟩
  exact (mergeSort_eq_of_filter_ties comesFirst_trans comesFirst_total hsorted
    h.filter_ties).symm

theorem assemble_map_some {page : List Entity} (h : page.Pairwise (comesFirst · · = true)) :
    assemble (page.map some) = page := by
  have hkept : (page.map some).filterMap id = page := by
    rw [List.filterMap_map]
    exact List.filterMap_some
  unfold assemble
  rw [hkept]
  exact List.mergeSort_of_pairwise h

theorem isArranged_iff_assemble (entities : List (Option Entity)) :
    (∀ page, IsArranged entities page ↔ page = assemble entities) ∧
      assemble ((assemble entities).map some) = assemble entities := by
  constructor
  · intro page
    constructor
    · exact IsArranged.eq_assemble
    · rintro rfl
      exact isArranged_assemble entities
  · exact assemble_map_some (pairwise_assemble entities)

end Entity
end ScriptDoc
