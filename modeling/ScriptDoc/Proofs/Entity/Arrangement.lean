import Mathlib.Data.List.Basic
import ScriptDoc.Entity.Order

/-!
# Arrangement — what order the entities of a page have

- `Stable.eq_of_filter_ties`     : a sorted list is determined by its runs of equals
- `Stable.filter_ties_mergeSort` : merge sort keeps each run of equals as it was
- `Entity.assemble_eq_groups`    : entities in line order are put into three groups
-/

namespace ScriptDoc

/-! ## Stable sorting -/

namespace Stable

variable {α : Type} {le : α → α → Bool}

/-- Neither of two equals has to come first. -/
def ties (le : α → α → Bool) (a b : α) : Bool :=
  le a b && le b a

theorem ties_self (total : ∀ a b, (le a b || le b a) = true) (a : α) : ties le a a = true := by
  simpa [ties] using total a a

theorem mem_of_filter_ties (total : ∀ a b, (le a b || le b a) = true) {l₁ l₂ : List α} {a : α}
    (h : l₁.filter (ties le a) = l₂.filter (ties le a)) (hmem : a ∈ l₁) : a ∈ l₂ := by
  have hrun : a ∈ l₁.filter (ties le a) := List.mem_filter.2 ⟨hmem, ties_self total a⟩
  rw [h] at hrun
  exact (List.mem_filter.1 hrun).1

/-- Where two sorted lists hold each other's first entries, these are equals. -/
theorem ties_of_mem_cons (total : ∀ a b, (le a b || le b a) = true) {l₁ l₂ : List α} {a b : α}
    (h₁ : (a :: l₁).Pairwise (le · · = true)) (h₂ : (b :: l₂).Pairwise (le · · = true))
    (hb : b ∈ a :: l₁) (ha : a ∈ b :: l₂) : ties le a b = true := by
  rcases List.mem_cons.1 hb with rfl | hb
  · exact ties_self total b
  · rcases List.mem_cons.1 ha with rfl | ha
    · exact ties_self total a
    · simp [ties, List.rel_of_pairwise_cons h₁ hb, List.rel_of_pairwise_cons h₂ ha]

theorem eq_of_filter_ties (total : ∀ a b, (le a b || le b a) = true) {l₁ l₂ : List α}
    (h₁ : l₁.Pairwise (le · · = true)) (h₂ : l₂.Pairwise (le · · = true))
    (h : ∀ a, l₁.filter (ties le a) = l₂.filter (ties le a)) : l₁ = l₂ := by
  induction l₁ generalizing l₂ with
  | nil =>
      cases l₂ with
      | nil =>
          rfl
      | cons b l₂ =>
          have hb : b ∈ [] := mem_of_filter_ties total (h b).symm List.mem_cons_self
          exact absurd hb List.not_mem_nil
  | cons a l₁ ih =>
      cases l₂ with
      | nil =>
          have ha : a ∈ [] := mem_of_filter_ties total (h a) List.mem_cons_self
          exact absurd ha List.not_mem_nil
      | cons b l₂ =>
          have hb : b ∈ a :: l₁ := mem_of_filter_ties total (h b).symm List.mem_cons_self
          have ha : a ∈ b :: l₂ := mem_of_filter_ties total (h a) List.mem_cons_self
          have hties : ties le a b = true := ties_of_mem_cons total h₁ h₂ hb ha
          -- Equals in front of both lists open the same run, so they are the same entry.
          have hruns := h a
          rw [List.filter_cons_of_pos (ties_self total a), List.filter_cons_of_pos hties] at hruns
          have hsame : a = b := (List.cons.inj hruns).1
          subst hsame
          have hrest : ∀ x, l₁.filter (ties le x) = l₂.filter (ties le x) := by
            intro x
            have hx := h x
            rw [List.filter_cons, List.filter_cons] at hx
            split at hx
            · exact (List.cons.inj hx).2
            · exact hx
          rw [ih h₁.of_cons h₂.of_cons hrest]

theorem filter_ties_mergeSort (trans : ∀ a b c, le a b = true → le b c = true → le a c = true)
    (total : ∀ a b, (le a b || le b a) = true) (l : List α) (a : α) :
    (l.mergeSort le).filter (ties le a) = l.filter (ties le a) := by
  have hpairwise : (l.filter (ties le a)).Pairwise (le · · = true) := by
    have hties : ∀ b ∈ l.filter (ties le a), ties le a b = true := by
      intro b hb
      exact (List.mem_filter.1 hb).2
    apply List.pairwise_of_forall_mem_list
    intro b hb c hc
    have hba := (Bool.and_eq_true_iff.1 (hties b hb)).2
    have hac := (Bool.and_eq_true_iff.1 (hties c hc)).1
    exact trans b a c hba hac
  -- A run is sorted already, so sorting keeps it as a sublist, and there is no room for more.
  have hsublist := List.sublist_mergeSort trans total hpairwise List.filter_sublist
  have hfiltered := hsublist.filter (ties le a)
  simp only [List.filter_filter, Bool.and_self] at hfiltered
  have hlength : (l.filter (ties le a)).length = ((l.mergeSort le).filter (ties le a)).length :=
    ((List.mergeSort_perm l le).filter _).length_eq.symm
  exact (hfiltered.eq_of_length hlength).symm

/-- A list that is sorted and has the runs of equals of another is that other one sorted. -/
theorem mergeSort_eq_of_filter_ties
    (trans : ∀ a b c, le a b = true → le b c = true → le a c = true)
    (total : ∀ a b, (le a b || le b a) = true) {l sorted : List α}
    (hsorted : sorted.Pairwise (le · · = true))
    (hruns : ∀ a, sorted.filter (ties le a) = l.filter (ties le a)) : l.mergeSort le = sorted := by
  apply eq_of_filter_ties total (List.pairwise_mergeSort trans total l) hsorted
  intro a
  have hkept := filter_ties_mergeSort trans total l a
  exact hkept.trans (hruns a).symm

end Stable

/-! ## Entities -/

namespace Entity

open Stable

theorem ties_comesFirst_iff {a b : Entity} :
    ties comesFirst a b = true ↔
      a.toBottom = b.toBottom ∧ if a.toBottom = true then a.kind = b.kind else a.line = b.line := by
  unfold ties comesFirst
  cases a.toBottom with
  | false =>
      cases b.toBottom with
      | false =>
          simp [Int.le_antisymm_iff]
      | true =>
          simp
  | true =>
      cases b.toBottom with
      | false =>
          simp
      | true =>
          have hantisymm : a.kind ≤ b.kind ∧ b.kind ≤ a.kind ↔ a.kind = b.kind := by
            constructor
            · rintro ⟨hab, hba⟩
              exact String.le_antisymm hab hba
            · intro hsame
              rw [hsame]
              exact ⟨String.le_refl _, String.le_refl _⟩
          simp only [Bool.and_eq_true, Bool.not_eq_true', decide_eq_false_iff_not, if_true,
            true_and]
          exact hantisymm

/-- The callbacks, or the type definitions, among the entities for the bottom of a page. -/
def isBottomOf (kind : String) (e : Entity) : Bool :=
  e.toBottom && decide (e.kind = kind)

/-- The three groups of a page in which callbacks and type definitions stand at the bottom. -/
def groups (entities : List Entity) : List Entity :=
  entities.filter (!·.toBottom) ++
    (entities.filter (isBottomOf "callback") ++ entities.filter (isBottomOf "typedef"))

theorem pairwise_groups {entities : List Entity}
    (hlines : (entities.filter (!·.toBottom)).Pairwise fun a b => a.line ≤ b.line) :
    (groups entities).Pairwise (comesFirst · · = true) := by
  have hbottom : ∀ {kind : String} {e : Entity}, e ∈ entities.filter (isBottomOf kind) →
      e.toBottom = true ∧ e.kind = kind := by
    intro kind e he
    simpa [isBottomOf] using (List.mem_filter.1 he).2
  have hkind : ∀ kind : String,
      (entities.filter (isBottomOf kind)).Pairwise (comesFirst · · = true) := by
    intro kind
    apply List.pairwise_of_forall_mem_list
    intro a ha b hb
    rcases hbottom ha with ⟨ha, hakind⟩
    rcases hbottom hb with ⟨hb, hbkind⟩
    simp [comesFirst, ha, hb, hakind, hbkind]
  refine List.pairwise_append.2 ⟨?_, List.pairwise_append.2 ⟨hkind _, hkind _, ?_⟩, ?_⟩
  · -- Ordinary entities go by line.
    refine List.Pairwise.imp_of_mem ?_ hlines
    intro a b ha hb hline
    have hatop := (List.mem_filter.1 ha).2
    have hbtop := (List.mem_filter.1 hb).2
    simp only [Bool.not_eq_true'] at hatop hbtop
    simp [comesFirst, hatop, hbtop, hline]
  · -- Callbacks go before type definitions.
    intro a ha b hb
    rcases hbottom ha with ⟨ha, hakind⟩
    rcases hbottom hb with ⟨hb, hbkind⟩
    have horder : ¬ ("typedef" : String) < "callback" := by decide
    simp [comesFirst, ha, hb, hakind, hbkind, horder]
  · -- Ordinary entities go before both.
    intro a ha b hb
    have hatop := (List.mem_filter.1 ha).2
    simp only [Bool.not_eq_true'] at hatop
    have hbbottom : b.toBottom = true := by
      rcases List.mem_append.1 hb with hb | hb
      · exact (hbottom hb).1
      · exact (hbottom hb).1
    simp [comesFirst, hatop, hbbottom]

theorem groups_of_ordinary {run : List Entity} (h : ∀ e ∈ run, e.toBottom = false) :
    groups run = run := by
  have hordinary : run.filter (!·.toBottom) = run := by
    apply List.filter_eq_self.2
    intro e he
    simp [h e he]
  have hbottom : ∀ kind, run.filter (isBottomOf kind) = [] := by
    intro kind
    apply List.filter_eq_nil_iff.2
    intro e he
    simp [isBottomOf, h e he]
  simp [groups, hordinary, hbottom]

theorem groups_of_bottom {run : List Entity} {kind : String}
    (h : ∀ e ∈ run, e.toBottom = true ∧ e.kind = kind)
    (hkind : kind = "callback" ∨ kind = "typedef") : groups run = run := by
  have hordinary : run.filter (!·.toBottom) = [] := by
    apply List.filter_eq_nil_iff.2
    intro e he
    simp [(h e he).1]
  have hown : run.filter (isBottomOf kind) = run := by
    apply List.filter_eq_self.2
    intro e he
    simp [isBottomOf, h e he]
  have hother : ∀ other, kind ≠ other → run.filter (isBottomOf other) = [] := by
    intro other hne
    apply List.filter_eq_nil_iff.2
    intro e he
    simp [isBottomOf, h e he, hne]
  rcases hkind with rfl | rfl
  · simp [groups, hordinary, hown, hother "typedef" (by decide)]
  · simp [groups, hordinary, hown, hother "callback" (by decide)]

/-- Equals are always in one group, and each group keeps the order of its entities. -/
theorem filter_ties_groups {entities : List Entity}
    (hkinds : ∀ e ∈ entities, e.toBottom = true → e.kind = "callback" ∨ e.kind = "typedef")
    (a : Entity) : (groups entities).filter (ties comesFirst a) =
      entities.filter (ties comesFirst a) := by
  have hcomm : (groups entities).filter (ties comesFirst a) =
      groups (entities.filter (ties comesFirst a)) := by
    unfold groups
    rw [List.filter_append, List.filter_append, List.filter_comm,
      List.filter_comm (p := isBottomOf "callback"), List.filter_comm (p := isBottomOf "typedef")]
  have hties : ∀ e ∈ entities.filter (ties comesFirst a),
      a.toBottom = e.toBottom ∧ if a.toBottom = true then a.kind = e.kind else a.line = e.line := by
    intro e he
    exact ties_comesFirst_iff.1 (List.mem_filter.1 he).2
  -- The equals of one entity are all ordinary, or all for the bottom and of its kind.
  rw [hcomm]
  cases hbottom : a.toBottom with
  | false =>
      apply groups_of_ordinary
      intro e he
      have hsame : a.toBottom = e.toBottom := (hties e he).1
      exact hsame.symm.trans hbottom
  | true =>
      have hrun : ∀ e ∈ entities.filter (ties comesFirst a),
          e.toBottom = true ∧ e.kind = a.kind := by
        intro e he
        rcases hties e he with ⟨hsame, hkind⟩
        rw [if_pos hbottom] at hkind
        exact ⟨hsame.symm.trans hbottom, hkind.symm⟩
      -- An empty run may be of any kind; a run with an entity is of one of the two.
      cases hlist : entities.filter (ties comesFirst a) with
      | nil =>
          rfl
      | cons e rest =>
          have he : e ∈ entities.filter (ties comesFirst a) := by
            rw [hlist]
            exact List.mem_cons_self
          have hkind := hkinds e (List.mem_filter.1 he).1 (hrun e he).1
          rw [(hrun e he).2] at hkind
          rw [← hlist]
          exact groups_of_bottom hrun hkind

theorem assemble_eq_groups {entities : List (Option Entity)}
    (hlines : ((entities.filterMap id).filter (!·.toBottom)).Pairwise fun a b => a.line ≤ b.line)
    (hkinds : ∀ e ∈ entities.filterMap id,
      e.toBottom = true → e.kind = "callback" ∨ e.kind = "typedef") :
    assemble entities = groups (entities.filterMap id) :=
  mergeSort_eq_of_filter_ties comesFirst_trans comesFirst_total (pairwise_groups hlines)
    (filter_ties_groups hkinds)

end Entity
end ScriptDoc
