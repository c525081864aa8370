import ScriptDoc.Entity

/-!
# Order — entities in the order of a page

Ordinary entities come first, by line; callbacks and type definitions follow, by kind. Entities
that compare equal keep their order.

- `Entity.comesFirst` : the order, as a test that holds between equals too
- `Entity.assemble`   : the entities there are, in order
-/

namespace ScriptDoc
namespace Entity

def comesFirst (a b : Entity) : Bool :=
  match a.toBottom, b.toBottom with
  | false, false => a.line ≤ b.line
  | false, true => true
  | true, false => false
  | true, true => !decide (b.kind < a.kind)

theorem comesFirst_total (a b : Entity) : (comesFirst a b || comesFirst b a) = true := by
  unfold comesFirst
  cases a.toBottom <;> cases b.toBottom
  · simp only [Bool.or_eq_true, decide_eq_true_eq]
    exact Int.le_total a.line b.line
  · rfl
  · rfl
  · simp only [Bool.or_eq_true, Bool.not_eq_true', decide_eq_false_iff_not]
    exact String.le_total a.kind b.kind

theorem comesFirst_trans (a b c : Entity) (hab : comesFirst a b = true)
    (hbc : comesFirst b c = true) : comesFirst a c = true := by
  unfold comesFirst at *
  cases ha : a.toBottom <;> cases hb : b.toBottom <;> cases hc : c.toBottom <;>
    simp only [ha, hb, hc, Bool.not_eq_true', decide_eq_true_eq, decide_eq_false_iff_not,
      Bool.false_eq_true] at hab hbc ⊢
  · exact Int.le_trans hab hbc
  · intro lt
    exact String.le_trans (a := a.kind) hab hbc lt

def assemble (entities : List (Option Entity)) : List Entity :=
  (entities.filterMap id).mergeSort comesFirst

end Entity
end ScriptDoc
