import ScriptDoc.Name
import ScriptDoc.Proofs.Text.Erase

/-!
# Placements — display names that still have placements

The parts of a declared name that only place it are erased in one pass. A part that stands inside
another hides it from the pass, which leaves it whole.

- `Name.IsPlain`             : names without placements
- `Name.isPlain_display_iff` : when a display name is one, and is its own display name
-/

namespace ScriptDoc
namespace Name

open Text

def IsPlain (name : String) : Prop :=
  IsFree placements name.toList

instance (name : String) : Decidable (IsPlain name) :=
  inferInstanceAs (Decidable (IsFree placements name.toList))

theorem nil_notMem_placements : [] ∉ placements := by
  decide

theorem toList_display (name : String) : (display "" name).toList = plain name.toList := by
  simp [display]

theorem display_eq_self_iff (name : String) : display "" name = name ↔ IsPlain name := by
  rw [← String.toList_inj, toList_display]
  exact eraseAll_eq_self_iff nil_notMem_placements

/-- A display name is put together of what is left between the erased placements. It is plain exactly
if no placement straddles these pieces, and only then making it a display name again changes
nothing. -/
theorem isPlain_display_iff (name : String) :
    AreLeftovers placements name.toList (leftovers placements name.toList) ∧
      (display "" name).toList = (leftovers placements name.toList).flatten ∧
        (IsPlain (display "" name) ↔
          ∀ mark ∈ placements, ¬ Straddles mark (leftovers placements name.toList)) ∧
          (display "" (display "" name) = display "" name ↔ IsPlain (display "" name)) := by
  have hdisplay : (display "" name).toList = eraseAll placements name.toList := toList_display name
  refine ⟨areLeftovers_leftovers nil_notMem_placements name.toList, ?_, ?_, ?_⟩
  · rw [hdisplay, flatten_leftovers]
  · rw [IsPlain, hdisplay]
    exact isFree_eraseAll_iff nil_notMem_placements name.toList
  · exact display_eq_self_iff (display "" name)

/-- A call inside the brackets of a call: the inner brackets go, and the outer ones meet. -/
theorem not_isPlain_display_nestedCall :
    display "" "Foo.run(())" = "Foo.run()" ∧ ¬ IsPlain (display "" "Foo.run(())") ∧
      display "" (display "" "Foo.run(())") ≠ display "" "Foo.run(())" := by
  have hdisplay : display "" "Foo.run(())" = "Foo.run()" := by
    decide +kernel
  have hmark : ¬ IsPlain "Foo.run()" := by
    decide +kernel
  rw [hdisplay]
  exact ⟨rfl, hmark, fun hsame => hmark ((display_eq_self_iff "Foo.run()").1 hsame)⟩

end Name
end ScriptDoc
