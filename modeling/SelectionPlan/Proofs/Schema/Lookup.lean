import SelectionPlan.Schema
import SelectionPlan.Proofs.Dictionaries
import SelectionPlan.Proofs.Path.Segments

/-!
# Looking up in schemas

What a schema has at a path and below it.
-/
namespace SelectionPlan

namespace Schema

theorem path?_eq_none_iff (schema : Schema) (path : String) :
    schema.path? path = none ↔ path ∉ schema.pathNames :=
  Dict.get?_eq_none_iff

theorem hasDescendants_iff (schema : Schema) (path : String) :
    schema.hasDescendants path = true ↔
      ∃ rest, Path.join path rest ∈ schema.pathNames ∨ Path.join path rest ∈ schema.virtualNames := by
  rw [hasDescendants, List.any_eq_true]
  constructor
  · rintro ⟨other, member, below⟩
    obtain ⟨rest, rfl⟩ := (Path.isBelow_iff _ _).mp below
    exact ⟨rest, List.mem_append.mp member⟩
  · rintro ⟨rest, member⟩
    exact ⟨_, List.mem_append.mpr member, (Path.isBelow_iff _ _).mpr ⟨rest, rfl⟩⟩

theorem hasDescendants_eq_false_iff (schema : Schema) (path : String) :
    schema.hasDescendants path = false ↔
      ∀ rest, Path.join path rest ∉ schema.pathNames ∧
        Path.join path rest ∉ schema.virtualNames := by
  rw [← Bool.not_eq_true, hasDescendants_iff]
  simp only [not_exists, not_or]

end Schema

end SelectionPlan
