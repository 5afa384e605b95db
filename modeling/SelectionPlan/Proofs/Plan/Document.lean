import SelectionPlan.Plan.Document
import Mathlib.Data.List.Basic

/-!
# Documents of plans

What a find projection holds. A path that is selected twice has one entry in it, so a plan without
repetitions can be read off its projection.
-/
namespace SelectionPlan

theorem Document.insert_of_notMem {name : String} (value : DocumentValue) {document : Document}
    (fresh : name ∉ document.map Prod.fst) :
    document.insert name value = document ++ [(name, value)] := by
  induction document with
  | nil => rfl
  | cons entry rest ih =>
    obtain ⟨key, old⟩ := entry
    simp only [List.map_cons, List.mem_cons, not_or] at fresh
    rw [insert, if_neg fun same => fresh.1 same.symm, ih fresh.2]
    rfl

namespace Plan

private theorem foldl_insert_of_nodup {paths : List String} (distinct : paths.Nodup)
    (document : Document) (fresh : ∀ path ∈ paths, path ∉ document.map Prod.fst) :
    paths.foldl (fun document path => document.insert path (.int32 1)) document =
      document ++ paths.map fun path => (path, .int32 1) := by
  induction paths generalizing document with
  | nil => simp
  | cons path rest ih =>
    obtain ⟨absent, distinct⟩ := List.nodup_cons.mp distinct
    -- The path is new in the document, and stays the only entry of its name.
    have later : ∀ other ∈ rest, other ∉ (document ++ [(path, DocumentValue.int32 1)]).map Prod.fst := by
      intro other member
      have different : other ≠ path := by
        rintro rfl
        exact absent member
      simpa [different] using fresh other (List.mem_cons_of_mem _ member)
    rw [List.foldl_cons, Document.insert_of_notMem _ (fresh path List.mem_cons_self),
      ih distinct _ later, List.append_assoc]
    rfl

theorem projection_of_nodup {plan : Plan} (distinct : plan.select.Nodup) :
    plan.projection = plan.select.map fun path => (path, .int32 1) :=
  foldl_insert_of_nodup distinct [] (by simp)

end Plan

end SelectionPlan
