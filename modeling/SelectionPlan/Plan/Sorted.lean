import SelectionPlan.Plan.Basic

/-!
# The canonical order of a plan

A sorted plan has its paths in ascending order of their code points, and its relations in ascending
order of their paths, at every level. Relations at one path keep their order.
-/
namespace SelectionPlan.Plan

def sortPaths (paths : List String) : List String :=
  paths.mergeSort fun first second => decide (first ≤ second)

def sortRelations (relations : List (String × Plan)) : List (String × Plan) :=
  relations.mergeSort fun first second => decide (first.1 ≤ second.1)

mutual

def sorted : Plan → Plan
  | ⟨select, populate⟩ => ⟨sortPaths select, sortRelations (sortedBelow populate)⟩

/-- Relations in their places, with sorted plans. -/
def sortedBelow : List (String × Plan) → List (String × Plan)
  | [] => []
  | (path, related) :: rest => (path, sorted related) :: sortedBelow rest

end

end SelectionPlan.Plan
