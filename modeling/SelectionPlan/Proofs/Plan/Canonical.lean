import SelectionPlan.Proofs.Plan.Order

/-!
# Sorting as a canonical form

A sorted plan is a reordering of the plan that it was sorted from, its levels are in ascending
order, and sorting it again changes nothing. So plans with one sorted form are reorderings of each
other. The converse needs levels that do not follow two relations at one path, since such relations
would stay in the order in which they came.
-/
namespace SelectionPlan.Plan

namespace Reordered

variable {plan plan' : Plan}

theorem symm (reordered : plan.Reordered plan') : plan'.Reordered plan := by
  induction reordered with
  | permute select populate => exact .permute select.symm populate.symm
  | inside _ ih => exact .inside ih
  | trans _ _ ih ih' => exact ih'.trans ih

/-- All plans for related records may be reordered at once. -/
theorem relations {change : Plan → Plan} (select : List String)
    {populate : List (String × Plan)}
    (each : ∀ entry ∈ populate, entry.2.Reordered (change entry.2)) :
    Reordered ⟨select, populate⟩ ⟨select, populate.map fun entry => (entry.1, change entry.2)⟩ := by
  -- The relations before some place are changed already, those after it are not.
  suffices step : ∀ front, Reordered ⟨select, front ++ populate⟩
      ⟨select, front ++ populate.map fun entry => (entry.1, change entry.2)⟩ from step []
  induction populate with
  | nil => exact fun front => refl _
  | cons entry rest ih =>
    intro front
    obtain ⟨first, others⟩ := List.forall_mem_cons.mp each
    have later := ih others (front ++ [(entry.1, change entry.2)])
    rw [List.append_assoc, List.append_assoc] at later
    exact (Reordered.inside first).trans later

end Reordered

/-- Sorting loses nothing, adds nothing and moves nothing to another level. -/
theorem reordered_sorted (plan : Plan) : plan.Reordered plan.sorted := by
  induction plan using byRelations with
  | level select populate ih =>
    rw [sorted_eq]
    calc Reordered ⟨select, populate⟩
          ⟨select, populate.map fun entry => (entry.1, entry.2.sorted)⟩ := .relations select ih
      Reordered _ ⟨sortPaths select, sortRelations _⟩ :=
        .permute (List.mergeSort_perm _ _).symm (List.mergeSort_perm _ _).symm

/-- The order of one level: paths ascend, and relations by their paths. -/
structure Ascending (level : Plan) : Prop where
  select : level.select.Pairwise (· ≤ ·)
  populate : level.populate.Pairwise fun first second => first.1 ≤ second.1

theorem everyLevel_sorted (plan : Plan) : plan.sorted.EveryLevel Ascending := by
  induction plan using byRelations with
  | level select populate ih =>
    rw [sorted_eq]
    refine .intro ⟨pairwise_mergeSort_key id select, pairwise_mergeSort_key Prod.fst _⟩ ?_
    intro path related member
    -- A relation that sorting has put somewhere was sorted itself before.
    obtain ⟨entry, inside, same⟩ := List.mem_map.mp (List.mem_mergeSort.mp member)
    cases same
    exact ih entry inside

/-- What is in order already stays as it is, relations at one path included. -/
theorem EveryLevel.sorted_eq {plan : Plan} (ordered : plan.EveryLevel Ascending) :
    plan.sorted = plan := by
  induction ordered with
  | @intro plan ascending _ ih =>
    have inner : (plan.populate.map fun entry => (entry.1, entry.2.sorted)) = plan.populate := by
      have each : ∀ entry ∈ plan.populate, (entry.1, entry.2.sorted) = id entry :=
        fun entry member => Prod.ext rfl (ih entry.1 entry.2 member)
      rw [List.map_congr_left each, List.map_id]
    rw [Plan.sorted_eq, inner]
    refine ext (List.mergeSort_of_pairwise ?_) (List.mergeSort_of_pairwise ?_)
    · exact ascending.select.imp decide_eq_true
    · exact ascending.populate.imp decide_eq_true

/-- The sorted form of a plan is a reordering of it with all levels in order, and the sorted form of
itself. If no level of the plan follows two relations at one path, the plans with the same sorted
form are its reorderings. -/
theorem sorted_canonical (plan : Plan) :
    plan.Reordered plan.sorted ∧ plan.sorted.EveryLevel Ascending ∧
      plan.sorted.sorted = plan.sorted ∧
      (plan.EveryLevel RelationsDistinct →
        ∀ other, plan.sorted = other.sorted ↔ plan.Reordered other) := by
  have ordered := everyLevel_sorted plan
  refine ⟨reordered_sorted plan, ordered, ordered.sorted_eq, fun distinct other => ?_⟩
  constructor
  · intro same
    calc Reordered plan plan.sorted := reordered_sorted plan
      Reordered _ other := same ▸ (reordered_sorted other).symm
  · -- Relations at different paths ascend in one order only.
    exact fun reordered => reordered.sorted_eq distinct

theorem sorted_canonical_author :
    let works : Plan := ⟨["b", "a"], [("c", .empty)]⟩
    let works' : Plan := ⟨["a", "b"], [("c", .empty)]⟩
    let plan : Plan := ⟨["works", "home"], [("works", works), ("home", .unit "street")]⟩
    let plan' : Plan := ⟨["home", "works"], [("home", .unit "street"), ("works", works')]⟩
    plan.EveryLevel RelationsDistinct ∧ plan.Reordered plan' ∧ plan.sorted = plan'.sorted := by
  intro works works' plan plan'
  have leaf (select : List String) : EveryLevel RelationsDistinct ⟨select, []⟩ :=
    .intro List.nodup_nil (by simp)
  have inner : works.EveryLevel RelationsDistinct := by
    refine .intro (by simp [works, RelationsDistinct]) ?_
    intro path related member
    obtain ⟨-, rfl⟩ : path = "c" ∧ related = .empty := by simpa [works] using member
    exact leaf []
  have distinct : plan.EveryLevel RelationsDistinct := by
    refine .intro (by simp [plan, RelationsDistinct]) ?_
    intro path related member
    have cases : related = works ∨ related = .unit "street" := by
      simp only [plan, List.mem_cons, Prod.mk.injEq, List.not_mem_nil, or_false] at member
      exact member.imp And.right And.right
    rcases cases with rfl | rfl
    · exact inner
    · exact leaf ["street"]
  have reordered : plan.Reordered plan' :=
    calc plan.Reordered ⟨["works", "home"], [("works", works'), ("home", .unit "street")]⟩ :=
          @Reordered.inside _ [] _ _ _ _ (.permute (.swap ..) (.refl _))
      Reordered _ plan' := .permute (.swap ..) (.swap ..)
  exact ⟨distinct, reordered, ((sorted_canonical plan).2.2.2 distinct plan').mpr reordered⟩

/-- Relations at one path stay in the order in which they came. -/
example : sorted ⟨[], [("a", .unit "y"), ("a", .unit "x")]⟩ =
    ⟨[], [("a", .unit "y"), ("a", .unit "x")]⟩ := by cbv

end SelectionPlan.Plan
