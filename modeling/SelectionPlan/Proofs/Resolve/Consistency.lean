import SelectionPlan.Proofs.Plan.Assembly
import SelectionPlan.Proofs.Plan.Levels
import SelectionPlan.Proofs.Resolve.Derivations

/-!
# Plans are consistent

Whatever is asked for, a plan selects no path twice, and it selects the path of every relation that
it follows: without the path the related record could not be found. Only whole documents drop
repeated paths. The parts that they are put together from may repeat them, and what a part has from
the start is that its relations are selected.
-/
namespace SelectionPlan

namespace Plan

/-- At the level of the plan itself, no path is selected twice and every relation that is followed
is selected. -/
structure Consistent (level : Plan) : Prop where
  distinct : level.select.Nodup
  selected : ∀ path related, (path, related) ∈ level.populate → path ∈ level.select

/-- Every relation that is followed is selected, and the plans for related records are consistent.
Paths may be repeated. -/
structure Grounded (plan : Plan) : Prop where
  selected : ∀ path related, (path, related) ∈ plan.populate → path ∈ plan.select
  related : ∀ path related, (path, related) ∈ plan.populate → related.EveryLevel Consistent

namespace Grounded

variable {plan others : Plan}

theorem of_unpopulated (alone : plan.populate = []) : plan.Grounded :=
  ⟨by simp [alone], by simp [alone]⟩

theorem relation (path : String) {related : Plan} (consistent : related.EveryLevel Consistent) :
    (Plan.relation path related).Grounded := by
  constructor
  · intro path' related' member
    cases List.mem_singleton.mp member
    exact List.mem_singleton.mpr rfl
  · intro path' related' member
    cases List.mem_singleton.mp member
    exact consistent

theorem append (front : plan.Grounded) (back : others.Grounded) : (plan ++ others).Grounded := by
  constructor
  · intro path related member
    rw [populate_append, List.mem_append] at member
    rw [select_append, List.mem_append]
    exact member.imp (front.selected path related) (back.selected path related)
  · intro path related member
    rw [populate_append, List.mem_append] at member
    exact member.elim (front.related path related) (back.related path related)

theorem rerooted (grounded : plan.Grounded) (above : String) :
    (plan.rerooted above).Grounded := by
  constructor
  · intro path related member
    obtain ⟨⟨inner, _⟩, inside, ⟨⟩⟩ := List.mem_map.mp member
    exact List.mem_map_of_mem (grounded.selected inner _ inside)
  · intro path related member
    obtain ⟨⟨inner, _⟩, inside, ⟨⟩⟩ := List.mem_map.mp member
    exact grounded.related inner _ inside

theorem dedup (grounded : plan.Grounded) : plan.dedup.Grounded := by
  refine ⟨?_, grounded.related⟩
  intro path related member
  exact List.mem_eraseDups.mpr (grounded.selected path related member)

theorem bodyPlan (grounded : plan.Grounded) (schema : Schema) (names : List String)
    (body : Selection) : (Resolver.bodyPlan schema names body plan).Grounded := by
  -- A spread selects children of the schema and follows none of them.
  have alone : (Resolver.spread schema.pathNames (Path.ofSegments names) body).populate = [] := by
    unfold Resolver.spread
    split <;> rfl
  exact (of_unpopulated alone).append grounded

/-- Once repetitions are dropped, every level is consistent. -/
theorem everyLevel (grounded : plan.Grounded) : plan.dedup.EveryLevel Consistent :=
  .intro ⟨nodup_eraseDups plan.select, grounded.dedup.selected⟩ grounded.related

end Grounded

end Plan

namespace Resolver

/-- The invariant of derivations: the relations among the fields are selected. -/
theorem Resolves.grounded {resolver : Resolver} {schema : Schema} {names : List String}
    {fields : List Field} {plan : Plan} (derived : resolver.Resolves schema names fields plan) :
    plan.Grounded := by
  induction derived with
  | nil => exact .of_unpopulated rfl
  | unit _ ih => exact (Plan.Grounded.of_unpopulated rfl).append ih
  | relation _ _ _ _ ihInner ihRest =>
    -- The related record is a document of its own, so its plan is complete here.
    exact (Plan.Grounded.relation _ (ihInner.bodyPlan _ _ _).everyLevel).append ihRest
  | embedded _ _ _ ihInner ihRest =>
    exact ((ihInner.bodyPlan _ _ _).dedup.rerooted _).append ihRest
  | leaf _ _ ihRest => exact (Plan.Grounded.of_unpopulated rfl).append ihRest
  | object _ _ _ _ ihInner ihRest => exact (ihInner.bodyPlan _ _ _).append ihRest

/-- At every level of a plan, no path is selected twice and every relation that is followed is
selected. Names may be repeated, empty or hold dots. -/
theorem resolve_consistent (resolver : Resolver) (schema : Schema) {selection : Selection}
    {plan : Plan} (resolved : resolver.resolve schema selection = .ok plan) :
    plan.EveryLevel Plan.Consistent := by
  obtain ⟨named, derived, rfl⟩ := (resolve_eq_ok_iff _ _ _ _).mp resolved
  exact (derived.grounded.bodyPlan schema [] selection).everyLevel

theorem resolve_consistent_repeated :
    let place : Schema := ⟨[("city", .scalar), ("owner", .reference "Author")], []⟩
    let author : Schema :=
      ⟨[("name", .scalar), ("home", .embedded place), ("meta.tags", .scalar)],
        [("works", "Author")]⟩
    let selection : Selection :=
      ⟨true, [⟨"works", some ⟨true, [⟨"name", none⟩, ⟨"name", none⟩]⟩⟩, ⟨"home.owner", none⟩,
        ⟨"home", some ⟨true, [⟨"owner", some ⟨false, [⟨"", none⟩, ⟨"works", none⟩]⟩⟩,
          ⟨"city", none⟩, ⟨"city", none⟩]⟩⟩, ⟨"works", some .everything⟩]⟩
    let resolver : Resolver := ⟨⟨[("Author", author)]⟩, {}⟩
    let plan : Plan :=
      ⟨["name", "meta", "works", "home.owner", "home.city"],
        [("works", ⟨["home", "meta", "name"], []⟩), ("home.owner", ⟨["", "works"], []⟩),
          ("works", ⟨["name", "home", "meta"], []⟩)]⟩
    resolver.resolve author selection = .ok plan ∧ plan.EveryLevel Plan.Consistent := by
  intro place author selection resolver plan
  have resolved : resolver.resolve author selection = .ok plan := by
    simp only [resolver, author, place, selection, plan]
    rfl
  exact ⟨resolved, resolve_consistent resolver author resolved⟩

end Resolver

end SelectionPlan
