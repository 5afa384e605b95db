import SelectionPlan.Proofs.Plan.Strands
import SelectionPlan.Proofs.Resolve.Collisions

/-!
# Asking for a plan by hand

A plan that was resolved can be written out as a selection without `...`, one field for each path.
Resolving that selection gives the plan back: every path is found again in the way in which it was
found, and nothing is added or put elsewhere.
-/
namespace SelectionPlan.Resolver

theorem bodyPlan_unspread (schema : Schema) (names : List String) (fields : List Field)
    (named : Plan) : bodyPlan schema names ⟨false, fields⟩ named = named := by
  simp [bodyPlan, spread]

/-- Asked for by hand at `names`, the strand is found again. -/
def Retraces (resolver : Resolver) (schema : Schema) (names : List String) (strand : Strand) :
    Prop :=
  ∃ inner, inner ≠ [] ∧ Path.segments strand.1 = names ++ inner ∧
    resolver.Resolves schema names (Plan.trail inner (strand.2.map Plan.retraced)) strand.plan

namespace Retraces

variable {resolver : Resolver} {schema : Schema} {names : List String} {name : String}

theorem unit {path : String} (cut : Path.segments path = names ++ [name]) :
    resolver.Retraces schema names (path, none) := by
  refine ⟨[name], by simp, cut, ?_⟩
  have alone : resolver.Resolves schema names [⟨name, none⟩]
      (.unit (Path.ofSegments (names ++ [name])) ++ .empty) := .unit .nil
  rwa [← cut, Path.ofSegments_segments, Plan.append_empty] at alone

theorem relation {target : Schema} {model : String} {related : Plan}
    (plain : ∀ other ∈ names ++ [name], Path.Plain other)
    (role : schema.role (Path.ofSegments (names ++ [name])) = .relation model)
    (known : resolver.models.get? model = some target)
    (again : resolver.resolve target related.retraced = .ok related) :
    resolver.Retraces schema names (Path.ofSegments (names ++ [name]), some related) := by
  refine ⟨[name], by simp, Path.segments_ofSegments_of_plain (by simp) plain, ?_⟩
  cases shape : related.retraced with | mk all fields =>
  rw [shape] at again
  obtain ⟨named, inside, same⟩ := (resolve_eq_ok_iff _ _ _ _).mp again
  have alone : resolver.Resolves schema names [⟨name, some ⟨all, fields⟩⟩] _ :=
    .relation role known inside .nil
  rw [Plan.append_empty, ← same, ← shape] at alone
  exact alone

/-- What is found in an embedded document is found through the field that holds it. -/
theorem embedded {sub : Schema} {strand : Strand}
    (plain : ∀ other ∈ names ++ [name], Path.Plain other)
    (role : schema.role (Path.ofSegments (names ++ [name])) = .embedded sub)
    (inside : resolver.Retraces sub [] strand) :
    resolver.Retraces schema names (strand.rerooted (Path.ofSegments (names ++ [name]))) := by
  obtain ⟨inner, nonempty, cut, found⟩ := inside
  refine ⟨name :: inner, by simp, ?_, ?_⟩
  · rw [Strand.rerooted, Path.segments_join, Path.segments_ofSegments_of_plain (by simp) plain, cut]
    simp
  · have alone : resolver.Resolves schema names [⟨name, some ⟨false, _⟩⟩] _ :=
      .embedded role found .nil
    rw [Plan.append_empty, bodyPlan_unspread, Strand.dedup_plan, Strand.plan_rerooted] at alone
    rwa [Plan.trail_cons name nonempty]

theorem object {strand : Strand}
    (role : schema.role (Path.ofSegments (names ++ [name])) = .object)
    (accepted : resolver.options.strict = true →
      schema.hasDescendants (Path.ofSegments (names ++ [name])) = true)
    (inside : resolver.Retraces schema (names ++ [name]) strand) :
    resolver.Retraces schema names strand := by
  obtain ⟨inner, nonempty, cut, found⟩ := inside
  refine ⟨name :: inner, by simp, by rw [cut]; simp, ?_⟩
  have alone : resolver.Resolves schema names [⟨name, some ⟨false, _⟩⟩] _ :=
    .object role accepted found .nil
  rw [Plan.append_empty, bodyPlan_unspread] at alone
  rwa [Plan.trail_cons name nonempty]

end Retraces

/-- A plan that is made of strands which can be asked for by hand, one after the other. -/
def Retraceable (resolver : Resolver) (schema : Schema) (names : List String) (plan : Plan) :
    Prop :=
  ∃ strands, plan = .ofStrands strands ∧ ∀ strand ∈ strands, resolver.Retraces schema names strand

namespace Retraceable

variable {resolver : Resolver} {schema : Schema} {names : List String} {name : String}

theorem empty : resolver.Retraceable schema names .empty :=
  ⟨[], rfl, by simp⟩

theorem strand {strand : Strand} (found : resolver.Retraces schema names strand) :
    resolver.Retraceable schema names strand.plan :=
  ⟨[strand], by simp, by simpa using found⟩

theorem append {plan others : Plan} (front : resolver.Retraceable schema names plan)
    (back : resolver.Retraceable schema names others) :
    resolver.Retraceable schema names (plan ++ others) := by
  obtain ⟨first, rfl, found⟩ := front
  obtain ⟨second, rfl, found'⟩ := back
  exact ⟨first ++ second, (Plan.ofStrands_append _ _).symm,
    List.forall_mem_append.mpr ⟨found, found'⟩⟩

theorem spread (plain : ∀ name ∈ names, Path.Plain name) (paths : List String)
    (body : Selection) :
    resolver.Retraceable schema names (Resolver.spread paths (Path.ofSegments names) body) := by
  unfold Resolver.spread
  split
  next =>
    refine ⟨_, (Plan.ofStrands_units _).symm, ?_⟩
    intro strand member
    obtain ⟨path, child, rfl⟩ := List.mem_map.mp member
    obtain ⟨name, -, cut⟩ := Path.segments_of_mem_otherChildren plain child
    exact .unit cut
  next => exact empty

theorem bodyPlan {plan : Plan} (found : resolver.Retraceable schema names plan)
    (plain : ∀ name ∈ names, Path.Plain name) (body : Selection) :
    resolver.Retraceable schema names (Resolver.bodyPlan schema names body plan) :=
  (spread plain schema.pathNames body).append found

theorem embedded {sub : Schema} {plan : Plan}
    (plain : ∀ other ∈ names ++ [name], Path.Plain other)
    (role : schema.role (Path.ofSegments (names ++ [name])) = .embedded sub)
    (inside : resolver.Retraceable sub [] plan) :
    resolver.Retraceable schema names (plan.rerooted (Path.ofSegments (names ++ [name]))) := by
  obtain ⟨strands, rfl, found⟩ := inside
  refine ⟨_, Plan.rerooted_ofStrands _ _, ?_⟩
  intro strand member
  obtain ⟨inner, inside, rfl⟩ := List.mem_map.mp member
  exact (found inner inside).embedded plain role

theorem object {plan : Plan}
    (role : schema.role (Path.ofSegments (names ++ [name])) = .object)
    (accepted : resolver.options.strict = true →
      schema.hasDescendants (Path.ofSegments (names ++ [name])) = true)
    (inside : resolver.Retraceable schema (names ++ [name]) plan) :
    resolver.Retraceable schema names plan := by
  obtain ⟨strands, same, found⟩ := inside
  exact ⟨strands, same, fun strand member => (found strand member).object role accepted⟩

private theorem resolves_flatMap {strands : List Strand}
    (found : ∀ strand ∈ strands, resolver.Retraces schema [] strand) :
    resolver.Resolves schema []
      (strands.flatMap fun strand =>
        Plan.trail (Path.segments strand.1) (strand.2.map Plan.retraced))
      (.ofStrands strands) := by
  induction strands with
  | nil => exact .nil
  | cons strand rest ih =>
    obtain ⟨first, others⟩ := List.forall_mem_cons.mp found
    obtain ⟨inner, -, cut, derived⟩ := first
    rw [List.nil_append] at cut
    rw [List.flatMap_cons, cut]
    exact derived.append (ih others)

/-- The strands of a plan without repetitions, each asked for by hand, give the plan back. -/
theorem resolve_retraced_of_nodup {plan : Plan} (found : resolver.Retraceable schema [] plan)
    (distinct : plan.select.Nodup) : resolver.resolve schema plan.retraced = .ok plan := by
  obtain ⟨strands, rfl, found⟩ := found
  have unrepeated : (Plan.ofStrands strands).dedup = .ofStrands strands :=
    Plan.ext (eraseDups_eq_self distinct) rfl
  rw [Plan.retraced_ofStrands distinct, resolve_eq_ok_iff]
  exact ⟨_, resolves_flatMap found, by rw [bodyPlan_unspread, unrepeated]⟩

end Retraceable

/-- Dropping repetitions from the plan of a document changes nothing, since there are none. -/
theorem Retraceable.document {resolver : Resolver} {schema : Schema} {all : Bool}
    {fields : List Field} {named : Plan} (found : resolver.Retraceable schema [] named)
    (derived : resolver.Resolves schema [] fields named)
    (root : Selection.NamedAt [] ⟨all, fields⟩) (distinct : Selection.NamesDistinct ⟨all, fields⟩) :
    resolver.Retraceable schema [] (Resolver.bodyPlan schema [] ⟨all, fields⟩ named).dedup := by
  have fans := (derived.fans root distinct).bodyPlan root.above schema all
  rw [fans.dedup_eq]
  exact found.bodyPlan root.above _

/-- The invariant of derivations: the plan of fields can be asked for by hand. -/
theorem Resolves.retraceable {resolver : Resolver} {schema : Schema} {names : List String}
    {fields : List Field} {plan : Plan} (derived : resolver.Resolves schema names fields plan)
    {all : Bool} (named : Selection.NamedAt names ⟨all, fields⟩)
    (distinct : Selection.NamesDistinct ⟨all, fields⟩) :
    resolver.Retraceable schema names plan := by
  induction derived generalizing all with
  | nil => exact .empty
  | unit _ ih =>
    obtain ⟨-, -, distinct⟩ := Selection.namesDistinct_cons_iff.mp distinct
    have cut := Path.segments_ofSegments_of_plain (by simp) named.first
    exact (Retraceable.strand (.unit cut)).append (ih named.rest distinct)
  | relation role known inner _ ihInner ihRest =>
    obtain ⟨-, below, distinct⟩ := Selection.namesDistinct_cons_iff.mp distinct
    -- The related plan is one of another document, and can be asked for there.
    have root := (named.inside rfl).alone
    have found := (ihInner root (below _ rfl)).document inner root (below _ rfl)
    have again := found.resolve_retraced_of_nodup (nodup_eraseDups _)
    exact (Retraceable.strand (.relation named.first role known again)).append
      (ihRest named.rest distinct)
  | embedded role inner _ ihInner ihRest =>
    obtain ⟨-, below, distinct⟩ := Selection.namesDistinct_cons_iff.mp distinct
    have root := (named.inside rfl).alone
    have found := (ihInner root (below _ rfl)).document inner root (below _ rfl)
    exact (found.embedded named.first role).append (ihRest named.rest distinct)
  | leaf _ _ ihRest =>
    obtain ⟨-, -, distinct⟩ := Selection.namesDistinct_cons_iff.mp distinct
    have cut := Path.segments_ofSegments_of_plain (by simp) named.first
    exact (Retraceable.strand (.unit cut)).append (ihRest named.rest distinct)
  | object role accepted _ _ ihInner ihRest =>
    obtain ⟨-, below, distinct⟩ := Selection.namesDistinct_cons_iff.mp distinct
    have found := ihInner (named.inside rfl) (below _ rfl)
    exact ((found.bodyPlan named.first _).object role accepted).append (ihRest named.rest distinct)

/-- A plan that was resolved resolves to itself once it is written out by hand. -/
theorem resolve_retraced (resolver : Resolver) (schema : Schema) {selection : Selection}
    {plan : Plan} (named : selection.WellNamed) (distinct : selection.NamesDistinct)
    (resolved : resolver.resolve schema selection = .ok plan) :
    resolver.resolve schema plan.retraced = .ok plan := by
  obtain ⟨all, fields⟩ := selection
  obtain ⟨inner, derived, rfl⟩ := (resolve_eq_ok_iff _ _ _ _).mp resolved
  have root : Selection.NamedAt [] ⟨all, fields⟩ := ⟨List.forall_mem_nil _, named⟩
  have found := (derived.retraceable root distinct).document derived root distinct
  exact found.resolve_retraced_of_nodup (nodup_eraseDups _)

theorem resolve_retraced_article :
    let place : Schema := ⟨[("city", .scalar), ("geo.lat", .scalar), ("geo.lng", .scalar)], []⟩
    let article : Schema :=
      ⟨[("title", .scalar), ("meta.editor", .reference "Author"), ("meta.place", .embedded place),
        ("meta.tags", .scalar)], [("related", "Article")]⟩
    let author : Schema := ⟨[("name", .scalar), ("home", .embedded place)], [("works", "Article")]⟩
    let selection : Selection :=
      ⟨true, [⟨"related", some ⟨false, [⟨"title", none⟩, ⟨"related", some .everything⟩]⟩⟩,
        ⟨"meta", some ⟨true, [⟨"place", some ⟨true, [⟨"geo", some .everything⟩]⟩⟩,
          ⟨"editor", some ⟨false, [⟨"home", some .everything⟩, ⟨"works", none⟩]⟩⟩]⟩⟩]⟩
    let resolver : Resolver := ⟨⟨[("Article", article), ("Author", author)]⟩, { strict := true }⟩
    let plan : Plan :=
      ⟨["title", "related", "meta.tags", "meta.place.city", "meta.place.geo.lat",
          "meta.place.geo.lng", "meta.editor"],
        [("related", ⟨["title", "related"], [("related", ⟨["title", "meta"], []⟩)]⟩),
          ("meta.editor", ⟨["home.city", "home.geo", "works"], []⟩)]⟩
    selection.WellNamed ∧ selection.NamesDistinct ∧ resolver.resolve article selection = .ok plan ∧
      resolver.resolve article plan.retraced = .ok plan := by
  intro place article author selection resolver plan
  have named : selection.WellNamed := by
    simp only [selection, Selection.everything, Selection.wellNamed_cons_iff,
      Selection.wellNamed_nil, Option.some.injEq, forall_eq', reduceCtorEq, false_imp_iff,
      implies_true, and_true]
    decide
  have distinct : selection.NamesDistinct := by
    simp only [selection, Selection.everything, Selection.namesDistinct_cons_iff,
      Selection.namesDistinct_nil, Option.some.injEq, forall_eq', reduceCtorEq, false_imp_iff,
      implies_true, and_true]
    decide
  have resolved : resolver.resolve article selection = .ok plan := by
    simp only [resolver, article, author, place, selection, plan]
    rfl
  exact ⟨named, distinct, resolved, resolve_retraced resolver article named distinct resolved⟩

end SelectionPlan.Resolver
