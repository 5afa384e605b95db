import SelectionPlan.Proofs.Path.Apart
import SelectionPlan.Proofs.Plan.Assembly
import SelectionPlan.Proofs.Plan.Document
import SelectionPlan.Proofs.Plan.Levels
import SelectionPlan.Proofs.Resolve.Derivations

/-!
# Paths of a plan do not collide

A document store refuses to be asked for a path and for another one below it. When no body of a
selection names a field twice, its plan never does that. Each field leads to paths below its own
name, and a body with `...` takes only children that it does not name.
-/
namespace SelectionPlan

namespace Plan

/-- At the level of the plan itself, no path is selected twice or together with one below it, and
the same is true of the relations that are followed. -/
structure CollisionFree (level : Plan) : Prop where
  select : level.select.Pairwise Path.Apart
  populate : (level.populate.map Prod.fst).Pairwise Path.Apart

/-- The paths of a plan go on from `names` by names that are allowed there, and keep apart. The
plans for related records are free of collisions. -/
structure Fans (names : List String) (allowed : String → Prop) (plan : Plan) : Prop where
  select : Path.Fan names allowed plan.select
  populate : Path.Fan names allowed (plan.populate.map Prod.fst)
  related : ∀ path related, (path, related) ∈ plan.populate → related.EveryLevel CollisionFree

namespace Fans

variable {names : List String} {allowed allowed' : String → Prop} {plan others : Plan}

theorem everyLevel (fans : plan.Fans names allowed) : plan.EveryLevel CollisionFree :=
  .intro ⟨fans.select.apart, fans.populate.apart⟩ fans.related

theorem dedup_eq (fans : plan.Fans names allowed) : plan.dedup = plan :=
  ext (eraseDups_eq_self (Path.nodup_of_apart fans.select.apart)) rfl

theorem empty : Fans names allowed .empty :=
  ⟨.nil, .nil, by simp [Plan.empty]⟩

theorem unit {name : String} (plain : ∀ other ∈ names ++ [name], Path.Plain other) :
    Fans names (· = name) (.unit (Path.ofSegments (names ++ [name]))) :=
  ⟨.singleton plain, .nil, by simp [Plan.unit]⟩

theorem relation {name : String} (plain : ∀ other ∈ names ++ [name], Path.Plain other)
    {related : Plan} (free : related.EveryLevel CollisionFree) :
    Fans names (· = name) (.relation (Path.ofSegments (names ++ [name])) related) := by
  refine ⟨.singleton plain, .singleton plain, ?_⟩
  intro path related' member
  cases List.mem_singleton.mp member
  exact free

theorem mono (fans : plan.Fans names allowed) (wider : ∀ name, allowed name → allowed' name) :
    plan.Fans names allowed' :=
  ⟨fans.select.mono wider, fans.populate.mono wider, fans.related⟩

theorem append (fans : plan.Fans names allowed) (fans' : others.Fans names allowed')
    (disjoint : ∀ name, allowed name → ¬ allowed' name) :
    (plan ++ others).Fans names fun name => allowed name ∨ allowed' name := by
  refine ⟨fans.select.append fans'.select disjoint, ?_, ?_⟩
  · rw [populate_append, List.map_append]
    exact fans.populate.append fans'.populate disjoint
  · intro path related member
    rcases List.mem_append.mp member with front | back
    · exact fans.related path related front
    · exact fans'.related path related back

theorem narrow {name : String} (fans : plan.Fans (names ++ [name]) allowed) :
    plan.Fans names (· = name) :=
  ⟨fans.select.narrow, fans.populate.narrow, fans.related⟩

theorem rerooted (fans : plan.Fans names allowed) (above : String) :
    (plan.rerooted above).Fans (Path.segments above ++ names) allowed := by
  refine ⟨fans.select.map_join above, ?_, ?_⟩
  · have moved := fans.populate.map_join above
    rw [List.map_map] at moved
    rw [populate_rerooted, List.map_map]
    exact moved
  · intro path related member
    obtain ⟨⟨inner, _⟩, inside, same⟩ := List.mem_map.mp member
    cases same
    exact fans.related inner _ inside

theorem spread (plain : ∀ name ∈ names, Path.Plain name) (paths : List String)
    (body : Selection) :
    Fans names (· ∉ body.names) (Resolver.spread paths (Path.ofSegments names) body) := by
  unfold Resolver.spread
  split
  next => exact ⟨.otherChildren plain paths body.names, .nil, by simp⟩
  next => exact empty

theorem bodyPlan {fields : List Field} (fans : plan.Fans names (· ∈ fields.map Entry.name))
    (plain : ∀ name ∈ names, Path.Plain name) (schema : Schema) (all : Bool) :
    (Resolver.bodyPlan schema names ⟨all, fields⟩ plan).Fans names fun _ => True := by
  -- A body does not spread to the fields that it names.
  have spread := Fans.spread plain schema.pathNames ⟨all, fields⟩
  exact (spread.append fans fun _ fresh member => fresh member).mono fun _ _ => trivial

theorem cons {name : String} {rest : List String} (first : plan.Fans names (· = name))
    (fans : others.Fans names (· ∈ rest)) (fresh : name ∉ rest) :
    (plan ++ others).Fans names (· ∈ name :: rest) := by
  have disjoint : ∀ other, other = name → other ∉ rest := by
    rintro other rfl
    exact fresh
  exact (first.append fans disjoint).mono fun _ => List.mem_cons.mpr

end Fans

end Plan

namespace Resolver

/-- The invariant of derivations: fields lead to a fan by their names. -/
theorem Resolves.fans {resolver : Resolver} {schema : Schema} {names : List String}
    {fields : List Field} {plan : Plan} (derived : resolver.Resolves schema names fields plan)
    {all : Bool} (named : Selection.NamedAt names ⟨all, fields⟩)
    (distinct : Selection.NamesDistinct ⟨all, fields⟩) :
    plan.Fans names (· ∈ fields.map Entry.name) := by
  induction derived generalizing all with
  | nil => exact .empty
  | unit _ ih =>
    obtain ⟨fresh, -, distinct⟩ := Selection.namesDistinct_cons_iff.mp distinct
    exact .cons (.unit named.first) (ih named.rest distinct) fresh
  | @relation _ target _ _ _ spreads _ _ _ _ _ _ _ _ ihInner ihRest =>
    obtain ⟨fresh, below, distinct⟩ := Selection.namesDistinct_cons_iff.mp distinct
    -- The related plan is one of another document, and free of collisions by itself.
    have inner := (ihInner (named.inside rfl).alone (below _ rfl)).bodyPlan (by simp) target spreads
    rw [inner.dedup_eq]
    exact .cons (.relation named.first inner.everyLevel) (ihRest named.rest distinct) fresh
  | @embedded _ sub names name spreads _ _ _ _ _ _ _ ihInner ihRest =>
    obtain ⟨fresh, below, distinct⟩ := Selection.namesDistinct_cons_iff.mp distinct
    have inner := (ihInner (named.inside rfl).alone (below _ rfl)).bodyPlan (by simp) sub spreads
    rw [inner.dedup_eq]
    -- Moved below the field, all paths of the sub-document go on by the name of the field.
    have moved := inner.rerooted (Path.ofSegments (names ++ [name]))
    rw [Path.segments_ofSegments_of_plain (by simp) named.first, List.append_nil] at moved
    exact .cons moved.narrow (ihRest named.rest distinct) fresh
  | leaf _ _ ihRest =>
    obtain ⟨fresh, -, distinct⟩ := Selection.namesDistinct_cons_iff.mp distinct
    exact .cons (.unit named.first) (ihRest named.rest distinct) fresh
  | @object schema _ _ spreads _ _ _ _ _ _ _ _ ihInner ihRest =>
    obtain ⟨fresh, below, distinct⟩ := Selection.namesDistinct_cons_iff.mp distinct
    have inner := (ihInner (named.inside rfl) (below _ rfl)).bodyPlan named.first schema spreads
    exact .cons inner.narrow (ihRest named.rest distinct) fresh

theorem everyLevel_collisionFree {resolver : Resolver} {schema : Schema} {selection : Selection}
    {plan : Plan} (named : selection.WellNamed) (distinct : selection.NamesDistinct)
    (resolved : resolver.resolve schema selection = .ok plan) :
    plan.EveryLevel Plan.CollisionFree := by
  obtain ⟨all, fields⟩ := selection
  obtain ⟨inner, derived, rfl⟩ := (resolve_eq_ok_iff _ _ _ _).mp resolved
  have root : Selection.NamedAt [] ⟨all, fields⟩ := ⟨List.forall_mem_nil _, named⟩
  have fans := (derived.fans root distinct).bodyPlan root.above schema all
  rw [fans.dedup_eq]
  exact fans.everyLevel

/-- No two paths of a level collide, so its find projection asks for each of them, and for no path
together with one that it lies below. -/
theorem resolve_collisionFree (resolver : Resolver) (schema : Schema) {selection : Selection}
    {plan : Plan} (named : selection.WellNamed) (distinct : selection.NamesDistinct)
    (resolved : resolver.resolve schema selection = .ok plan) :
    plan.EveryLevel fun level => level.CollisionFree ∧
      level.projection = level.select.map (fun path => (path, .int32 1)) ∧
      (level.projection.map Prod.fst).Pairwise Path.Apart := by
  refine (everyLevel_collisionFree named distinct resolved).imp fun level free => ?_
  have projected := Plan.projection_of_nodup (Path.nodup_of_apart free.select)
  refine ⟨free, projected, ?_⟩
  rw [projected, List.map_map]
  simpa [Function.comp_def] using free.select

theorem resolve_collisionFree_article :
    let place : Schema := ⟨[("city", .scalar), ("geo.lat", .scalar)], []⟩
    let article : Schema :=
      ⟨[("title", .scalar), ("meta.editor", .reference "Article"), ("meta.place", .embedded place),
        ("meta.tags", .scalar)], [("related", "Article")]⟩
    let selection : Selection :=
      ⟨true, [⟨"meta", some ⟨true, [⟨"place", some ⟨false, [⟨"geo", none⟩]⟩⟩,
        ⟨"editor", some ⟨false, [⟨"related", some .everything⟩]⟩⟩]⟩⟩]⟩
    let resolver : Resolver := ⟨⟨[("Article", article)]⟩, { strict := true }⟩
    let plan : Plan :=
      ⟨["title", "meta.tags", "meta.place.geo", "meta.editor"],
        [("meta.editor", ⟨["related"], [("related", ⟨["title", "meta"], []⟩)]⟩)]⟩
    selection.WellNamed ∧ selection.NamesDistinct ∧ resolver.resolve article selection = .ok plan ∧
      plan.EveryLevel fun level => level.CollisionFree ∧
        level.projection = level.select.map (fun path => (path, .int32 1)) ∧
        (level.projection.map Prod.fst).Pairwise Path.Apart := by
  intro place article selection resolver plan
  have named : selection.WellNamed := by
    simp only [selection, Selection.everything, Selection.wellNamed_cons_iff,
      Selection.wellNamed_nil, Option.some.injEq, forall_eq', reduceCtorEq, false_imp_iff,
      implies_true, and_true]
    decide
  have distinct : selection.NamesDistinct := by
    simp only [selection, Selection.everything, Selection.namesDistinct_cons_iff,
      Selection.namesDistinct_nil, Option.some.injEq, forall_eq', reduceCtorEq, false_imp_iff,
      implies_true, and_true]
    decide
  have resolved : resolver.resolve article selection = .ok plan := by
    simp only [resolver, article, place, selection, plan]
    rfl
  exact ⟨named, distinct, resolved, resolve_collisionFree resolver article named distinct resolved⟩

end Resolver

end SelectionPlan
