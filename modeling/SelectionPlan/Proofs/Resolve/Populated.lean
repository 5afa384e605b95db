import SelectionPlan.Proofs.Plan.Assembly
import SelectionPlan.Proofs.Resolve.Derivations
import Mathlib.Data.List.Forall2

/-!
# Which relations a plan populates

The relations of a selection that belong to the document of its root stand below embedded schemas
and plain objects only. A plan populates each of them, in the order in which they were written and
as often as they were written. The plan for the related record is the one that its model gives for
the body of the relation alone, wherever the relation stands.
-/
namespace SelectionPlan

/-- An expanded field that is a relation: the names from the root of the selection to it, the model
that it leads to, and the body that expands it. -/
structure Occurrence where
  names : List String
  model : String
  body : Selection

mutual

/-- The relations among the fields of a body and below them, in the order in which they are written.
The body belongs to the object at `inside` in documents of the schema, and `names` lead to it from
the root of the selection. -/
def relations (schema : Schema) (names inside : List String) : List Field → List Occurrence
  | [] => []
  | ⟨_, none⟩ :: rest => relations schema names inside rest
  | ⟨name, some body⟩ :: rest =>
    relationsOf schema (names ++ [name]) (inside ++ [name]) body ++
      relations schema names inside rest

/-- An expanded field if it is a relation, and otherwise the relations below it. A virtual relation
comes before what is stored at the path, and what stands below a relation belongs to another
document. -/
def relationsOf (schema : Schema) (names inside : List String) : Selection → List Occurrence
  | ⟨all, fields⟩ =>
    match schema.virtual? (Path.ofSegments inside), schema.path? (Path.ofSegments inside) with
    | some model, _ | none, some (.reference model) => [⟨names, model, ⟨all, fields⟩⟩]
    | none, some (.embedded sub) => relations sub names [] fields
    | none, some .scalar => []
    | none, none => relations schema names inside fields

end

theorem relationsOf_eq (schema : Schema) (names inside : List String) (body : Selection) :
    relationsOf schema names inside body =
      match schema.role (Path.ofSegments inside) with
      | .relation model => [⟨names, model, body⟩]
      | .embedded sub => relations sub names [] body.fields
      | .leaf => []
      | .object => relations schema names inside body.fields := by
  obtain ⟨all, fields⟩ := body
  rw [relationsOf, Schema.role]
  cases schema.virtual? (Path.ofSegments inside) with
  | some model => rfl
  | none => rcases schema.path? (Path.ofSegments inside) with _ | _ | _ | _ <;> rfl

/-- The entry of a plan follows the relation: it stands at its path, and its plan is the one that
the model gives for the body. -/
def Occurrence.FollowedBy (resolver : Resolver) (occurrence : Occurrence)
    (entry : String × Plan) : Prop :=
  entry.1 = Path.ofSegments occurrence.names ∧
    ∃ target, resolver.models.get? occurrence.model = some target ∧
      resolver.resolve target occurrence.body = .ok entry.2

namespace Resolver

/-- Spreading a body populates nothing. -/
theorem populate_bodyPlan (schema : Schema) (names : List String) (body : Selection)
    (named : Plan) : (bodyPlan schema names body named).populate = named.populate := by
  unfold bodyPlan spread
  split
  · simp
  · simp [Plan.empty]

theorem populate_reached_bodyPlan (base : List String) (schema : Schema) (names : List String)
    (body : Selection) (named : Plan) :
    ((bodyPlan schema names body named).reached base).populate =
      (named.reached base).populate := by
  simp only [Plan.reached, populate_bodyPlan]

theorem populate_reached_dedup (base : List String) (plan : Plan) :
    (plan.dedup.reached base).populate = (plan.reached base).populate := rfl

/-- The invariant of derivations: one entry for each relation. The plan knows its paths from the
governing document on, and `base` leads there from the root of the selection. -/
theorem Resolves.forall₂_followedBy {resolver : Resolver} {schema : Schema} {names : List String}
    {fields : List Field} {plan : Plan} (derived : resolver.Resolves schema names fields plan)
    (base : List String) :
    List.Forall₂ (Occurrence.FollowedBy resolver) (relations schema (base ++ names) names fields)
      (plan.reached base).populate := by
  induction derived generalizing base with
  | nil => exact .nil
  | unit _ ih => exact ih base
  | @relation schema target names name model all inner rest named others role known derived _ _
      ihRest =>
    rw [relations, relationsOf_eq, role, Plan.populate_reached_append]
    refine List.rel_append ?_ (ihRest base)
    have resolved := (resolve_eq_ok_iff resolver target ⟨all, inner⟩ _).mpr ⟨named, derived, rfl⟩
    refine .cons ⟨?_, target, known, resolved⟩ .nil
    rw [List.append_assoc]
    exact Path.ofSegments_append_ofSegments base (by simp)
  | @embedded schema sub names name all inner rest named others role _ _ ihInner ihRest =>
    have moved : names ++ [name] ≠ [] := by simp
    -- An embedded document counts its paths from itself, so that `base` grows by the way to it.
    have below := ihInner (base ++ (names ++ [name]))
    rw [relations, relationsOf_eq, role, Plan.populate_reached_append,
      Plan.reached_rerooted base moved, populate_reached_dedup, populate_reached_bodyPlan,
      List.append_assoc]
    rw [List.append_nil] at below
    exact List.rel_append below (ihRest base)
  | leaf role _ ihRest =>
    rw [relations, relationsOf_eq, role]
    exact ihRest base
  | @object schema names name all inner rest named others role _ _ _ ihInner ihRest =>
    have below := ihInner base
    rw [relations, relationsOf_eq, role, Plan.populate_reached_append, populate_reached_bodyPlan,
      List.append_assoc]
    exact List.rel_append below (ihRest base)

/-- A plan populates exactly the relations of its document, each with the plan of its own body. -/
theorem resolve_populate (resolver : Resolver) (schema : Schema) {selection : Selection}
    {plan : Plan} (resolved : resolver.resolve schema selection = .ok plan) :
    List.Forall₂ (Occurrence.FollowedBy resolver) (relations schema [] [] selection.fields)
      plan.populate := by
  obtain ⟨named, derived, rfl⟩ := (resolve_eq_ok_iff _ _ _ _).mp resolved
  have followed := derived.forall₂_followedBy []
  rwa [Plan.reached_nil, ← populate_bodyPlan schema [] selection] at followed

theorem resolve_populate_author :
    let post : Schema := ⟨[("name", .scalar), ("author", .reference "Author")], []⟩
    let address : Schema := ⟨[("street", .scalar), ("city.post", .reference "Post")], []⟩
    let author : Schema :=
      ⟨[("name", .scalar), ("address", .embedded address)], [("works", "Post")]⟩
    let selection : Selection :=
      ⟨true, [⟨"works", some ⟨false, [⟨"name", none⟩, ⟨"author", some .everything⟩]⟩⟩,
        ⟨"address", some ⟨false,
          [⟨"city", some ⟨false, [⟨"post", some ⟨false, [⟨"name", none⟩]⟩⟩]⟩⟩]⟩⟩,
        ⟨"works", some .everything⟩]⟩
    let resolver : Resolver := ⟨⟨[("Author", author), ("Post", post)]⟩, {}⟩
    let plan : Plan :=
      ⟨["name", "works", "address.city.post"],
        [("works", ⟨["name", "author"], [("author", ⟨["name", "address"], []⟩)]⟩),
          ("address.city.post", ⟨["name"], []⟩), ("works", ⟨["name", "author"], []⟩)]⟩
    resolver.resolve author selection = .ok plan ∧
      List.Forall₂ (Occurrence.FollowedBy resolver) (relations author [] [] selection.fields)
        plan.populate := by
  intro post address author selection resolver plan
  have resolved : resolver.resolve author selection = .ok plan := by
    simp only [resolver, author, address, post, selection, plan]
    rfl
  exact ⟨resolved, resolve_populate resolver author resolved⟩

end Resolver

end SelectionPlan
