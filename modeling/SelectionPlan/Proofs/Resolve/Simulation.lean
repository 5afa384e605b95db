import SelectionPlan.Proofs.Resolve.Steps
import SelectionPlan.Proofs.Selection.Bodies

/-!
# Two resolvers beside each other

Two resolvers take the same steps, except where a model is looked up and where a field may be
refused. So a relation between results holds of everything that they resolve, as long as the common
steps keep it, and it survives the steps of these two kinds.
-/
namespace SelectionPlan.Resolver

/-- A relation between the results of two resolvers, kept by every step of a resolution. -/
structure Simulates (related : Except SelectError Plan → Except SelectError Plan → Prop)
    (resolver resolver' : Resolver) : Prop where
  ok : ∀ plan, related (.ok plan) (.ok plan)
  map : ∀ {result result'}, related result result' → ∀ f : Plan → Plan,
    related (result.map f) (result'.map f)
  under : ∀ {result result'}, related result result' → ∀ above : String,
    related (result.mapError (·.under above)) (result'.mapError (·.under above))
  followedBy : ∀ {first first' rest rest'}, related first first' → related rest rest' →
    related (followedBy first rest) (followedBy first' rest')
  /-- The one kind of field where models are looked up. -/
  relation : ∀ {schema names model}, schema.role (Path.ofSegments names) = .relation model →
    ∀ body, (∀ target, related (resolver.resolve target body) (resolver'.resolve target body)) →
      related (resolver.expandAt schema names body) (resolver'.expandAt schema names body)
  /-- The one kind of field that may be refused. -/
  object : ∀ {schema names}, names ≠ [] → schema.role (Path.ofSegments names) = .object →
    ∀ body, related (resolver.bodyAt schema names body) (resolver'.bodyAt schema names body) →
      related (resolver.expandAt schema names body) (resolver'.expandAt schema names body)

namespace Simulates

variable {related : Except SelectError Plan → Except SelectError Plan → Prop}
  {resolver resolver' : Resolver} (simulates : Simulates related resolver resolver')

include simulates

theorem resolve_of_fieldsAt {schema : Schema} {body : Selection}
    (fields : related (resolver.fieldsAt schema [] body.fields)
      (resolver'.fieldsAt schema [] body.fields)) :
    related (resolver.resolve schema body) (resolver'.resolve schema body) := by
  rw [resolve_eq, resolve_eq]
  exact simulates.map (simulates.map fields _) _

-- One expanded field, when it is known what becomes of its body, wherever that is resolved.
private theorem expandAt (schema : Schema) {names : List String} (some : names ≠ [])
    (body : Selection)
    (within : ∀ schema names, related (resolver.fieldsAt schema names body.fields)
      (resolver'.fieldsAt schema names body.fields)) :
    related (resolver.expandAt schema names body) (resolver'.expandAt schema names body) := by
  cases role : schema.role (Path.ofSegments names) with
  | relation model =>
    exact simulates.relation role body fun target =>
      simulates.resolve_of_fieldsAt (within target [])
  | embedded sub =>
    rw [expandAt_embedded body role, expandAt_embedded body role]
    exact simulates.map (simulates.under (simulates.resolve_of_fieldsAt (within sub [])) _) _
  | leaf =>
    rw [expandAt_leaf body role, expandAt_leaf body role]
    exact simulates.ok _
  | object => exact simulates.object some role body (simulates.map (within schema names) _)

theorem fieldsAt (schema : Schema) (names : List String) (fields : List Field) :
    related (resolver.fieldsAt schema names fields) (resolver'.fieldsAt schema names fields) := by
  -- The schema changes inside of relations and embedded schemas, so it is not fixed here.
  induction fields using Selection.fields_induction generalizing schema names with
  | nil =>
    rw [fieldsAt_nil, fieldsAt_nil]
    exact simulates.ok _
  | unit name rest ih =>
    rw [fieldsAt_unit, fieldsAt_unit]
    exact simulates.followedBy (simulates.ok _) (ih schema names)
  | expanded name body rest ihBody ihRest =>
    rw [fieldsAt_expanded, fieldsAt_expanded]
    exact simulates.followedBy (simulates.expandAt schema (by simp) body ihBody)
      (ihRest schema names)

theorem resolve (schema : Schema) (selection : Selection) :
    related (resolver.resolve schema selection) (resolver'.resolve schema selection) :=
  simulates.resolve_of_fieldsAt (simulates.fieldsAt schema [] selection.fields)

end Simulates

end SelectionPlan.Resolver
