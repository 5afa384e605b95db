import SelectionPlan.Proofs.Path.Children
import SelectionPlan.Proofs.Plan.Assembly
import SelectionPlan.Proofs.Resolve.Derivations
import SelectionPlan.Proofs.Resolve.Roles
import Mathlib.Logic.Relation

/-!
# Which paths a plan selects

The paths of a plan come from the bodies whose members belong to its document. From the root of a
selection they are reached through embedded schemas and plain objects only. Each of them asks for
the fields that it takes as a whole, and with `...` for the stored children that it does not name.
A plan selects what a reached body asks for, and nothing else.
-/
namespace SelectionPlan

/-- Where a body stands: the names from the root of the selection to it, the schema that governs it,
and the names that lead to its object in documents of that schema. -/
structure Place where
  chain : List String
  schema : Schema
  inside : List String

namespace Place

def root (schema : Schema) : Place := ⟨[], schema, []⟩

/-- The path of a member in the governing schema. -/
def schemaPath (place : Place) (name : String) : String :=
  Path.ofSegments (place.inside ++ [name])

/-- The path of a member in the plan. -/
def planPath (place : Place) (name : String) : String :=
  Path.ofSegments (place.chain ++ [name])

/-- Where the body stands that expands the member of a name, if its paths belong to the same plan:
the member holds a document of an embedded schema, or it is not declared at all. -/
inductive Enters (place : Place) (name : String) : Place → Prop
  | embedded {sub : Schema} :
    place.schema.virtual? (place.schemaPath name) = none →
    place.schema.path? (place.schemaPath name) = some (.embedded sub) →
      Enters place name ⟨place.chain ++ [name], sub, []⟩
  | object :
    place.schema.virtual? (place.schemaPath name) = none →
    place.schema.path? (place.schemaPath name) = none →
      Enters place name ⟨place.chain ++ [name], place.schema, place.inside ++ [name]⟩

/-- The path of the field itself is wanted: it is not expanded, or it is a relation or a leaf. -/
def TakesWhole (place : Place) (field : Field) : Prop :=
  field.body = none ∨ (∃ model, place.schema.virtual? (place.schemaPath field.name) = some model) ∨
    (∃ model, place.schema.path? (place.schemaPath field.name) = some (.reference model)) ∨
    place.schema.path? (place.schemaPath field.name) = some .scalar

/-- A stored path of the governing schema is the member of a name, or lies below it. -/
def Stores (place : Place) (name : String) : Prop :=
  ∃ declared ∈ place.schema.pathNames, place.inside ++ [name] <+: Path.segments declared

/-- A body with `...` asks for the stored children that it does not name. -/
def AsksRest (place : Place) (body : Selection) (path : String) : Prop :=
  body.all = true ∧ ∃ name, name ∉ body.names ∧ place.Stores name ∧ path = place.planPath name

def Asks (place : Place) (body : Selection) (path : String) : Prop :=
  (∃ field ∈ body.fields, place.TakesWhole field ∧ path = place.planPath field.name) ∨
    place.AsksRest body path

/-- From a body to one that expands a field of it and belongs to the same plan. -/
def Step (outer inner : Place × Selection) : Prop :=
  ∃ name, ⟨name, some inner.2⟩ ∈ outer.2.fields ∧ outer.1.Enters name inner.1

abbrev Reached : Place × Selection → Place × Selection → Prop :=
  Relation.ReflTransGen Step

/-- A body asks for a path, or one that is reached from it does. -/
def Wants (place : Place) (body : Selection) (path : String) : Prop :=
  ∃ last inner, Reached (place, body) (last, inner) ∧ last.Asks inner path

/-- A path is wanted on account of one field. -/
def WantsField (place : Place) (field : Field) (path : String) : Prop :=
  place.TakesWhole field ∧ path = place.planPath field.name ∨
    ∃ body next, field.body = some body ∧ place.Enters field.name next ∧ next.Wants body path

theorem wants_iff (place : Place) (body : Selection) (path : String) :
    place.Wants body path ↔
      place.AsksRest body path ∨ ∃ field ∈ body.fields, place.WantsField field path := by
  constructor
  · rintro ⟨last, inner, reached, asks⟩
    -- The body asks by itself, or the first step leads into one of its fields.
    rcases Relation.ReflTransGen.cases_head reached with here | ⟨⟨next, between⟩, step, onward⟩
    · cases here
      rcases asks with ⟨field, member, whole, same⟩ | rest
      · exact Or.inr ⟨field, member, Or.inl ⟨whole, same⟩⟩
      · exact Or.inl rest
    · obtain ⟨name, member, enters⟩ := step
      exact Or.inr ⟨_, member, Or.inr ⟨between, next, rfl, enters, last, inner, onward, asks⟩⟩
  · rintro (rest | ⟨⟨name, expansion⟩, member, ⟨whole, same⟩ |
      ⟨inner, next, expands, enters, last, final, onward, asks⟩⟩)
    · exact ⟨place, body, .refl, Or.inr rest⟩
    · exact ⟨place, body, .refl, Or.inl ⟨_, member, whole, same⟩⟩
    · cases expands
      exact ⟨last, final, .head ⟨name, member, enters⟩ onward, asks⟩

/-! ### The role of a field decides what it is wanted for -/

theorem takesWhole_iff (place : Place) (name : String) (body : Selection) :
    place.TakesWhole ⟨name, some body⟩ ↔
      (∃ model, place.schema.role (place.schemaPath name) = .relation model) ∨
        place.schema.role (place.schemaPath name) = .leaf := by
  unfold TakesWhole Schema.role
  cases place.schema.virtual? (place.schemaPath name) with
  | some model => simp
  | none => rcases place.schema.path? (place.schemaPath name) with _ | _ | _ | _ <;> simp

theorem enters_iff (place : Place) (name : String) (next : Place) :
    place.Enters name next ↔
      (∃ sub, place.schema.role (place.schemaPath name) = .embedded sub ∧
        next = ⟨place.chain ++ [name], sub, []⟩) ∨
      place.schema.role (place.schemaPath name) = .object ∧
        next = ⟨place.chain ++ [name], place.schema, place.inside ++ [name]⟩ := by
  simp only [Schema.role_eq_iff]
  constructor
  · rintro (⟨computed, found⟩ | ⟨computed, found⟩)
    · exact Or.inl ⟨_, .embedded computed found, rfl⟩
    · exact Or.inr ⟨.object computed found, rfl⟩
  · rintro (⟨sub, assigned, rfl⟩ | ⟨assigned, rfl⟩)
    · cases assigned with
      | embedded computed found => exact .embedded computed found
    · cases assigned with
      | object computed found => exact .object computed found

section Field

variable {place : Place} {name : String} {body : Selection} (path : String)

theorem wantsField_unit : place.WantsField ⟨name, none⟩ path ↔ path = place.planPath name := by
  simp [WantsField, TakesWhole]

theorem wantsField_whole
    (role : (∃ model, place.schema.role (place.schemaPath name) = .relation model) ∨
      place.schema.role (place.schemaPath name) = .leaf) :
    place.WantsField ⟨name, some body⟩ path ↔ path = place.planPath name := by
  rcases role with ⟨model, role⟩ | role
  · simp [WantsField, takesWhole_iff, enters_iff, role]
  · simp [WantsField, takesWhole_iff, enters_iff, role]

theorem wantsField_embedded {sub : Schema}
    (role : place.schema.role (place.schemaPath name) = .embedded sub) :
    place.WantsField ⟨name, some body⟩ path ↔
      Wants ⟨place.chain ++ [name], sub, []⟩ body path := by
  simp [WantsField, takesWhole_iff, enters_iff, role]

theorem wantsField_object (role : place.schema.role (place.schemaPath name) = .object) :
    place.WantsField ⟨name, some body⟩ path ↔
      Wants ⟨place.chain ++ [name], place.schema, place.inside ++ [name]⟩ body path := by
  simp [WantsField, takesWhole_iff, enters_iff, role]

end Field

end Place

namespace Resolver

variable {names : List String} (base : List String)

private theorem ofSegments_base (name : String) :
    Path.ofSegments (base ++ [Path.ofSegments (names ++ [name])]) =
      Path.ofSegments (base ++ names ++ [name]) := by
  rw [Path.ofSegments_append_ofSegments base (by simp), List.append_assoc]

theorem mem_select_reached_of_single {name path : String} {plan : Plan}
    (single : plan.select = [Path.ofSegments (names ++ [name])]) :
    path ∈ (plan.reached base).select ↔ path = Path.ofSegments (base ++ names ++ [name]) := by
  simp [Plan.reached, single, ofSegments_base]

theorem mem_select_reached_spread (plain : ∀ name ∈ names, Path.Plain name) (schema : Schema)
    (body : Selection) (path : String) :
    path ∈ ((spread schema.pathNames (Path.ofSegments names) body).reached base).select ↔
      Place.AsksRest ⟨base ++ names, schema, names⟩ body path := by
  unfold spread Place.AsksRest Place.Stores Place.planPath Plan.reached
  cases body.all with
  | false => simp [Plan.empty]
  | true =>
    simp only [if_pos, List.mem_map, Path.mem_otherChildren_iff plain, true_and]
    constructor
    · rintro ⟨_, ⟨declared, member, name, rest, cut, fresh, rfl⟩, rfl⟩
      refine ⟨name, fresh, ⟨declared, member, rest, ?_⟩, ofSegments_base base name⟩
      rw [cut, List.append_assoc, List.singleton_append]
    · rintro ⟨name, fresh, ⟨declared, member, rest, cut⟩, rfl⟩
      refine ⟨_, ⟨declared, member, name, rest, ?_, fresh, rfl⟩, ofSegments_base base name⟩
      rw [← cut, List.append_assoc, List.singleton_append]

/-- A body selects what it wants, when its fields select what they are wanted for. -/
theorem mem_select_reached_bodyPlan (plain : ∀ name ∈ names, Path.Plain name) {schema : Schema}
    (all : Bool) {fields : List Field} {named : Plan} {path : String}
    (within : path ∈ (named.reached base).select ↔
      ∃ field ∈ fields, Place.WantsField ⟨base ++ names, schema, names⟩ field path) :
    path ∈ ((bodyPlan schema names ⟨all, fields⟩ named).reached base).select ↔
      Place.Wants ⟨base ++ names, schema, names⟩ ⟨all, fields⟩ path := by
  rw [bodyPlan, Plan.select_reached_append, List.mem_append, mem_select_reached_spread base plain,
    within, Place.wants_iff]

theorem mem_select_reached_cons {place : Place} {field : Field} {fields : List Field}
    {front others : Plan} {path : String}
    (first : path ∈ (front.reached base).select ↔ place.WantsField field path)
    (rest : path ∈ (others.reached base).select ↔ ∃ other ∈ fields, place.WantsField other path) :
    path ∈ ((front ++ others).reached base).select ↔
      ∃ other ∈ field :: fields, place.WantsField other path := by
  rw [Plan.select_reached_append, List.mem_append, first, rest, List.exists_mem_cons_iff]

/-- The invariant of derivations: fields select what they are wanted for. The plan knows its paths
from the governing document on, and `base` leads there from the root of the selection. -/
theorem Resolves.mem_select_reached_iff {resolver : Resolver} {schema : Schema}
    {fields : List Field} {plan : Plan} (derived : resolver.Resolves schema names fields plan)
    {all : Bool} (named : Selection.NamedAt names ⟨all, fields⟩) (path : String) :
    path ∈ (plan.reached base).select ↔
      ∃ field ∈ fields, Place.WantsField ⟨base ++ names, schema, names⟩ field path := by
  induction derived generalizing all base with
  | nil => simp [Plan.reached, Plan.empty]
  | unit _ ih =>
    refine mem_select_reached_cons base ?_ (ih base named.rest)
    rw [Place.wantsField_unit]
    exact mem_select_reached_of_single base rfl
  | relation role _ _ _ _ ihRest =>
    refine mem_select_reached_cons base ?_ (ihRest base named.rest)
    rw [Place.wantsField_whole path (Or.inl ⟨_, role⟩)]
    exact mem_select_reached_of_single base rfl
  | @embedded _ sub names name spreads _ _ _ _ role _ _ ihInner ihRest =>
    have moved : names ++ [name] ≠ [] := by simp
    -- An embedded document counts its paths from itself, so that `base` grows by the way to it.
    have first := ihInner (base ++ (names ++ [name])) (named.inside rfl).alone
    have inner := mem_select_reached_bodyPlan _ (List.forall_mem_nil _) spreads first
    refine mem_select_reached_cons base ?_ (ihRest base named.rest)
    rw [Place.wantsField_embedded path role, Plan.reached_rerooted base moved,
      Plan.mem_select_reached_dedup, inner, List.append_nil, List.append_assoc]
  | leaf role _ ihRest =>
    refine mem_select_reached_cons base ?_ (ihRest base named.rest)
    rw [Place.wantsField_whole path (Or.inr role)]
    exact mem_select_reached_of_single base rfl
  | @object _ _ _ spreads _ _ _ _ role _ _ _ ihInner ihRest =>
    have first := ihInner base (named.inside rfl)
    have inner := mem_select_reached_bodyPlan base named.first spreads first
    refine mem_select_reached_cons base ?_ (ihRest base named.rest)
    rw [Place.wantsField_object path role, inner, List.append_assoc]

/-- A plan selects exactly what the bodies ask for that are reached from the root. -/
theorem resolve_select_iff (resolver : Resolver) (schema : Schema) {selection : Selection}
    {plan : Plan} (named : selection.WellNamed)
    (resolved : resolver.resolve schema selection = .ok plan) (path : String) :
    path ∈ plan.select ↔ ∃ place body,
      Place.Reached (Place.root schema, selection) (place, body) ∧ place.Asks body path := by
  obtain ⟨all, fields⟩ := selection
  obtain ⟨inner, derived, rfl⟩ := (resolve_eq_ok_iff _ _ _ _).mp resolved
  have root : Selection.NamedAt [] ⟨all, fields⟩ := ⟨List.forall_mem_nil _, named⟩
  have first := derived.mem_select_reached_iff [] root path
  have wanted := mem_select_reached_bodyPlan [] root.above all first
  rwa [← Plan.mem_select_reached_dedup, Plan.reached_nil] at wanted

theorem resolve_select_iff_article :
    let place : Schema := ⟨[("city", .scalar), ("geo.lat", .scalar), ("geo.lng", .scalar)], []⟩
    let author : Schema := ⟨[("name", .scalar)], []⟩
    let article : Schema :=
      ⟨[("title", .scalar), ("meta.editor", .reference "Author"), ("meta.place", .embedded place),
        ("meta.tags", .scalar)], [("related", "Article")]⟩
    let selection : Selection :=
      ⟨true, [⟨"meta", some ⟨false, [⟨"place", some ⟨false, [⟨"geo", some ⟨true, [⟨"lat", none⟩]⟩⟩,
        ⟨"city", none⟩]⟩⟩, ⟨"editor", some ⟨false, [⟨"name", none⟩]⟩⟩]⟩⟩]⟩
    let resolver : Resolver := ⟨⟨[("Article", article), ("Author", author)]⟩, { strict := true }⟩
    let plan : Plan :=
      ⟨["title", "meta.place.geo.lng", "meta.place.geo.lat", "meta.place.city", "meta.editor"],
        [("meta.editor", ⟨["name"], []⟩)]⟩
    selection.WellNamed ∧ resolver.resolve article selection = .ok plan ∧
      ∀ path, path ∈ plan.select ↔ ∃ place body,
        Place.Reached (Place.root article, selection) (place, body) ∧ place.Asks body path := by
  intro place author article selection resolver plan
  have named : selection.WellNamed := by
    simp only [selection, Selection.wellNamed_cons_iff, Selection.wellNamed_nil, Option.some.injEq,
      forall_eq', reduceCtorEq, false_imp_iff, implies_true, and_true]
    decide
  have resolved : resolver.resolve article selection = .ok plan := by
    simp only [resolver, article, author, place, selection, plan]
    rfl
  exact ⟨named, resolved, resolve_select_iff resolver article named resolved⟩

end Resolver

end SelectionPlan
