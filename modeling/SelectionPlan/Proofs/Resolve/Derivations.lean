import SelectionPlan.Proofs.Plan.Assembly
import SelectionPlan.Proofs.Resolve.Steps
import SelectionPlan.Proofs.Selection.Bodies

/-!
# Successful resolutions

A resolution that succeeds is a derivation, with one rule for each way in which a field contributes
to a plan. What holds of plans is proved by induction on derivations, one case for each rule.
-/
namespace SelectionPlan.Resolver

/-- The plan of a body of the object at `names`, from the plan of the fields that it names. -/
def bodyPlan (schema : Schema) (names : List String) (body : Selection) (named : Plan) : Plan :=
  spread schema.pathNames (Path.ofSegments names) body ++ named

/-- The fields of a body of the object at `names` resolve to a plan. -/
inductive Resolves (resolver : Resolver) : Schema → List String → List Field → Plan → Prop
  | nil {schema : Schema} {names : List String} : Resolves resolver schema names [] .empty
  | unit {schema : Schema} {names : List String} {name : String} {rest : List Field}
      {others : Plan} :
    Resolves resolver schema names rest others →
      Resolves resolver schema names (⟨name, none⟩ :: rest)
        (.unit (Path.ofSegments (names ++ [name])) ++ others)
  -- The related record has a document of its own, with a plan of its own.
  | relation {schema target : Schema} {names : List String} {name model : String} {all : Bool}
      {inner rest : List Field} {named others : Plan} :
    schema.role (Path.ofSegments (names ++ [name])) = .relation model →
    resolver.models.get? model = some target → Resolves resolver target [] inner named →
    Resolves resolver schema names rest others →
      Resolves resolver schema names (⟨name, some ⟨all, inner⟩⟩ :: rest)
        (.relation (Path.ofSegments (names ++ [name]))
          (bodyPlan target [] ⟨all, inner⟩ named).dedup ++ others)
  -- The sub-document has a schema of its own, but its paths belong to this plan.
  | embedded {schema sub : Schema} {names : List String} {name : String} {all : Bool}
      {inner rest : List Field} {named others : Plan} :
    schema.role (Path.ofSegments (names ++ [name])) = .embedded sub →
    Resolves resolver sub [] inner named → Resolves resolver schema names rest others →
      Resolves resolver schema names (⟨name, some ⟨all, inner⟩⟩ :: rest)
        ((bodyPlan sub [] ⟨all, inner⟩ named).dedup.rerooted
          (Path.ofSegments (names ++ [name])) ++ others)
  -- Whatever expands a leaf is not looked at.
  | leaf {schema : Schema} {names : List String} {name : String} {body : Selection}
      {rest : List Field} {others : Plan} :
    schema.role (Path.ofSegments (names ++ [name])) = .leaf →
    Resolves resolver schema names rest others →
      Resolves resolver schema names (⟨name, some body⟩ :: rest)
        (.unit (Path.ofSegments (names ++ [name])) ++ others)
  -- The members of a plain object are paths of the same schema, found below longer names.
  | object {schema : Schema} {names : List String} {name : String} {all : Bool}
      {inner rest : List Field} {named others : Plan} :
    schema.role (Path.ofSegments (names ++ [name])) = .object →
    (resolver.options.strict = true →
      schema.hasDescendants (Path.ofSegments (names ++ [name])) = true) →
    Resolves resolver schema (names ++ [name]) inner named →
    Resolves resolver schema names rest others →
      Resolves resolver schema names (⟨name, some ⟨all, inner⟩⟩ :: rest)
        (bodyPlan schema (names ++ [name]) ⟨all, inner⟩ named ++ others)

namespace Resolves

variable {resolver : Resolver} {schema : Schema} {names : List String}

theorem append {fields others : List Field} {plan rest : Plan}
    (front : resolver.Resolves schema names fields plan)
    (back : resolver.Resolves schema names others rest) :
    resolver.Resolves schema names (fields ++ others) (plan ++ rest) := by
  induction front with
  | nil => simpa using back
  | unit _ ih =>
    rw [Plan.append_assoc]
    exact .unit (ih back)
  | relation role known inner _ _ ih =>
    rw [Plan.append_assoc]
    exact .relation role known inner (ih back)
  | embedded role inner _ _ ih =>
    rw [Plan.append_assoc]
    exact .embedded role inner (ih back)
  | leaf role _ ih =>
    rw [Plan.append_assoc]
    exact .leaf role (ih back)
  | object role accepted inner _ _ ih =>
    rw [Plan.append_assoc]
    exact .object role accepted inner (ih back)

/-- The plan of the first field comes before that of the others. -/
theorem of_cons {field : Field} {rest : List Field} {plan : Plan}
    (derived : resolver.Resolves schema names (field :: rest) plan) :
    ∃ first others, resolver.Resolves schema names [field] first ∧
      resolver.Resolves schema names rest others ∧ plan = first ++ others := by
  cases derived with
  | unit after => exact ⟨_, _, .unit .nil, after, by rw [Plan.append_empty]⟩
  | relation role known inner after =>
    exact ⟨_, _, .relation role known inner .nil, after, by rw [Plan.append_empty]⟩
  | embedded role inner after =>
    exact ⟨_, _, .embedded role inner .nil, after, by rw [Plan.append_empty]⟩
  | leaf role after => exact ⟨_, _, .leaf role .nil, after, by rw [Plan.append_empty]⟩
  | object role accepted inner after =>
    exact ⟨_, _, .object role accepted inner .nil, after, by rw [Plan.append_empty]⟩

theorem of_append {fields others : List Field} {plan : Plan}
    (derived : resolver.Resolves schema names (fields ++ others) plan) :
    ∃ front back, resolver.Resolves schema names fields front ∧
      resolver.Resolves schema names others back ∧ plan = front ++ back := by
  induction fields generalizing plan with
  | nil => exact ⟨_, _, .nil, derived, by rw [Plan.empty_append]⟩
  | cons field rest ih =>
    obtain ⟨first, _, found, later, rfl⟩ := derived.of_cons
    obtain ⟨front, back, found', after, rfl⟩ := ih later
    exact ⟨_, _, found.append found', after, (Plan.append_assoc _ _ _).symm⟩

end Resolves

private theorem map_eq_ok_iff {α β : Type} {f : α → β} {result : Except SelectError α} {b : β} :
    result.map f = .ok b ↔ ∃ a, result = .ok a ∧ b = f a := by
  cases result with
  | error error => simp [Except.map]
  | ok a => simp [Except.map, eq_comm]

theorem mapError_eq_ok_iff {α : Type} {f : SelectError → SelectError}
    {result : Except SelectError α} {a : α} : result.mapError f = .ok a ↔ result = .ok a := by
  cases result with
  | error error => simp [Except.mapError]
  | ok a => simp [Except.mapError]

theorem followedBy_eq_ok_iff {first rest : Except SelectError Plan} {plan : Plan} :
    followedBy first rest = .ok plan ↔
      ∃ front others, first = .ok front ∧ rest = .ok others ∧ plan = front ++ others := by
  cases first with
  | error error => simp [followedBy]
  | ok front => simp [followedBy, map_eq_ok_iff]

variable (resolver : Resolver) (schema : Schema)

theorem bodyAt_eq_ok_iff (names : List String) (body : Selection) (plan : Plan) :
    resolver.bodyAt schema names body = .ok plan ↔
      ∃ named, resolver.fieldsAt schema names body.fields = .ok named ∧
        plan = bodyPlan schema names body named :=
  map_eq_ok_iff

theorem resolve_eq_ok_iff_fieldsAt (body : Selection) (plan : Plan) :
    resolver.resolve schema body = .ok plan ↔
      ∃ named, resolver.fieldsAt schema [] body.fields = .ok named ∧
        plan = (bodyPlan schema [] body named).dedup := by
  simp only [resolve_eq, map_eq_ok_iff, bodyAt_eq_ok_iff]
  constructor
  · rintro ⟨_, ⟨named, found, rfl⟩, rfl⟩
    exact ⟨named, found, rfl⟩
  · rintro ⟨named, found, rfl⟩
    exact ⟨_, ⟨named, found, rfl⟩, rfl⟩

-- Every successful resolution of an expanded field is an instance of one of the rules.
private theorem resolves_expanded {names : List String} {name : String} {all : Bool}
    {inner rest : List Field} {front others : Plan}
    (found : resolver.expandAt schema (names ++ [name]) ⟨all, inner⟩ = .ok front)
    (within : ∀ schema names plan, resolver.fieldsAt schema names inner = .ok plan →
      resolver.Resolves schema names inner plan)
    (after : resolver.Resolves schema names rest others) :
    resolver.Resolves schema names (⟨name, some ⟨all, inner⟩⟩ :: rest) (front ++ others) := by
  cases role : schema.role (Path.ofSegments (names ++ [name])) with
  | relation model =>
    cases known : resolver.models.get? model with
    | none =>
      -- The model is not registered, so this cannot have succeeded.
      rw [expandAt_missing _ role known] at found
      cases found
    | some target =>
      rw [expandAt_relation _ role known, map_eq_ok_iff] at found
      obtain ⟨related, resolved, rfl⟩ := found
      obtain ⟨named, inside, rfl⟩ :=
        (resolve_eq_ok_iff_fieldsAt _ _ _ _).mp (mapError_eq_ok_iff.mp resolved)
      exact .relation role known (within _ _ _ inside) after
  | embedded sub =>
    rw [expandAt_embedded _ role, movedBelow, map_eq_ok_iff] at found
    obtain ⟨plan, resolved, rfl⟩ := found
    obtain ⟨named, inside, rfl⟩ :=
      (resolve_eq_ok_iff_fieldsAt _ _ _ _).mp (mapError_eq_ok_iff.mp resolved)
    exact .embedded role (within _ _ _ inside) after
  | leaf =>
    rw [expandAt_leaf _ role] at found
    cases found
    exact .leaf role after
  | object =>
    rw [expandAt_object (by simp) _ role] at found
    split at found
    next => cases found
    next accepted =>
      obtain ⟨named, inside, rfl⟩ := (bodyAt_eq_ok_iff _ _ _ _ _).mp found
      exact .object role (by simpa using accepted) (within _ _ _ inside) after

/-- Resolving fields succeeds exactly with the plans that can be derived. -/
theorem fieldsAt_eq_ok_iff (names : List String) (fields : List Field) (plan : Plan) :
    resolver.fieldsAt schema names fields = .ok plan ↔
      resolver.Resolves schema names fields plan := by
  constructor
  · intro found
    induction fields using Selection.fields_induction generalizing schema names plan with
    | nil =>
      rw [fieldsAt_nil] at found
      cases found
      exact .nil
    | unit name rest ih =>
      rw [fieldsAt_unit, followedBy_eq_ok_iff] at found
      obtain ⟨_, others, ⟨⟩, after, rfl⟩ := found
      exact .unit (ih _ _ _ after)
    | expanded name body rest ihBody ihRest =>
      obtain ⟨all, inner⟩ := body
      rw [fieldsAt_expanded, followedBy_eq_ok_iff] at found
      obtain ⟨front, others, first, after, rfl⟩ := found
      exact resolves_expanded resolver schema first ihBody (ihRest _ _ _ after)
  · intro derived
    induction derived with
    | nil => exact fieldsAt_nil ..
    | unit _ ih =>
      rw [fieldsAt_unit, followedBy_eq_ok_iff]
      exact ⟨_, _, rfl, ih, rfl⟩
    | relation role known _ _ ihInner ihRest =>
      rw [fieldsAt_expanded, followedBy_eq_ok_iff, expandAt_relation _ role known]
      refine ⟨_, _, map_eq_ok_iff.mpr ⟨_, mapError_eq_ok_iff.mpr ?_, rfl⟩, ihRest, rfl⟩
      exact (resolve_eq_ok_iff_fieldsAt _ _ _ _).mpr ⟨_, ihInner, rfl⟩
    | embedded role _ _ ihInner ihRest =>
      rw [fieldsAt_expanded, followedBy_eq_ok_iff, expandAt_embedded _ role]
      refine ⟨_, _, map_eq_ok_iff.mpr ⟨_, mapError_eq_ok_iff.mpr ?_, rfl⟩, ihRest, rfl⟩
      exact (resolve_eq_ok_iff_fieldsAt _ _ _ _).mpr ⟨_, ihInner, rfl⟩
    | leaf role _ ihRest =>
      rw [fieldsAt_expanded, followedBy_eq_ok_iff, expandAt_leaf _ role]
      exact ⟨_, _, rfl, ihRest, rfl⟩
    | object role accepted _ _ ihInner ihRest =>
      rw [fieldsAt_expanded, followedBy_eq_ok_iff, expandAt_object (by simp) _ role,
        if_neg (by simpa using accepted)]
      exact ⟨_, _, (bodyAt_eq_ok_iff _ _ _ _ _).mpr ⟨_, ihInner, rfl⟩, ihRest, rfl⟩

theorem resolve_eq_ok_iff (body : Selection) (plan : Plan) :
    resolver.resolve schema body = .ok plan ↔
      ∃ named, resolver.Resolves schema [] body.fields named ∧
        plan = (bodyPlan schema [] body named).dedup := by
  simp only [resolve_eq_ok_iff_fieldsAt, fieldsAt_eq_ok_iff]

/-- A text has a plan when it is blank, or when it is a selection that resolves for its model. -/
theorem select_eq_ok_iff (model text : String) (plan : Plan) :
    resolver.select model text = .ok plan ↔
      Text.isBlank text.toList = true ∧ plan = .empty ∨
        Text.isBlank text.toList = false ∧ ∃ selection schema,
          Selection.parse text = .ok selection ∧ resolver.models.get? model = some schema ∧
            resolver.resolve schema selection = .ok plan := by
  unfold select
  cases Text.isBlank text.toList with
  | true => simp [eq_comm]
  | false =>
    cases Selection.parse text with
    | error cause => simp
    | ok selection =>
      cases known : resolver.models.get? model with
      | none => simp [lookup, known, bind, Except.bind]
      | some schema => simp [lookup, known, bind, Except.bind]

end SelectionPlan.Resolver
