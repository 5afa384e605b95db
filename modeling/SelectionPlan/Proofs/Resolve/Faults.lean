import SelectionPlan.Proofs.Resolve.Roles
import SelectionPlan.Proofs.Resolve.Steps
import SelectionPlan.Proofs.Schema.Lookup
import SelectionPlan.Proofs.Selection.Bodies

/-!
# Which error a resolution gives

The expanded fields of a selection are met in a fixed order, each before those inside it. A
resolution fails exactly when one of them is at fault, and with the error of the first. An unknown
field is named as it stands in the selection, through whatever relations, embedded schemas and plain
objects it was reached.
-/
namespace SelectionPlan

/-- An expanded field that is met: the names from the root of the selection to it, the schema that
governs it, and its path there. -/
structure Visit where
  names : List String
  schema : Schema
  path : String

mutual

/-- The expanded fields of a body and of all bodies below it, in the order in which they are met.
The body belongs to the object at `inside` in documents of the schema, and `names` lead to it from
the root of the selection. -/
def visits (models : Models) (schema : Schema) (names inside : List String) :
    List Field → List Visit
  | [] => []
  | ⟨_, none⟩ :: rest => visits models schema names inside rest
  | ⟨name, some body⟩ :: rest =>
    visitsOf models schema (names ++ [name]) (inside ++ [name]) body ++
      visits models schema names inside rest

/-- An expanded field and those below it. A virtual relation comes before what is stored at the
path. Nothing is met below a leaf, or in a model that is not registered. -/
def visitsOf (models : Models) (schema : Schema) (names inside : List String) :
    Selection → List Visit
  | ⟨_, fields⟩ =>
    ⟨names, schema, Path.ofSegments inside⟩ ::
      match schema.virtual? (Path.ofSegments inside), schema.path? (Path.ofSegments inside) with
      | some model, _ | none, some (.reference model) =>
        match models.get? model with
        | some target => visits models target names [] fields
        | none => []
      | none, some (.embedded sub) => visits models sub names [] fields
      | none, some .scalar => []
      | none, none => visits models schema names inside fields

end

theorem visitsOf_eq (models : Models) (schema : Schema) (names inside : List String)
    (body : Selection) :
    visitsOf models schema names inside body =
      ⟨names, schema, Path.ofSegments inside⟩ ::
        match schema.role (Path.ofSegments inside) with
        | .relation model =>
          match models.get? model with
          | some target => visits models target names [] body.fields
          | none => []
        | .embedded sub => visits models sub names [] body.fields
        | .leaf => []
        | .object => visits models schema names inside body.fields := by
  obtain ⟨all, fields⟩ := body
  rw [visitsOf, Schema.role]
  cases schema.virtual? (Path.ofSegments inside) with
  | some model => rfl
  | none => rcases schema.path? (Path.ofSegments inside) with _ | _ | _ | _ <;> rfl

namespace Visit

/-- A field is at fault, and the error is the one that it gives. A relation is at fault if its model
is not registered, and where unknown fields are refused so is a path that is not declared, with
nothing declared below it. -/
inductive Fault (resolver : Resolver) (visit : Visit) : SelectError → Prop
  | missing {model : String} : visit.schema.Assigns visit.path (.relation model) →
    resolver.models.get? model = none → Fault resolver visit (.modelMissing model)
  | unknown : resolver.options.strict = true → visit.schema.Assigns visit.path .object →
    (∀ rest, Path.join visit.path rest ∉ visit.schema.pathNames ∧
      Path.join visit.path rest ∉ visit.schema.virtualNames) →
    Fault resolver visit (.unknownField (Path.ofSegments visit.names))

def Bad (resolver : Resolver) (visit : Visit) : Prop :=
  ∃ error, visit.Fault resolver error

end Visit

namespace Resolver

/-- The error of a field if it is at fault. -/
def fault? (resolver : Resolver) (visit : Visit) : Option SelectError :=
  match visit.schema.role visit.path with
  | .relation model =>
    match resolver.models.get? model with
    | some _ => none
    | none => some (.modelMissing model)
  | .object =>
    if resolver.options.strict && !visit.schema.hasDescendants visit.path then
      some (.unknownField (Path.ofSegments visit.names))
    else none
  | _ => none

theorem fault?_eq_some_iff (resolver : Resolver) (visit : Visit) (error : SelectError) :
    resolver.fault? visit = some error ↔ visit.Fault resolver error := by
  unfold fault?
  constructor
  · intro found
    split at found
    next model role =>
      split at found <;> cases found
      exact .missing (Schema.role_eq_iff.mp role) ‹_›
    next role =>
      split at found <;> cases found
      next refused =>
      rw [Bool.and_eq_true, Bool.not_eq_true'] at refused
      exact .unknown refused.1 (Schema.role_eq_iff.mp role)
        ((Schema.hasDescendants_eq_false_iff _ _).mp refused.2)
    next => cases found
  · rintro (⟨assigned, missing⟩ | ⟨strict, assigned, deserted⟩)
    · rw [Schema.role_eq_iff.mpr assigned]
      simp only [missing]
    · rw [Schema.role_eq_iff.mpr assigned]
      simp [strict, (Schema.hasDescendants_eq_false_iff _ _).mpr deserted]

theorem fault?_eq_none_iff (resolver : Resolver) (visit : Visit) :
    resolver.fault? visit = none ↔ ¬ visit.Bad resolver := by
  rw [← not_iff_not, not_not, ← ne_eq, Option.ne_none_iff_exists']
  exact exists_congr fun error => fault?_eq_some_iff resolver visit error

/-- The error of a resolution that fails. -/
def failure {α : Type} : Except SelectError α → Option SelectError
  | .error error => some error
  | .ok _ => none

theorem failure_map {α β : Type} (f : α → β) (result : Except SelectError α) :
    failure (result.map f) = failure result := by
  cases result <;> rfl

theorem failure_mapError {α : Type} (f : SelectError → SelectError)
    (result : Except SelectError α) : failure (result.mapError f) = (failure result).map f := by
  cases result <;> rfl

theorem failure_movedBelow (path : String) (result : Except SelectError Plan) :
    failure (movedBelow path result) = (failure result).map (·.under path) := by
  rw [movedBelow, failure_map, failure_mapError]

theorem failure_followedBy (first rest : Except SelectError Plan) :
    failure (followedBy first rest) = (failure first).or (failure rest) := by
  cases first with
  | error error => rfl
  | ok plan => exact failure_map _ rest

theorem failure_resolve (resolver : Resolver) (schema : Schema) (body : Selection) :
    failure (resolver.resolve schema body) =
      failure (resolver.fieldsAt schema [] body.fields) := by
  rw [resolve_eq, bodyAt, failure_map, failure_map]

end Resolver

namespace SelectError

/-- The error as it shows from the root of a selection when names lead to where it arose. -/
def reached (names : List String) : SelectError → SelectError
  | .unknownField path => .unknownField (Path.ofSegments (names ++ [path]))
  | error => error

theorem reached_nil (error : SelectError) : error.reached [] = error := by
  cases error <;> simp [reached]

theorem reached_under (names : List String) {inside : List String} (some : inside ≠ [])
    (error : SelectError) :
    (error.under (Path.ofSegments inside)).reached names = error.reached (names ++ inside) := by
  cases error with
  | unknownField path =>
    rw [under, reached, reached, ← Path.ofSegments_concat some,
      Path.ofSegments_append_ofSegments names (by simp), List.append_assoc]
  | invalidText cause => rfl
  | modelMissing name => rfl

end SelectError

namespace Resolver

-- The step of the induction: `within` is the claim for the fields of the body, wherever they are
-- resolved.
private theorem findSome?_visitsOf (resolver : Resolver) (schema : Schema)
    (base : List String) {inside : List String} (some : inside ≠ []) (body : Selection)
    (within : ∀ schema base inside,
      (visits resolver.models schema (base ++ inside) inside body.fields).findSome?
        resolver.fault? =
          (failure (resolver.fieldsAt schema inside body.fields)).map (·.reached base)) :
    (visitsOf resolver.models schema (base ++ inside) inside body).findSome? resolver.fault? =
      (failure (resolver.expandAt schema inside body)).map (·.reached base) := by
  -- Another document starts here: its errors are moved below the field, then reached from the base.
  have crossed : ∀ target,
      (visits resolver.models target (base ++ inside) [] body.fields).findSome? resolver.fault? =
        ((failure (resolver.resolve target body)).map
          (·.under (Path.ofSegments inside))).map (·.reached base) := by
    intro target
    have inner := within target (base ++ inside) []
    rw [List.append_nil] at inner
    rw [inner, failure_resolve, Option.map_map]
    congr 1
    funext error
    exact (SelectError.reached_under base some error).symm
  rw [visitsOf_eq, List.findSome?_cons]
  cases role : schema.role (Path.ofSegments inside) with
  | relation model =>
    cases found : resolver.models.get? model with
    | none =>
      rw [expandAt_missing _ role found]
      simp only [fault?, role, found]
      rfl
    | some target =>
      rw [expandAt_relation _ role found, failure_map, failure_mapError, ← crossed]
      simp only [fault?, role, found]
  | embedded sub =>
    rw [expandAt_embedded _ role, failure_movedBelow, ← crossed]
    simp only [fault?, role]
  | leaf =>
    rw [expandAt_leaf _ role]
    simp only [fault?, role]
    rfl
  | object =>
    rw [expandAt_object some _ role]
    simp only [fault?, role]
    by_cases refused : (resolver.options.strict &&
        !schema.hasDescendants (Path.ofSegments inside)) = true
    -- The error names the path in this document, and `base` completes it.
    · have joined := Path.ofSegments_append_ofSegments base some
      simp only [if_pos refused, failure, Option.map_some, SelectError.reached, joined]
    · simp only [if_neg refused]
      rw [bodyAt, failure_map]
      exact within schema base inside

-- The first fault among the fields that are met is the failure of resolving them. The induction is
-- over the fields of a body together with those of all bodies below it; errors come up with paths
-- that start at the governing document, and `base` leads there.
theorem findSome?_visits (resolver : Resolver) (schema : Schema) (base inside : List String)
    (fields : List Field) :
    (visits resolver.models schema (base ++ inside) inside fields).findSome? resolver.fault? =
      (failure (resolver.fieldsAt schema inside fields)).map (·.reached base) := by
  induction fields using Selection.fields_induction generalizing schema base inside with
  | nil =>
    rw [visits, fieldsAt_nil]
    rfl
  | unit name rest ih =>
    rw [visits, ih, fieldsAt_unit, failure_followedBy]
    rfl
  | expanded name body rest ihBody ihRest =>
    have below : inside ++ [name] ≠ [] := by simp
    have first := findSome?_visitsOf resolver schema base below body ihBody
    rw [visits, List.findSome?_append, ihRest, List.append_assoc, first, fieldsAt_expanded,
      failure_followedBy, Option.map_or]

/-- A resolution fails exactly when a field that is met is at fault, and then with the error of the
first one. -/
theorem resolve_error_iff (resolver : Resolver) (schema : Schema) (selection : Selection) :
    ((∃ error, resolver.resolve schema selection = .error error) ↔
      ∃ visit ∈ visits resolver.models schema [] [] selection.fields, visit.Bad resolver) ∧
    ∀ error, resolver.resolve schema selection = .error error ↔
      ∃ before visit after,
        visits resolver.models schema [] [] selection.fields = before ++ visit :: after ∧
        (∀ earlier ∈ before, ¬ earlier.Bad resolver) ∧ visit.Fault resolver error := by
  have first : (visits resolver.models schema [] [] selection.fields).findSome? resolver.fault? =
      failure (resolver.resolve schema selection) := by
    have found := findSome?_visits resolver schema [] [] selection.fields
    rw [List.append_nil] at found
    rw [found, failure_resolve]
    simp [SelectError.reached_nil]
  -- A result is given by its failure as far as errors are concerned.
  have failed : ∀ error, resolver.resolve schema selection = .error error ↔
      failure (resolver.resolve schema selection) = some error := by
    intro error
    cases resolver.resolve schema selection <;> simp [failure]
  constructor
  · rw [exists_congr failed, ← Option.isSome_iff_exists, ← first, List.findSome?_isSome_iff]
    simp only [Option.isSome_iff_exists, fault?_eq_some_iff]
    rfl
  · intro error
    rw [failed, ← first, List.findSome?_eq_some_iff]
    simp only [fault?_eq_some_iff, fault?_eq_none_iff]
    constructor
    · rintro ⟨before, visit, after, cut, fault, good⟩
      exact ⟨before, visit, after, cut, good, fault⟩
    · rintro ⟨before, visit, after, cut, good, fault⟩
      exact ⟨before, visit, after, cut, fault, good⟩

/-- An unknown field inside of an embedded schema inside of a related record, and behind it a
virtual relation to a model that is missing, which hides a leaf of the same name. -/
theorem resolve_error_iff_author :
    let address : Schema := ⟨[("street", .scalar)], []⟩
    let author : Schema := ⟨[("address", .embedded address)], []⟩
    let article : Schema :=
      ⟨[("meta.author", .reference "Author"), ("tags", .scalar), ("works", .scalar)],
        [("works", "Ghost")]⟩
    let selection : Selection :=
      ⟨false, [⟨"meta", some ⟨false, [⟨"author", some ⟨false, [⟨"address", some ⟨false,
          [⟨"note", some .everything⟩]⟩⟩]⟩⟩]⟩⟩,
        ⟨"tags", some ⟨false, [⟨"first", some .everything⟩]⟩⟩, ⟨"works", some .everything⟩]⟩
    let models : Models := ⟨[("Author", author)]⟩
    let met : List Visit :=
      [⟨["meta"], article, "meta"⟩, ⟨["meta", "author"], article, "meta.author"⟩,
        ⟨["meta", "author", "address"], author, "address"⟩,
        ⟨["meta", "author", "address", "note"], address, "note"⟩,
        ⟨["tags"], article, "tags"⟩, ⟨["works"], article, "works"⟩]
    visits models article [] [] selection.fields = met ∧
      (⟨models, { strict := true }⟩ : Resolver).resolve article selection =
        .error (.unknownField "meta.author.address.note") ∧
      (⟨models, {}⟩ : Resolver).resolve article selection = .error (.modelMissing "Ghost") := by
  intro address author article selection models met
  have found : visits models article [] [] selection.fields = met := by
    simp only [models, article, author, address, selection, met]
    rfl
  have good (resolver : Resolver) (visits : List Visit)
      (faultless : visits.map resolver.fault? = List.replicate visits.length none) :
      ∀ visit ∈ visits, ¬ visit.Bad resolver := by
    intro visit member
    rw [← fault?_eq_none_iff]
    exact List.eq_of_mem_replicate (faultless ▸ List.mem_map_of_mem member)
  refine ⟨found, ((resolve_error_iff _ article selection).2 _).mpr ?_,
    ((resolve_error_iff _ article selection).2 _).mpr ?_⟩
  · refine ⟨[_, _, _], ⟨["meta", "author", "address", "note"], address, "note"⟩, [_, _], found,
      good _ _ ?_, .unknown rfl (.object rfl rfl) ?_⟩
    · simp only [article, author]
      rfl
    · rw [← Schema.hasDescendants_eq_false_iff]
      simp only [address]
      rfl
  · refine ⟨[_, _, _, _, _], ⟨["works"], article, "works"⟩, [], found, good _ _ ?_,
      .missing (.virtual rfl) rfl⟩
    simp only [article, author, address]
    rfl

end Resolver

end SelectionPlan
