import SelectionPlan.Resolve
import SelectionPlan.Proofs.Path.Segments

/-!
# The steps of a resolution

A body is resolved at a place: in a schema, and there below the names that lead from the document
to the object whose members the fields are. No names stand for the document itself. Each step of a
resolution is one equation about places, and nothing else is used about the recursion.
-/
namespace SelectionPlan.Resolver

variable (resolver : Resolver) (schema : Schema) (names : List String)

/-- The path of the object that names lead to, if it is not the document itself. -/
def parentAt : List String → Option String
  | [] => none
  | name :: rest => some (Path.ofSegments (name :: rest))

/-- Resolves fields that are members of the object at `names`. -/
def fieldsAt (fields : List Field) : Except SelectError Plan :=
  resolver.resolveFields schema schema.pathNames (parentAt names) fields

/-- Resolves the body of the object at `names`, without dropping repetitions. -/
def bodyAt (body : Selection) : Except SelectError Plan :=
  (resolver.fieldsAt schema names body.fields).map
    (spread schema.pathNames (Path.ofSegments names) body ++ ·)

/-- Resolves the field at `names`, expanded by a body. -/
def expandAt (body : Selection) : Except SelectError Plan :=
  resolver.resolveField schema schema.pathNames (Path.ofSegments names) (some body)

/-- Two parts one after the other: the first error counts, and plans are appended. -/
def followedBy (first rest : Except SelectError Plan) : Except SelectError Plan :=
  match first with
  | .error error => .error error
  | .ok plan => rest.map (plan ++ ·)

/-- What became of another document, as it shows below the path that holds it. -/
def movedBelow (path : String) (result : Except SelectError Plan) : Except SelectError Plan :=
  (result.mapError (·.under path)).map (.rerooted path)

theorem memberPath_parentAt (name : String) :
    memberPath (parentAt names) name = Path.ofSegments (names ++ [name]) := by
  cases names with
  | nil => simp [parentAt, memberPath]
  | cons first rest =>
    rw [Path.ofSegments_concat (List.cons_ne_nil first rest)]
    rfl

theorem resolve_eq (body : Selection) :
    resolver.resolve schema body = (resolver.bodyAt schema [] body).map Plan.dedup := by
  obtain ⟨all, fields⟩ := body
  rw [resolve, bodyAt, fieldsAt, parentAt]
  cases resolver.resolveFields schema schema.pathNames none fields with
  | error error => rfl
  | ok named => rfl

theorem fieldsAt_nil : resolver.fieldsAt schema names [] = .ok .empty := by
  rw [fieldsAt, resolveFields]

theorem fieldsAt_unit (name : String) (rest : List Field) :
    resolver.fieldsAt schema names (⟨name, none⟩ :: rest) =
      followedBy (.ok (.unit (Path.ofSegments (names ++ [name]))))
        (resolver.fieldsAt schema names rest) := by
  rw [fieldsAt, resolveFields, resolveField, memberPath_parentAt, fieldsAt]
  cases resolver.resolveFields schema schema.pathNames (parentAt names) rest with
  | error error => rfl
  | ok others => rfl

theorem fieldsAt_expanded (name : String) (body : Selection) (rest : List Field) :
    resolver.fieldsAt schema names (⟨name, some body⟩ :: rest) =
      followedBy (resolver.expandAt schema (names ++ [name]) body)
        (resolver.fieldsAt schema names rest) := by
  rw [fieldsAt, resolveFields, memberPath_parentAt, expandAt, fieldsAt]
  cases resolver.resolveField schema schema.pathNames (Path.ofSegments (names ++ [name]))
      (some body) with
  | error error => rfl
  | ok first =>
    cases resolver.resolveFields schema schema.pathNames (parentAt names) rest with
    | error error => rfl
    | ok others => rfl

section Expansion

variable {resolver schema names}

theorem expandAt_missing {model : String} (body : Selection)
    (role : schema.role (Path.ofSegments names) = .relation model)
    (missing : resolver.models.get? model = none) :
    resolver.expandAt schema names body = .error (.modelMissing model) := by
  simp only [expandAt, resolveField, role, lookup, missing]

theorem expandAt_relation {model : String} {target : Schema} (body : Selection)
    (role : schema.role (Path.ofSegments names) = .relation model)
    (found : resolver.models.get? model = some target) :
    resolver.expandAt schema names body =
      ((resolver.resolve target body).mapError (·.under (Path.ofSegments names))).map
        (.relation (Path.ofSegments names)) := by
  simp only [expandAt, resolveField, role, lookup, found]
  cases resolver.resolve target body with
  | error error => rfl
  | ok related => rfl

theorem expandAt_embedded {sub : Schema} (body : Selection)
    (role : schema.role (Path.ofSegments names) = .embedded sub) :
    resolver.expandAt schema names body =
      movedBelow (Path.ofSegments names) (resolver.resolve sub body) := by
  simp only [expandAt, resolveField, role]
  cases resolver.resolve sub body with
  | error error => rfl
  | ok plan => rfl

theorem expandAt_leaf (body : Selection) (role : schema.role (Path.ofSegments names) = .leaf) :
    resolver.expandAt schema names body = .ok (.unit (Path.ofSegments names)) := by
  simp only [expandAt, resolveField, role]

theorem expandAt_object (some : names ≠ []) (body : Selection)
    (role : schema.role (Path.ofSegments names) = .object) :
    resolver.expandAt schema names body =
      if resolver.options.strict && !schema.hasDescendants (Path.ofSegments names) then
        .error (.unknownField (Path.ofSegments names))
      else resolver.bodyAt schema names body := by
  obtain ⟨all, fields⟩ := body
  obtain ⟨first, rest, rfl⟩ := List.exists_cons_of_ne_nil some
  simp only [expandAt, resolveField, role, resolveObject, bodyAt, fieldsAt, parentAt]
  rfl

end Expansion

end SelectionPlan.Resolver
