import SelectionPlan.Proofs.Plan.Assembly
import SelectionPlan.Proofs.Resolve.Steps
import SelectionPlan.Proofs.Schema.Flatten
import SelectionPlan.Proofs.Selection.Bodies

/-!
# Resolving in flattened schemas

Whether a sub-document has a schema of its own or is written out in the schema around it cannot be
told from what selections resolve to. Inside of the sub-document, the flattened schema gives what
the embedded one gives, moved below its path. Outside of it, the results agree once repetitions are
dropped, which every resolution does in the end.
-/
namespace SelectionPlan

theorem SelectError.under_under (above middle : String) (error : SelectError) :
    (error.under middle).under above = error.under (Path.join above middle) := by
  cases error with
  | unknownField path => simp only [under, Path.join_assoc]
  | invalidText cause => rfl
  | modelMissing name => rfl

namespace Schema.Embeds

variable {schema sub : Schema} {path : String}

theorem role_eq (embeds : schema.Embeds path sub) : schema.role path = .embedded sub := by
  simp only [role, embeds.virtual?_eq_none, embeds.path?_eq]

theorem role_flatten (embeds : schema.Embeds path sub) :
    (schema.flatten path sub).role path = .object := by
  simp only [role, embeds.virtual?_flatten, embeds.path?_flatten]

theorem role_flatten_join (embeds : schema.Embeds path sub) (inner : String) :
    (schema.flatten path sub).role (Path.join path inner) = sub.role inner := by
  simp only [role, embeds.virtual?_flatten_join, embeds.path?_flatten_join]

theorem role_flatten_apart (embeds : schema.Embeds path sub) {other : String}
    (apart : ¬ Path.Covers path other) :
    (schema.flatten path sub).role other = schema.role other := by
  simp only [role, virtual?_flatten_apart apart, embeds.path?_flatten_apart apart]

end Schema.Embeds

namespace Resolver

theorem movedBelow_movedBelow (above middle : String) (result : Except SelectError Plan) :
    movedBelow above (movedBelow middle result) = movedBelow (Path.join above middle) result := by
  cases result with
  | error error => exact congrArg Except.error (error.under_under above middle)
  | ok plan => exact congrArg Except.ok (plan.rerooted_rerooted above middle)

theorem movedBelow_followedBy (path : String) (first rest : Except SelectError Plan) :
    movedBelow path (followedBy first rest) =
      followedBy (movedBelow path first) (movedBelow path rest) := by
  cases first with
  | error error => rfl
  | ok plan =>
    cases rest with
    | error error => rfl
    | ok others => exact congrArg Except.ok (plan.rerooted_append path others)

theorem map_dedup_movedBelow (path : String) (result : Except SelectError Plan) :
    (movedBelow path result).map Plan.dedup = movedBelow path (result.map Plan.dedup) := by
  cases result with
  | error error => rfl
  | ok plan => exact congrArg Except.ok (plan.dedup_rerooted path)

theorem map_dedup_map_dedup (result : Except SelectError Plan) :
    (result.map Plan.dedup).map Plan.dedup = result.map Plan.dedup := by
  cases result with
  | error error => rfl
  | ok plan => exact congrArg Except.ok plan.dedup_dedup

/-- Repetitions may be dropped in the parts before they are dropped in the whole. -/
theorem map_dedup_followedBy (first rest : Except SelectError Plan) :
    (followedBy (first.map Plan.dedup) (rest.map Plan.dedup)).map Plan.dedup =
      (followedBy first rest).map Plan.dedup := by
  cases first with
  | error error => rfl
  | ok plan =>
    cases rest with
    | error error => rfl
    | ok others => exact congrArg Except.ok (plan.dedup_append_dedup others)

section Flattened

variable (resolver : Resolver) {schema sub : Schema} {path : String}
  (embeds : schema.Embeds path sub)
include embeds

theorem spread_flatten_inside {names : List String} (plain : ∀ name ∈ names, Path.Plain name)
    (body : Selection) :
    spread (schema.flatten path sub).pathNames (Path.ofSegments (Path.segments path ++ names))
        body =
      (spread sub.pathNames (Path.ofSegments names) body).rerooted path := by
  unfold spread
  split
  next => rw [embeds.otherChildren_flatten_inside plain]; rfl
  next => rfl

theorem spread_flatten_outside {names : List String} (plain : ∀ name ∈ names, Path.Plain name)
    (outside : ¬ Path.segments path <+: names) (body : Selection) :
    spread (schema.flatten path sub).pathNames (Path.ofSegments names) body =
      spread schema.pathNames (Path.ofSegments names) body := by
  unfold spread
  rw [embeds.otherChildren_flatten_outside plain outside]

theorem bodyAt_flatten_inside {names : List String} (plain : ∀ name ∈ names, Path.Plain name)
    (body : Selection)
    (inside : resolver.fieldsAt (schema.flatten path sub) (Path.segments path ++ names)
      body.fields = movedBelow path (resolver.fieldsAt sub names body.fields)) :
    resolver.bodyAt (schema.flatten path sub) (Path.segments path ++ names) body =
      movedBelow path (resolver.bodyAt sub names body) := by
  rw [bodyAt, bodyAt, inside, spread_flatten_inside embeds plain]
  cases resolver.fieldsAt sub names body.fields with
  | error error => rfl
  | ok plan => exact congrArg Except.ok (Plan.rerooted_append path _ plan).symm

/-- A field inside of the sub-document resolves in the flattened schema as it does in the embedded
one, once this is known of the fields that it is expanded by. -/
theorem expandAt_flatten_inside {names : List String} (some : names ≠ [])
    (plain : ∀ name ∈ names, Path.Plain name) (body : Selection)
    (inside : resolver.fieldsAt (schema.flatten path sub) (Path.segments path ++ names)
      body.fields = movedBelow path (resolver.fieldsAt sub names body.fields)) :
    resolver.expandAt (schema.flatten path sub) (Path.segments path ++ names) body =
      movedBelow path (resolver.expandAt sub names body) := by
  have joined := Path.ofSegments_segments_append path some
  have role' : (schema.flatten path sub).role (Path.ofSegments (Path.segments path ++ names)) =
      sub.role (Path.ofSegments names) := by
    rw [joined, embeds.role_flatten_join]
  cases role : sub.role (Path.ofSegments names) with
  | relation model =>
    rw [role] at role'
    cases found : resolver.models.get? model with
    | none =>
      rw [expandAt_missing body role found, expandAt_missing body role' found]
      rfl
    | some target =>
      rw [expandAt_relation body role found, expandAt_relation body role' found, joined]
      cases resolver.resolve target body with
      | error error => exact congrArg Except.error (error.under_under path _).symm
      | ok related => rfl
  | embedded deeper =>
    rw [role] at role'
    rw [expandAt_embedded body role, expandAt_embedded body role', joined, movedBelow_movedBelow]
  | leaf =>
    rw [role] at role'
    rw [expandAt_leaf body role, expandAt_leaf body role', joined]
    rfl
  | object =>
    rw [role] at role'
    rw [expandAt_object some body role, expandAt_object (by simp [some]) body role', joined,
      embeds.hasDescendants_flatten_join]
    split
    next => rfl
    next => exact bodyAt_flatten_inside resolver embeds plain body inside

/-- The simulation inside of the sub-document. Names from the root of the flattened schema first
lead to the path that is written out, and then go on as in the embedded schema. -/
theorem fieldsAt_flatten_inside {all : Bool} {names : List String} {fields : List Field}
    (named : Selection.NamedAt names ⟨all, fields⟩) :
    resolver.fieldsAt (schema.flatten path sub) (Path.segments path ++ names) fields =
      movedBelow path (resolver.fieldsAt sub names fields) := by
  induction fields using Selection.fields_induction generalizing all names with
  | nil =>
    rw [fieldsAt_nil, fieldsAt_nil]
    rfl
  | unit name rest ih =>
    rw [fieldsAt_unit, fieldsAt_unit, ih named.rest, movedBelow_followedBy, List.append_assoc,
      Path.ofSegments_segments_append path (by simp)]
    rfl
  | expanded name body rest ihBody ihRest =>
    obtain ⟨allBody, inner⟩ := body
    have first := expandAt_flatten_inside resolver embeds (by simp) named.first
      ⟨allBody, inner⟩ (ihBody (named.inside rfl))
    rw [fieldsAt_expanded, fieldsAt_expanded, ihRest named.rest, movedBelow_followedBy,
      List.append_assoc, first]

theorem bodyAt_flatten_outside {names : List String} (plain : ∀ name ∈ names, Path.Plain name)
    (outside : ¬ Path.segments path <+: names) (body : Selection)
    (within : (resolver.fieldsAt (schema.flatten path sub) names body.fields).map Plan.dedup =
      (resolver.fieldsAt schema names body.fields).map Plan.dedup) :
    (resolver.bodyAt (schema.flatten path sub) names body).map Plan.dedup =
      (resolver.bodyAt schema names body).map Plan.dedup := by
  -- A body is its spread followed by its fields, and each of the two agrees.
  have parts : ∀ schema' : Schema, resolver.bodyAt schema' names body =
      followedBy (.ok (spread schema'.pathNames (Path.ofSegments names) body))
        (resolver.fieldsAt schema' names body.fields) := fun _ => rfl
  rw [parts, parts, ← map_dedup_followedBy, ← map_dedup_followedBy (.ok _) (fieldsAt ..), within,
    spread_flatten_outside embeds plain outside]

/-- Where the document is left for the embedded one, the flattened schema has a plain object. What
the embedded schema gives has its repetitions dropped early there. -/
theorem expandAt_flatten_crossing {body : Selection} (named : body.NamedAt []) :
    (resolver.expandAt (schema.flatten path sub) (Path.segments path) body).map Plan.dedup =
      (resolver.expandAt schema (Path.segments path) body).map Plan.dedup := by
  obtain ⟨all, fields⟩ := body
  have role : schema.role (Path.ofSegments (Path.segments path)) = .embedded sub := by
    rw [Path.ofSegments_segments, embeds.role_eq]
  have role' : (schema.flatten path sub).role (Path.ofSegments (Path.segments path)) =
      .object := by
    rw [Path.ofSegments_segments, embeds.role_flatten]
  -- Right at the path, no names lead further inside yet.
  have inside := bodyAt_flatten_inside resolver embeds named.above ⟨all, fields⟩
    (fieldsAt_flatten_inside resolver embeds named)
  rw [List.append_nil] at inside
  rw [expandAt_object (Path.segments_ne_nil path) _ role', expandAt_embedded _ role,
    Path.ofSegments_segments, embeds.hasDescendants_flatten, inside, resolve_eq,
    ← map_dedup_movedBelow, map_dedup_map_dedup]
  simp

theorem expandAt_flatten_outside {names : List String} (some : names ≠ [])
    (plain : ∀ name ∈ names, Path.Plain name) (outside : ¬ Path.segments path <+: names)
    (body : Selection)
    (within : (resolver.fieldsAt (schema.flatten path sub) names body.fields).map Plan.dedup =
      (resolver.fieldsAt schema names body.fields).map Plan.dedup) :
    (resolver.expandAt (schema.flatten path sub) names body).map Plan.dedup =
      (resolver.expandAt schema names body).map Plan.dedup := by
  have apart : ¬ Path.Covers path (Path.ofSegments names) := by
    rwa [Path.Covers, Path.segments_ofSegments_of_plain some plain]
  -- Whatever the field is, it is the same in both schemas, and so is what it leads to.
  have role' := embeds.role_flatten_apart apart
  cases role : schema.role (Path.ofSegments names) with
  | relation model =>
    rw [role] at role'
    cases found : resolver.models.get? model with
    | none => rw [expandAt_missing body role found, expandAt_missing body role' found]
    | some target => rw [expandAt_relation body role found, expandAt_relation body role' found]
  | embedded other =>
    rw [role] at role'
    rw [expandAt_embedded body role, expandAt_embedded body role']
  | leaf =>
    rw [role] at role'
    rw [expandAt_leaf body role, expandAt_leaf body role']
  | object =>
    rw [role] at role'
    rw [expandAt_object some body role, expandAt_object some body role',
      embeds.hasDescendants_flatten_apart apart]
    split
    next => rfl
    next => exact bodyAt_flatten_outside resolver embeds plain outside body within

/-- The simulation outside of the sub-document, up to repetitions. Each field stays outside, or is
the one at which the sub-document is entered. -/
theorem fieldsAt_flatten_outside {all : Bool} {names : List String}
    (outside : ¬ Path.segments path <+: names) {fields : List Field}
    (named : Selection.NamedAt names ⟨all, fields⟩) :
    (resolver.fieldsAt (schema.flatten path sub) names fields).map Plan.dedup =
      (resolver.fieldsAt schema names fields).map Plan.dedup := by
  induction fields using Selection.fields_induction generalizing all names with
  | nil => rw [fieldsAt_nil, fieldsAt_nil]
  | unit name rest ih =>
    rw [fieldsAt_unit, fieldsAt_unit, ← map_dedup_followedBy, ih outside named.rest,
      map_dedup_followedBy]
  | expanded name body rest ihBody ihRest =>
    obtain ⟨allBody, inner⟩ := body
    have first : (resolver.expandAt (schema.flatten path sub) (names ++ [name])
        ⟨allBody, inner⟩).map Plan.dedup =
          (resolver.expandAt schema (names ++ [name]) ⟨allBody, inner⟩).map Plan.dedup := by
      by_cases entered : Path.segments path <+: names ++ [name]
      -- The field is the path that is written out, since its parent is still outside.
      · have here := (List.prefix_concat_iff.mp entered).resolve_right outside
        rw [← here]
        exact expandAt_flatten_crossing resolver embeds (named.inside rfl).alone
      · exact expandAt_flatten_outside resolver embeds (by simp) named.first entered _
          (ihBody entered (named.inside rfl))
    rw [fieldsAt_expanded, fieldsAt_expanded, ← map_dedup_followedBy, first,
      ihRest outside named.rest, map_dedup_followedBy]

end Flattened

/-- An embedded schema can be written out in the schema around it, and every selection resolves as
before, to the same plan or with the same error. -/
theorem resolve_flatten (resolver : Resolver) {schema sub : Schema} {path : String}
    (embeds : schema.Embeds path sub) {selection : Selection} (named : selection.WellNamed) :
    resolver.resolve (schema.flatten path sub) selection = resolver.resolve schema selection := by
  obtain ⟨all, fields⟩ := selection
  -- A document starts outside: every path has a segment.
  have outside : ¬ Path.segments path <+: [] := by
    rw [List.prefix_nil]
    exact Path.segments_ne_nil path
  rw [resolve_eq, resolve_eq]
  have root : Selection.NamedAt [] ⟨all, fields⟩ := ⟨List.forall_mem_nil _, named⟩
  exact bodyAt_flatten_outside resolver embeds root.above outside _
    (fieldsAt_flatten_outside resolver embeds outside root)

theorem resolve_flatten_address :
    let place : Schema := ⟨[("city", .scalar), ("geo.lat", .scalar)], [("region", "Region")]⟩
    let person : Schema :=
      ⟨[("name", .scalar), ("home.address", .embedded place), ("home.owner", .reference "Person")],
        [("friends", "Person")]⟩
    let selection : Selection :=
      ⟨true, [⟨"home", some ⟨true, [⟨"address", some ⟨true, [⟨"region", some .everything⟩]⟩⟩]⟩⟩]⟩
    let resolver : Resolver := ⟨⟨[("Person", person), ("Region", place)]⟩, { strict := true }⟩
    person.Embeds "home.address" place ∧ selection.WellNamed ∧
      resolver.resolve (person.flatten "home.address" place) selection =
        resolver.resolve person selection := by
  intro place person selection resolver
  have embeds : person.Embeds "home.address" place :=
    ⟨by decide, ⟨[("name", .scalar)], [("home.owner", .reference "Person")], rfl, by decide⟩,
      by decide, List.cons_ne_nil _ _⟩
  have named : selection.WellNamed := by
    simp only [selection, Selection.everything, Selection.wellNamed_cons_iff,
      Selection.wellNamed_nil, Option.some.injEq, forall_eq', and_true]
    decide
  exact ⟨embeds, named, resolve_flatten resolver embeds named⟩

end Resolver

end SelectionPlan
