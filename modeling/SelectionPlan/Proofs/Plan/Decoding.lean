import SelectionPlan.Plan.Json
import SelectionPlan.Proofs.Json.Restating
import SelectionPlan.Proofs.Plan.Levels
import SelectionPlan.Proofs.Selection.Decoding

/-!
# Plans read from JSON

A plan is read from the members of an object by their names, and so is every relation in it. So
plans, like selections, are read as they were written, whatever order the members come in.
-/
namespace SelectionPlan

open Json (Mismatch Has Fills Restated Steady asArray asString asStrings valuesAt)

namespace Plan

/-! ### What is read -/

theorem relationsOfJson_eq_asArray (value : Json) :
    relationsOfJson value = asArray relationOfJson value := by
  cases value with
  | array items =>
    rw [relationsOfJson, asArray]
    induction items with
    | nil => rfl
    | cons item rest ih => rw [relationsOfItems, ih, List.mapM_cons]
  | null | bool | number | string | object => rfl

theorem ofMembers_eq_ok_iff {members : List (String × Json)} {seenSelect : Option (List String)}
    {seenPopulate : Option (List (String × Plan))} {select : List String}
    {populate : List (String × Plan)} :
    ofMembers seenSelect seenPopulate members = .ok ⟨select, populate⟩ ↔
      Fills asStrings (· = some select) seenSelect (valuesAt "select" members) ∧
        Fills relationsOfJson (· = some populate) seenPopulate (valuesAt "populate" members) := by
  induction members generalizing seenSelect seenPopulate with
  | nil =>
    simp [ofMembers, Json.bind_eq_ok, Json.required_eq_ok_iff, Json.map_eq_ok, Fills]
  | cons member rest ih =>
    obtain ⟨key, value⟩ := member
    rw [ofMembers]
    split
    · next own =>
      subst own
      rw [Json.valuesAt_cons_self, Json.valuesAt_cons_of_ne (by decide)]
      exact Json.stored_eq_ok_iff fun _ => ih
    · split
      · next own =>
        subst own
        rw [Json.valuesAt_cons_self, Json.valuesAt_cons_of_ne (by decide), and_comm]
        exact Json.stored_eq_ok_iff fun _ => ih.trans and_comm
      · next other other' =>
        rw [Json.valuesAt_cons_of_ne other, Json.valuesAt_cons_of_ne other', ih]

/-- Reads as a plan: an object by its names, or the array of the two fields in order. -/
theorem ofJson_eq_ok_iff {value : Json} {select : List String} {populate : List (String × Plan)} :
    ofJson value = .ok ⟨select, populate⟩ ↔
      (∃ members, value = .object members ∧ Has "select" asStrings members select ∧
        Has "populate" relationsOfJson members populate) ∨
      ∃ first second, value = .array [first, second] ∧ asStrings first = .ok select ∧
        relationsOfJson second = .ok populate := by
  cases value with
  | object members =>
    rw [ofJson, ofMembers_eq_ok_iff, Json.fills_eq_some_iff, Json.fills_eq_some_iff]
    simp
  | array items =>
    rcases items with _ | ⟨first, _ | ⟨second, _ | ⟨third, rest⟩⟩⟩
    all_goals simp [ofJson, Json.bind_eq_ok, Json.map_eq_ok, Json.throw_ne_ok]
  | null | bool | number | string => simp [ofJson]

theorem relationOfMembers_eq_ok_iff {members : List (String × Json)} {seenPath : Option String}
    {seenSelect : Option (List String)} {seenPopulate : Option (List (String × Plan))}
    {path : String} {select : List String} {populate : List (String × Plan)} :
    relationOfMembers seenPath seenSelect seenPopulate members = .ok (path, ⟨select, populate⟩) ↔
      Fills asString (· = some path) seenPath (valuesAt "path" members) ∧
        Fills asStrings (· = some select) seenSelect (valuesAt "select" members) ∧
        Fills relationsOfJson (· = some populate) seenPopulate (valuesAt "populate" members) := by
  induction members generalizing seenPath seenSelect seenPopulate with
  | nil =>
    simp [relationOfMembers, Json.bind_eq_ok, Json.required_eq_ok_iff, Json.map_eq_ok, Fills]
  | cons member rest ih =>
    obtain ⟨key, value⟩ := member
    rw [relationOfMembers]
    split
    · next own =>
      subst own
      rw [Json.valuesAt_cons_self, Json.valuesAt_cons_of_ne (by decide),
        Json.valuesAt_cons_of_ne (by decide)]
      exact Json.stored_eq_ok_iff fun _ => ih
    · split
      · next own =>
        subst own
        rw [Json.valuesAt_cons_self, Json.valuesAt_cons_of_ne (by decide),
          Json.valuesAt_cons_of_ne (by decide), and_left_comm]
        exact Json.stored_eq_ok_iff fun _ => ih.trans and_left_comm
      · split
        · next own =>
          subst own
          rw [Json.valuesAt_cons_self, Json.valuesAt_cons_of_ne (by decide),
            Json.valuesAt_cons_of_ne (by decide), ← and_assoc, and_comm]
          exact Json.stored_eq_ok_iff fun _ => ih.trans (and_assoc.symm.trans and_comm)
        · next other other' other'' =>
          rw [Json.valuesAt_cons_of_ne other, Json.valuesAt_cons_of_ne other',
            Json.valuesAt_cons_of_ne other'', ih]

/-- Reads as a relation: an object by its names, or the array of the three fields in order. -/
theorem relationOfJson_eq_ok_iff {value : Json} {path : String} {select : List String}
    {populate : List (String × Plan)} :
    relationOfJson value = .ok (path, ⟨select, populate⟩) ↔
      (∃ members, value = .object members ∧ Has "path" asString members path ∧
        Has "select" asStrings members select ∧
        Has "populate" relationsOfJson members populate) ∨
      ∃ first second third, value = .array [first, second, third] ∧ asString first = .ok path ∧
        asStrings second = .ok select ∧ relationsOfJson third = .ok populate := by
  cases value with
  | object members =>
    rw [relationOfJson, relationOfMembers_eq_ok_iff, Json.fills_eq_some_iff, Json.fills_eq_some_iff,
      Json.fills_eq_some_iff]
    simp
  | array items =>
    rcases items with _ | ⟨first, _ | ⟨second, _ | ⟨third, _ | ⟨fourth, rest⟩⟩⟩⟩
    all_goals
      simp [relationOfJson, Json.bind_eq_ok, Json.map_eq_ok, Json.throw_ne_ok]
  | null | bool | number | string => simp [relationOfJson]

/-! ### What makes no difference -/

/-- No path is null, so nothing that a plan or a relation selects is left out. -/
theorem asStrings_null (select : List String) : asStrings .null ≠ .ok select := nofun

theorem steady_ofJson {plan : Plan} (inner : Steady relationsOfJson plan.populate) :
    Steady ofJson plan := by
  intro value value' restated found
  obtain ⟨select, populate⟩ := plan
  have selects := Json.steady_asStrings select
  rcases ofJson_eq_ok_iff.mp found with
    ⟨members, rfl, hasSelect, hasPopulate⟩ | ⟨first, second, rfl, own, inside⟩
  · obtain ⟨members', rfl⟩ := restated.object
    exact ofJson_eq_ok_iff.mpr (.inl ⟨members', rfl,
      selects.has restated (.inr (asStrings_null select)) hasSelect,
      inner.has restated (.inl (by decide)) hasPopulate⟩)
  · obtain ⟨_, rfl, changes⟩ := restated.items
    obtain _ | ⟨change, _ | ⟨change', ⟨⟩⟩⟩ := changes
    exact ofJson_eq_ok_iff.mpr (.inr ⟨_, _, rfl, selects.part change own,
      inner.part change' inside⟩)

theorem steady_relationOfJson {path : String} {related : Plan}
    (inner : Steady relationsOfJson related.populate) : Steady relationOfJson (path, related) := by
  intro value value' restated found
  obtain ⟨select, populate⟩ := related
  have leads := Json.steady_asString path
  have selects := Json.steady_asStrings select
  rcases relationOfJson_eq_ok_iff.mp found with
    ⟨members, rfl, hasPath, hasSelect, hasPopulate⟩ | ⟨_, _, _, rfl, own, own', inside⟩
  · obtain ⟨members', rfl⟩ := restated.object
    exact relationOfJson_eq_ok_iff.mpr (.inl ⟨members', rfl,
      leads.has restated (.inl (by decide)) hasPath,
      selects.has restated (.inr (asStrings_null select)) hasSelect,
      inner.has restated (.inl (by decide)) hasPopulate⟩)
  · obtain ⟨_, rfl, changes⟩ := restated.items
    obtain _ | ⟨change, _ | ⟨change', _ | ⟨change'', ⟨⟩⟩⟩⟩ := changes
    exact relationOfJson_eq_ok_iff.mpr (.inr ⟨_, _, _, rfl, leads.part change own,
      selects.part change' own', inner.part change'' inside⟩)

theorem steady_relations (plan : Plan) : Steady relationsOfJson plan.populate := by
  induction plan using byRelations with
  | level select populate ih =>
    rw [funext relationsOfJson_eq_asArray]
    exact Json.steady_asArray fun entry member => steady_relationOfJson (ih entry member)

/-- Whatever is read as a plan is still read as it after a restatement. -/
theorem steady (plan : Plan) : Steady ofJson plan :=
  steady_ofJson (steady_relations plan)

/-! ### What was written -/

def relationToJson (entry : String × Plan) : Json :=
  .object [("path", .string entry.1), ("select", .array (entry.2.select.map .string)),
    ("populate", .array (relationsToJson entry.2.populate))]

theorem relationsToJson_eq_map (relations : List (String × Plan)) :
    relationsToJson relations = relations.map relationToJson := by
  induction relations with
  | nil => rw [relationsToJson, List.map_nil]
  | cons entry rest ih =>
    obtain ⟨path, select, populate⟩ := entry
    rw [relationsToJson, ih, List.map_cons, relationToJson]

theorem relationOfJson_relationToJson {entry : String × Plan}
    (inner : relationsOfJson (.array (relationsToJson entry.2.populate)) = .ok entry.2.populate) :
    relationOfJson (relationToJson entry) = .ok entry := by
  obtain ⟨path, select, populate⟩ := entry
  exact relationOfJson_eq_ok_iff.mpr (.inl ⟨_, rfl, ⟨_, rfl, rfl⟩,
    ⟨_, rfl, Json.asStrings_strings select⟩, ⟨_, rfl, inner⟩⟩)

theorem relationsOfJson_relationsToJson (plan : Plan) :
    relationsOfJson (.array (relationsToJson plan.populate)) = .ok plan.populate := by
  induction plan using byRelations with
  | level select populate ih =>
    rw [relationsOfJson_eq_asArray, relationsToJson_eq_map]
    exact Json.asArray_map fun entry member => relationOfJson_relationToJson (ih entry member)

theorem ofJson_toJson (plan : Plan) : ofJson plan.toJson = .ok plan := by
  have relations := relationsOfJson_relationsToJson plan
  obtain ⟨select, populate⟩ := plan
  rw [toJson]
  exact ofJson_eq_ok_iff.mpr (.inl ⟨_, rfl, ⟨_, rfl, Json.asStrings_strings select⟩,
    ⟨_, rfl, relations⟩⟩)

end Plan

/-- Selections and plans are read from JSON as they were written, in whatever order the members of
objects come, and also without the `select` of fields that are taken as a whole. -/
theorem decodes_restated :
    (∀ selection : Selection, Selection.ofJson selection.toJson = .ok selection ∧
      ∀ value, Relation.ReflTransGen Restated selection.toJson value →
        Selection.ofJson value = .ok selection) ∧
      ∀ plan : Plan, Plan.ofJson plan.toJson = .ok plan ∧
        ∀ value, Relation.ReflTransGen Restated plan.toJson value →
          Plan.ofJson value = .ok plan := by
  refine ⟨fun selection => ⟨selection.ofJson_toJson, ?_⟩, fun plan => ⟨plan.ofJson_toJson, ?_⟩⟩
  · intro value changes
    exact selection.steady.run changes selection.ofJson_toJson
  · intro value changes
    exact plan.steady.run changes plan.ofJson_toJson

theorem decodes_restated_owner :
    let selection : Selection := ⟨false, [⟨"name", none⟩, ⟨"owner", some .everything⟩]⟩
    let brief : Json := .object [("fields", .array [.object [("name", .string "name")],
      .object [("name", .string "owner"), ("select", Selection.everything.toJson)]]),
      ("all", .bool false)]
    let plan : Plan := ⟨["owner"], [("owner", .unit "name")]⟩
    let turned : Json := .object [("populate", .array [.object [("select", .array [.string "name"]),
      ("populate", .array []), ("path", .string "owner")]]), ("select", .array [.string "owner"])]
    (Relation.ReflTransGen Restated selection.toJson brief ∧
      Selection.ofJson brief = .ok selection) ∧
      Relation.ReflTransGen Restated plan.toJson turned ∧ Plan.ofJson turned = .ok plan := by
  intro selection brief plan turned
  have changes : Relation.ReflTransGen Restated selection.toJson brief :=
    .head (@Restated.member _ _ _ [_] _ (@Restated.item _ _ [] _ (@Restated.leftOut [_] [])))
      (.single (.reordered (.swap _ _ _)))
  have relation : [("path", Json.string "owner"), ("select", .array [.string "name"]),
      ("populate", .array [])].Perm [("select", .array [.string "name"]), ("populate", .array []),
      ("path", .string "owner")] := @List.perm_append_comm _ [_] _
  have changes' : Relation.ReflTransGen Restated plan.toJson turned := by
    have written : plan.toJson = .object [("select", .array [.string "owner"]),
        ("populate", .array [.object [("path", .string "owner"),
          ("select", .array [.string "name"]), ("populate", .array [])]])] := by
      simp [plan, Plan.unit, Plan.toJson, Plan.relationsToJson]
    rw [written]
    exact .head (@Restated.member _ _ _ [_] _ (@Restated.item _ _ [] _ (.reordered relation)))
      (.single (.reordered (.swap _ _ _)))
  exact ⟨⟨changes, (decodes_restated.1 selection).2 brief changes⟩, changes',
    (decodes_restated.2 plan).2 turned changes'⟩

end SelectionPlan
