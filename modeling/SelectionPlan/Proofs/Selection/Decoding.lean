import SelectionPlan.Selection.Json
import SelectionPlan.Proofs.Json.Restating
import SelectionPlan.Proofs.Selection.Bodies

/-!
# Selections read from JSON

A selection is read from the members of an object by their names, so it is read as it was written
whatever order they come in, and whether or not the fields taken as a whole say so.
-/
namespace SelectionPlan.Selection

open Json (Mismatch Has Fills Restated Steady asArray asBool asString valuesAt)

/-! ### What is read -/

/-- Reads what expands a field. -/
def bodyOfJson (value : Json) : Except Mismatch (Option Selection) :=
  if value.isNull then pure none else some <$> ofJson value

theorem fieldsOfJson_eq_asArray (value : Json) :
    fieldsOfJson value = asArray fieldOfJson value := by
  cases value with
  | array items =>
    rw [fieldsOfJson, asArray]
    induction items with
    | nil => rfl
    | cons item rest ih => rw [fieldsOfItems, ih, List.mapM_cons]
  | null | bool | number | string | object => rfl

theorem ofMembers_eq_ok_iff {members : List (String × Json)} {seenAll : Option Bool}
    {seenFields : Option (List Field)} {all : Bool} {fields : List Field} :
    ofMembers seenAll seenFields members = .ok ⟨all, fields⟩ ↔
      Fills asBool (· = some all) seenAll (valuesAt "all" members) ∧
        Fills fieldsOfJson (· = some fields) seenFields (valuesAt "fields" members) := by
  induction members generalizing seenAll seenFields with
  | nil =>
    simp [ofMembers, Json.bind_eq_ok, Json.required_eq_ok_iff, Json.map_eq_ok, Fills]
  | cons member rest ih =>
    obtain ⟨key, value⟩ := member
    rw [ofMembers]
    split
    · next own =>
      subst own
      rw [Json.valuesAt_cons_self, Json.valuesAt_cons_of_ne (by decide)]
      exact Json.stored_eq_ok_iff fun _ => ih
    · split
      · next own =>
        subst own
        rw [Json.valuesAt_cons_self, Json.valuesAt_cons_of_ne (by decide), and_comm]
        exact Json.stored_eq_ok_iff fun _ => ih.trans and_comm
      · next other other' =>
        rw [Json.valuesAt_cons_of_ne other, Json.valuesAt_cons_of_ne other', ih]

/-- Reads as a selection: an object by its names, or the array of the two fields in order. -/
theorem ofJson_eq_ok_iff {value : Json} {all : Bool} {fields : List Field} :
    ofJson value = .ok ⟨all, fields⟩ ↔
      (∃ members, value = .object members ∧ Has "all" asBool members all ∧
        Has "fields" fieldsOfJson members fields) ∨
      ∃ first second, value = .array [first, second] ∧ asBool first = .ok all ∧
        fieldsOfJson second = .ok fields := by
  cases value with
  | object members =>
    rw [ofJson, ofMembers_eq_ok_iff, Json.fills_eq_some_iff, Json.fills_eq_some_iff]
    simp
  | array items =>
    rcases items with _ | ⟨first, _ | ⟨second, _ | ⟨third, rest⟩⟩⟩
    all_goals simp [ofJson, Json.bind_eq_ok, Json.map_eq_ok, Json.throw_ne_ok]
  | null | bool | number | string => simp [ofJson]

theorem fieldOfMembers_select (seenName : Option String) (seenBody : Option (Option Selection))
    (value : Json) (rest : List (String × Json)) :
    fieldOfMembers seenName seenBody (("select", value) :: rest) = (do
      Json.unseen "select" seenBody
      fieldOfMembers seenName (some (← bodyOfJson value)) rest) := by
  rw [fieldOfMembers, if_neg (by decide), if_pos rfl, bodyOfJson]
  cases value.isNull <;> rfl

theorem fieldOfMembers_eq_ok_iff {members : List (String × Json)} {seenName : Option String}
    {seenBody : Option (Option Selection)} {name : String} {body : Option Selection} :
    fieldOfMembers seenName seenBody members = .ok ⟨name, body⟩ ↔
      Fills asString (· = some name) seenName (valuesAt "name" members) ∧
        Fills bodyOfJson (·.getD none = body) seenBody (valuesAt "select" members) := by
  induction members generalizing seenName seenBody with
  | nil =>
    simp [fieldOfMembers, Json.required_eq_ok_iff, Json.map_eq_ok, Fills]
  | cons member rest ih =>
    obtain ⟨key, value⟩ := member
    -- The body is read in two branches, so this member is looked at first and as one reader.
    by_cases select : key = "select"
    · subst select
      rw [fieldOfMembers_select, Json.valuesAt_cons_self, Json.valuesAt_cons_of_ne (by decide),
        and_comm]
      exact Json.stored_eq_ok_iff fun _ => ih.trans and_comm
    rw [fieldOfMembers, if_neg select, Json.valuesAt_cons_of_ne select]
    split
    · next own =>
      subst own
      rw [Json.valuesAt_cons_self]
      exact Json.stored_eq_ok_iff fun _ => ih
    · next other => rw [Json.valuesAt_cons_of_ne other, ih]

theorem fieldOfJson_array (name value : Json) (rest : List Json) :
    fieldOfJson (.array (name :: value :: rest)) = (do
      let name ← asString name
      let body ← bodyOfJson value
      if rest.isEmpty then return ⟨name, body⟩ else throw (.tooLong (rest.length + 2))) := by
  rw [fieldOfJson, bodyOfJson]
  cases value.isNull <;> rfl

/-- Reads as a field: an object by its names, where what expands the field may be missing, or the
array of the two fields in order. -/
theorem fieldOfJson_eq_ok_iff {value : Json} {name : String} {body : Option Selection} :
    fieldOfJson value = .ok ⟨name, body⟩ ↔
      (∃ members, value = .object members ∧ Has "name" asString members name ∧
        (Has "select" bodyOfJson members body ∨ valuesAt "select" members = [] ∧ body = none)) ∨
      ∃ first second, value = .array [first, second] ∧ asString first = .ok name ∧
        bodyOfJson second = .ok body := by
  cases value with
  | object members =>
    have expands : Fills bodyOfJson (·.getD none = body) none (valuesAt "select" members) ↔
        Has "select" bodyOfJson members body ∨ valuesAt "select" members = [] ∧ body = none := by
      rw [Json.fills_none_iff]
      constructor
      · rintro (⟨absent, rfl⟩ | ⟨written, _, alone, inside, rfl⟩)
        · exact .inr ⟨absent, rfl⟩
        · exact .inl ⟨written, alone, inside⟩
      · rintro (⟨written, alone, inside⟩ | ⟨absent, rfl⟩)
        · exact .inr ⟨written, body, alone, inside, rfl⟩
        · exact .inl ⟨absent, rfl⟩
    rw [fieldOfJson, fieldOfMembers_eq_ok_iff, Json.fills_eq_some_iff, expands]
    simp
  | array items =>
    rcases items with _ | ⟨first, _ | ⟨second, rest⟩⟩
    · simp [fieldOfJson]
    · simp [fieldOfJson, Json.bind_eq_ok, Json.throw_ne_ok]
    · rw [fieldOfJson_array]
      cases rest <;> simp [Json.bind_eq_ok, Json.map_eq_ok, Json.throw_ne_ok]
  | null | bool | number | string => simp [fieldOfJson]

/-! ### What makes no difference -/

theorem steady_ofJson {selection : Selection} (inner : Steady fieldsOfJson selection.fields) :
    Steady ofJson selection := by
  intro value value' restated found
  obtain ⟨all, fields⟩ := selection
  rcases ofJson_eq_ok_iff.mp found with
    ⟨members, rfl, hasAll, hasFields⟩ | ⟨first, second, rfl, own, inside⟩
  · obtain ⟨members', rfl⟩ := restated.object
    exact ofJson_eq_ok_iff.mpr (.inl ⟨members', rfl,
      (Json.steady_asBool all).has restated (.inl (by decide)) hasAll,
      inner.has restated (.inl (by decide)) hasFields⟩)
  · obtain ⟨_, rfl, changes⟩ := restated.items
    obtain _ | ⟨change, _ | ⟨change', ⟨⟩⟩⟩ := changes
    exact ofJson_eq_ok_iff.mpr (.inr ⟨_, _, rfl, (Json.steady_asBool all).part change own,
      inner.part change' inside⟩)

theorem bodyOfJson_eq_ok_iff {value : Json} {body : Option Selection} :
    bodyOfJson value = .ok body ↔ value = .null ∧ body = none ∨
      value.isNull = false ∧ ∃ expansion, ofJson value = .ok expansion ∧ body = some expansion := by
  rw [bodyOfJson]
  cases value with
  | null => simp [Json.isNull, pure, Except.pure, eq_comm]
  | bool | number | string | array | object =>
    simp only [Json.isNull]
    cases ofJson _ <;> simp [Functor.map, Except.map, eq_comm]

theorem steady_bodyOfJson {body : Option Selection}
    (inner : ∀ expansion, body = some expansion → Steady ofJson expansion) :
    Steady bodyOfJson body := by
  intro value value' restated found
  -- What can be restated is not null, and neither is what it becomes.
  have filled : value ≠ .null ∧ value'.isNull = false := by
    cases restated <;> exact ⟨nofun, rfl⟩
  rcases bodyOfJson_eq_ok_iff.mp found with ⟨null, -⟩ | ⟨-, expansion, own, rfl⟩
  · exact absurd null filled.1
  · have own' := inner expansion rfl value value' restated own
    exact bodyOfJson_eq_ok_iff.mpr (.inr ⟨filled.2, expansion, own', rfl⟩)

theorem steady_fieldOfJson {name : String} {body : Option Selection}
    (inner : ∀ expansion, body = some expansion → Steady ofJson expansion) :
    Steady fieldOfJson ⟨name, body⟩ := by
  intro value value' restated found
  have expands := steady_bodyOfJson inner
  rcases fieldOfJson_eq_ok_iff.mp found with
    ⟨members, rfl, hasName, hasBody⟩ | ⟨first, second, rfl, own, inside⟩
  · obtain ⟨members', rfl⟩ := restated.object
    have hasName' := (Json.steady_asString name).has restated (.inl (by decide)) hasName
    refine fieldOfJson_eq_ok_iff.mpr (.inl ⟨members', rfl, hasName', ?_⟩)
    rcases hasBody with ⟨written, alone, inside⟩ | ⟨absent, rfl⟩
    · rcases restated.alone alone with ⟨written', change, alone'⟩ | ⟨-, rfl, absent⟩
      · exact .inl ⟨written', alone', expands.part change inside⟩
      · -- A null that is left out stands for nothing, and so does its absence.
        cases inside
        exact .inr ⟨absent, rfl⟩
    · exact .inr ⟨restated.absent absent, rfl⟩
  · obtain ⟨_, rfl, changes⟩ := restated.items
    obtain _ | ⟨change, _ | ⟨change', ⟨⟩⟩⟩ := changes
    exact fieldOfJson_eq_ok_iff.mpr (.inr ⟨_, _, rfl, (Json.steady_asString name).part change own,
      expands.part change' inside⟩)

theorem steady_fieldsOfJson {fields : List Field}
    (each : ∀ field ∈ fields, Steady fieldOfJson field) : Steady fieldsOfJson fields := by
  rw [funext fieldsOfJson_eq_asArray]
  exact Json.steady_asArray each

theorem steady_fields (fields : List Field) : ∀ field ∈ fields, Steady fieldOfJson field := by
  induction fields using fields_induction with
  | nil => exact List.forall_mem_nil _
  | unit name rest ih => exact List.forall_mem_cons.mpr ⟨steady_fieldOfJson nofun, ih⟩
  | expanded name body rest inside ih =>
    refine List.forall_mem_cons.mpr ⟨steady_fieldOfJson ?_, ih⟩
    rintro _ ⟨⟩
    exact steady_ofJson (steady_fieldsOfJson inside)

/-- Whatever is read as a selection is still read as it after a restatement. -/
theorem steady (selection : Selection) : Steady ofJson selection :=
  steady_ofJson (steady_fieldsOfJson (steady_fields selection.fields))

/-! ### What was written -/

def fieldToJson (field : Field) : Json :=
  .object [("name", .string field.name), ("select", bodyToJson field.body)]

theorem fieldsToJson_eq_map (fields : List Field) :
    fieldsToJson fields = fields.map fieldToJson := by
  induction fields with
  | nil => rfl
  | cons field rest ih => rw [fieldsToJson, ih, List.map_cons, fieldToJson]

theorem fieldsOfJson_fieldsToJson {fields : List Field}
    (each : ∀ field ∈ fields, fieldOfJson (fieldToJson field) = .ok field) :
    fieldsOfJson (.array (fieldsToJson fields)) = .ok fields := by
  rw [fieldsOfJson_eq_asArray, fieldsToJson_eq_map]
  exact Json.asArray_map each

theorem ofJson_toJson_of_fields {selection : Selection}
    (each : ∀ field ∈ selection.fields, fieldOfJson (fieldToJson field) = .ok field) :
    ofJson selection.toJson = .ok selection := by
  obtain ⟨all, fields⟩ := selection
  have inside := fieldsOfJson_fieldsToJson each
  rw [toJson]
  exact ofJson_eq_ok_iff.mpr (.inl ⟨_, rfl, ⟨_, rfl, rfl⟩, ⟨_, rfl, inside⟩⟩)

theorem fieldOfJson_fieldToJson {name : String} {body : Option Selection}
    (inner : bodyOfJson (bodyToJson body) = .ok body) :
    fieldOfJson (fieldToJson ⟨name, body⟩) = .ok ⟨name, body⟩ :=
  fieldOfJson_eq_ok_iff.mpr (.inl ⟨_, rfl, ⟨_, rfl, rfl⟩, .inl ⟨_, rfl, inner⟩⟩)

theorem fieldOfJson_of_mem (fields : List Field) :
    ∀ field ∈ fields, fieldOfJson (fieldToJson field) = .ok field := by
  induction fields using fields_induction with
  | nil => exact List.forall_mem_nil _
  | unit name rest ih => exact List.forall_mem_cons.mpr ⟨fieldOfJson_fieldToJson rfl, ih⟩
  | expanded name body rest inside ih =>
    refine List.forall_mem_cons.mpr ⟨fieldOfJson_fieldToJson ?_, ih⟩
    obtain ⟨all, fields⟩ := body
    exact bodyOfJson_eq_ok_iff.mpr (.inr ⟨rfl, _, ofJson_toJson_of_fields inside, rfl⟩)

theorem ofJson_toJson (selection : Selection) : ofJson selection.toJson = .ok selection :=
  ofJson_toJson_of_fields (fieldOfJson_of_mem selection.fields)

end SelectionPlan.Selection
