import SelectionPlan.Config.Json
import SelectionPlan.Proofs.Dictionaries
import SelectionPlan.Proofs.Json.Drafts

/-!
# Field declarations as JSON

The kind of a field declaration is not written down but told from its shape. An object whose only
entry is a scalar type under `ref` or `schema` has the shape of a reference or of an embedded
schema, and is read as one. Nothing else gets lost: every declaration without such an object is
read as it was written, and no JSON without repeated keys is read as a declaration with such an
object.
-/
namespace SelectionPlan.FieldDecl

/-! ### Parts of declarations -/

/-- What every declaration has if arrays and objects have it from their parts. -/
@[elab_as_elim]
theorem byParts {motive : FieldDecl → Prop} (scalar : ∀ type, motive (.scalar type))
    (array : ∀ items, (∀ item ∈ items, motive item) → motive (.array items))
    (reference : ∀ model, motive (.reference model)) (embed : ∀ schema, motive (.embed schema))
    (object : ∀ fields, (∀ field ∈ fields, motive field.2) → motive (.object fields)) :
    ∀ decl, motive decl
  | .scalar type => scalar type
  | .array items =>
    array items fun item _ => byParts scalar array reference embed object item
  | .reference model => reference model
  | .embed schema => embed schema
  | .object fields =>
    object fields fun field _ => byParts scalar array reference embed object field.2
decreasing_by
  · have smaller := List.sizeOf_lt_of_mem ‹item ∈ items›
    rw [FieldDecl.array.sizeOf_spec]
    omega
  · have smaller := List.sizeOf_lt_of_mem ‹field ∈ fields›
    rw [FieldDecl.object.sizeOf_spec]
    cases field
    simp only [Prod.mk.sizeOf_spec] at smaller ⊢
    omega

/-- A declaration is another one or a part of it, at whatever depth. -/
inductive Inside : FieldDecl → FieldDecl → Prop
  | self {decl : FieldDecl} : Inside decl decl
  | item {inner item : FieldDecl} {items : List FieldDecl} :
    item ∈ items → Inside inner item → Inside inner (.array items)
  | field {inner : FieldDecl} {field : String × FieldDecl} {fields : Dict FieldDecl} :
    field ∈ fields → Inside inner field.2 → Inside inner (.object fields)

def EveryObject (property : Dict FieldDecl → Prop) (decl : FieldDecl) : Prop :=
  ∀ fields, Inside (.object fields) decl → property fields

/-- The fields of all objects in a declaration are dictionaries. -/
def Ordered : FieldDecl → Prop :=
  EveryObject Dict.Ascending

/-- An object with these fields looks like a reference or an embedded schema. -/
def Ambiguous (fields : Dict FieldDecl) : Prop :=
  ∃ type, fields = [("ref", .scalar type)] ∨ fields = [("schema", .scalar type)]

def Unambiguous : FieldDecl → Prop :=
  EveryObject fun fields => ¬Ambiguous fields

section Objects

variable {property : Dict FieldDecl → Prop}

theorem everyObject_scalar (type : String) : EveryObject property (.scalar type) :=
  fun _ inside => nomatch inside

theorem everyObject_reference (model : String) : EveryObject property (.reference model) :=
  fun _ inside => nomatch inside

theorem everyObject_embed (schema : String) : EveryObject property (.embed schema) :=
  fun _ inside => nomatch inside

theorem everyObject_array {items : List FieldDecl} :
    EveryObject property (.array items) ↔ ∀ item ∈ items, EveryObject property item := by
  constructor
  · exact fun every item member fields inside => every fields (.item member inside)
  · intro every fields inside
    cases inside with
    | item member inside => exact every _ member fields inside

theorem everyObject_object {fields : Dict FieldDecl} :
    EveryObject property (.object fields) ↔
      property fields ∧ ∀ field ∈ fields, EveryObject property field.2 := by
  constructor
  · intro every
    exact ⟨every fields .self, fun field member inner inside => every inner (.field member inside)⟩
  · rintro ⟨own, every⟩ inner inside
    cases inside with
    | self => exact own
    | field member inside => exact every _ member inner inside

end Objects

/-! ### Writing and reading -/

theorem itemsToJson_eq_map (items : List FieldDecl) : itemsToJson items = items.map toJson := by
  induction items with
  | nil => rfl
  | cons item rest ih => rw [itemsToJson, ih, List.map_cons]

theorem fieldsToJson_eq_map (fields : List (String × FieldDecl)) :
    fieldsToJson fields = fields.map fun field => (field.1, field.2.toJson) := by
  induction fields with
  | nil => rfl
  | cons field rest ih =>
    obtain ⟨name, decl⟩ := field
    rw [fieldsToJson, ih, List.map_cons]

/-- A value is read as a declaration. -/
abbrev Decodes (value : Json) (decl : FieldDecl) : Prop :=
  ofJson value = some decl

theorem itemsOfJson_eq_some {values : List Json} {items : List FieldDecl} :
    itemsOfJson values = some items ↔ List.Forall₂ Decodes values items := by
  induction values generalizing items with
  | nil => simp [itemsOfJson, eq_comm]
  | cons value rest ih =>
    simp only [itemsOfJson, Option.bind_eq_bind, Option.bind_eq_some_iff, Option.pure_def,
      Option.some.injEq, List.forall₂_cons_left_iff, ih]
    constructor
    · rintro ⟨first, found, others, behind, rfl⟩
      exact ⟨first, others, found, behind, rfl⟩
    · rintro ⟨first, others, found, behind, rfl⟩
      exact ⟨first, found, others, behind, rfl⟩

theorem fieldsOfJson_eq_some {members : List (String × Json)} {fields : List (String × FieldDecl)} :
    fieldsOfJson members = some fields ↔ List.Forall₂ (Dict.Beside Decodes) members fields := by
  induction members generalizing fields with
  | nil => simp [fieldsOfJson, eq_comm]
  | cons member rest ih =>
    obtain ⟨name, value⟩ := member
    simp only [fieldsOfJson, Option.bind_eq_bind, Option.bind_eq_some_iff, Option.pure_def,
      Option.some.injEq, List.forall₂_cons_left_iff, ih]
    constructor
    · rintro ⟨first, found, others, behind, rfl⟩
      exact ⟨(name, first), others, ⟨rfl, found⟩, behind, rfl⟩
    · rintro ⟨⟨_, first⟩, others, ⟨⟨⟩, found⟩, behind, rfl⟩
      exact ⟨first, found, others, behind, rfl⟩

theorem special?_eq_some_iff {members : List (String × Json)} {decl : FieldDecl} :
    special? members = some decl ↔
      (∃ model, members = [("ref", .string model)] ∧ decl = .reference model) ∨
        ∃ schema, members = [("schema", .string schema)] ∧ decl = .embed schema := by
  constructor
  · intro found
    unfold special? at found
    split at found
    next model =>
      cases found
      exact .inl ⟨model, rfl, rfl⟩
    next schema =>
      cases found
      exact .inr ⟨schema, rfl, rfl⟩
    next => cases found
  · rintro (⟨model, rfl, rfl⟩ | ⟨schema, rfl, rfl⟩)
    · rfl
    · rfl

theorem ofJson_array {values : List Json} {decl : FieldDecl} :
    Decodes (.array values) decl ↔
      ∃ items, List.Forall₂ Decodes values items ∧ decl = .array items := by
  simp only [Decodes, ofJson, Option.bind_eq_bind, Option.bind_eq_some_iff, Option.pure_def,
    Option.some.injEq, itemsOfJson_eq_some, @eq_comm _ decl]

theorem ofJson_object {members : List (String × Json)} {decl : FieldDecl} :
    Decodes (.object members) decl ↔ special? members = some decl ∨
      special? members = none ∧
        ∃ fields, List.Forall₂ (Dict.Beside Decodes) members fields ∧
          decl = .object (Dict.ofList fields) := by
  rw [Decodes, ofJson]
  cases special? members with
  | some special => simp
  | none =>
    simp only [Option.bind_eq_bind, Option.bind_eq_some_iff, Option.pure_def, Option.some.injEq,
      fieldsOfJson_eq_some, reduceCtorEq, false_or, true_and, @eq_comm _ decl]

theorem ofJson_eq_scalar {value : Json} {type : String} (found : Decodes value (.scalar type)) :
    value = .string type := by
  cases value with
  | string text =>
    cases found
    rfl
  | null | bool | number => cases found
  | array values =>
    obtain ⟨items, _, other⟩ := ofJson_array.mp found
    cases other
  | object members =>
    rcases ofJson_object.mp found with special | ⟨_, fields, _, other⟩
    · rcases special?_eq_some_iff.mp special with ⟨_, _, other⟩ | ⟨_, _, other⟩
      · cases other
      · cases other
    · cases other

/-! ### What is read -/

/-- What an object stands for other than for itself has no objects in it. -/
theorem everyObject_special {property : Dict FieldDecl → Prop} {members : List (String × Json)}
    {decl : FieldDecl} (special : special? members = some decl) : EveryObject property decl := by
  rcases special?_eq_some_iff.mp special with ⟨model, _, rfl⟩ | ⟨schema, _, rfl⟩
  · exact everyObject_reference model
  · exact everyObject_embed schema

/-- What every object has from the members that it was read from, all objects in a declaration have.
Only members of something usable count, and what is inside of something usable is usable. -/
theorem everyObject_of_ofJson {property : Dict FieldDecl → Prop} (usable : Json → Prop)
    (items : ∀ values, usable (.array values) → ∀ value ∈ values, usable value)
    (members : ∀ members, usable (.object members) → ∀ member ∈ members, usable member.2)
    (own : ∀ members fields, usable (.object members) → special? members = none →
      List.Forall₂ (Dict.Beside Decodes) members fields → property (Dict.ofList fields))
    {value : Json} {decl : FieldDecl} (fit : usable value) (found : Decodes value decl) :
    EveryObject property decl := by
  induction value using Json.byParts generalizing decl with
  | null | bool | number => cases found
  | string type =>
    cases found
    exact everyObject_scalar type
  | array values ih =>
    obtain ⟨read, each, rfl⟩ := ofJson_array.mp found
    refine everyObject_array.mpr (forall_of_forall₂ each fun value inside item => ?_)
    exact ih value inside (items values fit value inside)
  | object values ih =>
    rcases ofJson_object.mp found with special | ⟨plain, fields, each, rfl⟩
    · exact everyObject_special special
    · have inner : ∀ field ∈ fields, EveryObject property field.2 := by
        refine forall_of_forall₂ each fun member inside field beside => ?_
        exact ih member inside (members values fit member inside) beside.2
      refine everyObject_object.mpr ⟨own values fields fit plain each, fun field stored => ?_⟩
      exact inner field (Dict.mem_of_mem_ofList stored)

theorem ordered_of_ofJson {value : Json} {decl : FieldDecl} (found : Decodes value decl) :
    Ordered decl :=
  everyObject_of_ofJson (fun _ => True) (fun _ _ _ _ => trivial) (fun _ _ _ _ => trivial)
    (fun _ fields _ _ _ => Dict.ascending_ofList fields) trivial found

/-- Members that are not special are read as fields that are not ambiguous, for nothing but a string
is read as a scalar type. With repeated keys the last of them might be. -/
theorem not_ambiguous_of_fields {members : List (String × Json)} {fields : Dict FieldDecl}
    (distinct : (members.map Prod.fst).Nodup) (plain : special? members = none)
    (each : List.Forall₂ (Dict.Beside Decodes) members fields) :
    ¬Ambiguous (Dict.ofList fields) := by
  have names : members.map Prod.fst = fields.map Prod.fst := Dict.keys_eq_of_forall₂ each
  -- Nothing is stored twice, so a single entry comes from a single member.
  have perm := Dict.ofList_perm (names ▸ distinct)
  have single : ∀ name type, Dict.ofList fields = [(name, .scalar type)] →
      members = [(name, .string type)] := by
    intro name type only
    rw [only, List.singleton_perm] at perm
    obtain ⟨⟨_, value⟩, _, ⟨⟨⟩, found⟩, rest, rfl⟩ :=
      List.forall₂_cons_right_iff.mp (perm ▸ each)
    have written : value = .string type := ofJson_eq_scalar found
    rw [List.forall₂_nil_right_iff.mp rest, written]
  rintro ⟨type, only | only⟩
  · rw [single _ _ only] at plain
    cases plain
  · rw [single _ _ only] at plain
    cases plain

theorem unambiguous_of_ofJson {value : Json} {decl : FieldDecl} (distinct : value.KeysDistinct)
    (found : Decodes value decl) : Unambiguous decl :=
  everyObject_of_ofJson Json.KeysDistinct (fun _ (.array each) => each)
    (fun _ (.object _ each) => each)
    (fun _ _ (.object distinct _) => not_ambiguous_of_fields distinct) distinct found

/-! ### What is written -/

theorem keysDistinct_toJson {decl : FieldDecl} (ordered : Ordered decl) :
    decl.toJson.KeysDistinct := by
  induction decl using byParts with
  | scalar type => exact .string type
  | array items ih =>
    rw [toJson, itemsToJson_eq_map]
    have each := everyObject_array.mp ordered
    exact .array (List.forall_mem_map.mpr fun item member => ih item member (each item member))
  | reference model =>
    exact .object (List.nodup_singleton _) (List.forall_mem_singleton.mpr (.string model))
  | embed schema =>
    exact .object (List.nodup_singleton _) (List.forall_mem_singleton.mpr (.string schema))
  | object fields ih =>
    obtain ⟨ascending, each⟩ := everyObject_object.mp ordered
    rw [toJson, fieldsToJson_eq_map]
    refine .object ?_ (List.forall_mem_map.mpr fun field member =>
      ih field member (each field member))
    rw [List.map_map]
    exact ascending.distinct

theorem exists_ofJson_toJson (decl : FieldDecl) : ∃ other, Decodes decl.toJson other := by
  induction decl using byParts with
  | scalar type => exact ⟨.scalar type, rfl⟩
  | reference model => exact ⟨.reference model, rfl⟩
  | embed schema => exact ⟨.embed schema, rfl⟩
  | array items ih =>
    rw [toJson, itemsToJson_eq_map]
    obtain ⟨others, each⟩ := exists_forall₂ ih
    exact ⟨.array others, ofJson_array.mpr ⟨others, List.forall₂_map_left_iff.mpr each, rfl⟩⟩
  | object fields ih =>
    cases plain : special? (fieldsToJson fields) with
    | some special => exact ⟨special, ofJson_object.mpr (.inl plain)⟩
    | none =>
      obtain ⟨others, each⟩ : ∃ others,
          List.Forall₂ (Dict.Beside fun (decl : FieldDecl) => Decodes decl.toJson) fields others :=
        Dict.exists_beside ih
      refine ⟨.object (Dict.ofList others), ofJson_object.mpr (.inr ⟨plain, others, ?_, rfl⟩)⟩
      rw [fieldsToJson_eq_map]
      exact List.forall₂_map_left_iff.mpr each

theorem special?_fieldsToJson {fields : Dict FieldDecl} (unambiguous : ¬Ambiguous fields) :
    special? (fieldsToJson fields) = none := by
  -- Only scalar types are written as strings.
  have single : ∀ name type, fieldsToJson fields = [(name, .string type)] →
      fields = [(name, .scalar type)] := by
    intro name type only
    rw [fieldsToJson_eq_map, List.map_eq_singleton_iff] at only
    obtain ⟨⟨_, decl⟩, rfl, written⟩ := only
    cases decl <;> cases written
    rfl
  rw [Option.eq_none_iff_forall_ne_some]
  intro decl special
  rcases special?_eq_some_iff.mp special with ⟨model, only, _⟩ | ⟨schema, only, _⟩
  · exact unambiguous ⟨model, .inl (single _ _ only)⟩
  · exact unambiguous ⟨schema, .inr (single _ _ only)⟩

theorem ofJson_toJson {decl : FieldDecl} (ordered : Ordered decl)
    (unambiguous : Unambiguous decl) : Decodes decl.toJson decl := by
  induction decl using byParts with
  | scalar | reference | embed => rfl
  | array items ih =>
    have ordered := everyObject_array.mp ordered
    have unambiguous := everyObject_array.mp unambiguous
    rw [toJson, itemsToJson_eq_map]
    refine ofJson_array.mpr ⟨items, List.forall₂_map_left_iff.mpr (List.forall₂_same.mpr ?_), rfl⟩
    exact fun item member => ih item member (ordered item member) (unambiguous item member)
  | object fields ih =>
    obtain ⟨ascending, ordered⟩ := everyObject_object.mp ordered
    obtain ⟨own, unambiguous⟩ := everyObject_object.mp unambiguous
    refine ofJson_object.mpr (.inr ⟨special?_fieldsToJson own, fields, ?_, ?_⟩)
    · rw [fieldsToJson_eq_map]
      refine List.forall₂_map_left_iff.mpr (List.forall₂_same.mpr fun field member => ⟨rfl, ?_⟩)
      exact ih field member (ordered field member) (unambiguous field member)
    · rw [ascending.ofList_eq]

/-- A declaration is read as it was written if it has no ambiguous object in it, and only then. -/
theorem ofJson_toJson_iff (decl : FieldDecl) :
    Decodes decl.toJson decl ↔ Ordered decl ∧ Unambiguous decl := by
  constructor
  · -- What comes back was read, so that it is ordered, and then no key was written twice.
    intro found
    have ordered := ordered_of_ofJson found
    exact ⟨ordered, unambiguous_of_ofJson (keysDistinct_toJson ordered) found⟩
  · exact fun ⟨ordered, unambiguous⟩ => ofJson_toJson ordered unambiguous

/-- An object with an ambiguous shape is read as a reference. -/
example : ofJson (toJson (.object [("ref", .scalar "string")])) = some (.reference "string") := rfl

end SelectionPlan.FieldDecl
