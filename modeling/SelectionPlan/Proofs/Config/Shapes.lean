import SelectionPlan.Proofs.Config.Fields

/-!
# Which values declare a field

A value declares a field just if every leaf of it is a string, and what it declares shows from its
shape. The kinds of declarations may as well be tried one after the other: a record with one field
could be written as an array of one string, but such an array declares an array before that.
-/
namespace SelectionPlan

namespace Json

/-- A part of a value that has no parts itself. -/
inductive Leaf : Json → Json → Prop
  | self {leaf : Json} : (∀ items, leaf ≠ .array items) → (∀ members, leaf ≠ .object members) →
    Leaf leaf leaf
  | item {leaf item : Json} {items : List Json} :
    item ∈ items → Leaf leaf item → Leaf leaf (.array items)
  | member {leaf : Json} {member : String × Json} {members : List (String × Json)} :
    member ∈ members → Leaf leaf member.2 → Leaf leaf (.object members)

/-- Every leaf of a value is a string. -/
def Textual (value : Json) : Prop :=
  ∀ leaf, Leaf leaf value → ∃ text, leaf = .string text

theorem textual_string (text : String) : Textual (.string text) := by
  intro leaf found
  cases found with
  | self => exact ⟨text, rfl⟩

theorem textual_array {items : List Json} :
    Textual (.array items) ↔ ∀ item ∈ items, Textual item := by
  constructor
  · exact fun textual item inside leaf found => textual leaf (.item inside found)
  · intro each leaf found
    cases found with
    | self single => exact absurd rfl (single items)
    | item inside found => exact each _ inside leaf found

theorem textual_object {members : List (String × Json)} :
    Textual (.object members) ↔ ∀ member ∈ members, Textual member.2 := by
  constructor
  · exact fun textual member inside leaf found => textual leaf (.member inside found)
  · intro each leaf found
    cases found with
    | self _ single => exact absurd rfl (single members)
    | member inside found => exact each _ inside leaf found

end Json

namespace FieldDecl

/-! ### The values that are read -/

theorem textual_of_special {members : List (String × Json)} {decl : FieldDecl}
    (special : special? members = some decl) : ∀ member ∈ members, member.2.Textual := by
  rcases special?_eq_some_iff.mp special with ⟨text, rfl, -⟩ | ⟨text, rfl, -⟩
  · exact List.forall_mem_singleton.mpr (Json.textual_string text)
  · exact List.forall_mem_singleton.mpr (Json.textual_string text)

theorem exists_ofJson_iff (value : Json) : (∃ decl, Decodes value decl) ↔ value.Textual := by
  induction value using Json.byParts with
  | null | bool | number =>
    refine ⟨nofun, fun textual => ?_⟩
    obtain ⟨text, other⟩ := textual _ (.self nofun nofun)
    cases other
  | string text => exact ⟨fun _ => Json.textual_string text, fun _ => ⟨.scalar text, rfl⟩⟩
  | array values ih =>
    rw [Json.textual_array]
    constructor
    · rintro ⟨_, found⟩ value inside
      obtain ⟨items, each, rfl⟩ := ofJson_array.mp found
      obtain ⟨item, -, decoded⟩ := exists_of_forall₂ each value inside
      exact (ih value inside).mp ⟨item, decoded⟩
    · intro each
      obtain ⟨items, found⟩ :=
        exists_forall₂ fun value inside => (ih value inside).mpr (each value inside)
      exact ⟨.array items, ofJson_array.mpr ⟨items, found, rfl⟩⟩
  | object members ih =>
    rw [Json.textual_object]
    constructor
    · rintro ⟨_, found⟩
      rcases ofJson_object.mp found with special | ⟨-, fields, each, -⟩
      · -- The parts of a special object are not declarations, but its one member is a string.
        exact textual_of_special special
      · intro member inside
        obtain ⟨field, -, -, decoded⟩ := exists_of_forall₂ each member inside
        exact (ih member inside).mp ⟨field.2, decoded⟩
    · intro each
      cases plain : special? members with
      | some special => exact ⟨special, ofJson_object.mpr (.inl plain)⟩
      | none =>
        obtain ⟨fields, found⟩ :=
          Dict.exists_beside fun member inside => (ih member inside).mpr (each member inside)
        exact ⟨_, ofJson_object.mpr (.inr ⟨plain, fields, found, rfl⟩)⟩

/-! ### What they are read as -/

/-- What a value declares, told from its shape. The fields of an object are those of the value in
ascending order. -/
inductive Declares : Json → FieldDecl → Prop
  | scalar (type : String) : Declares (.string type) (.scalar type)
  | array {values : List Json} {items : List FieldDecl} : values.length = items.length →
    (∀ pair ∈ values.zip items, Declares pair.1 pair.2) → Declares (.array values) (.array items)
  | reference (model : String) : Declares (.object [("ref", .string model)]) (.reference model)
  | embed (schema : String) : Declares (.object [("schema", .string schema)]) (.embed schema)
  | object {members : List (String × Json)} {fields : Dict FieldDecl} :
    (∀ text, members ≠ [("ref", .string text)]) → (∀ text, members ≠ [("schema", .string text)]) →
    fields.Ascending → fields.keys.Perm (members.map Prod.fst) →
    (∀ member ∈ members, ∀ field ∈ fields, member.1 = field.1 → Declares member.2 field.2) →
      Declares (.object members) (.object fields)

theorem special?_eq_none_iff {members : List (String × Json)} :
    special? members = none ↔ (∀ text, members ≠ [("ref", .string text)]) ∧
      ∀ text, members ≠ [("schema", .string text)] := by
  rw [Option.eq_none_iff_forall_ne_some]
  constructor
  · intro plain
    constructor
    · exact fun text only => plain _ (special?_eq_some_iff.mpr (.inl ⟨text, only, rfl⟩))
    · exact fun text only => plain _ (special?_eq_some_iff.mpr (.inr ⟨text, only, rfl⟩))
  · rintro ⟨noRef, noSchema⟩ decl special
    rcases special?_eq_some_iff.mp special with ⟨text, only, -⟩ | ⟨text, only, -⟩
    · exact noRef text only
    · exact noSchema text only

theorem declares_of_fields {members : List (String × Json)} {fields : List (String × FieldDecl)}
    (distinct : (members.map Prod.fst).Nodup) (plain : special? members = none)
    (each : List.Forall₂ (Dict.Beside Decodes) members fields)
    (inner : ∀ member ∈ members, ∀ decl, Decodes member.2 decl → Declares member.2 decl) :
    Declares (.object members) (.object (Dict.ofList fields)) := by
  obtain ⟨noRef, noSchema⟩ := special?_eq_none_iff.mp plain
  have names : members.map Prod.fst = fields.map Prod.fst := Dict.keys_eq_of_forall₂ each
  have perm := Dict.ofList_perm (names ▸ distinct)
  refine .object noRef noSchema (Dict.ascending_ofList fields) ?_ ?_
  · rw [names]
    exact perm.map Prod.fst
  · intro member inside field stored same
    obtain ⟨other, inside', named, decoded⟩ := exists_of_forall₂ each member inside
    -- No two fields have the name of the member.
    have only : other = field :=
      List.inj_on_of_nodup_map (names ▸ distinct) inside' (perm.mem_iff.mp stored)
        (named.symm.trans same)
    exact inner member inside field.2 (only ▸ decoded)

theorem ofJson_of_fields {members : List (String × Json)} {fields : Dict FieldDecl}
    (plain : special? members = none) (ascending : fields.Ascending)
    (names : fields.keys.Perm (members.map Prod.fst))
    (each : ∀ member ∈ members, ∀ field ∈ fields, member.1 = field.1 →
      Decodes member.2 field.2) : Decodes (.object members) (.object fields) := by
  have beside : ∀ member ∈ members, ∃ field : String × FieldDecl,
      field ∈ fields ∧ Dict.Beside Decodes member field := by
    intro member inside
    have named := names.mem_iff.mpr (List.mem_map_of_mem inside)
    obtain ⟨field, stored, same⟩ := List.mem_map.mp named
    exact ⟨field, stored, same.symm, each member inside field stored same.symm⟩
  obtain ⟨entries, found⟩ := exists_forall₂ beside
  have decoded : List.Forall₂ (Dict.Beside Decodes) members entries :=
    found.imp fun _ _ both => both.2
  -- With as many entries as fields, all of them different, these are the same in some order.
  have keys : members.map Prod.fst = entries.map Prod.fst := Dict.keys_eq_of_forall₂ decoded
  have distinct : (entries.map Prod.fst).Nodup :=
    keys ▸ names.nodup_iff.mp ascending.distinct
  have stored : entries ⊆ fields :=
    fun entry inside => forall_of_forall₂ found (fun _ _ _ both => both.1) entry inside
  have size : fields.length ≤ entries.length := by
    simpa [keys, Dict.keys] using Nat.le_of_eq names.length_eq
  have perm : entries.Perm fields :=
    (List.subperm_of_subset (.of_map _ distinct) stored).perm_of_length_le size
  have filled : Dict.ofList entries = fields :=
    (Dict.insertAll_of_perm perm distinct []).trans ascending.ofList_eq
  exact ofJson_object.mpr (.inr ⟨plain, entries, decoded, by rw [filled]⟩)

theorem ofJson_eq_some_iff_declares {value : Json} (distinct : value.KeysDistinct)
    (decl : FieldDecl) : Decodes value decl ↔ Declares value decl := by
  induction distinct generalizing decl with
  | null | bool | number => exact ⟨nofun, nofun⟩
  | string text =>
    constructor
    · rintro ⟨⟩
      exact .scalar text
    · rintro ⟨⟩
      rfl
  | @array values _ ih =>
    rw [ofJson_array]
    constructor
    · rintro ⟨items, each, rfl⟩
      obtain ⟨same, each⟩ := List.forall₂_iff_zip.mp each
      exact .array same fun pair inside =>
        (ih pair.1 (List.of_mem_zip inside).1 pair.2).mp (each inside)
    · intro declares
      cases declares with
      | @array _ items same each =>
        refine ⟨items, List.forall₂_iff_zip.mpr ⟨same, fun {value item} inside => ?_⟩, rfl⟩
        exact (ih value (List.of_mem_zip inside).1 item).mpr (each _ inside)
  | @object members distinct _ ih =>
    constructor
    · intro found
      rcases ofJson_object.mp found with special | ⟨plain, fields, each, rfl⟩
      · rcases special?_eq_some_iff.mp special with ⟨model, rfl, rfl⟩ | ⟨schema, rfl, rfl⟩
        · exact .reference model
        · exact .embed schema
      · exact declares_of_fields distinct plain each fun member inside decl =>
          (ih member inside decl).mp
    · intro declares
      cases declares with
      | reference | embed => rfl
      | object noRef noSchema ascending names each =>
        refine ofJson_of_fields (special?_eq_none_iff.mpr ⟨noRef, noSchema⟩) ascending names ?_
        exact fun member inside field stored same =>
          (ih member inside field.2).mpr (each member inside field stored same)

/-! ### One kind after the other -/

/-- The string of a record that has one field and no others, from members that come after some of
them were seen. -/
def loneMember (name : String) : Option String → List (String × Json) → Option String
  | seen, [] => seen
  | none, (key, .string value) :: rest =>
    if key = name then loneMember name (some value) rest else none
  | _, _ => none

/-- The string of a record with one field, written as an object or as an array. -/
def loneField (name : String) : Json → Option String
  | .object members => loneMember name none members
  | .array [.string value] => some value
  | _ => none

/-- The kinds of declarations in the order in which they are tried, with `read` for their parts. -/
def kinds (read : Json → Option FieldDecl) : List (Json → Option FieldDecl) :=
  [fun value =>
      match value with
      | .string type => some (.scalar type)
      | _ => none,
    fun value =>
      match value with
      | .array values => (values.mapM read).map .array
      | _ => none,
    fun value => (loneField "ref" value).map .reference,
    fun value => (loneField "schema" value).map .embed,
    fun value =>
      match value with
      | .object members =>
        (members.mapM fun member => (read member.2).map (member.1, ·)).map
          (.object ∘ Dict.ofList)
      | _ => none]

theorem itemsOfJson_eq_mapM (values : List Json) : itemsOfJson values = values.mapM ofJson := by
  induction values with
  | nil => rfl
  | cons value rest ih => rw [itemsOfJson, ih, List.mapM_cons]

theorem fieldsOfJson_eq_mapM (members : List (String × Json)) :
    fieldsOfJson members = members.mapM fun member => (ofJson member.2).map (member.1, ·) := by
  induction members with
  | nil => rfl
  | cons member rest ih =>
    obtain ⟨name, value⟩ := member
    rw [fieldsOfJson, ih, List.mapM_cons]
    cases ofJson value with
    | none => rfl
    | some decl => rfl

theorem loneField_object {name text : String} {members : List (String × Json)} :
    loneField name (.object members) = some text ↔ members = [(name, .string text)] := by
  rw [loneField]
  constructor
  · intro found
    rcases members with _ | ⟨⟨key, value⟩, rest⟩
    · cases found
    · cases value with
      | string value =>
        rw [loneMember] at found
        split at found
        next same =>
          -- Another member would be refused, whatever its key.
          cases rest with
          | nil =>
            cases found
            rw [same]
          | cons => simp [loneMember] at found
        next => cases found
      | null | bool | number | array | object => cases found
  · rintro rfl
    simp [loneMember]

/-- What is no array of declarations is no array of one string either. -/
theorem loneField_array {values : List Json} (refused : itemsOfJson values = none) (name : String) :
    loneField name (.array values) = none := by
  unfold loneField
  split
  next inside => cases inside
  next value inside =>
    cases inside
    cases refused
  next => rfl

/-- A declaration is read by the first kind that reads the value. -/
theorem ofJson_eq_firstKind (value : Json) :
    ofJson value = (kinds ofJson).findSome? fun kind => kind value := by
  cases value with
  | null | bool | number | string => rfl
  | array values =>
    simp only [kinds, List.findSome?_cons, List.findSome?_nil, ← itemsOfJson_eq_mapM, ofJson]
    cases read : itemsOfJson values with
    | some items => rfl
    | none =>
      -- Records with one field are tried next, and none is written as such an array.
      rw [loneField_array read, loneField_array read]
      rfl
  | object members =>
    cases special : special? members with
    | some decl =>
      rcases special?_eq_some_iff.mp special with ⟨model, rfl, rfl⟩ | ⟨schema, rfl, rfl⟩
      · rfl
      · rfl
    | none =>
      obtain ⟨noRef, noSchema⟩ := special?_eq_none_iff.mp special
      have noReference : loneField "ref" (.object members) = none :=
        Option.eq_none_iff_forall_ne_some.mpr fun text found =>
          noRef text (loneField_object.mp found)
      have noEmbedding : loneField "schema" (.object members) = none :=
        Option.eq_none_iff_forall_ne_some.mpr fun text found =>
          noSchema text (loneField_object.mp found)
      simp only [kinds, List.findSome?_cons, List.findSome?_nil, noReference, noEmbedding, ofJson,
        special, fieldsOfJson_eq_mapM]
      cases members.mapM fun member => (ofJson member.2).map (member.1, ·) with
      | none => rfl
      | some fields => rfl

/-- A value without repeated keys declares a field just if every leaf of it is a string, and it
declares what its shape says. That is what comes out if the kinds of declarations are tried one
after the other. -/
theorem ofJson_exact {value : Json} (distinct : value.KeysDistinct) :
    ((∃ decl, ofJson value = some decl) ↔ value.Textual) ∧
      (∀ decl, ofJson value = some decl ↔ Declares value decl) ∧
      ofJson value = (kinds ofJson).findSome? fun kind => kind value :=
  ⟨exists_ofJson_iff value, ofJson_eq_some_iff_declares distinct, ofJson_eq_firstKind value⟩

theorem ofJson_exact_ref :
    let tags : Json := .array [.object [("ref", .string "Tag")], .array []]
    let value : Json :=
      .object [("ref", .object [("tags", tags)]), ("home", .object [("schema", .string "Address")])]
    let decl : FieldDecl :=
      .object [("home", .embed "Address"),
        ("ref", .object [("tags", .array [.reference "Tag", .array []])])]
    value.KeysDistinct ∧ value.Textual ∧ Declares value decl := by
  intro tags value decl
  have lone {key : String} {value : Json} (distinct : value.KeysDistinct) :
      (Json.object [(key, value)]).KeysDistinct :=
    .object (List.nodup_singleton _) (List.forall_mem_singleton.mpr distinct)
  have tagsDistinct : tags.KeysDistinct := by
    refine .array (List.forall_mem_cons.mpr ⟨lone (.string "Tag"), ?_⟩)
    exact List.forall_mem_singleton.mpr (.array (List.forall_mem_nil _))
  have distinct : value.KeysDistinct := by
    refine .object (by decide) (List.forall_mem_cons.mpr ⟨lone tagsDistinct, ?_⟩)
    exact List.forall_mem_singleton.mpr (lone (.string "Address"))
  have read : ofJson value = some decl := by
    simp only [value, tags, decl]
    rfl
  have shape := ofJson_exact distinct
  exact ⟨distinct, shape.1.mp ⟨decl, read⟩, (shape.2.1 decl).mp read⟩

end FieldDecl

end SelectionPlan
