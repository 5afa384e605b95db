import Mathlib
import SelectionPlan.Config.Compile
import SelectionPlan.Proofs.Config.Fields
import SelectionPlan.Proofs.Json.Readers

/-!
# Reading configurations that were written

A configuration that was read from a text without repeated keys is the same after it was written and
read again, whatever is left out of the text and in whatever order.
-/
namespace SelectionPlan

open Json (Draft)
open Json.Draft (Ensures Keeps Reads reads_asBool reads_asString reads_list reads_map reads_record)

/-! ### Fields -/

namespace FieldDecl

/-- A declaration that is read as it was written. -/
def Faithful (decl : FieldDecl) : Prop :=
  decl.Ordered ∧ decl.Unambiguous

theorem ensures_ofDraft : Ensures ofDraft Faithful := by
  intro draft decl distinct found
  obtain ⟨value, whole, found⟩ := Json.bind_eq_ok.mp found
  split at found
  next decl' decoded =>
    cases found
    exact ⟨ordered_of_ofJson decoded, unambiguous_of_ofJson (distinct.complete whole) decoded⟩
  next => cases found

theorem Faithful.reads {decl : FieldDecl} (faithful : decl.Faithful) :
    Reads ofDraft decl.toJson decl := by
  intro draft whole
  have decoded : ofJson decl.toJson = some decl := ofJson_toJson faithful.1 faithful.2
  rw [ofDraft, whole]
  dsimp only [bind, Except.bind]
  rw [decoded]
  rfl

end FieldDecl

/-! ### Models -/

namespace ModelDecl

/-- A declaration of a model that is read as it was written. -/
structure Faithful (decl : ModelDecl) : Prop where
  fields : decl.fields.Ascending
  virtuals : decl.virtuals.Ascending
  each : ∀ field ∈ decl.fields, field.2.Faithful

theorem keeps_readField : Keeps readField Faithful := by
  intro name draft decl next distinct faithful found
  rw [readField] at found
  split at found
  next =>
    obtain ⟨own, _, ⟨⟩⟩ := Json.bind_eq_ok.mp found
    exact ⟨faithful.fields, faithful.virtuals, faithful.each⟩
  next =>
    split at found
    next =>
      obtain ⟨fields, read, ⟨⟩⟩ := Json.bind_eq_ok.mp found
      have each := FieldDecl.ensures_ofDraft.asMap distinct read
      exact ⟨Dict.ascending_ofList fields, faithful.virtuals,
        fun field member => each field (Dict.mem_of_mem_ofList member)⟩
    next =>
      obtain ⟨virtuals, _, ⟨⟩⟩ := Json.bind_eq_ok.mp found
      exact ⟨faithful.fields, Dict.ascending_ofList virtuals, faithful.each⟩

theorem ensures_ofDraft : Ensures ofDraft Faithful :=
  keeps_readField.record ⟨Dict.ascending_nil, Dict.ascending_nil, List.forall_mem_nil _⟩

theorem reads_relation (model : String) : Reads relationOfDraft (relationToJson model) model := by
  refine reads_record (.cons ?_ .nil) rfl (by decide)
  exact reads_asString model

theorem reads_fields {fields : Dict FieldDecl} (each : ∀ field ∈ fields, field.2.Faithful) :
    Reads (Draft.asMap FieldDecl.ofDraft) (.object (FieldDecl.fieldsToJson fields)) fields := by
  rw [FieldDecl.fieldsToJson_eq_map]
  exact reads_map fun field member => (each field member).reads

theorem reads_virtuals (virtuals : Dict String) :
    Reads (Draft.asMap relationOfDraft)
      (.object (virtuals.map fun entry => (entry.1, relationToJson entry.2))) virtuals :=
  reads_map fun entry _ => reads_relation entry.2

theorem Faithful.reads {decl : ModelDecl} (faithful : decl.Faithful) :
    Reads ofDraft decl.toJson decl := by
  -- Each field is stored in its place, whatever the record holds so far.
  have readName (start : ModelDecl) :
      Reads (readField "name" · start) (.string decl.name) { start with name := decl.name } := by
    intro draft whole
    change readField "name" draft start = _
    rw [readField, if_pos rfl, reads_asString _ draft whole]
    rfl
  have readFields (start : ModelDecl) :
      Reads (readField "fields" · start) (.object (FieldDecl.fieldsToJson decl.fields))
        { start with fields := decl.fields } := by
    intro draft whole
    change readField "fields" draft start = _
    rw [readField, if_neg (by decide), if_pos rfl, reads_fields faithful.each draft whole]
    exact congrArg (fun fields => Except.ok { start with fields }) faithful.fields.ofList_eq
  have readVirtuals (start : ModelDecl) :
      Reads (readField "virtuals" · start)
        (.object (decl.virtuals.map fun entry => (entry.1, relationToJson entry.2)))
        { start with virtuals := decl.virtuals } := by
    intro draft whole
    change readField "virtuals" draft start = _
    rw [readField, if_neg (by decide), if_neg (by decide), reads_virtuals _ draft whole]
    exact congrArg (fun virtuals => Except.ok { start with virtuals }) faithful.virtuals.ofList_eq
  exact reads_record (.cons (readName _) (.cons (readFields _) (.cons (readVirtuals _) .nil))) rfl
    (by decide)

end ModelDecl

/-! ### Configurations -/

namespace ConfigOptions

theorem reads (options : ConfigOptions) : Reads ofDraft options.toJson options := by
  refine reads_record (.cons ?_ .nil) rfl (by decide)
  intro draft whole
  change (do return (⟨← draft.asBool⟩ : ConfigOptions)) = _
  rw [reads_asBool _ draft whole]
  rfl

end ConfigOptions

namespace Config

/-- A configuration that is read as it was written. -/
structure Faithful (config : Config) : Prop where
  models : ∀ decl ∈ config.models, decl.Faithful
  schemas : ∀ decl ∈ config.schemas, decl.Faithful

theorem keeps_readField : Keeps readField Faithful := by
  intro name draft config next distinct faithful found
  rw [readField] at found
  split at found
  next =>
    obtain ⟨models, read, ⟨⟩⟩ := Json.bind_eq_ok.mp found
    exact ⟨ModelDecl.ensures_ofDraft.asList distinct read, faithful.schemas⟩
  next =>
    split at found
    next =>
      obtain ⟨schemas, read, ⟨⟩⟩ := Json.bind_eq_ok.mp found
      exact ⟨faithful.models, ModelDecl.ensures_ofDraft.asList distinct read⟩
    next =>
      obtain ⟨options, _, ⟨⟩⟩ := Json.bind_eq_ok.mp found
      exact ⟨faithful.models, faithful.schemas⟩

theorem ensures_ofDraft : Ensures ofDraft Faithful :=
  keeps_readField.record ⟨List.forall_mem_nil _, List.forall_mem_nil _⟩

theorem Faithful.reads {config : Config} (faithful : config.Faithful) :
    Reads ofDraft config.toJson config := by
  have readModels (start : Config) :
      Reads (readField "models" · start) (.array (config.models.map ModelDecl.toJson))
        { start with models := config.models } := by
    intro draft whole
    change readField "models" draft start = _
    have models := reads_list fun decl member => (faithful.models decl member).reads
    rw [readField, if_pos rfl, models draft whole]
    rfl
  have readSchemas (start : Config) :
      Reads (readField "schemas" · start) (.array (config.schemas.map ModelDecl.toJson))
        { start with schemas := config.schemas } := by
    intro draft whole
    change readField "schemas" draft start = _
    have schemas := reads_list fun decl member => (faithful.schemas decl member).reads
    rw [readField, if_neg (by decide), if_pos rfl, schemas draft whole]
    rfl
  have readOptions (start : Config) :
      Reads (readField "options" · start) config.options.toJson
        { start with options := config.options } := by
    intro draft whole
    change readField "options" draft start = _
    rw [readField, if_neg (by decide), if_neg (by decide), config.options.reads draft whole]
    rfl
  exact reads_record (.cons (readModels _) (.cons (readSchemas _) (.cons (readOptions _) .nil))) rfl
    (by decide)

/-- Every field declaration can be read after it was written, and it is the same unless one of its
objects looks like a reference or an embedded schema. Nothing that is read from JSON without
repeated keys has such an object. So every configuration that is read from a text without repeated
keys is the same, and builds the same models or fails in the same way, after it was written and read
again. -/
theorem survives_writing :
    (∀ decl : FieldDecl, (∃ other, FieldDecl.ofJson decl.toJson = some other) ∧
      (FieldDecl.ofJson decl.toJson = some decl ↔ decl.Ordered ∧ decl.Unambiguous)) ∧
    (∀ (value : Json) (decl : FieldDecl), value.KeysDistinct →
      FieldDecl.ofJson value = some decl → decl.Ordered ∧ decl.Unambiguous) ∧
    ∀ (text : String) (config : Config), (Draft.ofText Draft.maxDepth text).1.KeysDistinct →
      ofJsonText text = .ok config →
        ofDraft (Draft.ofJson config.toJson) = .ok config ∧
        ∀ again, Draft.decodeText Draft.maxDepth Draft.complete again = .ok config.toJson →
          ofJsonText again = .ok config ∧
            (ofJsonText again).map Config.build = (ofJsonText text).map Config.build := by
  refine ⟨?fields, ?values, ?texts⟩
  case fields =>
    exact fun decl => ⟨FieldDecl.exists_ofJson_toJson decl, FieldDecl.ofJson_toJson_iff decl⟩
  case values =>
    intro value decl distinct decoded
    exact ⟨FieldDecl.ordered_of_ofJson decoded, FieldDecl.unambiguous_of_ofJson distinct decoded⟩
  case texts =>
    intro text config distinct loaded
    obtain ⟨found, _⟩ := Json.Draft.decodeText_eq_ok_iff.mp loaded
    have reads : Reads ofDraft config.toJson config := (ensures_ofDraft distinct found).reads
    refine ⟨reads _ (Json.Draft.complete_ofJson _), fun again whole => ?_⟩
    have same : ofJsonText again = .ok config := reads.decodeText whole
    exact ⟨same, by rw [same, loaded]⟩

set_option maxRecDepth 4000 in
theorem survives_writing_post :
    let home : FieldDecl := .object [("ref", .scalar "String"), ("zip", .scalar "String")]
    let place : Json := .object [("zip", .string "String"), ("ref", .string "String")]
    let config : Config :=
      ⟨[⟨"Post", [("home", home), ("owner", .reference "User")], []⟩], [], {}⟩
    let text :=
      "\x7b\"models\": [\x7b\"fields\": \x7b\"owner\": \x7b\"ref\": \"User\"\x7d, " ++
      "\"home\": \x7b\"zip\": \"String\", \"ref\": \"String\"\x7d\x7d, \"name\": \"Post\"\x7d]\x7d"
    let again :=
      "\x7b\"models\":[\x7b\"name\":\"Post\",\"fields\":\x7b\"home\":\x7b\"ref\":\"String\"," ++
      "\"zip\":\"String\"\x7d,\"owner\":\x7b\"ref\":\"User\"\x7d\x7d,\"virtuals\":\x7b\x7d\x7d]," ++
      "\"schemas\":[],\"options\":\x7b\"document_keys\":true\x7d\x7d"
    (place.KeysDistinct ∧ FieldDecl.ofJson place = some home ∧
      home.Ordered ∧ home.Unambiguous ∧ FieldDecl.ofJson home.toJson = some home) ∧
    (Draft.ofText Draft.maxDepth text).1.KeysDistinct ∧ ofJsonText text = .ok config ∧
      ofDraft (Draft.ofJson config.toJson) = .ok config ∧
      Draft.decodeText Draft.maxDepth Draft.complete again = .ok config.toJson ∧
      ofJsonText again = .ok config ∧
      (ofJsonText again).map Config.build = (ofJsonText text).map Config.build := by
  intro home place config text again
  have placeDistinct : place.KeysDistinct := by
    refine .object (by decide) (List.forall_mem_cons.mpr ⟨.string "String", ?_⟩)
    exact List.forall_mem_singleton.mpr (.string "String")
  have decoded : FieldDecl.ofJson place = some home := by
    simp only [place, home]
    cbv
  have distinct : (Draft.ofText Draft.maxDepth text).1.KeysDistinct := by
    simp only [text]
    cbv
    simp
  have loaded : ofJsonText text = .ok config := by
    simp only [text, config, home]
    cbv
  have written : Draft.decodeText Draft.maxDepth Draft.complete again = .ok config.toJson := by
    simp only [again, config, home]
    cbv
  obtain ⟨fields, values, texts⟩ := survives_writing
  have faithful := values place home placeDistinct decoded
  obtain ⟨same, again'⟩ := texts text config distinct loaded
  exact ⟨⟨placeDistinct, decoded, faithful.1, faithful.2, (fields home).2.mpr faithful⟩,
    distinct, loaded, same, written, again' again written⟩

end Config

end SelectionPlan
