import SelectionPlan.Config.Basic
import SelectionPlan.Json.Draft.Record
import SelectionPlan.Json.Parser

/-!
# Configurations as JSON

A field declaration is told from its shape: a string is a scalar type, an array an array, an object
with the only member `ref` or `schema` and a string in it a reference or an embedded schema, and
every other object a plain object. It is read completely before its shape is looked at.
-/
namespace SelectionPlan

open Json (Draft Fault)

namespace FieldDecl

mutual

def toJson : FieldDecl → Json
  | .scalar type => .string type
  | .array items => .array (itemsToJson items)
  | .reference model => .object [("ref", .string model)]
  | .embed schema => .object [("schema", .string schema)]
  | .object fields => .object (fieldsToJson fields)

def itemsToJson : List FieldDecl → List Json
  | [] => []
  | item :: rest => toJson item :: itemsToJson rest

def fieldsToJson : List (String × FieldDecl) → List (String × Json)
  | [] => []
  | (name, decl) :: rest => (name, toJson decl) :: fieldsToJson rest

end

/-- The declaration that an object with a single member of a certain name and kind stands for. -/
def special? : List (String × Json) → Option FieldDecl
  | [("ref", .string model)] => some (.reference model)
  | [("schema", .string schema)] => some (.embed schema)
  | _ => none

mutual

def ofJson : Json → Option FieldDecl
  | .string type => some (.scalar type)
  | .array items => do return .array (← itemsOfJson items)
  | .object members =>
    match special? members with
    | some decl => some decl
    | none => do return .object (Dict.ofList (← fieldsOfJson members))
  | _ => none

def itemsOfJson : List Json → Option (List FieldDecl)
  | [] => some []
  | item :: rest => do
    let first ← ofJson item
    let others ← itemsOfJson rest
    return first :: others

def fieldsOfJson : List (String × Json) → Option (List (String × FieldDecl))
  | [] => some []
  | (name, value) :: rest => do
    let first ← ofJson value
    let others ← fieldsOfJson rest
    return (name, first) :: others

end

def ofDraft (draft : Draft) : Except Fault FieldDecl := do
  match ofJson (← draft.complete) with
  | some decl => return decl
  | none => throw (.mismatch (.noVariant "FieldDecl") (Draft.leaveObject draft.after))

end FieldDecl

namespace ModelDecl

def relationToJson (model : String) : Json :=
  .object [("ref", .string model)]

def relationOfDraft : Draft → Except Fault String :=
  Draft.record relationShape (fun _ draft _ => draft.asString) ""

def toJson (decl : ModelDecl) : Json :=
  .object [("name", .string decl.name),
    ("fields", .object (FieldDecl.fieldsToJson decl.fields)),
    ("virtuals", .object (decl.virtuals.map fun entry => (entry.1, relationToJson entry.2)))]

def readField (name : String) (draft : Draft) (decl : ModelDecl) : Except Fault ModelDecl :=
  if name = "name" then do
    return { decl with name := ← draft.asString }
  else if name = "fields" then do
    return { decl with fields := Dict.ofList (← draft.asMap FieldDecl.ofDraft) }
  else do
    return { decl with virtuals := Dict.ofList (← draft.asMap relationOfDraft) }

def ofDraft : Draft → Except Fault ModelDecl :=
  Draft.record shape readField ⟨"", [], []⟩

end ModelDecl

namespace ConfigOptions

def toJson (options : ConfigOptions) : Json :=
  .object [("document_keys", .bool options.documentKeys)]

def ofDraft : Draft → Except Fault ConfigOptions :=
  Draft.record shape (fun _ draft _ => do return ⟨← draft.asBool⟩) {}

end ConfigOptions

namespace Config

def toJson (config : Config) : Json :=
  .object [("models", .array (config.models.map ModelDecl.toJson)),
    ("schemas", .array (config.schemas.map ModelDecl.toJson)),
    ("options", config.options.toJson)]

def readField (name : String) (draft : Draft) (config : Config) : Except Fault Config :=
  if name = "models" then do
    return { config with models := ← draft.asList ModelDecl.ofDraft }
  else if name = "schemas" then do
    return { config with schemas := ← draft.asList ModelDecl.ofDraft }
  else do
    return { config with options := ← ConfigOptions.ofDraft draft }

def ofDraft : Draft → Except Fault Config :=
  Draft.record shape readField ⟨[], [], {}⟩

def ofJsonText (text : String) : Except Fault Config :=
  Draft.decodeText Draft.maxDepth ofDraft text

end Config

end SelectionPlan
