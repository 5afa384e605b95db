import SelectionPlan.Config.Basic
import SelectionPlan.Models

/-!
# Compiling configurations

Every declared model becomes a schema. Nested objects are flattened into dotted paths in ascending
order of their keys; embedded schemas and arrays of objects become sub-documents. A named schema is
compiled once and kept for the next time.

A schema that embeds itself, directly or through others, has no finite form. Compiling a name
leaves the declarations that are not being compiled yet, so a name among the others closes a
circle, and the number of declarations that are left bounds the recursion.
-/
namespace SelectionPlan

/-- Why a configuration describes no models. -/
inductive BuildError where
  | unknownSchema (name : String)
  | unknownType (type path : String)
  /-- An array declares more than one element type. -/
  | mixedArray (path : String)
  | embedsItself (name : String)
  deriving DecidableEq, Repr

namespace BuildError

def message : BuildError → String
  | .unknownSchema name => "unknown embedded schema: " ++ name
  | .unknownType type path =>
    "invalid model config: unknown type " ++ Text.quote type ++ " for " ++ path
  | .mixedArray path =>
    "invalid model config: array " ++ path ++ " declares more than one element type"
  | .embedsItself name => "invalid model config: schema " ++ name ++ " embeds itself"

end BuildError

/-- A step of compiling, with the named schemas that are compiled already. -/
abbrev Compile := StateT (Dict Schema) (Except BuildError)

namespace Compile

/-- The schema of a sub-document before its fields are declared. -/
def start (documentKeys : Bool) : Schema :=
  if documentKeys then Schema.empty.idKey else .empty

def virtuals (schema : Schema) (relations : Dict String) : Schema :=
  relations.foldl (fun schema entry => schema.virtualRef entry.1 entry.2) schema

/-- The path of a field of the object at `above`; the empty path is the document itself. -/
def fieldPath (above name : String) : String :=
  if above = "" then name else Path.join above name

mutual

/-- Declares the fields of the object at `above`. Named schemas come from `embed`. -/
def fields (embed : String → Compile Schema) (documentKeys : Bool) (above : String)
    (schema : Schema) : List (String × FieldDecl) → Compile Schema
  | [] => pure schema
  | (name, decl) :: rest => do
    let declared ← field embed documentKeys (fieldPath above name) schema decl
    fields embed documentKeys above declared rest

def field (embed : String → Compile Schema) (documentKeys : Bool) (path : String)
    (schema : Schema) : FieldDecl → Compile Schema
  | .scalar type =>
    if scalarTypes.contains type then pure (schema.scalar path)
    else throw (.unknownType type path)
  | .reference model => pure (schema.reference path model)
  | .embed name => do return schema.embedded path (← embed name)
  | .object members =>
    if members.isEmpty then pure (schema.scalar path)
    else fields embed documentKeys path schema members
  | .array items => array embed documentKeys path schema items

/-- Declares an array of the given element types. Objects inside it are sub-documents; an array of
arrays or of empty objects is a leaf. -/
def array (embed : String → Compile Schema) (documentKeys : Bool) (path : String)
    (schema : Schema) : List FieldDecl → Compile Schema
  | [] => pure (schema.scalar path)
  | [item] =>
    match item with
    | .object members =>
      if members.isEmpty then pure (schema.scalar path)
      else do
        let sub ← fields embed documentKeys "" (start documentKeys) members
        return schema.embedded path sub
    | .array _ => pure (schema.scalar path)
    | item => field embed documentKeys path schema item
  | _ :: _ :: _ => throw (.mixedArray path)

end

def without (name : String) (declarations : List ModelDecl) : List ModelDecl :=
  declarations.filter fun other => !(other.name == name)

theorem length_without_lt {declarations : List ModelDecl} {name : String} {decl : ModelDecl}
    (found : declarations.find? (·.name == name) = some decl) :
    (without name declarations).length < declarations.length := by
  have member := List.mem_of_find?_eq_some found
  have same := List.find?_some found
  exact List.length_filter_lt_length_iff_exists.mpr ⟨decl, member, by simpa using same⟩

/-- The schema of a named declaration as a sub-document. The declarations in `left` are not being
compiled. -/
def named (config : Config) (left : List ModelDecl) (name : String) : Compile Schema := do
  match (← get).get? name with
  | some schema => return schema
  | none =>
    match config.declarations.find? (·.name == name) with
    | none => throw (.unknownSchema name)
    | some _ =>
      match _found : left.find? (·.name == name) with
      | none => throw (.embedsItself name)
      | some decl =>
        let others := without name left
        let keys := config.options.documentKeys
        let declared ← fields (fun other => named config others other) keys "" (start keys)
          decl.fields
        let schema := virtuals declared decl.virtuals
        modify fun compiled => compiled.insert name schema
        return schema
termination_by left.length
decreasing_by exact length_without_lt _found

def model (config : Config) (decl : ModelDecl) : Compile Schema := do
  let keys := config.options.documentKeys
  let declared ← fields (named config config.declarations) keys "" (start keys) decl.fields
  let complete := if keys then declared.scalar "__v" else declared
  return virtuals complete decl.virtuals

def register (config : Config) (models : Models) : List ModelDecl → Compile Models
  | [] => pure models
  | decl :: rest => do
    let schema ← model config decl
    register config (models.register decl.name schema) rest

end Compile

namespace Config

def build (config : Config) : Except BuildError Models :=
  (Compile.register config .empty config.models).run' []

end Config

end SelectionPlan
