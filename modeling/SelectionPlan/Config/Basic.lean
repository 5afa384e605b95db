import SelectionPlan.Dict
import SelectionPlan.RecordShape

/-!
# Model configurations

A configuration declares models, and named schemas that models embed. Fields are declared by what
they hold: a scalar type, a reference to a model, a named schema, an array of something, or a plain
object with fields of its own.
-/
namespace SelectionPlan

/-- Declaration of one field. -/
inductive FieldDecl where
  /-- A value of the scalar type with this name. -/
  | scalar (type : String)
  /-- An array; more than one element type makes no sense, but can be written. -/
  | array (items : List FieldDecl)
  /-- A reference to the named model. -/
  | reference (model : String)
  /-- A sub-document of the named schema. -/
  | embed (schema : String)
  /-- A plain object with the given fields. -/
  | object (fields : List (String × FieldDecl))

/-- Declaration of a model, or of a schema for embedding. -/
structure ModelDecl where
  name : String
  fields : Dict FieldDecl
  /-- Virtual relations with their target models. -/
  virtuals : Dict String

/-- Settings that concern all models. -/
structure ConfigOptions where
  /-- Adds the keys that the store adds to documents. -/
  documentKeys : Bool := true

/-- Models, and schemas that they embed by name. -/
structure Config where
  models : List ModelDecl
  schemas : List ModelDecl
  options : ConfigOptions

namespace Config

/-- Declarations that can be embedded. A schema comes before a model of the same name. -/
def declarations (config : Config) : List ModelDecl :=
  config.schemas ++ config.models

end Config

def relationShape : RecordShape :=
  { name := "RefDecl", fields := [("ref", false)], closed := true }

def ModelDecl.shape : RecordShape :=
  { name := "ModelConfig", fields := [("name", false), ("fields", true), ("virtuals", true)] }

def ConfigOptions.shape : RecordShape :=
  { name := "ConfigOptions", fields := [("document_keys", true)] }

def Config.shape : RecordShape :=
  { name := "ModelsConfig", fields := [("models", true), ("schemas", true), ("options", true)] }

def scalarTypes : List String :=
  ["string", "number", "boolean", "date", "id", "mixed", "array", "buffer", "decimal", "map"]

end SelectionPlan
