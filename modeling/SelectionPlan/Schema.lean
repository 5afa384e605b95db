import SelectionPlan.Dict
import SelectionPlan.Path
import SelectionPlan.Text.Quoted

/-!
# Schemas

A schema is the declared shape of the records of one model. Its paths are the dotted paths of the
values that are stored, in the order in which they were first declared; nested plain objects appear
through their leaves (`date.month`), embedded schemas as one path. Virtual relations are computed,
not stored, and live beside the paths: a path and a virtual of one name do not see each other.
-/
namespace SelectionPlan

/-- What a stored path holds, over the type of the schemas that may be embedded. -/
inductive Content (σ : Type) where
  /-- A leaf value. -/
  | scalar
  /-- A sub-document with a schema of its own. -/
  | embedded (schema : σ)
  /-- The identifier of a record of the named model. -/
  | reference (model : String)

/-- The declared shape of one record type. -/
structure Schema where
  /-- Stored paths with what they hold, each path once. -/
  paths : List (String × Content Schema)
  /-- Virtual relations with their target models. -/
  virtuals : Dict String

/-- What a declared path of a schema holds. -/
abbrev PathInfo := Content Schema

namespace Schema

def empty : Schema := ⟨[], []⟩

def pathNames (schema : Schema) : List String :=
  schema.paths.map Prod.fst

def virtualNames (schema : Schema) : List String :=
  schema.virtuals.keys

def path? (schema : Schema) (path : String) : Option PathInfo :=
  (schema.paths.find? fun entry => entry.1 == path).map Prod.snd

def virtual? (schema : Schema) (name : String) : Option String :=
  schema.virtuals.get? name

/-- Whether a stored path or a virtual relation lies strictly below `path`. -/
def hasDescendants (schema : Schema) (path : String) : Bool :=
  (schema.pathNames ++ schema.virtualNames).any (Path.isBelow path)

def size (schema : Schema) : Nat :=
  schema.paths.length

def isEmpty (schema : Schema) : Bool :=
  schema.paths.isEmpty

/-- A declaration that a schema can be given under some name. -/
inductive Declaration where
  /-- A stored path. -/
  | stored (info : PathInfo)
  /-- A virtual relation to the named model. -/
  | virtual (model : String)

/-- Replaces the entry of a path in place, or adds it at the end. -/
def declareIn (path : String) (info : PathInfo) :
    List (String × PathInfo) → List (String × PathInfo)
  | [] => [(path, info)]
  | (name, old) :: rest =>
    if name = path then (path, info) :: rest else (name, old) :: declareIn path info rest

/-- Declares `path`. A path that was declared before keeps its position. -/
def declare (schema : Schema) (path : String) : Declaration → Schema
  | .stored info => { schema with paths := declareIn path info schema.paths }
  | .virtual model => { schema with virtuals := schema.virtuals.insert path model }

def scalar (schema : Schema) (path : String) : Schema :=
  schema.declare path (.stored .scalar)

def embedded (schema : Schema) (path : String) (sub : Schema) : Schema :=
  schema.declare path (.stored (.embedded sub))

def reference (schema : Schema) (path model : String) : Schema :=
  schema.declare path (.stored (.reference model))

def virtualRef (schema : Schema) (name model : String) : Schema :=
  schema.declare name (.virtual model)

/-- Declares the key that every stored sub-document carries. -/
def idKey (schema : Schema) : Schema :=
  schema.scalar "_id"

/-- Declares the keys that every stored top-level document carries. -/
def documentKeys (schema : Schema) : Schema :=
  schema.idKey.scalar "__v"

end Schema

namespace Content

def kind {σ : Type} : Content σ → String
  | .scalar => "scalar"
  | .embedded _ => "embedded"
  | .reference _ => "reference"

def target? {σ : Type} : Content σ → Option String
  | .reference model => some model
  | _ => none

/-- One line about a stored path. An embedded schema shows by its paths only. -/
def summary : PathInfo → String
  | .scalar => "Scalar"
  | .embedded schema =>
    "Embedded([" ++ String.intercalate ", " (schema.pathNames.map Text.quote) ++ "])"
  | .reference model => "Reference(" ++ Text.quote model ++ ")"

end Content

end SelectionPlan
