import SelectionPlan.Models
import SelectionPlan.Plan.Basic
import SelectionPlan.Selection.Parser

/-!
# Resolving selections

A selection is resolved against a schema into a plan. An expanded field is classified by its
dotted path, and the first rule that fits decides: a virtual relation, a stored relation, an
embedded schema, a leaf value, and last a plain object whose members are paths of the same schema.

The recursion follows the selection and never the schemas. Every step down consumes one level of
braces, so models that refer to each other in a circle are followed exactly as far as was asked.
-/
namespace SelectionPlan

/-- Why a selection has no plan. -/
inductive SelectError where
  /-- The text is no selection. -/
  | invalidText (cause : Selection.SyntaxError)
  /-- A model is needed that is not registered. -/
  | modelMissing (name : String)
  /-- An expanded path is neither declared nor above a declared one. -/
  | unknownField (path : String)

namespace SelectError

/-- Prepends the path through which an unknown field was reached, so that the error names it as it
stands in the selection. -/
def under (above : String) : SelectError → SelectError
  | .unknownField path => .unknownField (Path.join above path)
  | error => error

/-- What is wrong. The details of an invalid text are left to its cause. -/
def message : SelectError → String
  | .invalidText _ => "smart select text invalid"
  | .modelMissing name => modelMissingMessage name
  | .unknownField path => "unknown field: " ++ path

def cause? : SelectError → Option String
  | .invalidText cause => some cause.message
  | _ => none

end SelectError

/-- How selections are resolved. -/
structure ResolveOptions where
  /-- Refuses expanded names that lead to no declared path, instead of taking them for objects. -/
  strict : Bool := false

/-- The models that relations lead to, and the options to go by. -/
structure Resolver where
  models : Models
  options : ResolveOptions := {}

/-- What an expanded field turns out to be. -/
inductive Role where
  /-- A relation, virtual or stored, to the named model. -/
  | relation (model : String)
  /-- A sub-document with a schema of its own. -/
  | embedded (schema : Schema)
  /-- A value without members. -/
  | leaf
  /-- A plain object: the path is not declared, so its members may be. -/
  | object

/-- Classifies a dotted path of a schema. Virtual relations come before stored paths. -/
def Schema.role (schema : Schema) (path : String) : Role :=
  match schema.virtual? path with
  | some model => .relation model
  | none =>
    match schema.path? path with
    | some (.reference model) => .relation model
    | some (.embedded sub) => .embedded sub
    | some .scalar => .leaf
    | none => .object

namespace Resolver

def lookup (resolver : Resolver) (model : String) : Except SelectError Schema :=
  match resolver.models.get? model with
  | some schema => .ok schema
  | none => .error (.modelMissing model)

/-- The children of `parent` that a body with `...` takes besides the fields that it names. -/
def spread (paths : List String) (parent : String) (body : Selection) : Plan :=
  if body.all then ⟨Path.otherChildren paths parent body.names, []⟩ else .empty

/-- The path of a member of the object at `parent`, or of the document itself. -/
def memberPath (parent : Option String) (name : String) : String :=
  match parent with
  | none => name
  | some above => Path.join above name

mutual

def resolve (resolver : Resolver) (schema : Schema) : Selection → Except SelectError Plan
  | ⟨all, fields⟩ => do
    let named ← resolver.resolveFields schema schema.pathNames none fields
    return (spread schema.pathNames "" ⟨all, fields⟩ ++ named).dedup

def resolveObject (resolver : Resolver) (schema : Schema) (paths : List String) (path : String) :
    Selection → Except SelectError Plan
  | ⟨all, fields⟩ => do
    let named ← resolver.resolveFields schema paths (some path) fields
    return spread paths path ⟨all, fields⟩ ++ named

/-- Resolves the fields of a body one after the other. They are members of the object at `parent`,
or of the document itself. -/
def resolveFields (resolver : Resolver) (schema : Schema) (paths : List String)
    (parent : Option String) : List Field → Except SelectError Plan
  | [] => .ok .empty
  | ⟨name, body⟩ :: rest => do
    let first ← resolver.resolveField schema paths (memberPath parent name) body
    let others ← resolver.resolveFields schema paths parent rest
    return first ++ others

/-- Resolves the field at a dotted path of a schema, as a whole or expanded by a body. A body with
`...` of a plain object spreads over `paths`. -/
def resolveField (resolver : Resolver) (schema : Schema) (paths : List String) (path : String) :
    Option Selection → Except SelectError Plan
  | none => .ok (.unit path)
  | some body =>
    match schema.role path with
    | .relation model =>
      match resolver.lookup model with
      | .error error => .error error
      | .ok target =>
        match resolver.resolve target body with
        | .error error => .error (error.under path)
        | .ok related => .ok (.relation path related)
    | .embedded sub =>
      match resolver.resolve sub body with
      | .error error => .error (error.under path)
      | .ok plan => .ok (plan.rerooted path)
    | .leaf => .ok (.unit path)
    | .object =>
      if resolver.options.strict && !schema.hasDescendants path then .error (.unknownField path)
      else resolver.resolveObject schema paths path body

end

/-- Resolves a selection text against a registered model. A blank text fetches nothing, and the
model is not even looked up for it. -/
def select (resolver : Resolver) (model text : String) : Except SelectError Plan :=
  if Text.isBlank text.toList then .ok .empty
  else
    match Selection.parse text with
    | .error cause => .error (.invalidText cause)
    | .ok selection => do
      let schema ← resolver.lookup model
      resolver.resolve schema selection

end Resolver

end SelectionPlan
