import SelectionPlan.Config.Json
import SelectionPlan.Yaml.Node.Parser
import SelectionPlan.Yaml.Record

/-!
# Configurations as YAML

A configuration in YAML has the shape of one in JSON. A field declaration is first read as the JSON
value of the same shape, in which only texts are found: a plain scalar that looks like a number, a
boolean or null declares no field. The one number that is understood is zero as the only key, the
position of the only field of a reference.
-/
namespace SelectionPlan

open Yaml (Node Plain Properties Reading Style)
open Yaml.Reading (asText asBool asList asMap record target)

namespace FieldDecl

/-- Whether a node has the tag of a type of the application, of which there are none. -/
def hasLocalTag (properties : Properties) : Bool :=
  properties.tag.any (·.isLocal)

/-- What a declaration understands of scalars. -/
inductive Word where
  | text (value : String)
  /-- The number zero. -/
  | zero

/-- What a scalar means where any kind of value may stand: by its tag, or by its looks if it has
none that says anything and is plain. Other numbers, booleans and null are not understood, and
neither is a tag that is at odds with its scalar. -/
def word? (properties : Properties) (style : Style) (text : String) : Option Word :=
  match properties.tag.filter fun tag => !tag.isVoid with
  | none =>
    if style = .plain then
      match Plain.ofWord text with
      | .text => some (.text text)
      | .natural 0 => some .zero
      | _ => none
    else some (.text text)
  | some tag =>
    if tag = .core "int" then
      if Plain.ofWord text = .natural 0 then some .zero else none
    else if tag.isLocal || ["bool", "float", "null"].any (tag = .core ·) then none
    else some (.text text)

def leaf : Node → Reading Json
  | .scalar properties style text =>
    match word? properties style text with
    | some (.text value) => return .string value
    | _ => failure
  | _ => failure

def asKey (node : Node) : Reading Word := do
  match ← target node with
  | .scalar properties style text =>
    match word? properties style text with
    | some word => return word
    | none => failure
  | _ => failure

def member? : Word × Json → Option (String × Json)
  | (.text name, value) => some (name, value)
  | (.zero, _) => none

def members? : List (Word × Json) → Option (List (String × Json))
  | [(.zero, .string model)] => some [("ref", .string model)]
  | entries => entries.mapM member?

def jsonOfNode : Nat → Node → Reading Json
  | 0, node => do leaf (← target node)
  | depth + 1, node => do
    match ← target node with
    | .sequence properties items =>
      if hasLocalTag properties then failure
      return .array (← items.mapM (jsonOfNode depth))
    | .mapping properties entries =>
      if hasLocalTag properties then failure
      let keyed ← entries.mapM fun (key, value) => do
        let name ← asKey key
        return (name, ← jsonOfNode depth value)
      match members? keyed with
      | some members => return .object members
      | none => failure
    | node => leaf node

def ofNode (depth : Nat) (node : Node) : Reading FieldDecl := do
  match ofJson (← jsonOfNode depth node) with
  | some decl => return decl
  | none => failure

end FieldDecl

namespace ModelDecl

def relationOfNode : Nat → Node → Reading String :=
  record relationShape (fun _ _ node _ => asText node) ""

def readNode (name : String) (depth : Nat) (node : Node) (decl : ModelDecl) :
    Reading ModelDecl := do
  if name = "name" then return { decl with name := ← asText node }
  else if name = "fields" then
    return { decl with fields := Dict.ofList (← asMap FieldDecl.ofNode depth node) }
  else return { decl with virtuals := Dict.ofList (← asMap relationOfNode depth node) }

def ofNode : Nat → Node → Reading ModelDecl :=
  record shape readNode ⟨"", [], []⟩

end ModelDecl

def ConfigOptions.ofNode : Nat → Node → Reading ConfigOptions :=
  record shape (fun _ _ node _ => do return ⟨← asBool node⟩) {}

namespace Config

def readNode (name : String) (depth : Nat) (node : Node) (config : Config) : Reading Config := do
  if name = "models" then return { config with models := ← asList ModelDecl.ofNode depth node }
  else if name = "schemas" then
    return { config with schemas := ← asList ModelDecl.ofNode depth node }
  else return { config with options := ← ConfigOptions.ofNode depth node }

def ofNode : Nat → Node → Reading Config :=
  record shape readNode ⟨[], [], {}⟩

/-- The configuration that a YAML text describes. A text without a document describes the empty
one. -/
def ofYamlText (text : String) : Option Config := do
  match ← Node.ofText text with
  | none => return ⟨[], [], {}⟩
  | some document => Reading.run ofNode document

end Config

end SelectionPlan
