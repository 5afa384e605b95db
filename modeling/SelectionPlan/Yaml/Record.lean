import SelectionPlan.RecordShape
import SelectionPlan.Yaml.Node
import SelectionPlan.Yaml.Plain

/-!
# Records in YAML documents

Steps in reading a document for places that want a certain kind of value. Links are followed where
a value is used; a value that is passed over is not looked at.

Two limits keep a small text from standing for a huge value: the number of links that are followed
is bounded by the size of the document, and so is the number of collections inside each other,
which also ends the reading of a collection that holds itself.
-/
namespace SelectionPlan.Yaml

/-- A step of reading. It knows the nodes with anchors, and counts down how many links may still be
followed. -/
abbrev Reading := ReaderT (List (Nat × Node)) (StateT Nat Option)

namespace Reading

variable {α : Type}

def maxDepth : Nat := 128

/-- How many links may be followed for each part of a document. -/
def linksPerPart : Nat := 100

def run (read : Nat → Node → Reading α) (document : Node) : Option α :=
  (ReaderT.run (read maxDepth document) document.anchored.reverse).run'
    (linksPerPart * document.size)

/-- The node that is meant: a link is followed, and stands for the last node with its number. -/
def target : Node → Reading Node
  | .link number => do
    match ← get with
    | 0 => failure
    | left + 1 =>
      set left
      match (← read).lookup number with
      | some node => return node
      | none => failure
  | node => return node

/-- A place that wants a text takes every scalar, as it is written. -/
def asText (node : Node) : Reading String := do
  match ← target node with
  | .scalar _ _ text => return text
  | _ => failure

/-- Whether a scalar may stand where a boolean is wanted: it has no quotes, and is no block unless
its tag says that a boolean is meant. -/
def isBare (properties : Properties) : Style → Bool
  | .plain => true
  | .literal => properties.tag = some (.core "bool")
  | _ => false

def asBool (node : Node) : Reading Bool := do
  match ← target node with
  | .scalar properties style text =>
    match isBare properties style, Plain.bool? text with
    | true, some value => return value
    | _, _ => failure
  | _ => failure

/-- The items of a sequence, with how many collections may stand inside each other in it. A value
that is not written is empty. -/
def items : Nat → Node → Reading (Nat × List Node)
  | 0, node => do
    match ← target node with
    | .scalar _ .plain "" => return (0, [])
    | _ => failure
  | depth + 1, node => do
    match ← target node with
    | .scalar _ .plain "" => return (depth, [])
    | .sequence _ items => return (depth, items)
    | _ => failure

def entries : Nat → Node → Reading (Nat × List (Node × Node))
  | 0, node => do
    match ← target node with
    | .scalar _ .plain "" => return (0, [])
    | _ => failure
  | depth + 1, node => do
    match ← target node with
    | .scalar _ .plain "" => return (depth, [])
    | .mapping _ entries => return (depth, entries)
    | _ => failure

def asList (read : Nat → Node → Reading α) (depth : Nat) (node : Node) : Reading (List α) := do
  let (left, values) ← items depth node
  values.mapM (read left)

def asMap (read : Nat → Node → Reading α) (depth : Nat) (node : Node) :
    Reading (List (String × α)) := do
  let (left, members) ← entries depth node
  members.mapM fun (key, value) => do
    let name ← asText key
    return (name, ← read left value)

/-- Reads the entries of a record whose fields `seen` were read before. Returns the names of all
fields that were read. -/
def recordEntries (shape : RecordShape) (read : String → Node → α → Reading α) :
    List String → α → List (Node × Node) → Reading (List String × α)
  | seen, value, [] => return (seen, value)
  | seen, value, (key, node) :: rest => do
    let name ← asText key
    if shape.has name then
      if seen.contains name then failure
      else recordEntries shape read (name :: seen) (← read name node value) rest
    else if shape.closed then failure
    else recordEntries shape read seen value rest

def record (shape : RecordShape) (read : String → Nat → Node → α → Reading α) (defaults : α)
    (depth : Nat) (node : Node) : Reading α := do
  let (left, members) ← entries depth node
  let (seen, value) ←
    recordEntries shape (fun name node value => read name left node value) [] defaults members
  if (shape.missing? seen).isSome then failure else return value

end Reading

end SelectionPlan.Yaml
