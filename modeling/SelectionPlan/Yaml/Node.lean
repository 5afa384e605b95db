import SelectionPlan.Yaml.Token

/-!
# YAML nodes

A text holds at most one document, which is a tree of scalars, sequences and mappings. Any node can
be given an anchor, which is a number here, and a link stands for the last node with its number.
-/
namespace SelectionPlan.Yaml

/-- What can be said about a node besides its content. -/
structure Properties where
  anchor : Option Nat := none
  tag : Option Tag := none

/-- A node of a document. -/
inductive Node where
  | scalar (properties : Properties) (style : Style) (text : String)
  | sequence (properties : Properties) (items : List Node)
  | mapping (properties : Properties) (entries : List (Node × Node))
  /-- Stands for the node whose anchor has this number. -/
  | link (number : Nat)

namespace Node

/-- A value that is not written. -/
def blank : Node := .scalar {} .plain ""

mutual

def anchored : Node → List (Nat × Node)
  | .scalar properties style text =>
    properties.anchor.toList.map fun number => (number, .scalar properties style text)
  | .sequence properties items =>
    (properties.anchor.toList.map fun number => (number, .sequence properties items)) ++
      anchoredItems items
  | .mapping properties entries =>
    (properties.anchor.toList.map fun number => (number, .mapping properties entries)) ++
      anchoredEntries entries
  | .link _ => []

def anchoredItems : List Node → List (Nat × Node)
  | [] => []
  | item :: rest => anchored item ++ anchoredItems rest

def anchoredEntries : List (Node × Node) → List (Nat × Node)
  | [] => []
  | (key, value) :: rest => anchored key ++ anchored value ++ anchoredEntries rest

end

mutual

/-- Number of scalars and links, and of starts and ends of collections. -/
def size : Node → Nat
  | .scalar _ _ _ => 1
  | .sequence _ items => 2 + itemsSize items
  | .mapping _ entries => 2 + entriesSize entries
  | .link _ => 1

def itemsSize : List Node → Nat
  | [] => 0
  | item :: rest => size item + itemsSize rest

def entriesSize : List (Node × Node) → Nat
  | [] => 0
  | (key, value) :: rest => size key + size value + entriesSize rest

end

end Node

end SelectionPlan.Yaml
