import SelectionPlan.Plan.Basic

/-!
# Plans as documents of the query layer

The query layer of a document store is spoken to in ordered documents. A plan for a find projection
marks each path with one, and the whole plan is written the way populate options are: a relation
lists the paths that it selects in one string, separated by spaces.
-/
namespace SelectionPlan

/-- A value of the query layer. -/
inductive DocumentValue where
  | int32 (value : Int)
  | string (value : String)
  | array (items : List DocumentValue)
  | document (entries : List (String × DocumentValue))

/-- A document: values under names, in order. -/
abbrev Document := List (String × DocumentValue)

namespace Document

/-- Stores a value under a name. A name that is there already keeps its place. -/
def insert (name : String) (value : DocumentValue) : Document → Document
  | [] => [(name, value)]
  | (key, old) :: rest =>
    if key = name then (name, value) :: rest else (key, old) :: insert name value rest

end Document

namespace Plan

def projection (plan : Plan) : Document :=
  plan.select.foldl (fun document path => document.insert path (.int32 1)) []

def relationDocuments : List (String × Plan) → List DocumentValue
  | [] => []
  | (path, ⟨select, populate⟩) :: rest =>
    .document [("path", .string path), ("select", .string (String.intercalate " " select)),
      ("populate", .array (relationDocuments populate))] :: relationDocuments rest

/-- The plan as a document: the selected paths, and the populate options of its relations. -/
def toDocument (plan : Plan) : Document :=
  [("select", .array (plan.select.map .string)),
    ("populate", .array (relationDocuments plan.populate))]

end Plan

end SelectionPlan
