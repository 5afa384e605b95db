import SelectionPlan.Json.Record
import SelectionPlan.Plan.Basic

/-!
# Plans as JSON

A plan is a record of `select` and `populate`. A populated relation is a record of `path` and of
the two fields of the plan for the related record.
-/
namespace SelectionPlan

open Json (Mismatch)

namespace Plan

mutual

def toJson : Plan → Json
  | ⟨select, populate⟩ =>
    .object [("select", .array (select.map .string)),
      ("populate", .array (relationsToJson populate))]

def relationsToJson : List (String × Plan) → List Json
  | [] => []
  | (path, ⟨select, populate⟩) :: rest =>
    .object [("path", .string path), ("select", .array (select.map .string)),
      ("populate", .array (relationsToJson populate))] :: relationsToJson rest

end

mutual

def relationsOfJson : Json → Except Mismatch (List (String × Plan))
  | .array items => relationsOfItems items
  | value => .error (.wrongType (Json.found value) .sequence)

def relationsOfItems : List Json → Except Mismatch (List (String × Plan))
  | [] => .ok []
  | item :: rest => do
    let relation ← relationOfJson item
    let others ← relationsOfItems rest
    return relation :: others

def relationOfJson : Json → Except Mismatch (String × Plan)
  | .object members => relationOfMembers none none none members
  | .array [] => .error (.tooShort 0 "PopulateSpec" 3)
  | .array [path] => do
    let _ ← Json.asString path
    throw (.tooShort 1 "PopulateSpec" 3)
  | .array [path, select] => do
    let _ ← Json.asString path
    let _ ← Json.asStrings select
    throw (.tooShort 2 "PopulateSpec" 3)
  | .array (path :: select :: populate :: rest) => do
    let path ← Json.asString path
    let select ← Json.asStrings select
    let populate ← relationsOfJson populate
    if rest.isEmpty then return (path, ⟨select, populate⟩) else throw (.tooLong (rest.length + 3))
  | value => .error (.wrongType (Json.found value) (.record "PopulateSpec"))

/-- Reads the members of a relation, when the given fields were seen before. -/
def relationOfMembers (path : Option String) (select : Option (List String))
    (populate : Option (List (String × Plan))) :
    List (String × Json) → Except Mismatch (String × Plan)
  | [] => do
    let path ← Json.required "path" path
    let select ← Json.required "select" select
    let populate ← Json.required "populate" populate
    return (path, ⟨select, populate⟩)
  | (key, value) :: rest =>
    if key = "path" then do
      Json.unseen key path
      relationOfMembers (some (← Json.asString value)) select populate rest
    else if key = "select" then do
      Json.unseen key select
      relationOfMembers path (some (← Json.asStrings value)) populate rest
    else if key = "populate" then do
      Json.unseen key populate
      relationOfMembers path select (some (← relationsOfJson value)) rest
    else relationOfMembers path select populate rest

end

/-- Reads the members of a plan, when the given fields were seen before. -/
def ofMembers (select : Option (List String)) (populate : Option (List (String × Plan))) :
    List (String × Json) → Except Mismatch Plan
  | [] => do
    let select ← Json.required "select" select
    let populate ← Json.required "populate" populate
    return ⟨select, populate⟩
  | (key, value) :: rest =>
    if key = "select" then do
      Json.unseen key select
      ofMembers (some (← Json.asStrings value)) populate rest
    else if key = "populate" then do
      Json.unseen key populate
      ofMembers select (some (← relationsOfJson value)) rest
    else ofMembers select populate rest

def ofJson : Json → Except Mismatch Plan
  | .object members => ofMembers none none members
  | .array [] => .error (.tooShort 0 "ParseResult" 2)
  | .array [select] => do
    let _ ← Json.asStrings select
    throw (.tooShort 1 "ParseResult" 2)
  | .array (select :: populate :: rest) => do
    let select ← Json.asStrings select
    let populate ← relationsOfJson populate
    if rest.isEmpty then return ⟨select, populate⟩ else throw (.tooLong (rest.length + 2))
  | value => .error (.wrongType (Json.found value) (.record "ParseResult"))

end Plan

end SelectionPlan
