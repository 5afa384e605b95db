import SelectionPlan.Json.Record
import SelectionPlan.Selection.Basic

/-!
# Selections as JSON

A selection is a record of `all` and `fields`, a field a record of `name` and `select`, where
`select` is null, or is left out, for a field that is taken as a whole. A record may also be
written as the array of its fields in order. The first thing wrong in text order is reported.
-/
namespace SelectionPlan

open Json (Mismatch)

namespace Selection

mutual

def toJson : Selection → Json
  | ⟨all, fields⟩ => .object [("all", .bool all), ("fields", .array (fieldsToJson fields))]

def fieldsToJson : List Field → List Json
  | [] => []
  | ⟨name, body⟩ :: rest =>
    .object [("name", .string name), ("select", bodyToJson body)] :: fieldsToJson rest

def bodyToJson : Option Selection → Json
  | none => .null
  | some body => toJson body

end

mutual

def ofJson : Json → Except Mismatch Selection
  | .object members => ofMembers none none members
  | .array [] => .error (.tooShort 0 "RawSelect" 2)
  | .array [all] => do
    let _ ← Json.asBool all
    throw (.tooShort 1 "RawSelect" 2)
  | .array (all :: fields :: rest) => do
    let all ← Json.asBool all
    let fields ← fieldsOfJson fields
    if rest.isEmpty then return ⟨all, fields⟩ else throw (.tooLong (rest.length + 2))
  | value => .error (.wrongType (Json.found value) (.record "RawSelect"))

/-- Reads the members of a selection, when `all` and `fields` were seen before. -/
def ofMembers (all : Option Bool) (fields : Option (List Field)) :
    List (String × Json) → Except Mismatch Selection
  | [] => do return ⟨← Json.required "all" all, ← Json.required "fields" fields⟩
  | (key, value) :: rest =>
    if key = "all" then do
      Json.unseen key all
      ofMembers (some (← Json.asBool value)) fields rest
    else if key = "fields" then do
      Json.unseen key fields
      ofMembers all (some (← fieldsOfJson value)) rest
    else ofMembers all fields rest

def fieldsOfJson : Json → Except Mismatch (List Field)
  | .array items => fieldsOfItems items
  | value => .error (.wrongType (Json.found value) .sequence)

def fieldsOfItems : List Json → Except Mismatch (List Field)
  | [] => .ok []
  | item :: rest => do
    let field ← fieldOfJson item
    let others ← fieldsOfItems rest
    return field :: others

def fieldOfJson : Json → Except Mismatch Field
  | .object members => fieldOfMembers none none members
  | .array [] => .error (.tooShort 0 "RawField" 2)
  | .array [name] => do
    let _ ← Json.asString name
    throw (.tooShort 1 "RawField" 2)
  | .array (name :: value :: rest) => do
    let name ← Json.asString name
    let body ← if value.isNull then pure none else some <$> ofJson value
    if rest.isEmpty then return ⟨name, body⟩ else throw (.tooLong (rest.length + 2))
  | value => .error (.wrongType (Json.found value) (.record "RawField"))

/-- Reads the members of a field, when `name` and `select` were seen before. -/
def fieldOfMembers (name : Option String) (body : Option (Option Selection)) :
    List (String × Json) → Except Mismatch Field
  | [] => do return ⟨← Json.required "name" name, body.getD none⟩
  | (key, value) :: rest =>
    if key = "name" then do
      Json.unseen key name
      fieldOfMembers (some (← Json.asString value)) body rest
    else if key = "select" then do
      Json.unseen key body
      let expansion ← if value.isNull then pure none else some <$> ofJson value
      fieldOfMembers name (some expansion) rest
    else fieldOfMembers name body rest

end

end Selection

end SelectionPlan
