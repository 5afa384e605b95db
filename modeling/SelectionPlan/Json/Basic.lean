import SelectionPlan.Json.Number

/-!
# JSON values

Objects keep the order of their members and repeated keys: which of them counts is decided by the
reader of the object.
-/
namespace SelectionPlan

/-- A JSON value. -/
inductive Json where
  | null
  | bool (value : Bool)
  | number (value : Json.Number)
  | string (value : String)
  | array (items : List Json)
  | object (members : List (String × Json))

end SelectionPlan
