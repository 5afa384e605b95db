import SelectionPlan.Json.Fault

/-!
# Records in JSON values

Steps in reading a record from the members of an object: values of the simple kinds, fields that
may not be repeated, and fields that may not be missing.
-/
namespace SelectionPlan.Json

def asString : Json → Except Mismatch String
  | .string value => .ok value
  | value => .error (.wrongType (found value) .string)

def asBool : Json → Except Mismatch Bool
  | .bool value => .ok value
  | value => .error (.wrongType (found value) .boolean)

def isNull : Json → Bool
  | .null => true
  | _ => false

/-- A field that a record may have once and has not had yet. -/
def unseen {α : Type} (name : String) (seen : Option α) : Except Mismatch Unit :=
  if seen.isSome then .error (.duplicateField name) else .ok ()

def required {α : Type} (name : String) (seen : Option α) : Except Mismatch α :=
  match seen with
  | some value => .ok value
  | none => .error (.missingField name)

def asStrings : Json → Except Mismatch (List String)
  | .array items => items.mapM asString
  | value => .error (.wrongType (found value) .sequence)

end SelectionPlan.Json
