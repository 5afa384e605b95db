import SelectionPlan.Json.Basic
import SelectionPlan.Text.Quoted

/-!
# What can be wrong with JSON data

A text may break the grammar or stop too early, and a well-formed value may not be what is wanted
at its place. Only the last kind has a message and a place of its own.
-/
namespace SelectionPlan.Json

/-- What is wanted at a place. -/
inductive Expectation where
  | string
  | boolean
  | sequence
  | map
  | record (name : String)
  deriving DecidableEq, Repr

/-- What stands at a place. -/
inductive Found where
  | null
  | boolean (value : Bool)
  | number (value : Number)
  | string (value : String)
  | sequence
  | map
  deriving DecidableEq, Repr

/-- Why a value is not what is wanted. -/
inductive Mismatch where
  | wrongType (found : Found) (expected : Expectation)
  | missingField (name : String)
  | duplicateField (name : String)
  /-- A field that a closed record with the single field `expected` does not have. -/
  | unknownField (name expected : String)
  /-- A record written as a sequence that ends after `length` of its `fields` fields. -/
  | tooShort (length : Nat) (record : String) (fields : Nat)
  /-- A record written as a sequence of more items than it has fields. -/
  | tooLong (length : Nat)
  /-- None of the forms of the named type fits. -/
  | noVariant (type : String)
  deriving DecidableEq, Repr

/-- What is wrong with a JSON text. -/
inductive Fault where
  /-- The text breaks the grammar of JSON or its limits. -/
  | malformed
  /-- The text ends too early. -/
  | truncated
  /-- A value is not what is wanted; `rest` is the text from the place where that was seen. -/
  | mismatch (reason : Mismatch) (rest : List Char)
  deriving DecidableEq, Repr

def found : Json → Found
  | .null => .null
  | .bool value => .boolean value
  | .number value => .number value
  | .string value => .string value
  | .array _ => .sequence
  | .object _ => .map

namespace Expectation

def describe : Expectation → String
  | .string => "a string"
  | .boolean => "a boolean"
  | .sequence => "a sequence"
  | .map => "a map"
  | .record name => "struct " ++ name

end Expectation

namespace Found

def describe : Found → String
  | .null => "null"
  | .boolean value => "boolean `" ++ (if value then "true" else "false") ++ "`"
  | .number (.float value) =>
    "floating point `" ++ String.ofList (Number.text (.float value)) ++ "`"
  | .number value => "integer `" ++ String.ofList value.text ++ "`"
  | .string value => "string " ++ Text.quote value
  | .sequence => "sequence"
  | .map => "map"

end Found

namespace Mismatch

def message : Mismatch → String
  | .wrongType found expected =>
    "invalid type: " ++ found.describe ++ ", expected " ++ expected.describe
  | .missingField name => "missing field `" ++ name ++ "`"
  | .duplicateField name => "duplicate field `" ++ name ++ "`"
  | .unknownField name expected =>
    "unknown field `" ++ name ++ "`, expected `" ++ expected ++ "`"
  | .tooShort length record fields =>
    s!"invalid length {length}, expected struct {record} with {fields} element" ++
      (if fields = 1 then "" else "s")
  | .tooLong length => s!"invalid length {length}, expected fewer elements in array"
  | .noVariant type => "data did not match any variant of untagged enum " ++ type

end Mismatch

end SelectionPlan.Json
