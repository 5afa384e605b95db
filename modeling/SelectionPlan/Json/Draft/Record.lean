import SelectionPlan.Json.Draft
import SelectionPlan.RecordShape

/-!
# Records in JSON texts

A record is written as an object, or as an array of its fields in order. Fields of an object may
come in any order, but not twice; members that the record does not know are passed over, unless the
record is closed. An array may end early where the remaining fields have defaults; items behind the
last field break the text.

What is wrong with an object is noticed where it is left: behind its closing brace, or, after a
field that is refused, behind the key or its value and the closing brace if that comes next.
-/
namespace SelectionPlan.Json.Draft

def asString : Draft → Except Fault String
  | .string value _ => .ok value
  | draft => .error (mismatch .string draft)

def asBool : Draft → Except Fault Bool
  | .bool value _ => .ok value
  | draft => .error (mismatch .boolean draft)

def items {α : Type} (read : Draft → Except Fault α) : Items → Except Fault (List α)
  | .closed _ => .ok []
  | .item value rest => do
    let first ← read value
    let others ← items read rest
    return first :: others
  | .broken fault => .error fault

def asList {α : Type} (read : Draft → Except Fault α) : Draft → Except Fault (List α)
  | .array values _ => items read values
  | draft => .error (mismatch .sequence draft)

def members {α : Type} (read : Draft → Except Fault α) :
    Members → Except Fault (List (String × α))
  | .closed _ => .ok []
  | .member key _ value rest => do
    let first ← read value
    let others ← members read rest
    return (key, first) :: others
  | .unusable fault _ => .error fault
  | .broken fault => .error fault

def asMap {α : Type} (read : Draft → Except Fault α) :
    Draft → Except Fault (List (String × α))
  | .object values _ => members read values
  | draft => .error (mismatch .map draft)

/-- Reads the members of a record whose fields `seen` were read before. Returns the names of all
fields that were read and the text after the record. -/
def recordMembers {α : Type} (shape : RecordShape) (read : String → Draft → α → Except Fault α) :
    List String → α → Members → Except Fault (List String × α × List Char)
  | seen, value, .closed after => .ok (seen, value, after)
  | seen, value, .member key after draft rest =>
    if shape.has key then
      if seen.contains key then .error (.mismatch (.duplicateField key) (leaveObject after))
      else do recordMembers shape read (key :: seen) (← read key draft value) rest
    else if shape.closed then
      .error (.mismatch (.unknownField key (shape.fields.headD ("", false)).1)
        (leaveObject after))
    else do
      skip draft
      recordMembers shape read seen value rest
  | _, _, .unusable fault _ => .error fault
  | _, _, .broken fault => .error fault

/-- Reads fields from the items of an array, when `count` fields were read before. -/
def recordItems {α : Type} (shape : RecordShape) (read : String → Draft → α → Except Fault α) :
    List (String × Bool) → Nat → α → Items → Except Fault α
  | [], _, value, .closed _ => .ok value
  | [], _, _, .item _ _ => .error .malformed
  | (field, _) :: fields, count, value, .item draft rest => do
    recordItems shape read fields (count + 1) (← read field draft value) rest
  | (_, optional) :: fields, count, value, .closed after =>
    if optional then recordItems shape read fields (count + 1) value (.closed after)
    else .error (.mismatch (.tooShort count shape.name shape.fields.length) after)
  | _, _, _, .broken fault => .error fault

def record {α : Type} (shape : RecordShape) (read : String → Draft → α → Except Fault α)
    (defaults : α) : Draft → Except Fault α
  | .object values _ => do
    let (seen, value, after) ← recordMembers shape read [] defaults values
    match shape.missing? seen with
    | some field => throw (.mismatch (.missingField field) after)
    | none => return value
  | .array values _ => recordItems shape read shape.fields 0 defaults values
  | draft => .error (mismatch (.record shape.name) draft)

end SelectionPlan.Json.Draft
