import SelectionPlan.Json.Fault

/-!
# JSON texts as far as they can be read

A draft is what a JSON text says up to the point where it breaks off. It is read by those who know
what they want in the order of the text, so the first thing wrong is reported, whether it is the
text that breaks off or a value of the wrong kind.

Some values are in order for one who only passes over them and not for one who needs them: nested
too deep, a number out of range, half of a surrogate pair. A draft marks them as unusable.

Every part of a draft knows the text from its place on. A value of the wrong kind is noticed behind
it if it is a scalar, and in front of it if it is an array or an object.
-/
namespace SelectionPlan.Json

mutual

/-- A value in a text. Scalars have the text after them, arrays and objects the text from their
opening bracket on. -/
inductive Draft where
  | null (after : List Char)
  | bool (value : Bool) (after : List Char)
  | number (value : Number) (after : List Char)
  | string (value : String) (after : List Char)
  | array (items : Items) (text : List Char)
  | object (members : Members) (text : List Char)
  /-- A fault for one who needs the value; `skipped` is passed over by anyone else. -/
  | unusable (fault : Fault) (skipped : Draft)
  /-- The text breaks off. -/
  | broken (fault : Fault)

/-- The items of an array from some place on. -/
inductive Items where
  /-- The text goes on `after` the closing bracket. -/
  | closed (after : List Char)
  | item (value : Draft) (rest : Items)
  | broken (fault : Fault)

/-- The members of an object from some place on. -/
inductive Members where
  /-- The text goes on `after` the closing brace. -/
  | closed (after : List Char)
  /-- The text goes on `after` the key. -/
  | member (key : String) (after : List Char) (value : Draft) (rest : Members)
  /-- A fault for one who needs the next key; `skipped` is passed over by anyone else. -/
  | unusable (fault : Fault) (skipped : Members)
  | broken (fault : Fault)

end

namespace Draft

mutual

def skip : Draft → Except Fault Unit
  | .array items _ => skipItems items
  | .object members _ => skipMembers members
  | .unusable _ skipped => skip skipped
  | .broken fault => .error fault
  | _ => .ok ()

def skipItems : Items → Except Fault Unit
  | .closed _ => .ok ()
  | .item value rest => do skip value; skipItems rest
  | .broken fault => .error fault

def skipMembers : Members → Except Fault Unit
  | .closed _ => .ok ()
  | .member _ _ value rest => do skip value; skipMembers rest
  | .unusable _ skipped => skipMembers skipped
  | .broken fault => .error fault

end

mutual

/-- The complete value, if nothing is wrong with it. -/
def complete : Draft → Except Fault Json
  | .null _ => .ok .null
  | .bool value _ => .ok (.bool value)
  | .number value _ => .ok (.number value)
  | .string value _ => .ok (.string value)
  | .array items _ => do return .array (← completeItems items)
  | .object members _ => do return .object (← completeMembers members)
  | .unusable fault _ => .error fault
  | .broken fault => .error fault

def completeItems : Items → Except Fault (List Json)
  | .closed _ => .ok []
  | .item value rest => do
    let first ← complete value
    let others ← completeItems rest
    return first :: others
  | .broken fault => .error fault

def completeMembers : Members → Except Fault (List (String × Json))
  | .closed _ => .ok []
  | .member key _ value rest => do
    let first ← complete value
    let others ← completeMembers rest
    return (key, first) :: others
  | .unusable fault _ => .error fault
  | .broken fault => .error fault

end

mutual

/-- The text after a value that does not break off. -/
def after : Draft → List Char
  | .null after => after
  | .bool _ after => after
  | .number _ after => after
  | .string _ after => after
  | .array items _ => afterItems items
  | .object members _ => afterMembers members
  | .unusable _ skipped => after skipped
  | .broken _ => []

/-- The text after the items of an array and its closing bracket. -/
def afterItems : Items → List Char
  | .closed after => after
  | .item _ rest => afterItems rest
  | .broken _ => []

/-- The text after the members of an object and its closing brace. -/
def afterMembers : Members → List Char
  | .closed after => after
  | .member _ _ _ rest => afterMembers rest
  | .unusable _ skipped => afterMembers skipped
  | .broken _ => []

end

def isGap (c : Char) : Bool :=
  c = ' ' || c = '\n' || c = '\t' || c = '\r'

/-- Passes over white space, and over the closing brace of an object if it comes next. -/
def leaveObject (text : List Char) : List Char :=
  match text.dropWhile isGap with
  | '}' :: rest => rest
  | rest => rest

def mismatch (expected : Expectation) : Draft → Fault
  | .null after => .mismatch (.wrongType .null expected) after
  | .bool value after => .mismatch (.wrongType (.boolean value) expected) after
  | .number value after => .mismatch (.wrongType (.number value) expected) after
  | .string value after => .mismatch (.wrongType (.string value) expected) after
  | .array _ text => .mismatch (.wrongType .sequence expected) text
  | .object _ text => .mismatch (.wrongType .map expected) text
  | .unusable fault _ => fault
  | .broken fault => fault

end Draft

end SelectionPlan.Json
