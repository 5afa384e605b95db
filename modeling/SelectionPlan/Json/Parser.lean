import SelectionPlan.Json.Draft
import SelectionPlan.Json.Scalar

/-!
# Reading JSON texts

A text is read into a draft as far as it goes. Whether a fault in it matters is decided afterwards,
by what is wanted of the draft.
-/
namespace SelectionPlan.Json

namespace Draft

open Scalar

def word (make : List Char → Draft) : List Char → List Char → Draft × Option (List Char)
  | [], text => (make text, some text)
  | _ :: _, [] => (.broken .truncated, none)
  | letter :: letters, c :: text =>
    if c = letter then word make letters text else (.broken .malformed, none)

/-- The draft of a scalar that was read for one who needs it and passed over for one who does not.
What follows is known only if the value can be passed over. -/
def ofScalar {α : Type} (make : α → List Char → Draft) (used : Except Fault (α × List Char))
    (skipped : Except Fault (List Char)) : Draft × Option (List Char) :=
  match used, skipped with
  | .ok (value, rest), _ => (make value rest, some rest)
  | .error fault, .ok rest => (.unusable fault (.null rest), some rest)
  | .error fault, .error other => (.unusable fault (.broken other), none)

/-- Marks what lies inside too many brackets as unusable. -/
def nested (room : Nat) (value : Draft) : Draft :=
  if room = 0 then .unusable .malformed value else value

mutual

/-- Reads a value. There is room for `room` further levels of brackets. When the text breaks off,
nothing is known about what follows. A bracket and the value behind it take two rounds, so twice
the length of the text is fuel enough. -/
def readValue : Nat → Nat → List Char → Draft × Option (List Char)
  | 0, _, _ => (.broken .truncated, none)
  | fuel + 1, room, text =>
    match text.dropWhile isGap with
    | [] => (.broken .truncated, none)
    | 'n' :: rest => word .null ['u', 'l', 'l'] rest
    | 't' :: rest => word (.bool true ·) ['r', 'u', 'e'] rest
    | 'f' :: rest => word (.bool false ·) ['a', 'l', 's', 'e'] rest
    | '"' :: rest =>
      ofScalar (fun chars => .string (String.ofList chars)) (readString (rest.length + 1) rest)
        (skipString (rest.length + 1) rest)
    | '-' :: rest => ofScalar .number (readNumber true rest) (skipNumber rest)
    | '[' :: rest =>
      let (items, after) := readItems fuel (room - 1) true rest
      (nested room (.array items ('[' :: rest)), after)
    | '{' :: rest =>
      let (members, after) := readMembers fuel (room - 1) true rest
      (nested room (.object members ('{' :: rest)), after)
    | c :: rest =>
      if c.isDigit then ofScalar .number (readNumber false (c :: rest)) (skipNumber (c :: rest))
      else (.broken .malformed, none)

/-- Reads the items of an array up to its closing bracket, the first one without a comma. -/
def readItems : Nat → Nat → Bool → List Char → Items × Option (List Char)
  | 0, _, _, _ => (.broken .truncated, none)
  | fuel + 1, room, first, text =>
    match text.dropWhile isGap with
    | [] => (.broken .truncated, none)
    | ']' :: rest => (.closed rest, some rest)
    | c :: rest =>
      if first || c = ',' then
        match readValue fuel room (if first then c :: rest else rest) with
        | (value, some after) =>
          let (items, done) := readItems fuel room false after
          (.item value items, done)
        | (value, none) => (.item value (.closed []), none)
      else (.broken .malformed, none)

/-- Reads the members of an object up to its closing brace, the first one without a comma. -/
def readMembers : Nat → Nat → Bool → List Char → Members × Option (List Char)
  | 0, _, _, _ => (.broken .truncated, none)
  | fuel + 1, room, first, text =>
    match text.dropWhile isGap with
    | [] => (.broken .truncated, none)
    | '}' :: rest => (.closed rest, some rest)
    | c :: rest =>
      if first then readKey fuel room (c :: rest)
      else if c = ',' then readKey fuel room (rest.dropWhile isGap)
      else (.broken .malformed, none)

def readKey : Nat → Nat → List Char → Members × Option (List Char)
  | 0, _, _ => (.broken .truncated, none)
  | _ + 1, _, [] => (.broken .truncated, none)
  | fuel + 1, room, c :: rest =>
    if c = '"' then
      match readString (rest.length + 1) rest, skipString (rest.length + 1) rest with
      | .ok (key, after), _ => readMember fuel room (String.ofList key) after
      | .error fault, .ok after =>
        let (members, done) := readMember fuel room "" after
        (.unusable fault members, done)
      | .error fault, .error other => (.unusable fault (.broken other), none)
    else (.broken .malformed, none)

/-- Reads the colon and the value after a key, and the members from there on. -/
def readMember : Nat → Nat → String → List Char → Members × Option (List Char)
  | 0, _, _, _ => (.broken .truncated, none)
  | fuel + 1, room, key, text =>
    match text.dropWhile isGap with
    | [] => (.member key text (.broken .truncated) (.closed []), none)
    | ':' :: rest =>
      match readValue fuel room rest with
      | (value, some after) =>
        let (members, done) := readMembers fuel room false after
        (.member key text value members, done)
      | (value, none) => (.member key text value (.closed []), none)
    | _ => (.member key text (.broken .malformed) (.closed []), none)

end

/-- Deepest nesting of brackets that texts from outside may have where they are used. -/
def maxDepth : Nat := 127

/-- Reads a text as a single value with room for some levels of brackets, and tells what is wrong
with the text behind it. -/
def ofText (room : Nat) (text : String) : Draft × Option Fault :=
  let chars := text.toList
  match readValue (2 * chars.length + 2) room chars with
  | (value, some rest) =>
    (value, if (rest.dropWhile isGap).isEmpty then none else some .malformed)
  | (value, none) => (value, none)

def decodeText {α : Type} (room : Nat) (decode : Draft → Except Fault α) (text : String) :
    Except Fault α := do
  let (draft, behind) := ofText room text
  let value ← decode draft
  match behind with
  | none => return value
  | some fault => throw fault

end Draft

/-- The value that a text describes, however deep its brackets are nested. -/
def parse (text : String) : Except Fault Json :=
  Draft.decodeText text.length Draft.complete text

end SelectionPlan.Json
