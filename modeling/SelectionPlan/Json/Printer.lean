import SelectionPlan.Json.Basic

/-!
# Writing JSON texts

Values are laid out over several lines, two spaces to a level; empty arrays and objects stay on
their line. A string escapes what it must and keeps every other character as it is.
-/
namespace SelectionPlan.Json

def escapeChar (c : Char) : List Char :=
  if c = '"' then ['\\', '"']
  else if c = '\\' then ['\\', '\\']
  else if c = '\x08' then ['\\', 'b']
  else if c = '\x0c' then ['\\', 'f']
  else if c = '\n' then ['\\', 'n']
  else if c = '\r' then ['\\', 'r']
  else if c = '\t' then ['\\', 't']
  else if c.toNat < 0x20 then
    ['\\', 'u', '0', '0', Nat.digitChar (c.toNat / 16), Nat.digitChar (c.toNat % 16)]
  else [c]

def stringText (value : String) : List Char :=
  ['"'] ++ value.toList.flatMap escapeChar ++ ['"']

/-- The start of a line at some level. -/
def newLine (level : Nat) : List Char :=
  '\n' :: List.replicate (2 * level) ' '

mutual

/-- Text of a value whose first line stands at some level. -/
def prettyAt (level : Nat) : Json → List Char
  | .null => ['n', 'u', 'l', 'l']
  | .bool true => ['t', 'r', 'u', 'e']
  | .bool false => ['f', 'a', 'l', 's', 'e']
  | .number value => value.text
  | .string value => stringText value
  | .array [] => ['[', ']']
  | .array (first :: rest) =>
    ['['] ++ newLine (level + 1) ++ prettyAt (level + 1) first ++ prettyItems (level + 1) rest ++
      newLine level ++ [']']
  | .object [] => ['{', '}']
  | .object ((key, value) :: rest) =>
    ['{'] ++ newLine (level + 1) ++ stringText key ++ [':', ' '] ++ prettyAt (level + 1) value ++
      prettyMembers (level + 1) rest ++ newLine level ++ ['}']

def prettyItems (level : Nat) : List Json → List Char
  | [] => []
  | value :: rest => [','] ++ newLine level ++ prettyAt level value ++ prettyItems level rest

def prettyMembers (level : Nat) : List (String × Json) → List Char
  | [] => []
  | (key, value) :: rest =>
    [','] ++ newLine level ++ stringText key ++ [':', ' '] ++ prettyAt level value ++
      prettyMembers level rest

end

def pretty (value : Json) : String :=
  String.ofList (prettyAt 0 value)

end SelectionPlan.Json
