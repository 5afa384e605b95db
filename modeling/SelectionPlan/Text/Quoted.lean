import SelectionPlan.Text.Hidden

/-!
# Quoted texts

A text is shown between double quotes with everything that does not show by itself written as an
escape: the usual two-character escapes, and `\u` with the code point in lower-case hexadecimal
digits between braces for the rest.
-/
namespace SelectionPlan.Text

def quoteChar (c : Char) : List Char :=
  if c = '\x00' then ['\\', '0']
  else if c = '\t' then ['\\', 't']
  else if c = '\r' then ['\\', 'r']
  else if c = '\n' then ['\\', 'n']
  else if c = '"' then ['\\', '"']
  else if c = '\\' then ['\\', '\\']
  else if isHidden c then ['\\', 'u', '{'] ++ Nat.toDigits 16 c.toNat ++ ['}']
  else [c]

/-- The text between quotes, escaped so that every character can be seen. -/
def quoted (text : List Char) : List Char :=
  ['"'] ++ text.flatMap quoteChar ++ ['"']

def quote (text : String) : String :=
  String.ofList (quoted text.toList)

end SelectionPlan.Text
