import SelectionPlan.Text.Digits
import SelectionPlan.Yaml.Cursor
import SelectionPlan.Yaml.Tag

/-!
# Names in YAML texts

The small parts of a text that name something: anchors, the handles and characters of tags, and the
versions in directives. Tags may escape characters by the bytes of their UTF-8 form.
-/
namespace SelectionPlan.Yaml.Name

/-- Passes the blanks and the comment at the end of a line, and the line end. -/
def finishLine (cursor : Cursor) : Option Cursor :=
  let (_, afterBlanks) := cursor.takeWhile isBlank
  let lineEnd :=
    if afterBlanks.rest.head? = some '#' then (afterBlanks.takeWhile fun c => !isBreak c).2
    else afterBlanks
  if lineEnd.rest.head?.all isBreak then some lineEnd.takeBreak.2 else none

def directiveNumber (cursor : Cursor) : Option (Nat × Cursor) :=
  let (digits, next) := cursor.takeWhile Char.isDigit
  if digits.isEmpty || 9 < digits.length then none
  else some (Nat.ofDigitChars 10 digits 0, next)

def isTagChar (verbatim : Bool) (c : Char) : Bool :=
  isWordChar c || [';', '/', '?', ':', '@', '&', '=', '+', '$', '.', '!', '~', '*', '\'', '(', ')',
    '%'].contains c || (verbatim && [',', '[', ']'].contains c)

/-- Number of octets that follow the first one of an escaped character: as many as its leading bits
say. -/
def followingOctets? (first : UInt8) : Option Nat :=
  if first &&& 0x80 = 0 then some 0
  else if first &&& 0xE0 = 0xC0 then some 1
  else if first &&& 0xF0 = 0xE0 then some 2
  else if first &&& 0xF8 = 0xF0 then some 3
  else none

/-- The bytes of the characters of a tag, when `missing` octets of an escaped character are still to
come. These have to be escapes too, with the leading bits of such octets; nothing else is asked of
them. -/
def unescapeTag : Nat → List Char → Option (List UInt8)
  | missing, [] => if missing = 0 then some [] else none
  | missing, '%' :: high :: low :: rest => do
    let high ← Text.digit? 16 high
    let low ← Text.digit? 16 low
    let octet := UInt8.ofNat (high * 16 + low)
    let missing ←
      if missing = 0 then followingOctets? octet
      else if octet &&& 0xC0 = 0x80 then some (missing - 1)
      else none
    return octet :: (← unescapeTag missing rest)
  | _, '%' :: _ => none
  | missing, c :: rest => do
    if missing ≠ 0 then none
    return c.toString.toUTF8.toList ++ (← unescapeTag 0 rest)

def tagText (verbatim : Bool) (cursor : Cursor) : Option (Tag × Cursor) := do
  let (chars, next) := cursor.takeWhile (isTagChar verbatim)
  return (Tag.ofBytes (← unescapeTag 0 chars), next)

def someTagText (verbatim : Bool) (cursor : Cursor) : Option (Tag × Cursor) :=
  if cursor.rest.head?.any (isTagChar verbatim) then tagText verbatim cursor else none

/-- Reads the handle of a tag: two exclamation marks with a word between them, or just one. -/
def tagHandle (cursor : Cursor) : Option (String × Cursor) :=
  match cursor.rest with
  | '!' :: _ =>
    let (word, next) := (cursor.advance 1).takeWhile isWordChar
    if next.rest.head? = some '!' then
      some ("!" ++ String.ofList word ++ "!", next.advance 1)
    else some ("!" ++ String.ofList word, next)
  | _ => none

def anchorName (cursor : Cursor) : Option (String × Cursor) :=
  let (name, next) := (cursor.advance 1).takeWhile isWordChar
  let ended := atBlank next.rest ||
    next.rest.head?.any fun c => ['?', ':', ',', ']', '}', '%', '@', '\x60'].contains c
  if name.isEmpty || !ended then none else some (String.ofList name, next)

end SelectionPlan.Yaml.Name
