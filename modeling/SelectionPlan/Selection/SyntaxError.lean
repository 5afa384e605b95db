import SelectionPlan.Text.Excerpt
import SelectionPlan.Text.Quoted

/-!
# Errors in selection texts

An error is a reason and the place in the text that it points at. The place is kept as the rest of
the text from there on, so that offsets, lines and excerpts can all be read off it.
-/
namespace SelectionPlan.Selection

/-- Deepest nesting of braces that a selection text may have. -/
def maxDepth : Nat := 64

/-- Why a text is no selection. -/
inductive Reason where
  /-- The brace at this place opens a level below the deepest one allowed. -/
  | nestedTooDeep
  /-- The text has no entry at all: neither a name nor `...` stands at this place. -/
  | entryMissing
  /-- A brace is open, and this place neither continues its body nor closes it. -/
  | braceUnclosed
  /-- A selection ends at this place, but the text goes on. -/
  | textLeft
  deriving DecidableEq, Repr

/-- A reason and the place in `text` that is followed by `rest`. -/
structure SyntaxError where
  reason : Reason
  text : List Char
  rest : List Char
  deriving DecidableEq

namespace SyntaxError

/-- Bytes in front of the place. -/
def offset (e : SyntaxError) : Nat :=
  Text.offset e.text e.rest

/-- One numbered item of a report, about what was being read at the place of the error. -/
def contextItem (e : SyntaxError) (number : Nat) (context : String) : String :=
  if e.text.isEmpty then s!"{number}: in {context}, got empty input\n\n"
  else
    let excerpt := Text.excerpt e.text e.rest
    s!"{number}: at line {excerpt.line}, in {context}:\n" ++ String.ofList excerpt.drawing ++ "\n\n"

/-- The numbered item of a report that tells which character was found for a closing brace. -/
def braceItem (e : SyntaxError) (number : Nat) : String :=
  let excerpt := Text.excerpt e.text e.rest
  let found := match e.rest with
    | [] => "got end of input"
    | c :: _ => "found " ++ c.toString
  s!"{number}: at line {excerpt.line}:\n" ++ String.ofList excerpt.drawing ++
    "\nexpected '\x7d', " ++ found ++ "\n\n"

/-- What is wrong and where, without the words that introduce it. -/
def details (e : SyntaxError) : String :=
  match e.reason with
  | .nestedTooDeep => s!"nesting deeper than {maxDepth} at offset {e.offset}"
  | .textLeft => s!"unexpected input at offset {e.offset}: " ++ String.ofList (Text.quoted e.rest)
  | .entryMissing =>
    e.contextItem 0 "TakeWhile1" ++ e.contextItem 1 "field name" ++ e.contextItem 2 "Alt"
  | .braceUnclosed => e.braceItem 0 ++ e.contextItem 1 "closing brace"

def message (e : SyntaxError) : String :=
  "select parse error: " ++ e.details

end SyntaxError

end SelectionPlan.Selection
