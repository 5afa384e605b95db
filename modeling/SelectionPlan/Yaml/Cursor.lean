import SelectionPlan.Text.Bytes

/-!
# Places in a YAML text

Lines end at a line feed, a carriage return, both of them in a row, or one of the three Unicode
line ends. Columns count characters from zero, and distances in the text count bytes.
-/
namespace SelectionPlan.Yaml

def isBlank (c : Char) : Bool :=
  c = ' ' || c = '\t'

def isBreak (c : Char) : Bool :=
  c = '\n' || c = '\r' || c = '\u0085' || c = '\u2028' || c = '\u2029'

/-- Whether a blank, a line end or the end of the text comes next. -/
def atBlank (text : List Char) : Bool :=
  match text with
  | [] => true
  | c :: _ => isBlank c || isBreak c

def isWordChar (c : Char) : Bool :=
  c.isAlphanum || c = '_' || c = '-'

/-- Where a character stands. -/
structure Position where
  /-- Bytes in front of it. -/
  offset : Nat
  line : Nat
  /-- Characters between the start of the line and it. -/
  column : Nat

namespace Position

def advance (position : Position) (passed : List Char) : Position :=
  { position with
    offset := position.offset + Text.byteSize passed
    column := position.column + passed.length }

def nextLine (position : Position) (lineEnd : List Char) : Position :=
  ⟨position.offset + Text.byteSize lineEnd, position.line + 1, 0⟩

end Position

/-- A text from some place on. -/
structure Cursor where
  rest : List Char
  position : Position

namespace Cursor

def start (text : List Char) : Cursor := ⟨text, ⟨0, 0, 0⟩⟩

def advance (cursor : Cursor) (count : Nat) : Cursor :=
  ⟨cursor.rest.drop count, cursor.position.advance (cursor.rest.take count)⟩

def takeWhile (cursor : Cursor) (kind : Char → Bool) : List Char × Cursor :=
  let taken := cursor.rest.takeWhile kind
  (taken, ⟨cursor.rest.drop taken.length, cursor.position.advance taken⟩)

/-- Passes over a line end, if one comes next, and returns the line end that it stands for: the
line and paragraph separators stand for themselves, the others for a line feed. -/
def takeBreak (cursor : Cursor) : List Char × Cursor :=
  match cursor.rest with
  | '\r' :: '\n' :: rest => (['\n'], ⟨rest, cursor.position.nextLine ['\r', '\n']⟩)
  | c :: rest =>
    if c = '\u2028' || c = '\u2029' then ([c], ⟨rest, cursor.position.nextLine [c]⟩)
    else if isBreak c then (['\n'], ⟨rest, cursor.position.nextLine [c]⟩)
    else ([], cursor)
  | [] => ([], cursor)

/-- Whether `---` or `...` stands at the start of a line, as a word of its own. -/
def atDocumentMark (cursor : Cursor) : Bool :=
  cursor.position.column == 0 &&
    match cursor.rest with
    | '-' :: '-' :: '-' :: rest => atBlank rest
    | '.' :: '.' :: '.' :: rest => atBlank rest
    | _ => false

def isAllowed (c : Char) : Bool :=
  c = '\t' || c = '\n' || c = '\r' || (' ' ≤ c && c ≤ '~') || c = '\u0085' ||
    ('\u00a0' ≤ c && c.toNat ≤ 0xD7FF) || (0xE000 ≤ c.toNat && c.toNat ≤ 0xFFFD) ||
    0x10000 ≤ c.toNat

end Cursor

end SelectionPlan.Yaml
