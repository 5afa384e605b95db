import SelectionPlan.Yaml.ScalarText

/-!
# Block scalars

A block scalar consists of the lines that are indented as its first line is, or as its header says.
A literal one keeps them as they are; a folded one joins the lines that do not start with a blank.
-/
namespace SelectionPlan.Yaml.ScalarText

/-- What happens to the line ends at the end of a block scalar. -/
inductive Chomping where
  /-- All of them are dropped. -/
  | strip
  /-- The first is kept. -/
  | clip
  /-- All of them are kept. -/
  | keep
  deriving DecidableEq

/-- Passes the empty lines and the indentation before a line of a block scalar. The indentation is
the given one, or, if that is zero, the widest so far. Returns the line ends and that width. -/
def blockBreaks (indent : Nat) : Nat → Nat → Cursor → List Char → Option (List Char × Nat × Cursor)
  | 0, widest, cursor, breaks => some (breaks, widest, cursor)
  | fuel + 1, widest, cursor, breaks =>
    let inside := indent == 0 || cursor.position.column < indent
    match cursor.rest with
    | [] => some (breaks, max widest cursor.position.column, cursor)
    | c :: _ =>
      if c = ' ' && inside then blockBreaks indent fuel widest (cursor.advance 1) breaks
      else if c = '\t' && inside then none
      else if isBreak c then
        let (lineEnd, next) := cursor.takeBreak
        blockBreaks indent fuel (max widest cursor.position.column) next (breaks ++ lineEnd)
      else some (breaks, max widest cursor.position.column, cursor)

/-- Reads the lines of a block scalar with a known indentation. `lineEnd` ends the line before, and
`breaks` are the line ends of the empty lines after it. -/
def blockLines (folded : Bool) (chomping : Chomping) (indent : Nat) :
    Nat → Cursor → List Char → Bool → List Char → List Char → Option ScalarText
  | 0, _, _, _, _, _ => none
  | fuel + 1, cursor, text, blankBefore, lineEnd, breaks =>
    if cursor.position.column = indent && !cursor.rest.isEmpty then do
      let blankNow := cursor.rest.head?.any isBlank
      let between :=
        if folded && lineEnd = ['\n'] && !blankBefore && !blankNow then
          if breaks.isEmpty then [' '] else breaks
        else lineEnd ++ breaks
      let (line, afterLine) := cursor.takeWhile fun c => !isBreak c
      let (nextEnd, afterBreak) := afterLine.takeBreak
      let (nextBreaks, _, next) ←
        blockBreaks indent (afterBreak.rest.length + 1) 0 afterBreak []
      blockLines folded chomping indent fuel next (text ++ between ++ line) blankNow nextEnd
        nextBreaks
    else
      let tail := match chomping with
        | .strip => []
        | .clip => lineEnd
        | .keep => lineEnd ++ breaks
      some ⟨text ++ tail, cursor, false⟩

/-- Reads the indicators after the `|` or `>` of a block scalar: an explicit indentation, zero if
there is none, and the chomping. -/
def blockHeader (cursor : Cursor) : Option (Nat × Chomping × Cursor) :=
  let chomping? (c : Char) : Option Chomping :=
    if c = '+' then some .keep else if c = '-' then some .strip else none
  let width? (c : Char) : Option Nat :=
    if c.isDigit then some (c.toNat - '0'.toNat) else none
  let found := match cursor.rest with
    | [] => (none, none)
    | c :: rest =>
      match chomping? c, width? c with
      | some chomping, _ => (rest.head?.bind width?, some chomping)
      | none, some width => (some width, rest.head?.bind chomping?)
      | none, none => (none, none)
  let length := (if found.1.isSome then 1 else 0) + (if found.2.isSome then 1 else 0)
  if found.1 = some 0 then none
  else some (found.1.getD 0, found.2.getD .clip, cursor.advance length)

/-- Reads a block scalar after its `|` or `>`, inside a block indented by `parent`, which is
negative outside of every block. -/
def block (folded : Bool) (parent : Int) (cursor : Cursor) : Option ScalarText := do
  let (width, chomping, afterHeader) ← blockHeader cursor
  let (_, afterBlanks) := afterHeader.takeWhile isBlank
  let lineEnd :=
    if afterBlanks.rest.head? = some '#' then (afterBlanks.takeWhile fun c => !isBreak c).2
    else afterBlanks
  if !(lineEnd.rest.head?.all isBreak) then none
  let first := lineEnd.takeBreak.2
  let outer := (max parent 0).toNat
  let indent := if width = 0 then 0 else outer + width
  let (breaks, widest, next) ← blockBreaks indent (first.rest.length + 1) 0 first []
  let indent := if indent = 0 then max (max widest (parent + 1).toNat) 1 else indent
  blockLines folded chomping indent (next.rest.length + 2) next [] false [] breaks

end SelectionPlan.Yaml.ScalarText
