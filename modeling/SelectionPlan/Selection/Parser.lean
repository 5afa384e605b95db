import SelectionPlan.Selection.Basic
import SelectionPlan.Selection.SyntaxError
import SelectionPlan.Text.Alphanumeric

/-!
# Reading selection texts

    body  := item (',' item)*
    item  := gap ('...' | name (gap '{' inner '}')?) gap
    inner := gap | body
    name  := one or more letters, numerals, '_' and '$'
    gap   := any run of spaces, tabs and line ends

A body is read as far as it goes: a comma that no item follows is left for the one who asked. A
brace that was opened has to be closed, and failing that is final. Each reading function returns
what is left of the text with the proof that it is shorter, which is why the recursion ends.
-/
namespace SelectionPlan.Selection

def isNameChar (c : Char) : Bool :=
  Text.isAlphanumeric c || c = '_' || c = '$'

/-- One entry of a body as it is written. -/
inductive Item where
  /-- `...`, which stands for every field that the body does not name. -/
  | spread
  | named (field : Field)

namespace Item

def field? : Item → Option Field
  | .spread => none
  | .named field => some field

def isSpread : Item → Bool
  | .spread => true
  | .named _ => false

end Item

/-- The fields of a body in text order, and whether `...` occurs among its entries. -/
def ofItems (items : List Item) : Selection where
  all := items.any Item.isSpread
  fields := items.filterMap Item.field?

/-- What became of reading one construct at the front of `text`. -/
inductive Attempt (α : Type) (text : List Char) where
  /-- It was read, and `rest` follows it. -/
  | read (value : α) (rest : List Char) (shorter : rest.length < text.length)
  /-- No such construct starts here; a name was looked for at the place followed by `place`. -/
  | absent (place : List Char)
  /-- A brace inside it is not closed at the place followed by `place`. -/
  | unclosed (place : List Char)

theorem dropGap_dropWhile_length_lt {start : List Char}
    (named : start.takeWhile isNameChar ≠ []) :
    (Text.dropGap (start.dropWhile isNameChar)).length < start.length := by
  have split :=
    congrArg List.length (List.takeWhile_append_dropWhile (p := isNameChar) (l := start))
  have positive := List.length_pos_iff.mpr named
  have gap := Text.dropGap_length_le (start.dropWhile isNameChar)
  rw [List.length_append] at split
  omega

/-- Closes the braces around the body of a field and skips the gap after them. -/
def closeField {text : List Char} (name : List Char) (body : Selection) (inner : List Char)
    (shorter : inner.length < text.length) : Attempt Item text :=
  match found : Text.dropGap inner with
  | '}' :: rest =>
    .read (.named ⟨String.ofList name, some body⟩) (Text.dropGap rest) (by
      have first := Text.dropGap_length_le inner
      have second := Text.dropGap_length_le rest
      rw [found, List.length_cons] at first
      omega)
  | place => .unclosed place

mutual

def readItem (text : List Char) : Attempt Item text :=
  match found : Text.dropGap text with
  | '.' :: '.' :: '.' :: rest =>
    .read .spread (Text.dropGap rest) (by
      have first := Text.dropGap_length_le text
      have second := Text.dropGap_length_le rest
      simp only [found, List.length_cons] at first
      omega)
  | start =>
    if named : start.takeWhile isNameChar = [] then .absent start
    else
      match opened : Text.dropGap (start.dropWhile isNameChar) with
      | '{' :: inner =>
        have shorter : inner.length < text.length := by
          have first := Text.dropGap_length_le text
          have second := dropGap_dropWhile_length_lt named
          rw [opened, List.length_cons] at second
          rw [found] at first
          omega
        match readBody inner with
        | .read body rest shorterRest =>
          closeField (start.takeWhile isNameChar) body rest (Nat.lt_trans shorterRest shorter)
        | .absent _ => closeField (start.takeWhile isNameChar) everything inner shorter
        | .unclosed place => .unclosed place
      | rest =>
        .read (.named ⟨String.ofList (start.takeWhile isNameChar), none⟩) rest (by
          have first := Text.dropGap_length_le text
          have second := dropGap_dropWhile_length_lt named
          rw [opened] at second
          rw [found] at first
          omega)
termination_by (text.length, 0)

def readBody (text : List Char) : Attempt Selection text :=
  match readItem text with
  | .read item rest shorter =>
    match readMore rest with
    | .ok ⟨(items, after), notLonger⟩ =>
      .read (ofItems (item :: items)) after (Nat.lt_of_le_of_lt notLonger shorter)
    | .error place => .unclosed place
  | .absent place => .absent place
  | .unclosed place => .unclosed place
termination_by (text.length, 1)

/-- Reads the further entries of a body, each behind a comma. A comma that no entry follows is
left unread. The error is the place of a brace that is not closed. -/
def readMore (text : List Char) :
    Except (List Char) { read : List Item × List Char // read.2.length ≤ text.length } :=
  match text with
  | ',' :: next =>
    match readItem next with
    | .read item rest shorter =>
      match readMore rest with
      | .ok ⟨(items, after), notLonger⟩ =>
        .ok ⟨(item :: items, after), by simp only [List.length_cons] at *; omega⟩
      | .error place => .error place
    | .absent _ => .ok ⟨([], ',' :: next), Nat.le_refl _⟩
    | .unclosed place => .error place
  | text => .ok ⟨([], text), Nat.le_refl _⟩
termination_by (text.length, 0)

end

/-- The first opening brace that nests deeper than `maxDepth`, when `depth` braces are open
already. A closing brace that closes nothing does not count. -/
def findTooDeep (depth : Nat) : List Char → Option (List Char)
  | [] => none
  | c :: rest =>
    if c = '{' then
      if maxDepth ≤ depth then some (c :: rest) else findTooDeep (depth + 1) rest
    else if c = '}' then findTooDeep (depth - 1) rest
    else findTooDeep depth rest

/-- Reads a whole text as a selection. The nesting is checked first, over the raw text. -/
def parseChars (text : List Char) : Except SyntaxError Selection :=
  match findTooDeep 0 text with
  | some place => .error ⟨.nestedTooDeep, text, place⟩
  | none =>
    match readBody text with
    | .read selection [] _ => .ok selection
    | .read _ place _ => .error ⟨.textLeft, text, place⟩
    | .absent place => .error ⟨.entryMissing, text, place⟩
    | .unclosed place => .error ⟨.braceUnclosed, text, place⟩

def parse (text : String) : Except SyntaxError Selection :=
  parseChars text.toList

end SelectionPlan.Selection
