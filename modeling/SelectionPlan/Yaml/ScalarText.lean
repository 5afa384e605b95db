import SelectionPlan.Text.Digits
import SelectionPlan.Yaml.Cursor

/-!
# Texts of YAML scalars

A scalar may run over several lines. In plain and quoted scalars the blanks around a line end are
dropped and the line end is folded: a single one becomes a space, and of several the first is
dropped.
-/
namespace SelectionPlan.Yaml

/-- Blanks and line ends that were passed since the last other character. -/
structure Gap where
  /-- Blanks in front of the first line end. -/
  blanks : List Char := []
  /-- Whether a line end was passed. -/
  broken : Bool := false
  /-- The first line end; empty if it was escaped. -/
  first : List Char := []
  /-- Further line ends. -/
  further : List Char := []

namespace Gap

def isEmpty (gap : Gap) : Bool :=
  gap.blanks.isEmpty && !gap.broken

def addBlank (gap : Gap) (c : Char) : Gap :=
  if gap.broken then gap else { gap with blanks := gap.blanks ++ [c] }

def addBreak (gap : Gap) (lineEnd : List Char) : Gap :=
  if gap.broken then { gap with further := gap.further ++ lineEnd }
  else { broken := true, first := lineEnd }

/-- The text that a gap stands for between two other characters. -/
def fold (gap : Gap) : List Char :=
  if !gap.broken then gap.blanks
  else if gap.first = ['\n'] then if gap.further.isEmpty then [' '] else gap.further
  else gap.first ++ gap.further

end Gap

/-- A scalar that was read, and what follows it. -/
structure ScalarText where
  text : List Char
  cursor : Cursor
  /-- Whether a line end was passed after the scalar. -/
  broken : Bool := false

namespace ScalarText

def isFlowEnd (c : Char) : Bool :=
  c = ',' || c = '[' || c = ']' || c = '{' || c = '}'

/-- Reads a plain scalar whose further lines are indented by at least `indent`. The text so far is
reversed. Every round passes a character, so the length of the text is fuel enough. -/
def plain (flow : Bool) (indent : Nat) : Nat → Cursor → List Char → Gap → Option ScalarText
  | 0, cursor, text, gap => some ⟨text.reverse, cursor, gap.broken⟩
  | fuel + 1, cursor, text, gap =>
    match cursor.rest with
    | [] => some ⟨text.reverse, cursor, gap.broken⟩
    | c :: rest =>
      if isBreak c then
        let (lineEnd, next) := cursor.takeBreak
        plain flow indent fuel next text (gap.addBreak lineEnd)
      else if isBlank c then
        if gap.broken && cursor.position.column < indent && c = '\t' then none
        else plain flow indent fuel (cursor.advance 1) text (gap.addBlank c)
      else if !gap.isEmpty && ((!flow && cursor.position.column < indent) ||
          cursor.atDocumentMark || c = '#') then
        some ⟨text.reverse, cursor, gap.broken⟩
      else if flow && c = ':' && (rest.head?.any fun d => isFlowEnd d || d = '?') then none
      else if (c = ':' && atBlank rest) || (flow && isFlowEnd c) then
        some ⟨text.reverse, cursor, gap.broken⟩
      else plain flow indent fuel (cursor.advance 1) (c :: (gap.fold.reverse ++ text)) {}

def escaped? (c : Char) : Option Char :=
  match c with
  | '0' => some '\x00'
  | 'a' => some '\x07'
  | 'b' => some '\x08'
  | 't' => some '\t'
  | '\t' => some '\t'
  | 'n' => some '\n'
  | 'v' => some '\x0b'
  | 'f' => some '\x0c'
  | 'r' => some '\r'
  | 'e' => some '\x1b'
  | ' ' => some ' '
  | '"' => some '"'
  | '/' => some '/'
  | '\\' => some '\\'
  | 'N' => some '\u0085'
  | '_' => some '\u00a0'
  | 'L' => some '\u2028'
  | 'P' => some '\u2029'
  | _ => none

def escapeDigits? (c : Char) : Option Nat :=
  match c with
  | 'x' => some 2
  | 'u' => some 4
  | 'U' => some 8
  | _ => none

def hexChar? (count : Nat) (text : List Char) : Option Char := do
  if text.length < count then none
  let value ← Text.number? 16 (text.take count)
  if 0x10FFFF < value || (0xD800 ≤ value && value ≤ 0xDFFF) then none
  return Char.ofNat value

/-- Reads a quoted scalar after its opening quote. The text so far is reversed. Every round passes
a character, so the length of the text is fuel enough. -/
def quoted (single : Bool) : Nat → Cursor → List Char → Gap → Option ScalarText
  | 0, _, _, _ => none
  | fuel + 1, cursor, text, gap =>
    match cursor.rest with
    | [] => none
    | c :: rest =>
      let soFar := gap.fold.reverse ++ text
      if isBreak c then
        let (lineEnd, next) := cursor.takeBreak
        quoted single fuel next text (gap.addBreak lineEnd)
      else if isBlank c then quoted single fuel (cursor.advance 1) text (gap.addBlank c)
      else if gap.broken && cursor.atDocumentMark then none
      else if single then
        if c = '\'' then
          match rest with
          | '\'' :: _ => quoted single fuel (cursor.advance 2) ('\'' :: soFar) {}
          | _ => some ⟨soFar.reverse, cursor.advance 1, false⟩
        else quoted single fuel (cursor.advance 1) (c :: soFar) {}
      else if c = '"' then some ⟨soFar.reverse, cursor.advance 1, false⟩
      else if c = '\\' then
        match rest with
        | [] => none
        | letter :: digits =>
          if isBreak letter then
            quoted single fuel (cursor.advance 1).takeBreak.2 soFar { broken := true }
          else
            match escaped? letter, escapeDigits? letter with
            | some value, _ => quoted single fuel (cursor.advance 2) (value :: soFar) {}
            | none, some count =>
              match hexChar? count digits with
              | some value =>
                quoted single fuel (cursor.advance (2 + count)) (value :: soFar) {}
              | none => none
            | none, none => none
      else quoted single fuel (cursor.advance 1) (c :: soFar) {}

end ScalarText

end SelectionPlan.Yaml
