import SelectionPlan.Yaml.BlockScalar
import SelectionPlan.Yaml.Name
import SelectionPlan.Yaml.ScalarText
import SelectionPlan.Yaml.Token

/-!
# Splitting a YAML text into tokens

Outside of brackets the structure follows from the indentation: a wider column opens a block and a
narrower one closes all blocks that are wider. A mapping key is recognised only at its colon, so
the place of everything that might be a key is remembered, and the tokens that a key needs are put
in there later. Such a key has to end on its line and within 1024 bytes.
-/
namespace SelectionPlan.Yaml

/-- Something that is a mapping key if a colon follows. -/
structure PossibleKey where
  /-- Nothing else than a key makes sense here. -/
  required : Bool
  /-- Number of tokens in front of it. -/
  token : Nat
  position : Position

/-- State of the lexer. -/
structure Lexer where
  cursor : Cursor
  /-- Brackets that are open. -/
  flowLevel : Nat
  /-- Column of the innermost block; negative outside of all blocks. -/
  indent : Int
  /-- Columns of the blocks around it. -/
  outer : List Int
  /-- Whether a key without `?` may come next. -/
  keyAllowed : Bool
  /-- The last possible key of every bracket, the innermost first. -/
  keys : List (Option PossibleKey)
  tokens : Array Token

namespace Lexer

open Name

def start (text : List Char) : Lexer :=
  ⟨.start text, 0, -1, [], true, [none], #[]⟩

def inFlow (lexer : Lexer) : Bool :=
  lexer.flowLevel != 0

def column (lexer : Lexer) : Int :=
  lexer.cursor.position.column

def push (lexer : Lexer) (token : Token) : Lexer :=
  { lexer with tokens := lexer.tokens.push token }

/-- Passes some characters that make a token. -/
def pushSkipping (lexer : Lexer) (count : Nat) (token : Token) : Lexer :=
  { lexer with cursor := lexer.cursor.advance count, tokens := lexer.tokens.push token }

/-- Decides whether a key may come next. -/
def allowKey (lexer : Lexer) (allowed : Bool) : Lexer :=
  { lexer with keyAllowed := allowed }

/-! ## Between tokens -/

/-- Passes blanks, comments and line ends. A tab is no blank where it might be taken for
indentation. Every round passes a character, so the length of the text is fuel enough. -/
def skipGap : Nat → Lexer → Lexer
  | 0, lexer => lexer
  | fuel + 1, lexer =>
    match lexer.cursor.rest with
    | [] => lexer
    | c :: _ =>
      let tabs := lexer.inFlow || !lexer.keyAllowed
      if c = '\ufeff' && lexer.cursor.position.column = 0 then
        skipGap fuel { lexer with cursor := lexer.cursor.advance 1 }
      else if c = ' ' || (c = '\t' && tabs) then
        skipGap fuel { lexer with cursor := lexer.cursor.advance 1 }
      else if c = '#' then
        skipGap fuel { lexer with cursor := (lexer.cursor.takeWhile fun d => !isBreak d).2 }
      else if isBreak c then
        skipGap fuel { lexer with
          cursor := lexer.cursor.takeBreak.2
          keyAllowed := lexer.keyAllowed || !lexer.inFlow }
      else lexer

/-- Whether a possible key is too far back to be one. -/
def isStale (position : Position) (key : PossibleKey) : Bool :=
  key.position.line < position.line || key.position.offset + 1024 < position.offset

/-- Gives up the possible keys that are too far back, none of which may be required. -/
def dropStaleKeys (lexer : Lexer) : Option Lexer := do
  let position := lexer.cursor.position
  if lexer.keys.any fun key => key.any fun key => isStale position key && key.required then none
  return { lexer with
    keys := lexer.keys.map fun key => key.filter fun key => !isStale position key }

/-- Gives up the possible key of the innermost bracket, which may not be required. -/
def dropKey (lexer : Lexer) : Option Lexer :=
  match lexer.keys with
  | some key :: rest => if key.required then none else some { lexer with keys := none :: rest }
  | _ => some lexer

/-- Remembers the next character as the start of a possible key. -/
def saveKey (lexer : Lexer) : Option Lexer :=
  if lexer.keyAllowed then do
    let required := !lexer.inFlow && lexer.indent == lexer.column
    let lexer ← lexer.dropKey
    let key : PossibleKey := ⟨required, lexer.tokens.size, lexer.cursor.position⟩
    return { lexer with keys := some key :: lexer.keys.tail }
  else some lexer

/-- Closes the blocks that are indented wider than `column`, given the columns around. -/
def closeBlocks (column : Int) (indent : Int) (tokens : Array Token) :
    List Int → Int × List Int × Array Token
  | [] => (indent, [], tokens)
  | around :: outer =>
    if column < indent then closeBlocks column around (tokens.push .blockEnd) outer
    else (indent, around :: outer, tokens)

/-- Closes the blocks that are indented wider than `column`. -/
def unroll (lexer : Lexer) (column : Int) : Lexer :=
  if lexer.inFlow then lexer
  else
    let (indent, outer, tokens) := closeBlocks column lexer.indent lexer.tokens lexer.outer
    { lexer with indent, outer, tokens }

/-- Opens a block at `column`, if it is wider than the current one, with its token as number
`place`. -/
def roll (lexer : Lexer) (column : Int) (place : Nat) (token : Token) : Lexer :=
  if !lexer.inFlow && lexer.indent < column then
    { lexer with
      indent := column
      outer := lexer.indent :: lexer.outer
      tokens := lexer.tokens.insertIdxIfInBounds place token }
  else lexer

/-! ## Directives, anchors and tags -/

def directive (lexer : Lexer) : Option Lexer := do
  let lexer ← (lexer.unroll (-1)).dropKey
  let lexer := lexer.allowKey false
  let (name, next) := (lexer.cursor.advance 1).takeWhile isWordChar
  if !atBlank next.rest then none
  let (_, next) := next.takeWhile isBlank
  if name = ['Y', 'A', 'M', 'L'] then
    let (major, next) ← directiveNumber next
    if next.rest.head? ≠ some '.' then none
    let (minor, next) ← directiveNumber (next.advance 1)
    let next ← finishLine next
    return { lexer with cursor := next }.push (.versionDirective major minor)
  else if name = ['T', 'A', 'G'] then
    let (handle, next) ← tagHandle next
    if !(handle = "!" || (2 ≤ handle.length && handle.endsWith "!")) then none
    if !(next.rest.head?.any isBlank) then none
    let (_, next) := next.takeWhile isBlank
    let (root, next) ← someTagText true next
    if !atBlank next.rest then none
    let next ← finishLine next
    return { lexer with cursor := next }.push (.tagDirective handle root)
  else none

def tag (lexer : Lexer) : Option Lexer := do
  let lexer ← lexer.saveKey
  let lexer := lexer.allowKey false
  let (handle, suffix, next) ←
    if lexer.cursor.rest.drop 1 |>.head? |>.any (· = '<') then do
      let (tag, next) ← someTagText true (lexer.cursor.advance 2)
      if next.rest.head? ≠ some '>' then none
      pure ("", tag, next.advance 1)
    else do
      let (handle, next) ← tagHandle lexer.cursor
      if 2 ≤ handle.length && handle.endsWith "!" then
        let (suffix, next) ← someTagText false next
        pure (handle, suffix, next)
      else
        let (rest, next) ← tagText false next
        let suffix := Tag.ofString (String.ofList (handle.toList.drop 1)) ++ rest
        pure (if suffix.isEmpty then ("", Tag.localRoot, next) else ("!", suffix, next))
  if !(atBlank next.rest || (lexer.inFlow && next.rest.head? = some ',')) then none
  return { lexer with cursor := next }.push (.tag handle suffix)

/-! ## Tokens -/

def documentMark (lexer : Lexer) (token : Token) : Option Lexer := do
  let lexer ← (lexer.unroll (-1)).dropKey
  return (lexer.allowKey false).pushSkipping 3 token

def openFlow (lexer : Lexer) (token : Token) : Option Lexer := do
  let lexer ← lexer.saveKey
  return { lexer with
    flowLevel := lexer.flowLevel + 1
    keys := none :: lexer.keys
    keyAllowed := true }.pushSkipping 1 token

def closeFlow (lexer : Lexer) (token : Token) : Option Lexer := do
  let lexer ← lexer.dropKey
  let keys := if lexer.inFlow then lexer.keys.tail else lexer.keys
  return { lexer with
    flowLevel := lexer.flowLevel - 1
    keys
    keyAllowed := false }.pushSkipping 1 token

def flowEntry (lexer : Lexer) : Option Lexer := do
  let lexer ← lexer.dropKey
  return (lexer.allowKey true).pushSkipping 1 .flowEntry

/-- Opens a block for the indicator that comes next, where it may stand. -/
def indicatorBlock (lexer : Lexer) (token : Token) : Option Lexer :=
  if lexer.inFlow then some lexer
  else if lexer.keyAllowed then some (lexer.roll lexer.column lexer.tokens.size token)
  else none

def blockEntry (lexer : Lexer) : Option Lexer := do
  let lexer ← lexer.indicatorBlock .blockSequenceStart
  let lexer ← lexer.dropKey
  return (lexer.allowKey true).pushSkipping 1 .blockEntry

def explicitKey (lexer : Lexer) : Option Lexer := do
  let lexer ← lexer.indicatorBlock .blockMappingStart
  let lexer ← lexer.dropKey
  return (lexer.allowKey (!lexer.inFlow)).pushSkipping 1 .key

/-- Reads the colon in front of a value. The possible key before it becomes a key. -/
def mappingValue (lexer : Lexer) : Option Lexer :=
  match lexer.keys with
  | some key :: rest =>
    let keyed := { lexer with
      tokens := lexer.tokens.insertIdxIfInBounds key.token .key
      keys := none :: rest }
    let rolled := keyed.roll key.position.column key.token .blockMappingStart
    some ((rolled.allowKey false).pushSkipping 1 .value)
  | _ => do
    let lexer ← lexer.indicatorBlock .blockMappingStart
    return (lexer.allowKey (!lexer.inFlow)).pushSkipping 1 .value

def anchor (lexer : Lexer) (make : String → Token) : Option Lexer := do
  let lexer ← lexer.saveKey
  let (name, next) ← anchorName lexer.cursor
  return { lexer with cursor := next, keyAllowed := false }.push (make name)

def blockScalar (lexer : Lexer) (style : Style) : Option Lexer := do
  let lexer ← lexer.dropKey
  let scalar ← ScalarText.block (style = .folded) lexer.indent (lexer.cursor.advance 1)
  return { lexer with cursor := scalar.cursor, keyAllowed := true }.push
    (.scalar style (String.ofList scalar.text))

def quotedScalar (lexer : Lexer) (style : Style) : Option Lexer := do
  let lexer ← lexer.saveKey
  let scalar ← ScalarText.quoted (style = .singleQuoted) (lexer.cursor.rest.length + 1)
    (lexer.cursor.advance 1) [] {}
  return { lexer with cursor := scalar.cursor, keyAllowed := false }.push
    (.scalar style (String.ofList scalar.text))

def plainScalar (lexer : Lexer) : Option Lexer := do
  let lexer ← lexer.saveKey
  let scalar ← ScalarText.plain lexer.inFlow (lexer.indent + 1).toNat
    (lexer.cursor.rest.length + 1) lexer.cursor [] {}
  return { lexer with cursor := scalar.cursor, keyAllowed := scalar.broken }.push
    (.scalar .plain (String.ofList scalar.text))

def isIndicator (c : Char) : Bool :=
  ['-', '?', ':', ',', '[', ']', '{', '}', '#', '&', '*', '!', '|', '>', '\'', '"', '%', '@',
    '\x60'].contains c

def token (lexer : Lexer) (c : Char) (rest : List Char) : Option Lexer :=
  let word := atBlank rest
  if c = '%' && lexer.column = 0 then lexer.directive
  else if lexer.cursor.atDocumentMark then
    lexer.documentMark (if c = '-' then .documentStart else .documentEnd)
  else if c = '[' then lexer.openFlow .flowSequenceStart
  else if c = '{' then lexer.openFlow .flowMappingStart
  else if c = ']' then lexer.closeFlow .flowSequenceEnd
  else if c = '}' then lexer.closeFlow .flowMappingEnd
  else if c = ',' then lexer.flowEntry
  else if c = '-' && word then lexer.blockEntry
  else if c = '?' && (lexer.inFlow || word) then lexer.explicitKey
  else if c = ':' && (lexer.inFlow || word) then lexer.mappingValue
  else if c = '*' then lexer.anchor .link
  else if c = '&' then lexer.anchor .anchor
  else if c = '!' then lexer.tag
  else if c = '|' && !lexer.inFlow then lexer.blockScalar .literal
  else if c = '>' && !lexer.inFlow then lexer.blockScalar .folded
  else if c = '\'' then lexer.quotedScalar .singleQuoted
  else if c = '"' then lexer.quotedScalar .doubleQuoted
  else if (!isIndicator c && !isBlank c) || (c = '-' && !(rest.head?.any isBlank)) ||
      (!lexer.inFlow && (c = '?' || c = ':') && !word) then lexer.plainScalar
  else none

/-- Ends the text: every block is closed, and nothing may be left of which a key was required. -/
def finish (lexer : Lexer) : Option (List Token) := do
  let lexer ← (lexer.unroll (-1)).dropKey
  return lexer.tokens.toList

/-- Reads tokens up to the end of the text. Every token takes a character, so the length of the
text is fuel enough. -/
def run : Nat → Lexer → Option (List Token)
  | 0, _ => none
  | fuel + 1, lexer => do
    let lexer ← (skipGap (lexer.cursor.rest.length + 1) lexer).dropStaleKeys
    let lexer := lexer.unroll lexer.column
    match lexer.cursor.rest with
    | [] => lexer.finish
    | c :: rest => run fuel (← lexer.token c rest)

end Lexer

def tokens (text : String) : Option (List Token) :=
  let chars := text.toList
  if chars.all Cursor.isAllowed then Lexer.run (chars.length + 1) (.start chars) else none

end SelectionPlan.Yaml
