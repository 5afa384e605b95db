import SelectionPlan.Text.Blank
import SelectionPlan.Text.Bytes

/-!
# Pointing into a text

A place in a text is given by what follows it. An excerpt shows the line that holds it with a caret
below, at the distance in bytes from the start of the line.
-/
namespace SelectionPlan.Text

/-- The line around a place in a text. -/
structure Excerpt where
  /-- Lines are counted from one. -/
  line : Nat
  /-- The line without its end and without trailing white space. -/
  content : List Char
  /-- Bytes between the start of the line and the place. -/
  column : Nat

/-- The excerpt around the place in front of the ending `rest` of `text`. -/
def excerpt (text rest : List Char) : Excerpt :=
  let front := text.take (text.length - rest.length)
  let lineFront := (front.reverse.takeWhile (· ≠ '\n')).reverse
  { line := front.count '\n' + 1
    content := trimEnd (lineFront ++ rest.takeWhile (· ≠ '\n'))
    column := byteSize lineFront }

def Excerpt.drawing (e : Excerpt) : List Char :=
  e.content ++ ['\n'] ++ List.replicate e.column ' ' ++ ['^']

end SelectionPlan.Text
