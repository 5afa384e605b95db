import SelectionPlan.Text.Ranges

/-!
# White space

Two sets are in use. Between the tokens of a selection only the space, the tab and the two line
end characters count; a text is blank, and is trimmed, by the White_Space property of Unicode.
-/
namespace SelectionPlan.Text

def isGap (c : Char) : Bool :=
  c = ' ' || c = '\t' || c = '\r' || c = '\n'

def dropGap (text : List Char) : List Char :=
  text.dropWhile isGap

theorem dropGap_length_le (text : List Char) : (dropGap text).length ≤ text.length :=
  (List.dropWhile_sublist _).length_le

/-- Code points with the White_Space property. -/
def spaceRanges : List (Nat × Nat) :=
  [(0x9, 0xD), (0x20, 0x20), (0x85, 0x85), (0xA0, 0xA0), (0x1680, 0x1680), (0x2000, 0x200A),
   (0x2028, 0x2029), (0x202F, 0x202F), (0x205F, 0x205F), (0x3000, 0x3000)]

/-- White space in the sense of Unicode. -/
def isSpace (c : Char) : Bool :=
  inRanges spaceRanges c

theorem isSpace_of_isGap {c : Char} (gap : isGap c = true) : isSpace c = true := by
  simp only [isGap, Bool.or_eq_true, decide_eq_true_eq] at gap
  rcases gap with ((rfl | rfl) | rfl) | rfl <;> decide

def trimEnd (text : List Char) : List Char :=
  (text.reverse.dropWhile isSpace).reverse

def trim (text : List Char) : List Char :=
  trimEnd (text.dropWhile isSpace)

def isBlank (text : List Char) : Bool :=
  text.all isSpace

end SelectionPlan.Text
