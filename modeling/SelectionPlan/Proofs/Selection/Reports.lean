import SelectionPlan.Selection.SyntaxError
import Mathlib.Data.List.Induction
import Mathlib.Data.List.TakeWhile

/-!
# What reports show

A report shows the place of an error by the number of its line, and by the line with a caret below.
The caret stands as far from the start of the line as the place does, counted in bytes, so that the
lines before and the caret together give the offset of the place.
-/
namespace SelectionPlan.Selection

/-- The last line of a text starts behind the last line end, or with the text. -/
structure LastLine (text before line : List Char) : Prop where
  cut : text = before ++ line
  flat : '\n' ∉ line
  starts : before = [] ∨ ∃ earlier, before = earlier ++ ['\n']

/-- A line with a caret below the place between `line`, which is its front, and `rest`. -/
def drawing (line rest : List Char) : String :=
  String.ofList (Text.trimEnd (line ++ rest.takeWhile (· ≠ '\n'))) ++ "\n" ++
    String.ofList (List.replicate (Text.byteSize line) ' ') ++ "^"

/-- The numbered item of a report that tells what was being read at a place. -/
def contextReport (item number : Nat) (context shown : String) : String :=
  s!"{item}: at line {number}, in {context}:\n{shown}\n\n"

/-- What is said where a text should have its first entry. -/
def entryReport (number : Nat) (shown : String) : String :=
  contextReport 0 number "TakeWhile1" shown ++ contextReport 1 number "field name" shown ++
    contextReport 2 number "Alt" shown

/-- What is said where a brace should be closed. -/
def braceReport (number : Nat) (shown : String) (rest : List Char) : String :=
  let found := match rest with
    | [] => "got end of input"
    | c :: _ => "found " ++ c.toString
  s!"{0}: at line {number}:\n" ++ shown ++ "\nexpected '\x7d', " ++ found ++ "\n\n" ++
    contextReport 1 number "closing brace" shown

theorem exists_lastLine (text : List Char) : ∃ before line, LastLine text before line := by
  induction text using List.reverseRecOn with
  | nil => exact ⟨[], [], rfl, List.not_mem_nil, .inl rfl⟩
  | append_singleton text c ih =>
    by_cases ended : c = '\n'
    · subst ended
      exact ⟨text ++ ['\n'], [], (List.append_nil _).symm, List.not_mem_nil, .inr ⟨text, rfl⟩⟩
    · obtain ⟨before, line, rfl, flat, starts⟩ := ih
      refine ⟨before, line ++ [c], List.append_assoc .., ?_, starts⟩
      simp [flat, Ne.symm ended]

section Shown

variable {front before line : List Char} (last : LastLine front before line) (rest : List Char)
include last

/-- The line of a place is its last line so far, and goes on to the next line end. -/
theorem LastLine.excerpt : Text.excerpt (front ++ rest) rest =
    ⟨before.count '\n' + 1, Text.trimEnd (line ++ rest.takeWhile (· ≠ '\n')),
      Text.byteSize line⟩ := by
  obtain ⟨rfl, flat, starts⟩ := last
  have taken : (before ++ line ++ rest).take ((before ++ line ++ rest).length - rest.length) =
      before ++ line := by
    rw [List.length_append, Nat.add_sub_cancel, List.take_left]
  have single : line.count '\n' = 0 := List.count_eq_zero.mpr flat
  have within : ∀ c ∈ line.reverse, decide (c ≠ '\n') = true := by
    intro c member
    have : c ≠ '\n' := fun same => flat (same ▸ List.mem_reverse.mp member)
    simpa using this
  have ended : before.reverse.takeWhile (decide <| · ≠ '\n') = [] := by
    rcases starts with rfl | ⟨earlier, rfl⟩ <;> simp
  have shown : ((before ++ line).reverse.takeWhile (decide <| · ≠ '\n')).reverse = line := by
    rw [List.reverse_append, List.takeWhile_append_of_pos within, ended, List.append_nil,
      List.reverse_reverse]
  rw [Text.excerpt, taken, shown, List.count_append, single]

theorem LastLine.number : (Text.excerpt (front ++ rest) rest).line = before.count '\n' + 1 := by
  rw [last.excerpt]

theorem LastLine.drawing_eq : String.ofList (Text.excerpt (front ++ rest) rest).drawing =
    drawing line rest := by
  rw [last.excerpt]
  simp [Text.Excerpt.drawing, drawing, String.append_assoc]

end Shown

namespace SyntaxError

variable {front before line rest : List Char}

theorem offset_append (reason : Reason) (front rest : List Char) :
    offset ⟨reason, front ++ rest, rest⟩ = Text.byteSize front :=
  Text.offset_append front rest

theorem contextItem_eq (reason : Reason) (last : LastLine front before line)
    (some : front ++ rest ≠ []) (item : Nat) (context : String) :
    contextItem ⟨reason, front ++ rest, rest⟩ item context =
      contextReport item (before.count '\n' + 1) context (drawing line rest) := by
  simp only [contextItem, List.isEmpty_iff, if_neg some, last.number, last.drawing_eq]
  rfl

/-- A report on something missing shows the place that its offset counts unless there is no text. -/
theorem details_shown (front : List Char) {rest : List Char} (some : front ++ rest ≠ []) :
    ∃ before line, LastLine front before line ∧
      (∀ reason, offset ⟨reason, front ++ rest, rest⟩ =
        Text.byteSize before + Text.byteSize line) ∧
      details ⟨.entryMissing, front ++ rest, rest⟩ =
        entryReport (before.count '\n' + 1) (drawing line rest) ∧
      details ⟨.braceUnclosed, front ++ rest, rest⟩ =
        braceReport (before.count '\n' + 1) (drawing line rest) rest := by
  obtain ⟨before, line, last⟩ := exists_lastLine front
  refine ⟨before, line, last, fun reason => ?_, ?_, ?_⟩
  · rw [offset_append, last.cut, Text.byteSize_append]
  · simp only [details, contextItem_eq _ last some, entryReport]
  · cases rest <;>
      simp only [details, contextItem_eq _ last some, braceItem, last.number, last.drawing_eq,
        braceReport]

example : details ⟨.entryMissing, [], []⟩ = "0: in TakeWhile1, got empty input\n\n" ++
    "1: in field name, got empty input\n\n" ++ "2: in Alt, got empty input\n\n" := by
  decide +kernel

example : details ⟨.braceUnclosed, ['a', '\n', 'é', '{', 'b', ' ', 'c'], ['c']⟩ =
    "0: at line 2:\né\x7bb c\n     ^\nexpected '\x7d', found c\n\n" ++
      "1: at line 2, in closing brace:\né\x7bb c\n     ^\n\n" := by
  decide +kernel

end SyntaxError

end SelectionPlan.Selection
