/-!
# Selections

A selection names the fields wanted at one nesting level of a document and says whether the
remaining fields of that level are wanted too. A field is taken as a whole, or expanded by a
selection of its own.
-/
namespace SelectionPlan

/-- A named entry of a selection, over the type of the selections that may expand it. -/
structure Entry (σ : Type) where
  name : String
  /-- `none` takes the field as a whole; `some body` expands it. -/
  body : Option σ

/-- The fields named at one level, in the order they were written, and whether all the other
fields of the level are wanted. -/
structure Selection where
  all : Bool
  fields : List (Entry Selection)

/-- A field of a selection. -/
abbrev Field := Entry Selection

namespace Selection

def everything : Selection := ⟨true, []⟩

def names (selection : Selection) : List String :=
  selection.fields.map Entry.name

def isEverything (selection : Selection) : Bool :=
  selection.all && selection.fields.isEmpty

theorem isEverything_iff (selection : Selection) :
    selection.isEverything = true ↔ selection = everything := by
  obtain ⟨all, fields⟩ := selection
  simp [isEverything, everything]

end Selection

end SelectionPlan
