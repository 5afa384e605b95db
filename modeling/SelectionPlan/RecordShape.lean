/-!
# Shapes of records

What the writers of records agree on, in whatever format: the names of the fields, which of them
may be left out, and whether other names are passed over or refused.
-/
namespace SelectionPlan

/-- How a record is written. -/
structure RecordShape where
  name : String
  /-- Fields in order, with whether they may be left out. -/
  fields : List (String × Bool)
  /-- Allows no other members; such a record has a single field. -/
  closed : Bool := false

namespace RecordShape

def has (shape : RecordShape) (field : String) : Bool :=
  shape.fields.any (·.1 == field)

/-- The first field that is needed and was not seen. -/
def missing? (shape : RecordShape) (seen : List String) : Option String :=
  (shape.fields.find? fun field => !field.2 && !seen.contains field.1).map Prod.fst

end RecordShape

end SelectionPlan
