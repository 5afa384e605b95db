import SelectionPlan.Schema

/-!
# Registered models

A registry gives the schema of a model by its name. Relations in schemas name their targets, and
the targets may refer back to each other in any way: nothing is looked up before it is needed.
-/
namespace SelectionPlan

/-- Schemas by model name. -/
structure Models where
  schemas : Dict Schema

namespace Models

def empty : Models := ⟨[]⟩

def register (models : Models) (name : String) (schema : Schema) : Models :=
  ⟨models.schemas.insert name schema⟩

def get? (models : Models) (name : String) : Option Schema :=
  models.schemas.get? name

def names (models : Models) : List String :=
  models.schemas.keys

def size (models : Models) : Nat :=
  models.schemas.length

def isEmpty (models : Models) : Bool :=
  models.schemas.isEmpty

end Models

/-- What is wrong where a model is needed that is not registered. -/
def modelMissingMessage (name : String) : String :=
  "model not registered: " ++ name

end SelectionPlan
