import SelectionPlan.Path

/-!
# Plans

A plan tells a document store what to fetch of a record: the paths to select and the relations to
follow. A relation is followed by a plan of its own for the related record, whose paths start at
the root of that record.
-/
namespace SelectionPlan

/-- Paths to select, and relations to populate with the plans for their related records. -/
structure Plan where
  select : List String
  populate : List (String × Plan)

namespace Plan

def empty : Plan := ⟨[], []⟩

def unit (path : String) : Plan := ⟨[path], []⟩

/-- Follows the relation at `path`, which has to be selected for that, with the plan `related`. -/
def relation (path : String) (related : Plan) : Plan := ⟨[path], [(path, related)]⟩

def isEmpty (plan : Plan) : Bool :=
  plan.select.isEmpty && plan.populate.isEmpty

/-- First everything of the one plan, then everything of the other. -/
def append (first second : Plan) : Plan :=
  ⟨first.select ++ second.select, first.populate ++ second.populate⟩

instance : Append Plan := ⟨append⟩

/-- Selects every path once, at its first place. -/
def dedup (plan : Plan) : Plan :=
  { plan with select := plan.select.eraseDups }

/-- Moves a plan below `above`. Plans for related records stay as they are, since their paths do
not start here. -/
def rerooted (above : String) (plan : Plan) : Plan where
  select := plan.select.map (Path.join above)
  populate := plan.populate.map fun entry => (Path.join above entry.1, entry.2)

end Plan

end SelectionPlan
