import SelectionPlan.Text.Split

/-!
# Dotted paths

A path names a value inside a document by the names on the way to it, joined by dots. The path
`date.time` lies below `date`, and `dateline` does not: paths are compared segment by segment.
-/
namespace SelectionPlan.Path

/-- The names on the way of a path. -/
def segments (path : String) : List String :=
  Text.split '.' path

def ofSegments (names : List String) : String :=
  String.intercalate "." names

/-- The path that first goes along `above` and then along `below`. -/
def join (above below : String) : String :=
  above ++ "." ++ below

/-- Whether `path` lies strictly below `above`. -/
def isBelow (above path : String) : Bool :=
  (above ++ ".").toList.isPrefixOf path.toList

/-- The child of the parent with the segments `parent` that `path` is or lies below, unless it is
an excluded one. -/
def childToward (parent excluded : List String) (path : String) : Option String :=
  if parent.isPrefixOf (segments path) then
    match (segments path).drop parent.length with
    | [] => none
    | name :: _ => if excluded.contains name then none else some (ofSegments (parent ++ [name]))
  else none

/-- The children of `parent` that lie on some of the given paths, without the excluded names, each
once and in the order in which they first occur. Empty segments of the parent do not count, so the
empty path is the root of the document. -/
def otherChildren (paths : List String) (parent : String) (excluded : List String) : List String :=
  (paths.filterMap (childToward ((segments parent).filter (· ≠ "")) excluded)).eraseDups

end SelectionPlan.Path
