/-!
# Ordered dictionaries

A dictionary is a list of entries whose keys strictly ascend by code points, so two dictionaries
with the same entries are equal.
-/
namespace SelectionPlan

/-- Entries in the ascending order of their keys. -/
abbrev Dict (α : Type) := List (String × α)

namespace Dict

variable {α : Type}

def get? (key : String) (dict : Dict α) : Option α :=
  (dict.find? fun entry => entry.1 == key).map Prod.snd

/-- Stores a value under a key, in place of the value that was there. -/
def insert (key : String) (value : α) : Dict α → Dict α
  | [] => [(key, value)]
  | (name, old) :: rest =>
    if key < name then (key, value) :: (name, old) :: rest
    else if key = name then (key, value) :: rest
    else (name, old) :: insert key value rest

def keys (dict : Dict α) : List String :=
  dict.map Prod.fst

/-- The dictionary of a list of entries; of the entries with one key the last counts. -/
def ofList (entries : List (String × α)) : Dict α :=
  entries.foldl (fun dict entry => dict.insert entry.1 entry.2) []

end Dict

end SelectionPlan
