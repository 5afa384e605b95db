import SelectionPlan.Json.Record
import SelectionPlan.Resolve

/-!
# Resolve options as JSON

Options are a record whose only field, `strict`, may be left out.
-/
namespace SelectionPlan.ResolveOptions

open Json (Mismatch)

def ofMembers (strict : Option Bool) : List (String × Json) → Except Mismatch ResolveOptions
  | [] => .ok ⟨strict.getD false⟩
  | (key, value) :: rest =>
    if key = "strict" then do
      Json.unseen key strict
      ofMembers (some (← Json.asBool value)) rest
    else ofMembers strict rest

def ofJson : Json → Except Mismatch ResolveOptions
  | .object members => ofMembers none members
  | .array [] => .ok {}
  | .array (strict :: rest) => do
    let strict ← Json.asBool strict
    if rest.isEmpty then return ⟨strict⟩ else throw (.tooLong (rest.length + 1))
  | value => .error (.wrongType (Json.found value) (.record "ResolveOptions"))

end SelectionPlan.ResolveOptions
