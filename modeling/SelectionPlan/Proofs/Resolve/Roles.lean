import SelectionPlan.Resolve

/-!
# Roles from declarations

What the declarations of a schema make of an expanded field, rule by rule: a virtual relation comes
before whatever is stored at the path, and where neither is declared there is a plain object. The
role of a field is the one that these rules give it.
-/
namespace SelectionPlan.Schema

/-- The role that an expanded field at the path has by what is declared there. -/
inductive Assigns (schema : Schema) (path : String) : Role → Prop
  | virtual {model : String} : schema.virtual? path = some model →
    Assigns schema path (.relation model)
  | reference {model : String} : schema.virtual? path = none →
    schema.path? path = some (.reference model) → Assigns schema path (.relation model)
  | embedded {sub : Schema} : schema.virtual? path = none →
    schema.path? path = some (.embedded sub) → Assigns schema path (.embedded sub)
  | leaf : schema.virtual? path = none → schema.path? path = some .scalar →
    Assigns schema path .leaf
  | object : schema.virtual? path = none → schema.path? path = none → Assigns schema path .object

theorem role_eq_iff {schema : Schema} {path : String} {role : Role} :
    schema.role path = role ↔ schema.Assigns path role := by
  constructor
  · rintro rfl
    unfold Schema.role
    split
    next computed => exact .virtual computed
    next computed =>
      split
      next found => exact .reference computed found
      next found => exact .embedded computed found
      next found => exact .leaf computed found
      next missing => exact .object computed missing
  · intro assigned
    unfold Schema.role
    cases assigned with
    | virtual computed => rw [computed]
    | reference computed found | embedded computed found | leaf computed found
    | object computed found => rw [computed, found]

end SelectionPlan.Schema
