import SelectionPlan.Selection.Basic
import SelectionPlan.Proofs.Path.Segments

/-!
# The bodies of a selection

A selection is one body, and every expanded field brings another one. What is asked of all of them
is asked of each, at whatever depth.
-/
namespace SelectionPlan.Selection

/-- `P` holds of a selection and of everything that expands a field in it, at any depth. -/
inductive EveryBody (P : Selection → Prop) : Selection → Prop
  | intro {selection : Selection} : P selection →
    (∀ field ∈ selection.fields, ∀ body, field.body = some body → EveryBody P body) →
      EveryBody P selection

/-- Every name is one segment of a path. -/
def WellNamed (selection : Selection) : Prop :=
  selection.EveryBody fun body => ∀ name ∈ body.names, Path.Plain name

/-- No name holds a dot. Names may be empty. -/
def DotFree (selection : Selection) : Prop :=
  selection.EveryBody fun body => ∀ name ∈ body.names, '.' ∉ name.toList

/-- No body names a field twice. -/
def NamesDistinct (selection : Selection) : Prop :=
  selection.EveryBody fun body => body.names.Nodup

theorem EveryBody.imp {P Q : Selection → Prop} (weaker : ∀ body, P body → Q body)
    {selection : Selection} (every : selection.EveryBody P) : selection.EveryBody Q := by
  induction every with
  | intro holds _ ih => exact .intro (weaker _ holds) ih

theorem WellNamed.dotFree {selection : Selection} (named : selection.WellNamed) :
    selection.DotFree :=
  named.imp fun _ plain name member => (plain name member).2

-- Where `P` splits into a condition on the first field and `P` of the others, so does `P` of all
-- bodies.
private theorem everyBody_cons_iff {P : Selection → Prop} {first : Prop} {all : Bool} {field : Field}
    {rest : List Field} (split : P ⟨all, field :: rest⟩ ↔ first ∧ P ⟨all, rest⟩) :
    EveryBody P ⟨all, field :: rest⟩ ↔
      first ∧ (∀ body, field.body = some body → EveryBody P body) ∧ EveryBody P ⟨all, rest⟩ := by
  constructor
  · intro every
    cases every with
    | intro holds below =>
      obtain ⟨holdsFirst, holdsRest⟩ := split.mp holds
      obtain ⟨belowFirst, belowRest⟩ := List.forall_mem_cons.mp below
      exact ⟨holdsFirst, belowFirst, .intro holdsRest belowRest⟩
  · rintro ⟨holdsFirst, belowFirst, every⟩
    cases every with
    | intro holdsRest belowRest =>
      exact .intro (split.mpr ⟨holdsFirst, holdsRest⟩)
        (List.forall_mem_cons.mpr ⟨belowFirst, belowRest⟩)

theorem wellNamed_nil (all : Bool) : WellNamed ⟨all, []⟩ :=
  .intro (by simp [names]) (by simp)

theorem wellNamed_cons_iff {all : Bool} {field : Field} {rest : List Field} :
    WellNamed ⟨all, field :: rest⟩ ↔ Path.Plain field.name ∧
      (∀ body, field.body = some body → body.WellNamed) ∧ WellNamed ⟨all, rest⟩ :=
  everyBody_cons_iff List.forall_mem_cons

theorem dotFree_nil (all : Bool) : DotFree ⟨all, []⟩ :=
  .intro (by simp [names]) (by simp)

theorem dotFree_cons_iff {all : Bool} {field : Field} {rest : List Field} :
    DotFree ⟨all, field :: rest⟩ ↔ '.' ∉ field.name.toList ∧
      (∀ body, field.body = some body → body.DotFree) ∧ DotFree ⟨all, rest⟩ :=
  everyBody_cons_iff List.forall_mem_cons

/-- The names on the way to a field are those above it and its own. -/
theorem DotFree.first {all : Bool} {field : Field} {rest : List Field}
    (dotFree : DotFree ⟨all, field :: rest⟩) {place : List String}
    (above : ∀ name ∈ place, '.' ∉ name.toList) :
    ∀ name ∈ place ++ [field.name], '.' ∉ name.toList := by
  have own := (dotFree_cons_iff.mp dotFree).1
  exact List.forall_mem_append.mpr ⟨above, List.forall_mem_singleton.mpr own⟩

theorem namesDistinct_nil (all : Bool) : NamesDistinct ⟨all, []⟩ :=
  .intro (by simp [names]) (by simp)

theorem namesDistinct_cons_iff {all : Bool} {field : Field} {rest : List Field} :
    NamesDistinct ⟨all, field :: rest⟩ ↔ field.name ∉ rest.map Entry.name ∧
      (∀ body, field.body = some body → body.NamesDistinct) ∧ NamesDistinct ⟨all, rest⟩ :=
  everyBody_cons_iff List.nodup_cons

/-- A body is well named at a place: so are the names that lead there. -/
structure NamedAt (place : List String) (body : Selection) : Prop where
  above : ∀ name ∈ place, Path.Plain name
  within : body.WellNamed

namespace NamedAt

variable {place : List String} {all : Bool} {field : Field} {others : List Field}

theorem first (named : NamedAt place ⟨all, field :: others⟩) :
    ∀ name ∈ place ++ [field.name], Path.Plain name := by
  have plain := (wellNamed_cons_iff.mp named.within).1
  exact List.forall_mem_append.mpr ⟨named.above, List.forall_mem_singleton.mpr plain⟩

theorem inside (named : NamedAt place ⟨all, field :: others⟩) {body : Selection}
    (expands : field.body = some body) : NamedAt (place ++ [field.name]) body :=
  ⟨named.first, (wellNamed_cons_iff.mp named.within).2.1 body expands⟩

theorem rest (named : NamedAt place ⟨all, field :: others⟩) : NamedAt place ⟨all, others⟩ :=
  ⟨named.above, (wellNamed_cons_iff.mp named.within).2.2⟩

/-- Where another document starts, the names that lead there do not count. -/
theorem alone {body : Selection} (named : NamedAt place body) : NamedAt [] body :=
  ⟨List.forall_mem_nil _, named.within⟩

end NamedAt

/-- Induction over the fields of a body: each expanded field brings the fields of its own body. -/
@[elab_as_elim]
theorem fields_induction {motive : List Field → Prop} (nil : motive [])
    (unit : ∀ name rest, motive rest → motive (⟨name, none⟩ :: rest))
    (expanded : ∀ name (body : Selection) rest, motive body.fields → motive rest →
      motive (⟨name, some body⟩ :: rest)) (fields : List Field) : motive fields :=
  match fields with
  | [] => nil
  | ⟨name, none⟩ :: rest => unit name rest (fields_induction nil unit expanded rest)
  | ⟨name, some ⟨all, inner⟩⟩ :: rest =>
    expanded name ⟨all, inner⟩ rest (fields_induction nil unit expanded inner)
      (fields_induction nil unit expanded rest)

end SelectionPlan.Selection
