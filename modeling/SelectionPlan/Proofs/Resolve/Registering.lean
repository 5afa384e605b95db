import SelectionPlan.Proofs.Resolve.Faults
import SelectionPlan.Proofs.Resolve.Joining
import SelectionPlan.Proofs.Resolve.Simulation

/-!
# What further models change

Models are looked up where relations lead to them, and nowhere else. As long as a resolution finds
the models that it looks up, it cannot tell how many others there are. So registering more of them
changes an outcome only if it was that a model is missing, and then that model is the target of a
relation that the selection expands.
-/
namespace SelectionPlan

/-- The wider registry has the models of the other one, with the same schemas. -/
def Models.Extends (wider models : Models) : Prop :=
  ∀ name schema, models.get? name = some schema → wider.get? name = some schema

theorem Models.extends_register {models : Models} {name : String}
    (fresh : models.get? name = none) (schema : Schema) :
    (models.register name schema).Extends models := by
  intro other known found
  have different : name ≠ other := by
    rintro rfl
    cases fresh.symm.trans found
  exact (Dict.get?_insert name other schema models.schemas).trans
    ((if_neg different).trans found)

namespace Resolver

/-! ### Two results -/

/-- The result with fewer models beside the result with more: the same, unless a model is missing. -/
def Stays {α : Type} (narrow wide : Except SelectError α) : Prop :=
  narrow = wide ∨ ∃ model, narrow = .error (.modelMissing model)

namespace Stays

variable {α β : Type} {narrow wide : Except SelectError α}

theorem refl (result : Except SelectError α) : Stays result result :=
  .inl rfl

theorem map (stays : Stays narrow wide) (f : α → β) : Stays (narrow.map f) (wide.map f) := by
  rcases stays with rfl | ⟨model, rfl⟩
  · exact refl _
  · exact .inr ⟨model, rfl⟩

theorem under (stays : Stays narrow wide) (above : String) :
    Stays (narrow.mapError (·.under above)) (wide.mapError (·.under above)) := by
  rcases stays with rfl | ⟨model, rfl⟩
  · exact refl _
  · exact .inr ⟨model, rfl⟩

theorem followedBy {narrow wide narrow' wide' : Except SelectError Plan}
    (front : Stays narrow wide) (back : Stays narrow' wide') :
    Stays (followedBy narrow narrow') (followedBy wide wide') := by
  rcases front with rfl | ⟨model, rfl⟩
  · cases narrow with
    | error error => exact refl _
    | ok plan => exact back.map _
  · exact .inr ⟨model, rfl⟩

end Stays

/-! ### Resolving with more models -/

section Resolving

variable {models wider : Models} (more : wider.Extends models) (options : ResolveOptions)

include more

theorem simulates_wider :
    Simulates Stays (⟨models, options⟩ : Resolver) (⟨wider, options⟩ : Resolver) where
  ok := fun _ => .refl _
  map := .map
  under := .under
  followedBy := .followedBy
  relation := by
    -- The one place where a model is looked up.
    intro schema names model role body document
    cases found : models.get? model with
    | none =>
      rw [expandAt_missing body role found]
      exact .inr ⟨model, rfl⟩
    | some target =>
      rw [expandAt_relation body role found, expandAt_relation body role (more _ _ found)]
      exact ((document target).under _).map _
  object := by
    intro schema names some role body members
    rw [expandAt_object some body role, expandAt_object some body role]
    split
    next => exact .refl _
    next => exact members

theorem stays_resolve (schema : Schema) (selection : Selection) :
    Stays ((⟨models, options⟩ : Resolver).resolve schema selection)
      ((⟨wider, options⟩ : Resolver).resolve schema selection) :=
  (simulates_wider more options).resolve schema selection

theorem stays_select {model : String} {schema : Schema} (registered : models.get? model = some schema)
    (text : String) :
    Stays ((⟨models, options⟩ : Resolver).select model text)
      ((⟨wider, options⟩ : Resolver).select model text) := by
  unfold select
  split
  next => exact .refl _
  next =>
    split
    next => exact .refl _
    next selection _ =>
      simp only [lookup, registered, more _ _ registered]
      exact stays_resolve more options schema selection

end Resolving

/-! ### Models that are missing -/

/-- A model that is missing is not registered, and an expanded relation leads to it. -/
theorem missing_of_resolve {resolver : Resolver} {schema : Schema} {selection : Selection}
    {model : String} (failed : resolver.resolve schema selection = .error (.modelMissing model)) :
    resolver.models.get? model = none ∧
      ∃ visit ∈ visits resolver.models schema [] [] selection.fields,
        visit.schema.Assigns visit.path (.relation model) := by
  have first := findSome?_visits resolver schema [] [] selection.fields
  rw [List.append_nil, ← failure_resolve, failed] at first
  obtain ⟨visit, member, fault⟩ := List.exists_of_findSome?_eq_some first
  cases (fault?_eq_some_iff _ _ _).mp fault with
  | missing assigned unregistered => exact ⟨unregistered, visit, member, assigned⟩

/-! ### Outcomes -/

/-- The expanded fields that are met when a text is resolved for a model with the given schema. -/
def visitsOfText (models : Models) (schema : Schema) (text : String) : List Visit :=
  match Selection.parse text with
  | .ok selection => visits models schema [] [] selection.fields
  | .error _ => []

/-- What an outcome with fewer models says about the one with more, when the expanded fields are
known that were met on the way. -/
structure Foretells (models : Models) (met : List Visit) (narrow wide : Except SelectError Plan) :
    Prop where
  plan : ∀ plan, narrow = .ok plan → wide = .ok plan
  unknownField : ∀ path, narrow = .error (.unknownField path) → wide = .error (.unknownField path)
  invalidText : ∀ cause, narrow = .error (.invalidText cause) → wide = .error (.invalidText cause)
  modelMissing : ∀ model, narrow = .error (.modelMissing model) →
    models.get? model = none ∧ ∃ visit ∈ met, visit.schema.Assigns visit.path (.relation model)

theorem Stays.foretells {models : Models} {met : List Visit} {narrow wide : Except SelectError Plan}
    (stays : Stays narrow wide)
    (missing : ∀ model, narrow = .error (.modelMissing model) →
      models.get? model = none ∧ ∃ visit ∈ met, visit.schema.Assigns visit.path (.relation model)) :
    Foretells models met narrow wide := by
  rcases stays with rfl | ⟨model, rfl⟩
  · exact ⟨fun _ => id, fun _ => id, fun _ => id, missing⟩
  · exact ⟨nofun, nofun, nofun, missing⟩

/-- With more models, a resolution that had a plan has the same plan, and one that came to an unknown
field comes to the same one. A model that was missing had not been registered, and the selection
expands a relation to it. The same holds of texts that are resolved for a registered model. -/
theorem resolve_extended {models wider : Models} (more : wider.Extends models)
    (options : ResolveOptions) :
    (∀ schema selection, Foretells models (visits models schema [] [] selection.fields)
      ((⟨models, options⟩ : Resolver).resolve schema selection)
      ((⟨wider, options⟩ : Resolver).resolve schema selection)) ∧
    ∀ model schema text, models.get? model = some schema →
      Foretells models (visitsOfText models schema text)
        ((⟨models, options⟩ : Resolver).select model text)
        ((⟨wider, options⟩ : Resolver).select model text) := by
  constructor
  · intro schema selection
    exact (stays_resolve more options schema selection).foretells fun _ => missing_of_resolve
  · intro model schema text registered
    refine (stays_select more options registered text).foretells ?_
    intro target failed
    cases parsed : Selection.parse text with
    | error cause =>
      -- A text that is no selection is blank, or it fails before any model is looked up.
      unfold select at failed
      rw [parsed] at failed
      split at failed <;> cases failed
    | ok selection =>
      rw [select_of_parse _ _ parsed, lookup, registered] at failed
      rw [visitsOfText, parsed]
      exact missing_of_resolve failed

theorem resolve_extended_owner :
    let post : Schema := ⟨[("o", .reference "Person"), ("t", .scalar)], []⟩
    let person : Schema := ⟨[("n", .scalar)], []⟩
    let owner : Selection := ⟨false, [⟨"o", some .everything⟩]⟩
    let models : Models := ⟨[("Post", post)]⟩
    let wider : Models := models.register "Person" person
    let resolver : Resolver := ⟨models, {}⟩
    let resolver' : Resolver := ⟨wider, {}⟩
    wider.Extends models ∧ resolver.resolve post owner = .error (.modelMissing "Person") ∧
      models.get? "Person" = none ∧
      resolver'.resolve post owner = .ok ⟨["o"], [("o", ⟨["n"], []⟩)]⟩ ∧
      models.get? "Post" = some post ∧ resolver.select "Post" "t{}" = .ok ⟨["t"], []⟩ ∧
      resolver'.select "Post" "t{}" = .ok ⟨["t"], []⟩ := by
  intro post person owner models wider resolver resolver'
  have more : wider.Extends models := Models.extends_register rfl person
  have failed : resolver.resolve post owner = .error (.modelMissing "Person") := by
    simp only [resolver, models, post, owner]
    rfl
  have found : resolver'.resolve post owner = .ok ⟨["o"], [("o", ⟨["n"], []⟩)]⟩ := by
    simp only [resolver', wider, models, post, person, owner]
    rfl
  have letter : Selection.IsName ['t'] := ⟨by decide, List.all_eq_true.mp (by decide +kernel)⟩
  have gap := Selection.isGap_nil
  have derived : Selection.BodyText ['t', '{', '}'] ⟨false, [⟨"t", some .everything⟩]⟩ :=
    .items (.last (.named gap (.expanded letter gap (.blank gap)) gap))
  have parsed : Selection.parse "t{}" = .ok ⟨false, [⟨"t", some .everything⟩]⟩ := by
    rw [Selection.parse, Selection.parseChars_eq_ok_iff, ← Selection.bodyText_iff]
    exact ⟨by decide +kernel, derived⟩
  have selected : resolver.select "Post" "t{}" = .ok ⟨["t"], []⟩ := by
    rw [select_of_parse resolver "Post" parsed]
    rfl
  have foretold := resolve_extended more {}
  exact ⟨more, failed, ((foretold.1 post owner).modelMissing _ failed).1, found, rfl, selected,
    (foretold.2 "Post" post "t{}" rfl).plan _ selected⟩

end Resolver

end SelectionPlan
