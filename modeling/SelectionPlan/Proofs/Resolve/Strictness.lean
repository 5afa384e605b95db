import SelectionPlan.Proofs.Resolve.Simulation

/-!
# What strictness changes

A strict resolver refuses expanded names that lead to nothing declared, and a permissive one takes
them for objects. Nothing else depends on it: until a strict resolution comes to an unknown field,
both resolutions have found the same plans and failed with the same errors.
-/
namespace SelectionPlan.Resolver

/-- The resolver that refuses unknown fields. -/
def strict (models : Models) : Resolver := ⟨models, { strict := true }⟩

/-- The resolver that takes unknown fields for objects. -/
def permissive (models : Models) : Resolver := ⟨models, { strict := false }⟩

/-- The result of a strict resolution beside that of a permissive one. Either they are the same, or
the strict one came to an unknown field. There are none for the permissive one. -/
structure Filters {α : Type} (refusing accepting : Except SelectError α) : Prop where
  known : ∀ path, accepting ≠ .error (.unknownField path)
  agree : refusing = accepting ∨ ∃ path, refusing = .error (.unknownField path)

namespace Filters

variable {α β : Type} {refusing accepting : Except SelectError α}

theorem refl {result : Except SelectError α}
    (known : ∀ path, result ≠ .error (.unknownField path)) : Filters result result :=
  ⟨known, .inl rfl⟩

theorem map (filters : Filters refusing accepting) (f : α → β) :
    Filters (refusing.map f) (accepting.map f) := by
  constructor
  · intro path failed
    cases accepting with
    | ok value => cases failed
    | error error =>
      cases failed
      exact filters.known path rfl
  · rcases filters.agree with same | ⟨path, refused⟩
    · exact .inl (congrArg _ same)
    · exact .inr ⟨path, by rw [refused]; rfl⟩

/-- An error keeps its kind when its path is completed. -/
theorem under (filters : Filters refusing accepting) (above : String) :
    Filters (refusing.mapError (·.under above)) (accepting.mapError (·.under above)) := by
  constructor
  · intro path failed
    cases accepting with
    | ok value => cases failed
    | error error =>
      cases error with
      | unknownField inner => exact filters.known inner rfl
      | invalidText | modelMissing => cases failed
  · rcases filters.agree with same | ⟨path, refused⟩
    · exact .inl (congrArg _ same)
    · exact .inr ⟨Path.join above path, by rw [refused]; rfl⟩

theorem followedBy {refusing accepting refusing' accepting' : Except SelectError Plan}
    (front : Filters refusing accepting) (back : Filters refusing' accepting') :
    Filters (followedBy refusing refusing') (followedBy accepting accepting') := by
  rcases front.agree with rfl | ⟨path, rfl⟩
  · cases refusing with
    | error error => exact refl front.known
    | ok plan => exact back.map _
  · refine ⟨?_, .inr ⟨path, rfl⟩⟩
    -- What the strict resolution did not come to may still fail, but not for an unknown field.
    cases accepting with
    | error error => exact front.known
    | ok plan => exact (back.map _).known

end Filters

variable (models : Models)

theorem simulates_permissive : Simulates Filters (strict models) (permissive models) where
  ok := fun _ => .refl (by simp)
  map := .map
  under := .under
  followedBy := .followedBy
  relation := by
    intro schema names model role body document
    cases found : models.get? model with
    | none =>
      rw [expandAt_missing body role found, expandAt_missing body role found]
      exact .refl (by simp)
    | some target =>
      rw [expandAt_relation body role found, expandAt_relation body role found]
      exact ((document target).under _).map _
  object := by
    -- The one place where the options are looked at.
    intro schema names some role body members
    have accepted : (permissive models).expandAt schema names body =
        (permissive models).bodyAt schema names body := by
      rw [expandAt_object some body role, if_neg (by simp [permissive])]
    rw [accepted, expandAt_object some body role]
    split
    next => exact ⟨members.known, .inr ⟨_, rfl⟩⟩
    next => exact members

/-- A strict resolver only filters. The plans that it finds are those of the permissive one, models
that are missing are missing for both, and where the permissive one fails it fails as well. Only the
strict one knows unknown fields. -/
theorem resolve_strict_filters (schema : Schema) (selection : Selection) :
    (∀ plan, (strict models).resolve schema selection = .ok plan →
      (permissive models).resolve schema selection = .ok plan) ∧
    (∀ model, (strict models).resolve schema selection = .error (.modelMissing model) →
      (permissive models).resolve schema selection = .error (.modelMissing model)) ∧
    (∀ error, (permissive models).resolve schema selection = .error error →
      ∃ error', (strict models).resolve schema selection = .error error') ∧
    ∀ path, (permissive models).resolve schema selection ≠ .error (.unknownField path) := by
  have filters := (simulates_permissive models).resolve schema selection
  refine ⟨?_, ?_, ?_, filters.known⟩
  · intro plan resolved
    rcases filters.agree with same | ⟨path, refused⟩
    · rw [← same, resolved]
    · cases resolved.symm.trans refused
  · intro model missing
    rcases filters.agree with same | ⟨path, refused⟩
    · rw [← same, missing]
    · cases missing.symm.trans refused
  · intro error failed
    rcases filters.agree with same | ⟨path, refused⟩
    · exact ⟨error, same.trans failed⟩
    · exact ⟨_, refused⟩

theorem resolve_strict_filters_owner :
    let schema : Schema := ⟨[("meta.tag", .scalar), ("owner", .reference "Ghost")], []⟩
    let tags : Selection := ⟨false, [⟨"meta", some .everything⟩]⟩
    let unknown : Selection := ⟨false, [⟨"meta", some ⟨false, [⟨"note", some .everything⟩]⟩⟩]⟩
    let missing : Selection := ⟨false, [⟨"owner", some .everything⟩]⟩
    let models : Models := .empty
    (permissive models).resolve schema tags = .ok ⟨["meta.tag"], []⟩ ∧
      (permissive models).resolve schema missing = .error (.modelMissing "Ghost") ∧
      (strict models).resolve schema unknown = .error (.unknownField "meta.note") ∧
      (permissive models).resolve schema unknown = .ok ⟨[], []⟩ := by
  intro schema tags unknown missing models
  have resolved : (strict models).resolve schema tags = .ok ⟨["meta.tag"], []⟩ := by
    simp only [models, schema, tags]
    rfl
  have failed : (strict models).resolve schema missing = .error (.modelMissing "Ghost") := by
    simp only [models, schema, missing]
    rfl
  refine ⟨(resolve_strict_filters models schema tags).1 _ resolved,
    (resolve_strict_filters models schema missing).2.1 _ failed, ?_, ?_⟩
  · simp only [models, schema, unknown]
    rfl
  · simp only [models, schema, unknown]
    rfl

end SelectionPlan.Resolver
