import SelectionPlan.Plan.Basic

/-!
# The levels of a plan

A plan is one level, and every relation that it follows brings another one for the related record.
-/
namespace SelectionPlan.Plan

/-- What every plan has if it has it whenever the plans for its related records do. -/
@[elab_as_elim]
theorem byRelations {motive : Plan → Prop}
    (level : ∀ select populate, (∀ entry ∈ populate, motive entry.2) →
      motive ⟨select, populate⟩) : ∀ plan, motive plan
  | ⟨select, populate⟩ => level select populate fun entry _ => byRelations level entry.2
decreasing_by
  have smaller := List.sizeOf_lt_of_mem ‹entry ∈ populate›
  rw [Plan.mk.sizeOf_spec]
  cases entry
  simp only [Prod.mk.sizeOf_spec] at smaller ⊢
  omega

/-- `P` holds of a plan and of the plans for all related records, at any depth. -/
inductive EveryLevel (P : Plan → Prop) : Plan → Prop
  | intro {plan : Plan} : P plan →
    (∀ path related, (path, related) ∈ plan.populate → EveryLevel P related) → EveryLevel P plan

theorem EveryLevel.imp {P Q : Plan → Prop} (weaker : ∀ level, P level → Q level) {plan : Plan}
    (every : plan.EveryLevel P) : plan.EveryLevel Q := by
  induction every with
  | intro holds _ ih => exact .intro (weaker _ holds) ih

/-- The plan selects a path for a record that is `away` relations from its own. -/
inductive Selects : Plan → Nat → String → Prop
  | here {plan : Plan} {path : String} : path ∈ plan.select → Selects plan 0 path
  | beyond {plan related : Plan} {relation path : String} {away : Nat} :
    (relation, related) ∈ plan.populate → Selects related away path → Selects plan (away + 1) path

mutual

/-- How many relations a plan follows one after the other. -/
def depth : Plan → Nat
  | ⟨_, populate⟩ => depthBelow populate

/-- The depth of a plan that follows the given relations. -/
def depthBelow : List (String × Plan) → Nat
  | [] => 0
  | (_, related) :: rest => max (depth related + 1) (depthBelow rest)

end

theorem depth_le_iff (plan : Plan) (limit : Nat) :
    plan.depth ≤ limit ↔ ∀ path related, (path, related) ∈ plan.populate → related.depth < limit := by
  obtain ⟨select, populate⟩ := plan
  rw [depth]
  induction populate with
  | nil => simp [depthBelow]
  | cons entry rest ih =>
    obtain ⟨path, related⟩ := entry
    rw [depthBelow, Nat.max_le, ih]
    simp only [List.mem_cons, Prod.mk.injEq]
    constructor
    · rintro ⟨first, others⟩ _ _ (⟨rfl, rfl⟩ | member)
      · exact first
      · exact others _ _ member
    · intro every
      exact ⟨every _ _ (Or.inl ⟨rfl, rfl⟩), fun path related member => every _ _ (Or.inr member)⟩

end SelectionPlan.Plan
