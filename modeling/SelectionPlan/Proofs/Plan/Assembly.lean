import SelectionPlan.Plan.Basic
import SelectionPlan.Proofs.Path.Segments
import SelectionPlan.Proofs.Repetition

/-!
# How plans are put together

Plans are appended, moved below a path and cleared of repetitions. Moving respects the other two,
and repetitions may be dropped before or after plans are appended, in as many of them as one likes.
Moving twice is moving once, and what a moved plan asks of related records is what it asked before.
-/
namespace SelectionPlan.Plan

@[simp] theorem select_append (first second : Plan) :
    (first ++ second).select = first.select ++ second.select := rfl

@[simp] theorem populate_append (first second : Plan) :
    (first ++ second).populate = first.populate ++ second.populate := rfl

@[simp] theorem select_dedup (plan : Plan) : plan.dedup.select = plan.select.eraseDups := rfl

@[simp] theorem populate_dedup (plan : Plan) : plan.dedup.populate = plan.populate := rfl

@[simp] theorem select_rerooted (above : String) (plan : Plan) :
    (plan.rerooted above).select = plan.select.map (Path.join above) := rfl

@[simp] theorem populate_rerooted (above : String) (plan : Plan) :
    (plan.rerooted above).populate =
      plan.populate.map fun entry => (Path.join above entry.1, entry.2) := rfl

theorem ext {first second : Plan} (select : first.select = second.select)
    (populate : first.populate = second.populate) : first = second := by
  cases first
  cases second
  cases select
  cases populate
  rfl

@[simp] theorem empty_append (plan : Plan) : .empty ++ plan = plan := by
  apply ext <;> simp [empty]

@[simp] theorem append_empty (plan : Plan) : plan ++ .empty = plan := by
  apply ext <;> simp [empty]

theorem append_assoc (first second third : Plan) :
    first ++ second ++ third = first ++ (second ++ third) := by
  apply ext <;> simp

theorem rerooted_append (above : String) (first second : Plan) :
    (first ++ second).rerooted above = first.rerooted above ++ second.rerooted above := by
  apply ext <;> simp

theorem rerooted_rerooted (above middle : String) (plan : Plan) :
    (plan.rerooted middle).rerooted above = plan.rerooted (Path.join above middle) := by
  apply ext <;> simp [Function.comp_def, Path.join_assoc]

theorem dedup_rerooted (above : String) (plan : Plan) :
    (plan.rerooted above).dedup = plan.dedup.rerooted above := by
  apply ext
  · exact eraseDups_map (Path.join_injective above) plan.select
  · rfl

theorem dedup_append_dedup (first second : Plan) :
    (first.dedup ++ second.dedup).dedup = (first ++ second).dedup := by
  apply ext
  · exact eraseDups_append_eraseDups first.select second.select
  · rfl

@[simp] theorem dedup_dedup (plan : Plan) : plan.dedup.dedup = plan.dedup := by
  apply ext <;> simp

theorem dedup_append_congr {first first' second second' : Plan}
    (front : first.dedup = first'.dedup) (back : second.dedup = second'.dedup) :
    (first ++ second).dedup = (first' ++ second').dedup := by
  rw [← dedup_append_dedup, front, back, dedup_append_dedup]

/-- Plans one after the other. -/
def concat (parts : List Plan) : Plan :=
  parts.foldr (· ++ ·) .empty

/-- Repetitions are dropped from the whole as if none had been dropped from a part. -/
theorem dedup_concat (parts : List (Plan × Bool)) :
    (concat (parts.map fun part => if part.2 then part.1.dedup else part.1)).dedup =
      (concat (parts.map Prod.fst)).dedup := by
  induction parts with
  | nil => rfl
  | cons part rest ih =>
    obtain ⟨plan, early⟩ := part
    have first : (if early then plan.dedup else plan).dedup = plan.dedup := by
      cases early with
      | false => rfl
      | true => exact dedup_dedup plan
    exact dedup_append_congr first ih

/-- Parts of a plan may be moved, appended and cleared of repetitions in any order. Moving a plan
concerns its own paths and those of its relations, and nothing beyond the relations. -/
theorem assembly_exchanges (plan other : Plan) (above below : String) :
    (plan.rerooted below).rerooted above = plan.rerooted (above ++ "." ++ below) ∧
      (plan ++ other).rerooted above = plan.rerooted above ++ other.rerooted above ∧
      plan.dedup.rerooted above = (plan.rerooted above).dedup ∧
      ((plan.dedup ++ other).dedup = (plan ++ other).dedup ∧
        (plan ++ other.dedup).dedup = (plan ++ other).dedup ∧
        (plan.dedup ++ other.dedup).dedup = (plan ++ other).dedup ∧
        ∀ parts : List (Plan × Bool),
          (concat (parts.map fun part => if part.2 then part.1.dedup else part.1)).dedup =
            (concat (parts.map Prod.fst)).dedup) ∧
      ((plan.rerooted above).select = plan.select.map (above ++ "." ++ ·) ∧
        (plan.rerooted above).populate.map Prod.fst =
          (plan.populate.map Prod.fst).map (above ++ "." ++ ·) ∧
        (plan.rerooted above).populate.map Prod.snd = plan.populate.map Prod.snd) := by
  have early : (plan.dedup ++ other).dedup = (plan ++ other).dedup :=
    dedup_append_congr (dedup_dedup plan) rfl
  have late : (plan ++ other.dedup).dedup = (plan ++ other).dedup :=
    dedup_append_congr rfl (dedup_dedup other)
  have paths : (plan.rerooted above).populate.map Prod.fst =
      (plan.populate.map Prod.fst).map (above ++ "." ++ ·) := by
    rw [populate_rerooted, List.map_map, List.map_map]
    rfl
  have related : (plan.rerooted above).populate.map Prod.snd = plan.populate.map Prod.snd := by
    rw [populate_rerooted, List.map_map]
    rfl
  exact ⟨rerooted_rerooted above below plan, rerooted_append above plan other,
    (dedup_rerooted above plan).symm,
    ⟨early, late, dedup_append_dedup plan other, dedup_concat⟩, rfl, paths, related⟩

/-- The plan as it shows from the root of a selection when names lead to its document. -/
def reached (names : List String) (plan : Plan) : Plan where
  select := plan.select.map fun path => Path.ofSegments (names ++ [path])
  populate := plan.populate.map fun entry => (Path.ofSegments (names ++ [entry.1]), entry.2)

@[simp] theorem reached_nil (plan : Plan) : plan.reached [] = plan := by
  apply ext <;> simp [reached]

@[simp] theorem select_reached_append (names : List String) (first second : Plan) :
    ((first ++ second).reached names).select =
      (first.reached names).select ++ (second.reached names).select := by
  simp [reached]

@[simp] theorem populate_reached_append (names : List String) (first second : Plan) :
    ((first ++ second).reached names).populate =
      (first.reached names).populate ++ (second.reached names).populate := by
  simp [reached]

theorem mem_select_reached_dedup (names : List String) (plan : Plan) (path : String) :
    path ∈ (plan.dedup.reached names).select ↔ path ∈ (plan.reached names).select := by
  simp [reached]

/-- What is moved below a path shows where the path leads. -/
theorem reached_rerooted (names : List String) {inner : List String} (some : inner ≠ [])
    (plan : Plan) :
    (plan.rerooted (Path.ofSegments inner)).reached names = plan.reached (names ++ inner) := by
  have joined : ∀ path, Path.ofSegments (names ++ [Path.join (Path.ofSegments inner) path]) =
      Path.ofSegments (names ++ inner ++ [path]) := by
    intro path
    rw [← Path.ofSegments_concat some, Path.ofSegments_append_ofSegments names (by simp),
      List.append_assoc]
  apply ext <;> simp [reached, joined]

end SelectionPlan.Plan
