import SelectionPlan.Proofs.Plan.Assembly
import SelectionPlan.Selection.Basic

/-!
# Plans as selections

A plan that follows a relation also selects its path, so it is a list of strands: paths, some of
them with the plan for the related record. Written out by hand, every strand is one field of a
selection, with a body around each further name of its path.
-/
namespace SelectionPlan

/-- A selected path, and the plan for the related record if it is the path of a relation that is
followed. -/
abbrev Strand := String × Option Plan

namespace Strand

def plan : Strand → Plan
  | (path, none) => .unit path
  | (path, some related) => .relation path related

/-- Moves the path of a strand below `above`. -/
def rerooted (above : String) (strand : Strand) : Strand :=
  (Path.join above strand.1, strand.2)

@[simp] theorem select_plan (strand : Strand) : strand.plan.select = [strand.1] := by
  rcases strand with ⟨path, _ | related⟩ <;> rfl

@[simp] theorem populate_plan (strand : Strand) :
    strand.plan.populate = (strand.2.map fun related => (strand.1, related)).toList := by
  rcases strand with ⟨path, _ | related⟩ <;> rfl

theorem plan_rerooted (above : String) (strand : Strand) :
    strand.plan.rerooted above = (strand.rerooted above).plan := by
  rcases strand with ⟨path, _ | related⟩ <;> rfl

theorem dedup_plan (strand : Strand) : strand.plan.dedup = strand.plan :=
  Plan.ext (by simp [eraseDups_eq_self]) rfl

end Strand

namespace Plan

/-- The strands one after the other. -/
def ofStrands (strands : List Strand) : Plan :=
  strands.foldr (fun strand plan => strand.plan ++ plan) .empty

@[simp] theorem ofStrands_nil : ofStrands [] = .empty := rfl

@[simp] theorem ofStrands_cons (strand : Strand) (strands : List Strand) :
    ofStrands (strand :: strands) = strand.plan ++ ofStrands strands := rfl

theorem ofStrands_append (first second : List Strand) :
    ofStrands (first ++ second) = ofStrands first ++ ofStrands second := by
  induction first with
  | nil => simp
  | cons strand rest ih => simp [ih, append_assoc]

theorem rerooted_ofStrands (above : String) (strands : List Strand) :
    (ofStrands strands).rerooted above = ofStrands (strands.map (Strand.rerooted above)) := by
  induction strands with
  | nil => rfl
  | cons strand rest ih =>
    rw [ofStrands_cons, rerooted_append, ih, Strand.plan_rerooted, List.map_cons, ofStrands_cons]

theorem select_ofStrands (strands : List Strand) :
    (ofStrands strands).select = strands.map Prod.fst := by
  induction strands with
  | nil => rfl
  | cons strand rest ih => simp [ih]

theorem ofStrands_units (paths : List String) :
    ofStrands (paths.map fun path => (path, none)) = ⟨paths, []⟩ := by
  induction paths with
  | nil => rfl
  | cons path rest ih =>
    rw [List.map_cons, ofStrands_cons, ih]
    rfl

theorem mem_select_of_mem_populate_ofStrands {strands : List Strand} {entry : String × Plan}
    (member : entry ∈ (ofStrands strands).populate) : entry.1 ∈ (ofStrands strands).select := by
  induction strands with
  | nil => cases member
  | cons strand rest ih =>
    simp only [ofStrands_cons, populate_append, select_append, List.mem_append] at member ⊢
    rcases member with first | later
    · obtain ⟨path, _ | related⟩ := strand
      · simp at first
      · simp_all
    · exact Or.inr (ih later)

/-- Where no path is selected twice, the related plan of a strand is the one that is found at its
path. -/
theorem lookup_populate_ofStrands {strands : List Strand}
    (distinct : (ofStrands strands).select.Nodup) {strand : Strand} (member : strand ∈ strands) :
    (ofStrands strands).populate.lookup strand.1 = strand.2 := by
  induction strands with
  | nil => cases member
  | cons first rest ih =>
    rw [ofStrands_cons, select_append, Strand.select_plan, List.singleton_append,
      List.nodup_cons] at distinct
    obtain ⟨fresh, distinct⟩ := distinct
    rw [ofStrands_cons, populate_append, Strand.populate_plan]
    rcases List.mem_cons.mp member with rfl | later
    · obtain ⟨path, _ | related⟩ := strand
      · -- No later strand has a relation at this path, since it would select the path again.
        rw [Option.map_none, Option.toList_none, List.nil_append, List.lookup_eq_none_iff]
        intro entry inside
        have other : path ≠ entry.1 := by
          rintro rfl
          exact fresh (mem_select_of_mem_populate_ofStrands inside)
        simpa using other
      · simp
    · have other : strand.1 ≠ first.1 := by
        intro same
        rw [select_ofStrands, ← same] at fresh
        exact fresh (List.mem_map_of_mem later)
      obtain ⟨path, _ | related⟩ := first
      · exact ih distinct later
      · rw [Option.map_some, Option.toList_some, List.singleton_append, List.lookup_cons,
          beq_eq_false_iff_ne.mpr other]
        exact ih distinct later

/-- The fields that go along names: each name is expanded by the next one alone, and the last one by
`last`. There is one field, unless there are no names. -/
def trail : List String → Option Selection → List Field
  | [], _ => []
  | [name], last => [⟨name, last⟩]
  | name :: next :: rest, last => [⟨name, some ⟨false, trail (next :: rest) last⟩⟩]

theorem trail_cons (name : String) {rest : List String} (nonempty : rest ≠ [])
    (last : Option Selection) :
    trail (name :: rest) last = [⟨name, some ⟨false, trail rest last⟩⟩] := by
  obtain ⟨next, others, rfl⟩ := List.exists_cons_of_ne_nil nonempty
  rfl

mutual

/-- The selection that asks by hand for what a plan fetches: one field for each selected path, in
order. Where a relation is followed, the last name is expanded by what its own plan asks for. -/
def retraced : Plan → Selection
  | ⟨select, populate⟩ =>
    ⟨false, select.flatMap fun path =>
      trail (Path.segments path) ((retracedBelow populate).lookup path)⟩

/-- Relations with the bodies that ask for their plans. -/
def retracedBelow : List (String × Plan) → List (String × Selection)
  | [] => []
  | (path, related) :: rest => (path, retraced related) :: retracedBelow rest

end

theorem lookup_retracedBelow (path : String) (relations : List (String × Plan)) :
    (retracedBelow relations).lookup path = (relations.lookup path).map retraced := by
  induction relations with
  | nil => rfl
  | cons entry rest ih =>
    obtain ⟨other, related⟩ := entry
    rw [retracedBelow, List.lookup_cons, List.lookup_cons, ih]
    cases path == other <;> rfl

theorem retraced_eq (plan : Plan) :
    plan.retraced = ⟨false, plan.select.flatMap fun path =>
      trail (Path.segments path) ((plan.populate.lookup path).map retraced)⟩ := by
  obtain ⟨select, populate⟩ := plan
  simp only [retraced, lookup_retracedBelow]

theorem retraced_ofStrands {strands : List Strand}
    (distinct : (ofStrands strands).select.Nodup) :
    (ofStrands strands).retraced = ⟨false, strands.flatMap fun strand =>
      trail (Path.segments strand.1) (strand.2.map retraced)⟩ := by
  have found : ∀ strand ∈ strands,
      trail (Path.segments strand.1) (((ofStrands strands).populate.lookup strand.1).map retraced) =
        trail (Path.segments strand.1) (strand.2.map retraced) := by
    intro strand member
    rw [lookup_populate_ofStrands distinct member]
  rw [retraced_eq, select_ofStrands, List.flatMap_map, List.flatMap_congr found]

end Plan

end SelectionPlan
