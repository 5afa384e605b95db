import SelectionPlan.Plan.Sorted
import SelectionPlan.Proofs.Plan.Assembly
import SelectionPlan.Proofs.Plan.Levels
import Mathlib.Data.List.Nodup

/-!
# The order within plans

Two plans are the same but for order when one becomes the other by permuting paths and relations,
at any level. Sorting forgets that difference, provided that no level follows two relations at one
path: sorting is by paths alone, and relations at one path would keep the order in which they came.
-/
namespace SelectionPlan.Plan

/-- The second plan is the first one with its paths and its relations permuted, at any levels. -/
inductive Reordered : Plan → Plan → Prop
  /-- The paths and the relations of the plan itself. -/
  | permute {plan plan' : Plan} :
    plan.select.Perm plan'.select → plan.populate.Perm plan'.populate → Reordered plan plan'
  /-- Within the plan for one of the related records. -/
  | inside {select : List String} {before after : List (String × Plan)} {path : String}
      {related related' : Plan} :
    Reordered related related' →
      Reordered ⟨select, before ++ (path, related) :: after⟩
        ⟨select, before ++ (path, related') :: after⟩
  | trans {first second third : Plan} :
    Reordered first second → Reordered second third → Reordered first third

namespace Reordered

variable {plan plan' : Plan}

instance : Trans Reordered Reordered Reordered := ⟨.trans⟩

theorem refl (plan : Plan) : plan.Reordered plan :=
  .permute (.refl _) (.refl _)

/-! ### Putting plans together -/

theorem append_right (reordered : plan.Reordered plan') (others : Plan) :
    (plan ++ others).Reordered (plan' ++ others) := by
  induction reordered with
  | permute select populate => exact .permute (select.append_right _) (populate.append_right _)
  | @inside select before after path related related' inner _ =>
    have regroup : ∀ between : String × Plan,
        (⟨select, before ++ between :: after⟩ : Plan) ++ others =
          ⟨select ++ others.select, before ++ between :: (after ++ others.populate)⟩ :=
      fun between => ext rfl (List.append_assoc _ _ _)
    rw [regroup, regroup]
    exact .inside inner
  | trans _ _ ih ih' => exact ih.trans ih'

theorem append_comm (first second : Plan) : (first ++ second).Reordered (second ++ first) :=
  .permute List.perm_append_comm List.perm_append_comm

theorem append {others others' : Plan} (front : plan.Reordered plan')
    (back : others.Reordered others') : (plan ++ others).Reordered (plan' ++ others') :=
  calc Reordered (plan ++ others) (plan' ++ others) := front.append_right others
    -- Only first parts are within reach, so the second one is moved to the front for a while.
    Reordered _ (others ++ plan') := append_comm plan' others
    Reordered _ (others' ++ plan') := back.append_right plan'
    Reordered _ (plan' ++ others') := append_comm others' plan'

theorem dedup (reordered : plan.Reordered plan') : plan.dedup.Reordered plan'.dedup := by
  induction reordered with
  | permute select populate => exact .permute (perm_eraseDups select) populate
  | inside inner _ => exact .inside inner
  | trans _ _ ih ih' => exact ih.trans ih'

theorem rerooted (reordered : plan.Reordered plan') (above : String) :
    (plan.rerooted above).Reordered (plan'.rerooted above) := by
  induction reordered with
  | permute select populate => exact .permute (select.map _) (populate.map _)
  | inside inner _ =>
    unfold Plan.rerooted
    simp only [List.map_append, List.map_cons]
    exact .inside inner
  | trans _ _ ih ih' => exact ih.trans ih'

theorem relation (reordered : plan.Reordered plan') (path : String) :
    (Plan.relation path plan).Reordered (Plan.relation path plan') :=
  @inside [path] [] [] path plan plan' reordered

end Reordered

/-! ### Sorting forgets the order -/

/-- Sorting by keys brings the keys into ascending order. -/
theorem pairwise_mergeSort_key {α : Type} (key : α → String) (items : List α) :
    (items.mergeSort fun first second => decide (key first ≤ key second)).Pairwise
      fun first second => key first ≤ key second := by
  have ascending :
      (items.mergeSort fun first second => decide (key first ≤ key second)).Pairwise
        fun first second => decide (key first ≤ key second) = true :=
    List.pairwise_mergeSort (by simpa using fun _ _ _ => String.le_trans)
      (by simpa using fun _ _ => String.le_total _ _) items
  exact ascending.imp of_decide_eq_true

/-- Where keys tell items apart, sorting by keys gives one list for all orders. -/
private theorem mergeSort_eq_of_perm {α : Type} (key : α → String) {items items' : List α}
    (perm : items.Perm items')
    (apart : ∀ first ∈ items, ∀ second ∈ items, key first = key second → first = second) :
    (items.mergeSort fun first second => decide (key first ≤ key second)) =
      items'.mergeSort fun first second => decide (key first ≤ key second) := by
  have left := List.mergeSort_perm items fun first second => decide (key first ≤ key second)
  have right := List.mergeSort_perm items' fun first second => decide (key first ≤ key second)
  refine List.Perm.eq_of_pairwise ?_ (pairwise_mergeSort_key key items)
    (pairwise_mergeSort_key key items') ((left.trans perm).trans right.symm)
  intro first second member member' below above
  have inside := left.mem_iff.mp member
  have inside' := perm.mem_iff.mpr (right.mem_iff.mp member')
  exact apart first inside second inside' (String.le_antisymm below above)

theorem sortPaths_eq_of_perm {paths paths' : List String} (perm : paths.Perm paths') :
    sortPaths paths = sortPaths paths' :=
  mergeSort_eq_of_perm id perm fun _ _ _ _ same => same

/-- Where no two relations are at one path, their order is given by the paths. -/
theorem sortRelations_eq_of_perm {relations relations' : List (String × Plan)}
    (perm : relations.Perm relations') (distinct : (relations.map Prod.fst).Nodup) :
    sortRelations relations = sortRelations relations' :=
  mergeSort_eq_of_perm Prod.fst perm fun _ member _ member' same =>
    List.inj_on_of_nodup_map distinct member member' same

theorem sortedBelow_eq_map (relations : List (String × Plan)) :
    sortedBelow relations = relations.map fun entry => (entry.1, entry.2.sorted) := by
  induction relations with
  | nil => rfl
  | cons entry rest ih => rw [sortedBelow, ih, List.map_cons]

theorem sorted_eq (plan : Plan) :
    plan.sorted = ⟨sortPaths plan.select,
      sortRelations (plan.populate.map fun entry => (entry.1, entry.2.sorted))⟩ := by
  obtain ⟨select, populate⟩ := plan
  rw [sorted, sortedBelow_eq_map]

/-- At the level of the plan itself, no path has two relations that are followed. -/
def RelationsDistinct (level : Plan) : Prop :=
  (level.populate.map Prod.fst).Nodup

/-- Reordering moves relations about and adds none. -/
theorem Reordered.everyLevel {plan plan' : Plan} (reordered : plan.Reordered plan')
    (distinct : plan.EveryLevel RelationsDistinct) : plan'.EveryLevel RelationsDistinct := by
  induction reordered with
  | permute _ perm =>
    obtain ⟨here, below⟩ := distinct
    refine .intro ((perm.map Prod.fst).nodup_iff.mp here) ?_
    intro path related member
    exact below path related (perm.mem_iff.mpr member)
  | @inside select before after path related related' _ ih =>
    obtain ⟨here, below⟩ := distinct
    have inner := ih (below path related (by simp))
    refine .intro (by simpa [RelationsDistinct] using here) ?_
    intro other level member
    rcases List.mem_append.mp member with front | back
    · exact below other level (by simp [front])
    · rcases List.mem_cons.mp back with ⟨⟨⟩⟩ | behind
      · exact inner
      · exact below other level (by simp [behind])
  | trans _ _ ih ih' => exact ih' (ih distinct)

/-- Plans that differ by order alone are the same once they are sorted. -/
theorem Reordered.sorted_eq {plan plan' : Plan} (reordered : plan.Reordered plan')
    (distinct : plan.EveryLevel RelationsDistinct) : plan.sorted = plan'.sorted := by
  induction reordered with
  | permute select perm =>
    obtain ⟨here, -⟩ := distinct
    rw [Plan.sorted_eq, Plan.sorted_eq, sortPaths_eq_of_perm select,
      sortRelations_eq_of_perm (perm.map _) (by rwa [List.map_map])]
  | @inside select before after path related related' _ ih =>
    obtain ⟨-, below⟩ := distinct
    have inner := ih (below path related (by simp))
    simp only [Plan.sorted_eq ⟨_, _⟩, List.map_append, List.map_cons, inner]
  | trans front _ ih ih' => exact (ih distinct).trans (ih' (front.everyLevel distinct))

end SelectionPlan.Plan
