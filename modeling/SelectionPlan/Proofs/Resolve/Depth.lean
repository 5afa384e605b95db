import SelectionPlan.Proofs.Path.Children
import SelectionPlan.Proofs.Plan.Assembly
import SelectionPlan.Proofs.Plan.Levels
import SelectionPlan.Proofs.Resolve.Derivations
import SelectionPlan.Proofs.Selection.Depth

/-!
# How deep plans go

Models may refer to each other in a circle, and still a plan goes no deeper than the selection that
it was asked for by. Every body that is entered either follows a relation, where paths start anew,
or makes paths longer by one name. The relations on the way to a path and the names of the path are
therefore paid for together, by the bodies of the selection.
-/
namespace SelectionPlan

namespace Plan

/-- A path for a record that is some relations away has at most that many names less than
`limit + 1`, and no more than `limit` relations are followed one after the other. -/
structure WithinDepth (limit : Nat) (plan : Plan) : Prop where
  select : ∀ away path, plan.Selects away path → away + (Path.segments path).length ≤ limit + 1
  populate : plan.depth ≤ limit

theorem WithinDepth.mono {limit limit' : Nat} {plan : Plan} (within : plan.WithinDepth limit)
    (wider : limit ≤ limit') : plan.WithinDepth limit' := by
  refine ⟨?_, Nat.le_trans within.populate wider⟩
  intro away path selects
  have bound := within.select away path selects
  omega

/-- Paths go on for at most `limit` names below a member of an object that stands `above` names down
in its document. The plans for related records keep within less. -/
structure Reaches (above limit : Nat) (plan : Plan) : Prop where
  select : ∀ path ∈ plan.select, (Path.segments path).length ≤ above + limit + 1
  related : ∀ path related, (path, related) ∈ plan.populate →
    ∃ less, less < limit ∧ related.WithinDepth less

namespace Reaches

variable {above limit limit' : Nat} {plan others : Plan}

/-- For a whole document, names count from its root. -/
theorem withinDepth (reaches : plan.Reaches 0 limit) : plan.WithinDepth limit := by
  constructor
  · intro away path selects
    cases selects with
    | here member =>
      have bound := reaches.select path member
      omega
    | beyond follows selects =>
      obtain ⟨less, lower, within⟩ := reaches.related _ _ follows
      have bound := within.select _ path selects
      omega
  · rw [depth_le_iff]
    intro path related member
    obtain ⟨less, lower, within⟩ := reaches.related path related member
    exact Nat.lt_of_le_of_lt within.populate lower

theorem of_unpopulated (alone : plan.populate = [])
    (short : ∀ path ∈ plan.select, (Path.segments path).length ≤ above + 1) :
    plan.Reaches above limit := by
  refine ⟨?_, by simp [alone]⟩
  intro path member
  have bound := short path member
  omega

theorem relation {path : String} (short : (Path.segments path).length ≤ above + 1)
    {related : Plan} (within : related.WithinDepth limit) :
    (Plan.relation path related).Reaches above (limit + 1) := by
  constructor
  · intro path' member
    cases List.mem_singleton.mp member
    omega
  · intro path' related' member
    cases List.mem_singleton.mp member
    exact ⟨limit, Nat.lt_succ_self limit, within⟩

theorem mono (reaches : plan.Reaches above limit) (wider : limit ≤ limit') :
    plan.Reaches above limit' := by
  constructor
  · intro path member
    have bound := reaches.select path member
    omega
  · intro path related member
    obtain ⟨less, lower, within⟩ := reaches.related path related member
    exact ⟨less, Nat.lt_of_lt_of_le lower wider, within⟩

/-- Parts next to each other reach as far as the one that goes further. -/
theorem append (front : plan.Reaches above limit) (back : others.Reaches above limit') :
    (plan ++ others).Reaches above (max limit limit') := by
  have front := front.mono (Nat.le_max_left limit limit')
  have back := back.mono (Nat.le_max_right limit limit')
  constructor
  · intro path member
    exact (List.mem_append.mp member).elim (front.select path) (back.select path)
  · intro path related member
    exact (List.mem_append.mp member).elim (front.related path related) (back.related path related)

theorem dedup (reaches : plan.Reaches above limit) : plan.dedup.Reaches above limit :=
  ⟨fun path member => reaches.select path (List.mem_eraseDups.mp member), reaches.related⟩

/-- The members of an object stand one name further down than the object. -/
theorem object (reaches : plan.Reaches (above + 1) limit) : plan.Reaches above (limit + 1) := by
  refine ⟨?_, (reaches.mono (Nat.le_succ limit)).related⟩
  intro path member
  have bound := reaches.select path member
  omega

theorem rerooted (reaches : plan.Reaches 0 limit) {path : String}
    (short : (Path.segments path).length ≤ above + 1) :
    (plan.rerooted path).Reaches above (limit + 1) := by
  constructor
  · intro moved member
    obtain ⟨inner, inside, rfl⟩ := List.mem_map.mp member
    have bound := reaches.select inner inside
    rw [Path.segments_join, List.length_append]
    omega
  · intro moved related member
    obtain ⟨⟨inner, _⟩, inside, ⟨⟩⟩ := List.mem_map.mp member
    exact (reaches.mono (Nat.le_succ limit)).related inner _ inside

theorem bodyPlan {names : List String} (reaches : plan.Reaches names.length limit)
    (dotFree : ∀ name ∈ names, '.' ∉ name.toList) (schema : Schema) (body : Selection) :
    (Resolver.bodyPlan schema names body plan).Reaches names.length limit := by
  -- A spread goes to the members of the object and no further.
  have spread : (Resolver.spread schema.pathNames (Path.ofSegments names) body).Reaches
      names.length limit := by
    unfold Resolver.spread
    split
    next => exact of_unpopulated rfl fun path => Path.length_segments_child_le dotFree
    next => exact of_unpopulated rfl (List.forall_mem_nil _)
  have whole := spread.append reaches
  rwa [Nat.max_self] at whole

end Reaches

end Plan

namespace Resolver

private theorem length_member {names : List String} {name : String}
    (dotFree : ∀ other ∈ names ++ [name], '.' ∉ other.toList) :
    (Path.segments (Path.ofSegments (names ++ [name]))).length ≤ names.length + 1 := by
  rw [Path.segments_ofSegments (by simp) dotFree, List.length_append, List.length_singleton]

private theorem reaches_unit {names : List String} {name : String}
    (dotFree : ∀ other ∈ names ++ [name], '.' ∉ other.toList) (limit : Nat) :
    (Plan.unit (Path.ofSegments (names ++ [name]))).Reaches names.length limit :=
  .of_unpopulated rfl (List.forall_mem_singleton.mpr (length_member dotFree))

/-- The invariant of derivations: fields reach as far as the bodies that expand them nest. -/
theorem Resolves.reaches {resolver : Resolver} {schema : Schema} {names : List String}
    {fields : List Field} {plan : Plan} (derived : resolver.Resolves schema names fields plan)
    {all : Bool} (above : ∀ name ∈ names, '.' ∉ name.toList)
    (dotFree : Selection.DotFree ⟨all, fields⟩) :
    plan.Reaches names.length (Selection.depthBelow fields) := by
  induction derived generalizing all with
  | nil => exact .of_unpopulated rfl (List.forall_mem_nil _)
  | unit _ ih =>
    have others := ih above (Selection.dotFree_cons_iff.mp dotFree).2.2
    rw [Selection.depthBelow, ← Nat.zero_max (Selection.depthBelow _)]
    exact (reaches_unit (dotFree.first above) 0).append others
  | @relation _ target _ _ _ spreads inner _ _ _ _ _ _ _ ihInner ihRest =>
    obtain ⟨-, below, behind⟩ := Selection.dotFree_cons_iff.mp dotFree
    have root := ihInner (List.forall_mem_nil _) (below _ rfl)
    have related := (root.bodyPlan (List.forall_mem_nil _) target ⟨spreads, inner⟩).dedup
    have followed := Plan.Reaches.relation (length_member (dotFree.first above)) related.withinDepth
    exact followed.append (ihRest above behind)
  | @embedded _ sub _ _ spreads inner _ _ _ _ _ _ ihInner ihRest =>
    obtain ⟨-, below, behind⟩ := Selection.dotFree_cons_iff.mp dotFree
    have root := ihInner (List.forall_mem_nil _) (below _ rfl)
    have document := (root.bodyPlan (List.forall_mem_nil _) sub ⟨spreads, inner⟩).dedup
    exact (document.rerooted (length_member (dotFree.first above))).append (ihRest above behind)
  | leaf _ _ ihRest =>
    have others := ihRest above (Selection.dotFree_cons_iff.mp dotFree).2.2
    exact (reaches_unit (dotFree.first above) _).append others
  | @object schema names name spreads inner _ _ _ _ _ _ _ ihInner ihRest =>
    obtain ⟨-, below, behind⟩ := Selection.dotFree_cons_iff.mp dotFree
    have within := dotFree.first above
    have members := (ihInner within (below _ rfl)).bodyPlan within schema ⟨spreads, inner⟩
    rw [List.length_append, List.length_singleton] at members
    exact members.object.append (ihRest above behind)

/-- A plan goes no deeper than the bodies of its selection, whatever the models refer to, and the
plan of a text never goes deeper than the limit on texts. -/
theorem resolve_withinDepth (resolver : Resolver) :
    (∀ schema selection plan, selection.DotFree →
      resolver.resolve schema selection = .ok plan → plan.WithinDepth selection.depth) ∧
    ∀ model text plan, resolver.select model text = .ok plan → plan.WithinDepth 64 := by
  have resolved : ∀ schema selection plan, selection.DotFree →
      resolver.resolve schema selection = .ok plan → plan.WithinDepth selection.depth := by
    rintro schema ⟨all, fields⟩ plan dotFree resolved
    obtain ⟨named, derived, rfl⟩ := (resolve_eq_ok_iff _ _ _ _).mp resolved
    have root := derived.reaches (List.forall_mem_nil _) dotFree
    exact (root.bodyPlan (List.forall_mem_nil _) schema ⟨all, fields⟩).dedup.withinDepth
  refine ⟨resolved, ?_⟩
  intro model text plan selected
  rcases (select_eq_ok_iff _ _ _ _).mp selected with
    ⟨-, rfl⟩ | ⟨-, selection, schema, parsed, -, found⟩
  -- A blank text selects nothing.
  · exact Plan.Reaches.withinDepth (.of_unpopulated rfl (List.forall_mem_nil _))
  · have within := resolved schema selection plan (Selection.wellNamed_of_parse parsed).dotFree found
    exact within.mono (Selection.depth_le_of_parse parsed)

theorem resolve_withinDepth_friends :
    let person : Schema := ⟨[("name", .scalar), ("h.city", .scalar)], [("f", "Person")]⟩
    let inner : Selection := ⟨false, [⟨"h", some .everything⟩]⟩
    let middle : Selection := ⟨false, [⟨"f", some inner⟩]⟩
    let selection : Selection := ⟨true, [⟨"f", some middle⟩]⟩
    let resolver : Resolver := ⟨⟨[("Person", person)]⟩, { strict := true }⟩
    let related : Plan := ⟨["f"], [("f", ⟨["h.city"], []⟩)]⟩
    let plan : Plan := ⟨["name", "h", "f"], [("f", related)]⟩
    selection.DotFree ∧ resolver.resolve person selection = .ok plan ∧ selection.depth = 3 ∧
      plan.WithinDepth selection.depth ∧ plan.Selects 2 "h.city" ∧
      resolver.select "Person" "f{h{}}" = .ok related ∧ related.WithinDepth 64 := by
  intro person inner middle selection resolver related plan
  have dotFree : selection.DotFree := by
    simp only [selection, middle, inner, Selection.everything, Selection.dotFree_cons_iff,
      Selection.dotFree_nil, Option.some.injEq, forall_eq', and_true]
    decide
  have resolved : resolver.resolve person selection = .ok plan := by
    simp only [resolver, person, selection, middle, inner, plan, related]
    rfl
  have tight : plan.Selects 2 "h.city" :=
    .beyond List.mem_cons_self (.beyond List.mem_cons_self (.here List.mem_cons_self))
  have letter : Selection.IsName ['f'] := ⟨by decide, List.all_eq_true.mp (by decide +kernel)⟩
  have letter' : Selection.IsName ['h'] := ⟨by decide, List.all_eq_true.mp (by decide +kernel)⟩
  have gap := Selection.isGap_nil
  have inside : Selection.BodyText ['h', '{', '}'] inner :=
    .items (.last (.named gap (.expanded letter' gap (.blank gap)) gap))
  have derived : Selection.BodyText ['f', '{', 'h', '{', '}', '}'] middle :=
    .items (.last (.named gap (.expanded letter gap (.body inside)) gap))
  have parsed : Selection.parse "f{h{}}" = .ok middle := by
    rw [Selection.parse, Selection.parseChars_eq_ok_iff, ← Selection.bodyText_iff]
    exact ⟨by decide +kernel, derived⟩
  have selected : resolver.select "Person" "f{h{}}" = .ok related := by
    rw [select_eq_ok_iff]
    exact Or.inr ⟨by decide +kernel, middle, person, parsed, rfl, rfl⟩
  exact ⟨dotFree, resolved, rfl, (resolve_withinDepth resolver).1 _ _ _ dotFree resolved, tight,
    selected, (resolve_withinDepth resolver).2 _ _ _ selected⟩

end Resolver

end SelectionPlan
