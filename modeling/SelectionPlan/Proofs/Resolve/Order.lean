import SelectionPlan.Proofs.Plan.Order
import SelectionPlan.Proofs.Resolve.Collisions

/-!
# The order in which fields are written

Writing the fields of a selection in another order, in whatever bodies, changes the order within
its plan and nothing else. Every field contributes the same part, and a body with `...` spreads to
the same children, since only the set of its names counts for that. Where no body names a field
twice, the sorted plan is therefore the same one.
-/
namespace SelectionPlan

namespace Selection

/-- The second selection is the first one with its fields permuted, in any of its bodies. -/
inductive Reordered : Selection → Selection → Prop
  /-- The fields of the selection itself. -/
  | permute {all : Bool} {fields fields' : List Field} :
    fields.Perm fields' → Reordered ⟨all, fields⟩ ⟨all, fields'⟩
  /-- Within a body that expands one of the fields. -/
  | inside {all : Bool} {before after : List Field} {name : String} {body body' : Selection} :
    Reordered body body' →
      Reordered ⟨all, before ++ ⟨name, some body⟩ :: after⟩
        ⟨all, before ++ ⟨name, some body'⟩ :: after⟩
  | trans {first second third : Selection} :
    Reordered first second → Reordered second third → Reordered first third

namespace Reordered

variable {selection other : Selection}

theorem symm (reordered : selection.Reordered other) : other.Reordered selection := by
  induction reordered with
  | permute perm => exact .permute perm.symm
  | inside _ ih => exact .inside ih
  | trans _ _ ih ih' => exact ih'.trans ih

theorem all_eq (reordered : selection.Reordered other) : selection.all = other.all := by
  induction reordered with
  | permute _ => rfl
  | inside _ _ => rfl
  | trans _ _ ih ih' => exact Eq.trans ih ih'

theorem names_perm (reordered : selection.Reordered other) :
    selection.names.Perm other.names := by
  induction reordered with
  | permute perm => exact perm.map Entry.name
  | inside _ _ => simp [names]
  | trans _ _ ih ih' => exact List.Perm.trans ih ih'

end Reordered

end Selection

namespace Resolver

variable {resolver : Resolver}

/-- A spread depends on the names of a body as a set only. -/
theorem spread_congr {body body' : Selection} (all : body.all = body'.all)
    (names : ∀ name, name ∈ body.names ↔ name ∈ body'.names) (paths : List String)
    (parent : String) : spread paths parent body = spread paths parent body' := by
  have toward : ∀ segments, Path.childToward segments body.names =
      Path.childToward segments body'.names := by
    intro segments
    funext path
    simp only [Path.childToward, List.contains_eq_mem, names]
  simp only [spread, all, Path.otherChildren, toward]

theorem bodyPlan_reordered {body body' : Selection} (reordered : body.Reordered body')
    {named named' : Plan} (inner : named.Reordered named') (schema : Schema)
    (names : List String) :
    (bodyPlan schema names body named).Reordered (bodyPlan schema names body' named') := by
  have same := spread_congr reordered.all_eq (fun _ => reordered.names_perm.mem_iff)
    schema.pathNames (Path.ofSegments names)
  rw [bodyPlan, bodyPlan, same]
  exact (Plan.Reordered.refl _).append inner

namespace Resolves

variable {schema : Schema} {names : List String}

theorem of_perm {fields fields' : List Field} (perm : fields.Perm fields') {plan : Plan}
    (derived : resolver.Resolves schema names fields plan) :
    ∃ plan', resolver.Resolves schema names fields' plan' ∧ plan.Reordered plan' := by
  induction perm generalizing plan with
  | nil => exact ⟨plan, derived, .refl plan⟩
  | cons field _ ih =>
    obtain ⟨first, others, found, after, rfl⟩ := derived.of_cons
    obtain ⟨others', after', reordered⟩ := ih after
    exact ⟨first ++ others', found.append after', (Plan.Reordered.refl first).append reordered⟩
  | swap second first rest =>
    obtain ⟨front, _, found, later, rfl⟩ := derived.of_cons
    obtain ⟨middle, others, found', after, rfl⟩ := later.of_cons
    refine ⟨middle ++ (front ++ others), found'.append (found.append after), ?_⟩
    rw [← Plan.append_assoc, ← Plan.append_assoc]
    exact (Plan.Reordered.append_comm front middle).append_right others
  | trans _ _ ih ih' =>
    obtain ⟨plan', derived', reordered⟩ := ih derived
    obtain ⟨plan'', derived'', reordered'⟩ := ih' derived'
    exact ⟨plan'', derived'', reordered.trans reordered'⟩

-- One expanded field, when its body is reordered and it is known what becomes of the body.
private theorem of_body {name : String} {body body' : Selection}
    (reordered : body.Reordered body')
    (within : ∀ schema names plan, resolver.Resolves schema names body.fields plan →
      ∃ plan', resolver.Resolves schema names body'.fields plan' ∧ plan.Reordered plan')
    {plan : Plan} (derived : resolver.Resolves schema names [⟨name, some body⟩] plan) :
    ∃ plan', resolver.Resolves schema names [⟨name, some body'⟩] plan' ∧
      plan.Reordered plan' := by
  obtain ⟨all', fields'⟩ := body'
  cases derived with
  | @relation _ target _ _ _ _ _ _ named _ role known inner behind =>
    obtain ⟨named', inner', moved⟩ := within _ _ _ inner
    have related := (bodyPlan_reordered reordered moved target []).dedup
    exact ⟨_, .relation role known inner' behind, (related.relation _).append_right _⟩
  | @embedded _ sub _ _ _ _ _ _ _ role inner behind =>
    obtain ⟨named', inner', moved⟩ := within _ _ _ inner
    have document := (bodyPlan_reordered reordered moved sub []).dedup
    exact ⟨_, .embedded role inner' behind, (document.rerooted _).append_right _⟩
  | leaf role behind => exact ⟨_, .leaf role behind, .refl _⟩
  | object role accepted inner behind =>
    obtain ⟨named', inner', moved⟩ := within _ _ _ inner
    have members := bodyPlan_reordered reordered moved schema (names ++ [name])
    exact ⟨_, .object role accepted inner' behind, members.append_right _⟩

/-- What resolves still resolves when fields are reordered, to a plan that differs by order. -/
theorem of_reordered {body body' : Selection} (reordered : body.Reordered body') {plan : Plan}
    (derived : resolver.Resolves schema names body.fields plan) :
    ∃ plan', resolver.Resolves schema names body'.fields plan' ∧ plan.Reordered plan' := by
  induction reordered generalizing schema names plan with
  | permute perm => exact derived.of_perm perm
  | inside inner ih =>
    obtain ⟨front, _, found, later, rfl⟩ := derived.of_append
    obtain ⟨middle, back, found', after, rfl⟩ := later.of_cons
    obtain ⟨middle', changed, moved⟩ := of_body inner (fun _ _ _ => ih) found'
    exact ⟨_, found.append (changed.append after),
      (Plan.Reordered.refl front).append (moved.append_right back)⟩
  | trans _ _ ih ih' =>
    obtain ⟨plan', derived', moved⟩ := ih derived
    obtain ⟨plan'', derived'', moved'⟩ := ih' derived'
    exact ⟨plan'', derived'', moved.trans moved'⟩

end Resolves

theorem resolve_reordered {schema : Schema} {selection other : Selection}
    (reordered : selection.Reordered other) {plan : Plan}
    (resolved : resolver.resolve schema selection = .ok plan) :
    ∃ plan', resolver.resolve schema other = .ok plan' ∧ plan.Reordered plan' := by
  obtain ⟨named, derived, rfl⟩ := (resolve_eq_ok_iff _ _ _ _).mp resolved
  obtain ⟨named', derived', moved⟩ := derived.of_reordered reordered
  exact ⟨_, (resolve_eq_ok_iff _ _ _ _).mpr ⟨named', derived', rfl⟩,
    (bodyPlan_reordered reordered moved schema []).dedup⟩

/-- The order in which fields are written decides neither whether a selection resolves nor what its
sorted plan is. -/
theorem resolve_sorted_of_reordered (resolver : Resolver) (schema : Schema)
    {selection other : Selection} (named : selection.WellNamed) (distinct : selection.NamesDistinct)
    (reordered : selection.Reordered other) :
    ((∃ plan, resolver.resolve schema selection = .ok plan) ↔
      ∃ plan, resolver.resolve schema other = .ok plan) ∧
    ∀ plan plan', resolver.resolve schema selection = .ok plan →
      resolver.resolve schema other = .ok plan' → plan.sorted = plan'.sorted := by
  constructor
  · constructor
    · rintro ⟨plan, resolved⟩
      obtain ⟨plan', resolved', -⟩ := resolve_reordered reordered resolved
      exact ⟨plan', resolved'⟩
    · rintro ⟨plan, resolved⟩
      obtain ⟨plan', resolved', -⟩ := resolve_reordered reordered.symm resolved
      exact ⟨plan', resolved'⟩
  · intro plan plan' resolved resolved'
    obtain ⟨_, again, moved⟩ := resolve_reordered reordered resolved
    obtain rfl : _ = plan' := Except.ok.inj (again.symm.trans resolved')
    -- Relations at different names cannot collide, so sorting by their paths settles the order.
    have apart : plan.EveryLevel Plan.RelationsDistinct :=
      (everyLevel_collisionFree named distinct resolved).imp fun _ free =>
        Path.nodup_of_apart free.populate
    exact moved.sorted_eq apart

theorem resolve_sorted_of_reordered_author :
    let place : Schema := ⟨[("city", .scalar), ("owner", .reference "Author")], []⟩
    let author : Schema := ⟨[("name", .scalar), ("home", .embedded place), ("meta.tags", .scalar)],
      [("works", "Author")]⟩
    let works : Field := ⟨"works", some ⟨true, [⟨"name", none⟩, ⟨"home", none⟩]⟩⟩
    let works' : Field := ⟨"works", some ⟨true, [⟨"home", none⟩, ⟨"name", none⟩]⟩⟩
    let home : Field :=
      ⟨"home", some ⟨true, [⟨"owner", some ⟨false, [⟨"name", none⟩]⟩⟩]⟩⟩
    let selection : Selection := ⟨true, [works, home]⟩
    let other : Selection := ⟨true, [home, works']⟩
    let resolver : Resolver := ⟨⟨[("Author", author)]⟩, {}⟩
    let plan : Plan :=
      ⟨["name", "meta", "works", "home.city", "home.owner"],
        [("works", ⟨["meta", "name", "home"], []⟩), ("home.owner", ⟨["name"], []⟩)]⟩
    let plan' : Plan :=
      ⟨["name", "meta", "home.city", "home.owner", "works"],
        [("home.owner", ⟨["name"], []⟩), ("works", ⟨["meta", "home", "name"], []⟩)]⟩
    selection.WellNamed ∧ selection.NamesDistinct ∧ selection.Reordered other ∧
      resolver.resolve author selection = .ok plan ∧ resolver.resolve author other = .ok plan' ∧
      (∃ found, resolver.resolve author other = .ok found) ∧ plan.sorted = plan'.sorted := by
  intro place author works works' home selection other resolver plan plan'
  have named : selection.WellNamed := by
    simp only [selection, works, home, Selection.wellNamed_cons_iff, Selection.wellNamed_nil,
      Option.some.injEq, forall_eq', reduceCtorEq, false_imp_iff, implies_true, and_true]
    decide
  have distinct : selection.NamesDistinct := by
    simp only [selection, works, home, Selection.namesDistinct_cons_iff,
      Selection.namesDistinct_nil, Option.some.injEq, forall_eq', reduceCtorEq, false_imp_iff,
      implies_true, and_true]
    decide
  have inner : Selection.Reordered ⟨true, [home, works]⟩ other :=
    @Selection.Reordered.inside true [home] [] "works" _ _ (.permute (.swap _ _ []))
  have reordered : selection.Reordered other := .trans (.permute (.swap home works [])) inner
  have resolved : resolver.resolve author selection = .ok plan := by
    simp only [resolver, author, place, selection, works, home, plan]
    rfl
  have resolved' : resolver.resolve author other = .ok plan' := by
    simp only [resolver, author, place, other, works', home, plan']
    rfl
  have invariant := resolve_sorted_of_reordered resolver author named distinct reordered
  exact ⟨named, distinct, reordered, resolved, resolved', invariant.1.mp ⟨plan, resolved⟩,
    invariant.2 plan plan' resolved resolved'⟩

end Resolver

end SelectionPlan
