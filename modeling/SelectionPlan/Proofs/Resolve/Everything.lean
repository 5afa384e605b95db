import SelectionPlan.Proofs.Path.Children
import SelectionPlan.Proofs.Plan.Assembly
import SelectionPlan.Proofs.Resolve.Roles
import SelectionPlan.Proofs.Resolve.Strictness
import SelectionPlan.Proofs.Schema.Lookup

/-!
# Everything inside of an object

Selecting everything inside of a plain object selects its children, each once. A strict resolver
asks first whether something lies below the path of the object, by comparing texts, and a permissive
one just looks for the children, by comparing segments. Both come to the same answer.
-/
namespace SelectionPlan

open SelectionPlan.Path (isBelow ofSegments otherChildren)

/-- The selection of everything inside of the object that a chain of names leads to, as in
`date{time{...}}`. -/
def Selection.through : List String → Selection
  | [] => .everything
  | name :: rest => ⟨false, [⟨name, some (through rest)⟩]⟩

namespace Schema

/-- Along the names of a chain there are plain objects only. -/
def Nests (schema : Schema) (chain : List String) : Prop :=
  ∀ above, above ≠ [] → above <+: chain → schema.Assigns (ofSegments above) .object

/-- Along the names of a chain there are plain objects only, and none of them is empty. -/
def Opens (schema : Schema) (chain : List String) : Prop :=
  ∀ above, above ≠ [] → above <+: chain →
    schema.role (ofSegments above) = .object ∧ schema.hasDescendants (ofSegments above) = true

theorem role_object {schema : Schema} {path : String} (undeclared : path ∉ schema.pathNames)
    (unrelated : path ∉ schema.virtualNames) : schema.role path = .object := by
  have stored : schema.path? path = none := (schema.path?_eq_none_iff path).mpr undeclared
  have computed : schema.virtual? path = none := Dict.get?_eq_none_iff.mpr unrelated
  exact role_eq_iff.mpr (.object computed stored)

/-- What lies below the end of a chain lies below every object on the way. -/
theorem Nests.opens {schema : Schema} {chain : List String} (nests : schema.Nests chain)
    (inhabited : schema.hasDescendants (ofSegments chain) = true) : schema.Opens chain := by
  intro above some front
  refine ⟨role_eq_iff.mpr (nests above some front), ?_⟩
  obtain ⟨between, rfl⟩ := front
  by_cases last : between = []
  · rwa [last, List.append_nil] at inhabited
  · -- What is below the end of the chain is below `above` after the names in between.
    obtain ⟨rest, found⟩ := (hasDescendants_iff _ _).mp inhabited
    rw [Path.ofSegments_append some last, Path.join_assoc] at found
    exact (hasDescendants_iff _ _).mpr ⟨_, found⟩

end Schema

namespace Resolver

variable (resolver : Resolver) {schema : Schema}

theorem bodyAt_everything (schema : Schema) (names : List String) :
    resolver.bodyAt schema names .everything =
      .ok ⟨otherChildren schema.pathNames (ofSegments names) [], []⟩ := by
  rw [bodyAt, Selection.everything, fieldsAt_nil]
  exact congrArg Except.ok (Plan.append_empty _)

/-- Every object on the way is entered, and the last one is selected from. -/
theorem bodyAt_through {names rest : List String} (nests : schema.Nests (names ++ rest))
    (entered : ∀ above, above ≠ [] → above <+: names ++ rest →
      resolver.options.strict = true → schema.hasDescendants (ofSegments above) = true) :
    resolver.bodyAt schema names (.through rest) =
      .ok ⟨otherChildren schema.pathNames (ofSegments (names ++ rest)) [], []⟩ := by
  induction rest generalizing names with
  | nil => rw [List.append_nil, Selection.through, bodyAt_everything]
  | cons name rest ih =>
    -- The first name of the chain becomes the last one of the place.
    have further : names ++ name :: rest = names ++ [name] ++ rest := List.append_cons ..
    rw [further] at nests entered ⊢
    have role := Schema.role_eq_iff.mpr
      (nests (names ++ [name]) (by simp) (List.prefix_append _ _))
    have accepted := entered (names ++ [name]) (by simp) (List.prefix_append _ _)
    rw [Selection.through, bodyAt, fieldsAt_expanded, expandAt_object (by simp) _ role,
      if_neg (by simpa using accepted), ih nests entered, fieldsAt_nil]
    simp [followedBy, Except.map, spread]

theorem resolve_of_bodyAt_through {chain : List String}
    (found : resolver.bodyAt schema [] (.through chain) =
      .ok ⟨otherChildren schema.pathNames (ofSegments chain) [], []⟩) :
    resolver.resolve schema (.through chain) =
      .ok ⟨otherChildren schema.pathNames (ofSegments chain) [], []⟩ := by
  rw [resolve_eq, found]
  refine congrArg Except.ok (Plan.ext ?_ rfl)
  -- The children of one place are different already, so merging drops none of them.
  exact eraseDups_eq_self (Path.nodup_otherChildren _ _ _)

theorem resolve_through {chain : List String} (opens : schema.Opens chain) :
    resolver.resolve schema (.through chain) =
      .ok ⟨otherChildren schema.pathNames (ofSegments chain) [], []⟩ := by
  refine resolver.resolve_of_bodyAt_through (resolver.bodyAt_through ?_ ?_)
  · exact fun above some front => Schema.role_eq_iff.mp (opens above some front).1
  · exact fun above some front _ => (opens above some front).2

/-- A strict resolver does not enter an object with nothing below it. -/
theorem bodyAt_through_refused (models : Models) {names rest : List String} (some : rest ≠ [])
    (nests : schema.Nests (names ++ rest))
    (deserted : schema.hasDescendants (ofSegments (names ++ rest)) = false) :
    ∃ error, (strict models).bodyAt schema names (.through rest) = .error error := by
  induction rest generalizing names with
  | nil => exact absurd rfl some
  | cons name rest ih =>
    have further : names ++ name :: rest = names ++ [name] ++ rest := List.append_cons ..
    rw [further] at nests deserted
    have role := Schema.role_eq_iff.mpr
      (nests (names ++ [name]) (by simp) (List.prefix_append _ _))
    rw [Selection.through, bodyAt, fieldsAt_expanded, expandAt_object (by simp) _ role]
    split
    next => exact ⟨_, rfl⟩
    next accepted =>
      -- Something lies below this name, so it is not the last one.
      have inner : rest ≠ [] := by
        rintro rfl
        rw [List.append_nil] at deserted
        simp [strict, deserted] at accepted
      obtain ⟨error, failed⟩ := ih inner nests deserted
      exact ⟨error, by rw [failed]; rfl⟩

/-- Everything inside of an object, asked of a strict and of a permissive resolver: the permissive one
has a plan, and the strict one has that plan if it selects anything, and no plan otherwise. -/
structure Sifts (refusing accepting : Except SelectError Plan) : Prop where
  found : ∃ plan, accepting = .ok plan
  kept : ∀ plan, refusing = .ok plan ↔ accepting = .ok plan ∧ plan.select ≠ []

theorem Sifts.of_children {refusing accepting : Except SelectError Plan} {children : List String}
    {inhabited : Bool} (agree : inhabited = true ↔ children ≠ [])
    (found : accepting = .ok ⟨children, []⟩)
    (accepted : inhabited = true → refusing = .ok ⟨children, []⟩)
    (refused : inhabited = false → ∃ error, refusing = .error error) :
    Sifts refusing accepting := by
  refine ⟨⟨_, found⟩, fun plan => ?_⟩
  rw [found]
  cases inhabited with
  | true =>
    have selecting : children ≠ [] := agree.mp rfl
    rw [accepted rfl]
    constructor
    · rintro ⟨⟩
      exact ⟨rfl, selecting⟩
    · exact And.left
  | false =>
    have idle : children = [] := by simpa using agree
    obtain ⟨error, failed⟩ := refused rfl
    rw [failed, idle]
    constructor
    · exact nofun
    · rintro ⟨⟨⟩, selecting⟩
      exact absurd rfl selecting

theorem resolveField_everything {path : String} (role : schema.role path = .object) :
    resolver.resolveField schema schema.pathNames path (some .everything) =
      if resolver.options.strict && !schema.hasDescendants path then .error (.unknownField path)
      else .ok ⟨otherChildren schema.pathNames path [], []⟩ := by
  have place : ofSegments (Path.segments path) = path := Path.ofSegments_segments path
  have step := resolver.expandAt_object (Path.segments_ne_nil path) .everything (place ▸ role)
  rwa [bodyAt_everything, expandAt, place] at step

section Agreement

variable {path : String} (models : Models)
  (agree : schema.hasDescendants path = true ↔ otherChildren schema.pathNames path [] ≠ [])
include agree

theorem sifts_field (role : schema.role path = .object) :
    Sifts ((strict models).resolveField schema schema.pathNames path (some .everything))
      ((permissive models).resolveField schema schema.pathNames path (some .everything)) := by
  refine .of_children agree (resolveField_everything _ role) ?_ ?_
  · intro inhabited
    rw [resolveField_everything _ role, inhabited]
    rfl
  · intro deserted
    exact ⟨_, by rw [resolveField_everything _ role, deserted]; rfl⟩

theorem sifts_through {chain : List String} (some : chain ≠ []) (leads : ofSegments chain = path)
    (nests : schema.Nests chain) :
    Sifts ((strict models).resolve schema (.through chain))
      ((permissive models).resolve schema (.through chain)) := by
  subst leads
  refine .of_children agree ?_ (fun inhabited => resolve_through _ (nests.opens inhabited)) ?_
  · refine resolve_of_bodyAt_through _ (bodyAt_through _ nests ?_)
    exact fun _ _ _ refusing => absurd refusing Bool.false_ne_true
  · intro deserted
    have refused : ∃ error, (strict models).bodyAt schema [] (.through chain) = .error error :=
      bodyAt_through_refused models some nests deserted
    obtain ⟨error, failed⟩ := refused
    exact ⟨error, by rw [resolve_eq, failed]; rfl⟩

end Agreement

/-- Something lies below a path just if the path has children among the stored paths and the virtual
relations. So where no virtual relation lies below an object, everything inside of the object is
refused by a strict resolver just if a permissive one selects nothing for it, whether the object is
asked for by its path or at the end of a chain of objects. -/
theorem strict_accepts_iff_spreads (schema : Schema) {path : String}
    (whole : "" ∉ Path.segments path) :
    (schema.hasDescendants path = true ↔
      otherChildren (schema.pathNames ++ schema.virtualNames) path [] ≠ []) ∧
    ((∀ name ∈ schema.virtualNames, isBelow path name = false) → ∀ models : Models,
      (path ∉ schema.pathNames → path ∉ schema.virtualNames →
        Sifts ((strict models).resolveField schema schema.pathNames path (some .everything))
          ((permissive models).resolveField schema schema.pathNames path (some .everything))) ∧
      ∀ chain, chain ≠ [] → ofSegments chain = path → schema.Nests chain →
        Sifts ((strict models).resolve schema (.through chain))
          ((permissive models).resolve schema (.through chain))) := by
  refine ⟨?below, fun stored models => ?_⟩
  case below =>
    rw [Path.otherChildren_ne_nil_iff whole, Schema.hasDescendants, List.any_eq_true]
  -- Nothing virtual lies below the path, so the spread need not look at virtual relations.
  have agree : schema.hasDescendants path = true ↔ otherChildren schema.pathNames path [] ≠ [] := by
    rw [Path.otherChildren_ne_nil_iff whole, Schema.hasDescendants, List.any_append,
      Bool.or_eq_true, List.any_eq_true]
    refine or_iff_left ?_
    simpa using stored
  constructor
  · intro undeclared unrelated
    exact sifts_field models agree (Schema.role_object undeclared unrelated)
  · intro chain some leads nests
    exact sifts_through models agree some leads nests

theorem strict_accepts_iff_spreads_meta :
    let schema : Schema :=
      ⟨[("metal.x", .scalar), ("meta.tag", .scalar), ("meta.", .scalar)], [("posts", "Post")]⟩
    "" ∉ Path.segments "meta" ∧ "" ∉ Path.segments "met" ∧ schema.hasDescendants "meta" = true ∧
      (strict .empty).resolve schema (.through ["meta"]) = .ok ⟨["meta.tag", "meta."], []⟩ ∧
      ∀ plan, (strict .empty).resolve schema (.through ["met"]) ≠ .ok plan := by
  intro schema
  have nests (name : String) (assigned : schema.Assigns name .object) : schema.Nests [name] := by
    intro above some front
    obtain ⟨first, rest, rfl⟩ := List.exists_cons_of_ne_nil some
    obtain ⟨rfl, behind⟩ := List.cons_prefix_cons.mp front
    rw [List.prefix_nil.mp behind]
    exact assigned
  have whole : "" ∉ Path.segments "meta" := by decide
  have whole' : "" ∉ Path.segments "met" := by decide
  have found := strict_accepts_iff_spreads schema whole
  have missing := strict_accepts_iff_spreads schema whole'
  refine ⟨whole, whole', found.1.mpr (by decide +kernel), ?_, fun plan resolved => ?_⟩
  · have object : schema.Nests ["meta"] := nests "meta" (.object rfl rfl)
    have sifts := (found.2 (by decide) .empty).2 ["meta"] (by decide) rfl object
    exact (sifts.kept _).mpr ⟨by simp only [schema]; rfl, by simp⟩
  · have object : schema.Nests ["met"] := nests "met" (.object rfl rfl)
    have sifts := (missing.2 (by decide) .empty).2 ["met"] (by decide) rfl object
    obtain ⟨permitted, selecting⟩ := (sifts.kept plan).mp resolved
    have idle : (permissive .empty).resolve schema (.through ["met"]) = .ok ⟨[], []⟩ := by
      simp only [schema]
      rfl
    cases idle.symm.trans permitted
    exact selecting rfl

end Resolver

end SelectionPlan
