import Mathlib.Data.List.Pairwise
import SelectionPlan.Proofs.Config.Contents
import SelectionPlan.Proofs.Dictionaries
import SelectionPlan.Proofs.Path.Apart

/-!
# Leaves of nested objects

Plain objects inside of each other become leaves with dotted paths. The leaves of an object stay
together and keep the order of its keys, none of its keys is without a leaf, and no leaf lies below
another one. So the children of an object, read off the paths of leaves, are its keys.
-/
namespace SelectionPlan.FieldDecl

open SelectionPlan.Path (Fan Plain ofSegments)

/-- Keys that are plain names and follow each other in a certain order, at every depth of plain
objects. -/
inductive Keyed (follows : String → String → Prop) : Dict FieldDecl → Prop
  | fields {fields : Dict FieldDecl} : fields.keys.Pairwise follows →
    (∀ name ∈ fields.keys, Plain name) →
    (∀ name members, (name, .object members) ∈ fields → Keyed follows members) →
      Keyed follows fields

/-- Keys that lead through objects to the members of the last of them. -/
inductive Leads : Dict FieldDecl → List String → Dict FieldDecl → Prop
  | here {fields : Dict FieldDecl} : Leads fields [] fields
  | into {fields inner members : Dict FieldDecl} {name : String} {rest : List String} :
    (name, .object inner) ∈ fields → inner ≠ [] → Leads inner rest members →
      Leads fields (name :: rest) members

theorem Keyed.imp {follows follows' : String → String → Prop} {fields : Dict FieldDecl}
    (weaker : ∀ first second, follows first second → follows' first second)
    (keyed : Keyed follows fields) : Keyed follows' fields := by
  induction keyed with
  | fields ordered plain _ ih => exact .fields (ordered.imp (weaker _ _)) plain ih

theorem Keyed.distinct {fields : Dict FieldDecl} (keyed : Keyed (· < ·) fields) :
    Keyed (· ≠ ·) fields :=
  keyed.imp fun _ _ => Std.ne_of_lt

/-! ### Chains of keys -/

section Chains

variable {follows : String → String → Prop} {fields members : Dict FieldDecl} {chain : List String}

theorem Leads.keyed (leads : Leads fields chain members) (keyed : Keyed follows fields) :
    Keyed follows members := by
  induction leads with
  | here => exact keyed
  | into member _ _ ih =>
    cases keyed with
    | fields _ _ inside => exact ih (inside _ _ member)

theorem Leads.plain (leads : Leads fields chain members) (keyed : Keyed follows fields) :
    ∀ name ∈ chain, Plain name := by
  induction leads with
  | here => simp
  | into member _ _ ih =>
    cases keyed with
    | fields _ plain inside =>
      have first := plain _ (List.mem_map_of_mem member)
      exact List.forall_mem_cons.mpr ⟨first, ih (inside _ _ member)⟩

theorem Leads.inhabited (leads : Leads fields chain members) (some : chain ≠ []) :
    members ≠ [] := by
  induction leads with
  | here => exact absurd rfl some
  | @into _ inner _ _ rest _ inhabited leads ih =>
    cases rest with
    | nil =>
      cases leads
      exact inhabited
    | cons next others => exact ih (List.cons_ne_nil next others)

theorem Leads.prefix {above : List String} (leads : Leads fields chain members)
    (front : above <+: chain) : ∃ between, Leads fields above between := by
  induction leads generalizing above with
  | here =>
    cases List.prefix_nil.mp front
    exact ⟨_, .here⟩
  | into member inhabited _ ih =>
    cases above with
    | nil => exact ⟨_, .here⟩
    | cons first others =>
      obtain ⟨rfl, behind⟩ := List.cons_prefix_cons.mp front
      obtain ⟨between, leads⟩ := ih behind
      exact ⟨between, .into member inhabited leads⟩

end Chains

/-! ### Paths of leaves -/

/-- The paths of the leaves of the object at `names`. -/
def pathsBelow (names : List String) (fields : Dict FieldDecl) : List String :=
  (leavesBelow (ofSegments names) fields).map Config.Site.path

/-- The paths of the leaves of the field at `names`. -/
def pathsAt (names : List String) (decl : FieldDecl) : List String :=
  (leaves (ofSegments names) decl).map Config.Site.path

section Paths

variable {names : List String}

theorem fieldPath_ofSegments (plain : ∀ name ∈ names, Plain name) (name : String) :
    Compile.fieldPath (ofSegments names) name = ofSegments (names ++ [name]) := by
  by_cases root : names = []
  · subst root
    rw [List.nil_append, Path.ofSegments_singleton]
    rfl
  · have cut := Path.segments_ofSegments_of_plain root plain
    have named : ofSegments names ≠ "" := by
      intro blank
      rw [blank] at cut
      have empty : "" ∈ names := cut ▸ by decide
      exact (plain "" empty).1 rfl
    rw [Compile.fieldPath, if_neg named, Path.ofSegments_concat root]

theorem leavesBelow_eq (plain : ∀ name ∈ names, Plain name) (fields : Dict FieldDecl) :
    leavesBelow (ofSegments names) fields =
      fields.flatMap fun field => leaves (ofSegments (names ++ [field.1])) field.2 := by
  induction fields with
  | nil => rfl
  | cons field rest ih =>
    obtain ⟨name, decl⟩ := field
    rw [leavesBelow, fieldPath_ofSegments plain, List.flatMap_cons, ← ih]

theorem pathsBelow_eq (plain : ∀ name ∈ names, Plain name) (fields : Dict FieldDecl) :
    pathsBelow names fields =
      fields.flatMap fun field => pathsAt (names ++ [field.1]) field.2 := by
  rw [pathsBelow, leavesBelow_eq plain, List.map_flatMap]
  rfl

theorem pathsAt_object {members : Dict FieldDecl} (inhabited : members ≠ []) :
    pathsAt names (.object members) = pathsBelow names members := by
  rw [pathsAt, leaves_object _ inhabited, pathsBelow]

theorem leaves_leaf {decl : FieldDecl} (leaf : ∀ members, members ≠ [] → decl ≠ .object members)
    (path : String) : leaves path decl = [⟨path, decl⟩] := by
  by_cases object : ∃ members, decl = .object members
  · obtain ⟨members, rfl⟩ := object
    have blank : members = [] := by
      by_contra inhabited
      exact leaf members inhabited rfl
    subst blank
    rw [leaves, if_pos List.isEmpty_nil]
  · exact leaves_eq path (not_exists.mp object)

theorem pathsAt_leaf {decl : FieldDecl}
    (leaf : ∀ members, members ≠ [] → decl ≠ .object members) :
    pathsAt names decl = [ofSegments names] := by
  rw [pathsAt, leaves_leaf leaf]
  rfl

mutual

theorem leavesBelow_ne_nil (above : String) (fields : List (String × FieldDecl))
    (inhabited : fields ≠ []) : leavesBelow above fields ≠ [] := by
  match fields with
  | [] => exact absurd rfl inhabited
  | (name, decl) :: rest =>
    rw [leavesBelow]
    exact List.append_ne_nil_of_left_ne_nil (leaves_ne_nil _ decl) _

theorem leaves_ne_nil (path : String) (decl : FieldDecl) : leaves path decl ≠ [] := by
  match decl with
  | .object [] => simp [leaves]
  | .object (field :: rest) =>
    rw [leaves_object _ (List.cons_ne_nil field rest)]
    exact leavesBelow_ne_nil path (field :: rest) (List.cons_ne_nil field rest)
  | .scalar _ | .array _ | .reference _ | .embed _ => simp [leaves]

end

/-- No key is without a leaf. -/
theorem pathsAt_ne_nil (names : List String) (decl : FieldDecl) : pathsAt names decl ≠ [] := by
  rw [pathsAt, Ne, List.map_eq_nil_iff]
  exact leaves_ne_nil _ decl

end Paths

/-! ### Leaves keep apart -/

section Fans

variable {fields : Dict FieldDecl} {names : List String}

theorem plain_concat {name : String} (plain : ∀ other ∈ names, Plain other) (last : Plain name) :
    ∀ other ∈ names ++ [name], Plain other :=
  List.forall_mem_append.mpr ⟨plain, List.forall_mem_singleton.mpr last⟩

theorem fan_at {name : String} (plain : ∀ other ∈ names ++ [name], Plain other) (decl : FieldDecl)
    (inner : ∀ members : Dict FieldDecl, decl = .object members →
      Fan (names ++ [name]) (· ∈ members.keys) (pathsBelow (names ++ [name]) members)) :
    Fan names (· = name) (pathsAt (names ++ [name]) decl) := by
  by_cases object : ∃ members, members ≠ [] ∧ decl = .object members
  · obtain ⟨members, inhabited, rfl⟩ := object
    rw [pathsAt_object inhabited]
    exact (inner members rfl).narrow
  · rw [pathsAt_leaf fun members inhabited same => object ⟨members, inhabited, same⟩]
    exact .singleton plain

/-- The leaves of an object lie below its keys, and none lies below another. -/
theorem Keyed.fan (keyed : Keyed (· ≠ ·) fields) (plain : ∀ name ∈ names, Plain name) :
    Fan names (· ∈ fields.keys) (pathsBelow names fields) := by
  induction keyed generalizing names with
  | @fields fields distinct plainKeys _ ih =>
    -- Different fields go on by different keys, so that only the inside of each field is left.
    rw [pathsBelow_eq plain]
    refine .flatMap distinct ?_
    rintro ⟨name, decl⟩ member
    have plain' := plain_concat plain (plainKeys name (List.mem_map_of_mem member))
    refine fan_at plain' decl ?_
    rintro members rfl
    exact ih name members member plain'

end Fans

/-! ### Children -/

section Children

open SelectionPlan.Path (childToward otherChildren)

variable {fields members : Dict FieldDecl} {names chain : List String}

theorem Keyed.field (keyed : Keyed (· ≠ ·) fields) (plain : ∀ name ∈ names, Plain name)
    {name : String} {decl : FieldDecl} (member : (name, decl) ∈ fields) :
    Fan names (· = name) (pathsAt (names ++ [name]) decl) := by
  cases keyed with
  | fields _ plainKeys inside =>
    have plain' := plain_concat plain (plainKeys name (List.mem_map_of_mem member))
    refine fan_at plain' decl ?_
    rintro members rfl
    exact (inside name members member).fan plain'

/-- Seen from the end of a chain of keys, only what lies at the end of it matters. -/
theorem Leads.children (leads : Leads fields chain members) (keyed : Keyed (· ≠ ·) fields)
    (plain : ∀ name ∈ names, Plain name) (excluded : List String) :
    (pathsBelow names fields).filterMap (childToward (names ++ chain) excluded) =
      (pathsBelow (names ++ chain) members).filterMap (childToward (names ++ chain) excluded) := by
  induction leads generalizing names with
  | here => rw [List.append_nil]
  | @into fields inner members name rest member inhabited _ ih =>
    have ⟨distinct, plainKeys, inside⟩ := keyed
    have plain' := plain_concat plain (plainKeys name (List.mem_map_of_mem member))
    -- The leaves of other fields have parted from the chain already.
    have others : ∀ other ∈ fields, other.1 ≠ name →
        (pathsAt (names ++ [other.1]) other.2).filterMap
          (childToward (names ++ name :: rest) excluded) = [] := by
      rintro ⟨other, decl⟩ member' different
      rw [List.filterMap_eq_nil_iff]
      intro path leaf
      obtain ⟨_, rfl, leads⟩ := (keyed.field plain member').goOn path leaf
      exact Path.childToward_of_fork leads different rest excluded
    rw [pathsBelow_eq plain, List.filterMap_flatMap, flatMap_eq_of_entry distinct member others,
      pathsAt_object inhabited, List.append_cons]
    exact ih (inside name inner member) plain'

/-- The leaves of an object lead to its keys, one after the other. -/
theorem children_pathsBelow (keyed : Keyed (· ≠ ·) fields) (plain : ∀ name ∈ names, Plain name) :
    ((pathsBelow names fields).filterMap (childToward names [])).eraseDups =
      fields.keys.map fun name => ofSegments (names ++ [name]) := by
  have ⟨distinct, plainKeys, _⟩ := keyed
  -- All leaves of a field lead to its key, and there is one at least.
  have single : ∀ field ∈ fields, ((pathsAt (names ++ [field.1]) field.2).filterMap
      (childToward names [])).eraseDups = [ofSegments (names ++ [field.1])] := by
    rintro ⟨name, decl⟩ member
    have toward : ∀ path ∈ pathsAt (names ++ [name]) decl,
        childToward names [] path = some (ofSegments (names ++ [name])) := by
      intro path leaf
      obtain ⟨_, rfl, leads⟩ := (keyed.field plain member).goOn path leaf
      exact Path.childToward_next leads
    rw [List.filterMap_congr toward, eraseDups_filterMap_const (pathsAt_ne_nil _ decl)]
    rfl
  have named : fields.map (fun field => ofSegments (names ++ [field.1])) =
      fields.keys.map fun name => ofSegments (names ++ [name]) := by
    rw [Dict.keys, List.map_map]
    rfl
  rw [pathsBelow_eq plain, List.filterMap_flatMap, eraseDups_flatMap single, named]
  refine eraseDups_eq_self (List.Nodup.map_on ?_ distinct)
  intro name member other member' same
  have cut := congrArg Path.segments same
  rw [Path.segments_ofSegments_of_plain (by simp) (plain_concat plain (plainKeys name member)),
    Path.segments_ofSegments_of_plain (by simp) (plain_concat plain (plainKeys other member'))] at cut
  simpa using cut

/-- The children of the object at the end of a chain of keys are its keys. -/
theorem Leads.otherChildren_eq (leads : Leads fields chain members)
    (keyed : Keyed (· ≠ ·) fields) :
    otherChildren (pathsBelow [] fields) (ofSegments chain) [] =
      members.keys.map fun name => ofSegments (chain ++ [name]) := by
  have plain := leads.plain keyed
  rw [Path.otherChildren_ofSegments plain]
  have same := leads.children keyed (List.forall_mem_nil Plain) []
  rw [List.nil_append] at same
  rw [same, children_pathsBelow (leads.keyed keyed) plain]

/-- An object that keys lead to is no leaf, and some leaf lies below it. -/
theorem Leads.object (leads : Leads fields chain members) (keyed : Keyed (· ≠ ·) fields)
    (some : chain ≠ []) :
    ofSegments chain ∉ pathsBelow [] fields ∧
      ∃ path ∈ pathsBelow [] fields, Path.isBelow (ofSegments chain) path = true := by
  have plain := leads.plain keyed
  have cut := Path.segments_ofSegments_of_plain some plain
  obtain ⟨⟨name, decl⟩, rest, rfl⟩ := List.exists_cons_of_ne_nil (leads.inhabited some)
  -- A key of the object is its child, so there is a leaf that goes on by it.
  have child : ofSegments (chain ++ [name]) ∈
      otherChildren (pathsBelow [] fields) (ofSegments chain) [] := by
    rw [leads.otherChildren_eq keyed]
    exact List.mem_cons_self
  obtain ⟨path, member, next, others, cut', -, -⟩ :=
    (Path.mem_otherChildren_iff plain _ _ _).mp child
  refine ⟨?_, path, member, (Path.isBelow_iff_segments _ _).mpr ⟨next, others, by rw [cut', cut]⟩⟩
  -- A leaf at the object itself would cover that one.
  intro leaf
  have covers : Path.Covers (ofSegments chain) path := ⟨next :: others, by rw [cut', cut]⟩
  have different : ofSegments chain ≠ path := by
    rintro rfl
    simpa using cut.symm.trans cut'
  have apart := (keyed.fan (List.forall_mem_nil Plain)).apart
  exact (apart.forall leaf member different).1 covers

end Children

end SelectionPlan.FieldDecl
