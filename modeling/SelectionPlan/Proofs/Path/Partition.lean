import SelectionPlan.Proofs.Path.Children

/-!
# Children part what lies below their parent

Every path that goes on from the parent by a name that is not excluded lies at or below exactly one
of the children, and no child is without such a path. The children stand in the order in which the
paths first come to them, so there is only one such list.
-/
namespace SelectionPlan.Path

/-- The names on the way to a parent. The empty path is the document itself. -/
def wayTo (parent : String) : List String :=
  if parent = "" then [] else segments parent

@[simp] theorem ofSegments_wayTo (parent : String) : ofSegments (wayTo parent) = parent := by
  rw [wayTo]
  split
  next root =>
    rw [root]
    rfl
  next => exact ofSegments_segments parent

theorem plain_of_mem_wayTo {parent : String} (whole : "" ∉ wayTo parent) :
    ∀ name ∈ wayTo parent, Plain name := by
  intro name member
  refine ⟨fun blank => whole (blank ▸ member), ?_⟩
  rw [wayTo] at member
  split at member
  next => cases member
  next => exact notMem_of_mem_segments member

/-- The children of the parent with the names `way` that the paths lead to, without those whose last
name is excluded. -/
structure Partition (paths way excluded children : List String) : Prop where
  distinct : children.Nodup
  /-- A child goes on from the parent by one name that is not excluded. -/
  oneStep : ∀ child ∈ children, ∃ name, name ∉ excluded ∧ segments child = way ++ [name]
  /-- A path that goes on from the parent lies at or below one child. -/
  once : ∀ path ∈ paths, ∀ name rest, segments path = way ++ name :: rest → name ∉ excluded →
    ∃! child, child ∈ children ∧ Covers child path
  inhabited : ∀ child ∈ children, ∃ path ∈ paths, Covers child path
  /-- The paths come to an earlier child first. -/
  inOrder : children.Pairwise fun first second =>
    paths.findIdx (Covers first ·) < paths.findIdx (Covers second ·)

variable {paths way excluded children others : List String}

/-- A child covers just the paths that lead to it. -/
theorem covers_iff_childToward {child name : String} (cut : segments child = way ++ [name])
    (fresh : name ∉ excluded) (path : String) :
    Covers child path ↔ childToward way excluded path = some child := by
  rw [Covers, cut, childToward_eq_some_iff]
  constructor
  · rintro ⟨rest, joined⟩
    refine ⟨name, rest, ?_, fresh, ?_⟩
    · rw [← joined, List.append_assoc]
      rfl
    · rw [← cut, ofSegments_segments]
  · rintro ⟨next, rest, joined, -, rfl⟩
    have front : way ++ [next] <+: segments path := ⟨rest, by rw [joined, List.append_assoc]; rfl⟩
    rwa [← cut, segments_ofSegments_of_prefix (by simp) front]

namespace Partition

/-- A child is listed exactly when some path leads to it. -/
theorem mem_iff (partition : Partition paths way excluded children) (child : String) :
    child ∈ children ↔ ∃ path ∈ paths, childToward way excluded path = some child := by
  constructor
  · intro member
    obtain ⟨name, fresh, cut⟩ := partition.oneStep child member
    obtain ⟨path, inside, covers⟩ := partition.inhabited child member
    exact ⟨path, inside, (covers_iff_childToward cut fresh path).mp covers⟩
  · rintro ⟨path, inside, toward⟩
    obtain ⟨name, rest, joined, fresh, rfl⟩ := (childToward_eq_some_iff _ _ _ _).mp toward
    obtain ⟨child, ⟨member, covers⟩, -⟩ := partition.once path inside name rest joined fresh
    -- The child that covers the path is the one that the path leads to.
    obtain ⟨name', fresh', cut⟩ := partition.oneStep child member
    have same := (covers_iff_childToward cut fresh' path).mp covers
    rw [toward, Option.some.injEq] at same
    rwa [same]

/-- What is asked of the children determines them and their order. -/
theorem unique (partition : Partition paths way excluded children)
    (partition' : Partition paths way excluded others) : children = others := by
  have perm : children.Perm others := by
    rw [List.perm_ext_iff_of_nodup partition.distinct partition'.distinct]
    exact fun child => (partition.mem_iff child).trans (partition'.mem_iff child).symm
  refine perm.eq_of_pairwise ?_ partition.inOrder partition'.inOrder
  intro first second _ _ before after
  exact absurd before (Nat.lt_asymm after)

end Partition

/-- What some path leads to, once each and in the order in which the paths come to it, parts what
lies below the parent. -/
private theorem partition_of_mem_iff (distinct : children.Nodup)
    (mem_iff : ∀ child, child ∈ children ↔ ∃ path ∈ paths, childToward way excluded path = some child)
    (inOrder : children.Pairwise fun first second =>
      paths.findIdx (childToward way excluded · == some first) <
        paths.findIdx (childToward way excluded · == some second)) :
    Partition paths way excluded children := by
  have oneStep : ∀ child ∈ children, ∃ name, name ∉ excluded ∧ segments child = way ++ [name] := by
    intro child member
    obtain ⟨path, -, toward⟩ := (mem_iff child).mp member
    obtain ⟨name, rest, joined, fresh, rfl⟩ := (childToward_eq_some_iff _ _ _ _).mp toward
    have front : way ++ [name] <+: segments path := ⟨rest, by rw [joined, List.append_assoc]; rfl⟩
    exact ⟨name, fresh, segments_ofSegments_of_prefix (by simp) front⟩
  have covers_iff : ∀ child ∈ children, ∀ path,
      Covers child path ↔ childToward way excluded path = some child := by
    intro child member
    obtain ⟨name, fresh, cut⟩ := oneStep child member
    exact covers_iff_childToward cut fresh
  refine ⟨distinct, oneStep, ?_, ?_, ?_⟩
  · intro path inside name rest joined fresh
    have toward := (childToward_eq_some_iff _ _ _ _).mpr ⟨name, rest, joined, fresh, rfl⟩
    have member := (mem_iff _).mpr ⟨path, inside, toward⟩
    refine ⟨_, ⟨member, (covers_iff _ member path).mpr toward⟩, ?_⟩
    rintro other ⟨member', covers⟩
    have toward' := (covers_iff other member' path).mp covers
    rw [toward, Option.some.injEq] at toward'
    exact toward'.symm
  · intro child member
    obtain ⟨path, inside, toward⟩ := (mem_iff child).mp member
    exact ⟨path, inside, (covers_iff child member path).mpr toward⟩
  · -- The first path below a child is the first one that leads to it.
    have place : ∀ child ∈ children,
        paths.findIdx (Covers child ·) = paths.findIdx (childToward way excluded · == some child) := by
      intro child member
      congr 1
      funext path
      rw [Bool.eq_iff_iff, decide_eq_true_iff, beq_iff_eq]
      exact covers_iff child member path
    refine inOrder.imp_of_mem fun {first second} member member' before => ?_
    rwa [place first member, place second member']

/-- The children of a parent without empty segments part what lies below the parent, and no other
list does. A path that only begins with the same characters lies below none of them. -/
theorem otherChildren_partition (paths excluded : List String) (parent : String)
    (whole : "" ∉ wayTo parent) :
    Partition paths (wayTo parent) excluded (otherChildren paths parent excluded) ∧
      (∀ children, Partition paths (wayTo parent) excluded children →
        children = otherChildren paths parent excluded) ∧
      ∀ child ∈ otherChildren paths parent excluded, ∀ path, Covers child path →
        parent = "" ∨ isBelow parent path = true := by
  have listed : otherChildren paths parent excluded =
      (paths.filterMap (childToward (wayTo parent) excluded)).eraseDups := by
    have toParent := otherChildren_ofSegments (plain_of_mem_wayTo whole) paths excluded
    rwa [ofSegments_wayTo] at toParent
  have partition : Partition paths (wayTo parent) excluded (otherChildren paths parent excluded) := by
    rw [listed]
    refine partition_of_mem_iff (nodup_eraseDups _) ?_ (pairwise_findIdx_eraseDups _ paths)
    intro child
    rw [List.mem_eraseDups, List.mem_filterMap]
  refine ⟨partition, fun children partition' => partition'.unique partition, ?_⟩
  intro child member path covers
  refine or_iff_not_imp_left.mpr fun below => ?_
  obtain ⟨name, -, cut⟩ := partition.oneStep child member
  obtain ⟨rest, joined⟩ := covers
  rw [isBelow_iff_segments]
  refine ⟨name, rest, ?_⟩
  rw [← joined, cut, wayTo, if_neg below, List.append_assoc]
  rfl

theorem otherChildren_partition_date :
    let paths := ["date.month", "dateline.x", "date.time.h", "date", "date..x", "date.time.m"]
    "" ∉ wayTo "date" ∧ otherChildren paths "date" ["month"] = ["date.time", "date."] ∧
      Partition paths ["date"] ["month"] ["date.time", "date."] := by
  intro paths
  have whole : "" ∉ wayTo "date" := by decide
  have way : wayTo "date" = ["date"] := by decide
  have listed : otherChildren paths "date" ["month"] = ["date.time", "date."] := by decide +kernel
  have partition := (otherChildren_partition paths ["month"] "date" whole).1
  rw [listed, way] at partition
  exact ⟨whole, listed, partition⟩

end SelectionPlan.Path
