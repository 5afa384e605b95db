import SelectionPlan.Proofs.Path.Segments
import SelectionPlan.Proofs.Repetition

/-!
# Children of a path

Which child a path leads to, said by segments. The parent is given by the names on the way to it,
none of which is empty, and the document itself by no names.
-/
namespace SelectionPlan.Path

theorem Plain.dotFree {name : String} (plain : Plain name) : '.' ∉ name.toList :=
  plain.2

theorem segments_ofSegments_of_plain {names : List String} (some : names ≠ [])
    (plain : ∀ name ∈ names, Plain name) : segments (ofSegments names) = names :=
  segments_ofSegments some fun name member => (plain name member).dotFree

/-- The names on the way to a parent are the non-empty segments of its path. -/
theorem filter_segments_ofSegments {names : List String} (plain : ∀ name ∈ names, Plain name) :
    (segments (ofSegments names)).filter (· ≠ "") = names := by
  by_cases root : names = []
  · subst root
    decide
  · rw [segments_ofSegments_of_plain root plain, List.filter_eq_self]
    intro name member
    simpa using (plain name member).1

theorem childToward_eq_some_iff (parent excluded : List String) (path child : String) :
    childToward parent excluded path = some child ↔
      ∃ name rest, segments path = parent ++ name :: rest ∧ name ∉ excluded ∧
        child = ofSegments (parent ++ [name]) := by
  unfold childToward
  split
  next inside =>
    obtain ⟨rest, cut⟩ := List.isPrefixOf_iff_prefix.mp inside
    rw [← cut, List.drop_left]
    cases rest with
    | nil => simp
    | cons name rest => simp [eq_comm]
  next outside =>
    constructor
    · intro found
      cases found
    · rintro ⟨name, rest, cut, -, -⟩
      exact absurd (List.isPrefixOf_iff_prefix.mpr ⟨name :: rest, cut.symm⟩) outside

theorem eq_of_prefix_concat {names path : List String} {first second : String}
    (front : names ++ [first] <+: path) (back : names ++ [second] <+: path) : first = second := by
  -- Both lead to the path with equally many names.
  have inside := List.prefix_of_prefix_length_le front back (by simp)
  have equal := inside.eq_of_length (by simp)
  simpa using equal

theorem childToward_next {names : List String} {name path : String}
    (leads : names ++ [name] <+: segments path) :
    childToward names [] path = some (ofSegments (names ++ [name])) := by
  obtain ⟨rest, cut⟩ := leads
  rw [childToward_eq_some_iff]
  exact ⟨name, rest, by rw [← cut, List.append_assoc]; rfl, List.not_mem_nil, rfl⟩

theorem childToward_of_fork {names : List String} {name other path : String}
    (leads : names ++ [other] <+: segments path) (fork : other ≠ name) (rest excluded : List String) :
    childToward (names ++ name :: rest) excluded path = none := by
  rw [Option.eq_none_iff_forall_ne_some]
  intro child found
  obtain ⟨next, others, cut, -, -⟩ := (childToward_eq_some_iff _ _ _ _).mp found
  refine fork (eq_of_prefix_concat leads ⟨rest ++ next :: others, ?_⟩)
  rw [cut]
  simp

/-- Below a path, children are found as they are in a document of their own. -/
theorem childToward_join (above : String) (parent excluded : List String) (path : String) :
    childToward (segments above ++ parent) excluded (join above path) =
      (childToward parent excluded path).map (join above) := by
  have joined : ∀ name, ofSegments (segments above ++ parent ++ [name]) =
      join above (ofSegments (parent ++ [name])) := by
    intro name
    rw [List.append_assoc, ofSegments_segments_append above (by simp)]
  apply Option.ext
  intro child
  simp only [Option.map_eq_some_iff, childToward_eq_some_iff, segments_join, List.append_assoc,
    List.append_cancel_left_eq]
  simp only [← List.append_assoc, joined]
  constructor
  · rintro ⟨name, rest, cut, named, rfl⟩
    exact ⟨_, ⟨name, rest, cut, named, rfl⟩, rfl⟩
  · rintro ⟨_, ⟨name, rest, cut, named, rfl⟩, rfl⟩
    exact ⟨name, rest, cut, named, rfl⟩

theorem childToward_apart {above path : String} (parent excluded : List String)
    (apart : ¬ Covers above path) : childToward (segments above ++ parent) excluded path = none := by
  rw [Option.eq_none_iff_forall_ne_some]
  intro child found
  obtain ⟨name, rest, cut, -, -⟩ := (childToward_eq_some_iff _ _ _ _).mp found
  exact apart ⟨parent ++ name :: rest, by rw [cut, List.append_assoc]⟩

/-- Seen from a parent that a path does not cover, everything below the path leads where the path
itself does. -/
theorem childToward_join_of_not_prefix {above : String} {parent : List String}
    (outside : ¬ segments above <+: parent) (excluded : List String) (path : String) :
    childToward parent excluded (join above path) = childToward parent excluded above := by
  apply Option.ext
  intro child
  simp only [childToward_eq_some_iff, segments_join]
  constructor
  · rintro ⟨name, rest, cut, named, rfl⟩
    -- The parent and the path are both on the way, so the parent comes first and the next name on
    -- the way is one of the path itself.
    have inside : parent <+: segments above ++ segments path := ⟨name :: rest, cut.symm⟩
    obtain ⟨between, same⟩ :=
      (List.prefix_or_prefix_of_prefix inside (List.prefix_append _ _)).resolve_right outside
    cases between with
    | nil => exact absurd ⟨[], by simp [← same]⟩ outside
    | cons next others =>
      rw [← same, List.append_assoc, List.append_cancel_left_eq] at cut
      obtain ⟨rfl, -⟩ := List.cons.inj cut
      exact ⟨next, others, same.symm, named, rfl⟩
  · rintro ⟨name, rest, cut, named, rfl⟩
    exact ⟨name, rest ++ segments path, by rw [cut, List.append_assoc]; rfl, named, rfl⟩

theorem otherChildren_ofSegments {names : List String} (plain : ∀ name ∈ names, Plain name)
    (paths excluded : List String) :
    otherChildren paths (ofSegments names) excluded =
      (paths.filterMap (childToward names excluded)).eraseDups := by
  rw [otherChildren, filter_segments_ofSegments plain]

theorem mem_otherChildren_iff {names : List String} (plain : ∀ name ∈ names, Plain name)
    (paths excluded : List String) (child : String) :
    child ∈ otherChildren paths (ofSegments names) excluded ↔
      ∃ path ∈ paths, ∃ name rest, segments path = names ++ name :: rest ∧ name ∉ excluded ∧
        child = ofSegments (names ++ [name]) := by
  simp only [otherChildren_ofSegments plain, List.mem_eraseDups, List.mem_filterMap,
    childToward_eq_some_iff]

/-- A child goes on from the non-empty segments of its parent by one name. The name may be empty,
but it holds no dot. -/
theorem segments_child {paths excluded : List String} {parent child : String}
    (member : child ∈ otherChildren paths parent excluded) :
    ∃ name, name ∉ excluded ∧ segments child = (segments parent).filter (· ≠ "") ++ [name] := by
  rw [otherChildren, List.mem_eraseDups, List.mem_filterMap] at member
  obtain ⟨source, -, toward⟩ := member
  obtain ⟨name, rest, cut, fresh, rfl⟩ := (childToward_eq_some_iff _ _ _ _).mp toward
  have front : (segments parent).filter (· ≠ "") ++ [name] <+: segments source :=
    ⟨rest, by rw [cut, List.append_assoc]; rfl⟩
  exact ⟨name, fresh, segments_ofSegments_of_prefix (by simp) front⟩

theorem segments_of_mem_otherChildren {names : List String} (plain : ∀ name ∈ names, Plain name)
    {paths excluded : List String} {child : String}
    (member : child ∈ otherChildren paths (ofSegments names) excluded) :
    ∃ name, name ∉ excluded ∧ segments child = names ++ [name] := by
  have cut := segments_child member
  rwa [filter_segments_ofSegments plain] at cut

/-- Empty names on the way to a parent are lost, so that a child is never too far below it. -/
theorem length_segments_child_le {names : List String}
    (dotFree : ∀ name ∈ names, '.' ∉ name.toList) {paths excluded : List String} {child : String}
    (member : child ∈ otherChildren paths (ofSegments names) excluded) :
    (segments child).length ≤ names.length + 1 := by
  obtain ⟨name, -, cut⟩ := segments_child member
  have kept : ((segments (ofSegments names)).filter (· ≠ "")).length ≤ names.length := by
    by_cases root : names = []
    · subst root
      decide
    · rw [segments_ofSegments root dotFree]
      exact List.length_filter_le _ _
  rw [cut, List.length_append, List.length_singleton]
  omega

theorem plain_of_mem_segments {path : String} (whole : "" ∉ segments path) :
    ∀ name ∈ segments path, Plain name :=
  fun _ member => ⟨fun blank => whole (blank ▸ member), notMem_of_mem_segments member⟩

/-- A path that is compared by its text and a path that is compared by its segments lie below the
same parents, as long as no segment of the parent is empty. -/
theorem otherChildren_ne_nil_iff {parent : String} (whole : "" ∉ segments parent)
    (paths : List String) :
    otherChildren paths parent [] ≠ [] ↔ ∃ path ∈ paths, isBelow parent path = true := by
  have mem_iff := mem_otherChildren_iff (plain_of_mem_segments whole) paths []
  rw [ofSegments_segments] at mem_iff
  constructor
  · intro some
    obtain ⟨child, member⟩ := List.exists_mem_of_ne_nil _ some
    obtain ⟨path, inside, name, rest, cut, -, -⟩ := (mem_iff child).mp member
    exact ⟨path, inside, (isBelow_iff_segments _ _).mpr ⟨name, rest, cut⟩⟩
  · rintro ⟨path, inside, below⟩
    obtain ⟨name, rest, cut⟩ := (isBelow_iff_segments _ _).mp below
    exact List.ne_nil_of_mem
      ((mem_iff _).mpr ⟨path, inside, name, rest, cut, List.not_mem_nil, rfl⟩)

theorem nodup_otherChildren (paths : List String) (parent : String) (excluded : List String) :
    (otherChildren paths parent excluded).Nodup :=
  nodup_eraseDups _

end SelectionPlan.Path
