import SelectionPlan.Proofs.Path.Children
import SelectionPlan.Proofs.Schema.Lookup

/-!
# Flattened schemas

An embedded schema can be written out in the schema that embeds it: its paths and virtual relations
move below the path that held it. Below that path the flattened schema then reads like the embedded
one, and everywhere else like the schema that it was.
-/
namespace SelectionPlan

namespace Schema

/-- The paths and virtual relations of a schema, moved below a path. -/
def movedPaths (path : String) (sub : Schema) : List (String × PathInfo) :=
  sub.paths.map fun inner => (Path.join path inner.1, inner.2)

/-- The schema with the paths and virtual relations of an embedded schema written out in the place
of the path that embeds it. -/
def flatten (schema : Schema) (path : String) (sub : Schema) : Schema where
  paths := schema.paths.flatMap fun entry =>
    if entry.1 = path then movedPaths path sub else [entry]
  virtuals := sub.virtuals.foldr
    (fun inner virtuals => virtuals.insert (Path.join path inner.1) inner.2) schema.virtuals

/-- The path embeds `sub`, which declares something, and the schema declares nothing else at the
path or below it. -/
structure Embeds (schema : Schema) (path : String) (sub : Schema) : Prop where
  solid : ∀ segment ∈ Path.segments path, segment ≠ ""
  declared : ∃ before after, schema.paths = before ++ (path, .embedded sub) :: after ∧
    ∀ entry ∈ before ++ after, ¬ Path.Covers path entry.1
  virtuals : ∀ name ∈ schema.virtualNames, ¬ Path.Covers path name
  inhabited : sub.paths ≠ []

namespace Embeds

variable {schema sub : Schema} {path : String}

/-- The flattened schema declares the moved paths in the place of the one that embedded them. -/
theorem paths_flatten (embeds : schema.Embeds path sub) :
    ∃ before after, schema.paths = before ++ (path, .embedded sub) :: after ∧
      (schema.flatten path sub).paths = before ++ (movedPaths path sub ++ after) ∧
      ∀ entry ∈ before ++ after, ¬ Path.Covers path entry.1 := by
  obtain ⟨before, after, cut, clear⟩ := embeds.declared
  -- Only the path itself is replaced, and it is declared once.
  have kept : ∀ entries : List (String × PathInfo), (∀ entry ∈ entries, ¬ Path.Covers path entry.1) →
      (entries.flatMap fun entry => if entry.1 = path then movedPaths path sub else [entry]) =
        entries := by
    intro entries clear
    induction entries with
    | nil => rfl
    | cons entry rest ih =>
      have other : entry.1 ≠ path := by
        intro same
        exact clear entry List.mem_cons_self (same ▸ Path.covers_refl _)
      rw [List.flatMap_cons, if_neg other, ih fun entry member =>
        clear entry (List.mem_cons_of_mem _ member)]
      rfl
  refine ⟨before, after, cut, ?_, clear⟩
  rw [flatten, cut, List.flatMap_append, List.flatMap_cons, if_pos rfl,
    kept before fun entry member => clear entry (List.mem_append_left _ member),
    kept after fun entry member => clear entry (List.mem_append_right _ member)]

private theorem find?_movedPaths (path inner : String) (sub : Schema) :
    ((movedPaths path sub).find? fun entry => entry.1 == Path.join path inner).map Prod.snd =
      sub.path? inner := by
  -- Moved paths are found under moved names.
  have same : ((fun entry : String × PathInfo => entry.1 == Path.join path inner) ∘
      fun entry : String × PathInfo => (Path.join path entry.1, entry.2)) =
        fun entry => entry.1 == inner := by
    funext entry
    rw [Bool.eq_iff_iff]
    simp [(Path.join_injective path).eq_iff]
  rw [movedPaths, List.find?_map, same, path?, Option.map_map]
  rfl

theorem path?_flatten_join (embeds : schema.Embeds path sub) (inner : String) :
    (schema.flatten path sub).path? (Path.join path inner) = sub.path? inner := by
  obtain ⟨before, after, -, cut, clear⟩ := embeds.paths_flatten
  have absent : ∀ entries : List (String × PathInfo), (∀ entry ∈ entries, entry ∈ before ++ after) →
      entries.find? (fun entry => entry.1 == Path.join path inner) = none := by
    intro entries within
    rw [List.find?_eq_none]
    intro entry member same
    apply clear entry (within entry member)
    rw [beq_iff_eq.mp same]
    exact Path.covers_join path inner
  rw [path?, cut, List.find?_append, List.find?_append,
    absent before fun entry member => List.mem_append_left _ member,
    absent after fun entry member => List.mem_append_right _ member, Option.none_or,
    Option.or_none, find?_movedPaths]

theorem path?_flatten_apart (embeds : schema.Embeds path sub) {other : String}
    (apart : ¬ Path.Covers path other) :
    (schema.flatten path sub).path? other = schema.path? other := by
  obtain ⟨before, after, cut, cut', -⟩ := embeds.paths_flatten
  have moved : (movedPaths path sub).find? (fun entry => entry.1 == other) = none := by
    rw [List.find?_eq_none]
    intro entry member same
    obtain ⟨inner, -, rfl⟩ := List.mem_map.mp member
    apply apart
    rw [← beq_iff_eq.mp same]
    exact Path.covers_join path inner.1
  have itself : (path == other) = false := by
    rw [beq_eq_false_iff_ne]
    rintro rfl
    exact apart (Path.covers_refl _)
  rw [path?, path?, cut, cut', List.find?_append, List.find?_append, List.find?_append, moved,
    Option.none_or, List.find?_cons_of_neg (by simp [itself])]

private theorem get?_foldr_join (path name : String) (inner outer : Dict String) :
    (inner.foldr (fun entry virtuals => virtuals.insert (Path.join path entry.1) entry.2)
      outer).get? (Path.join path name) = (inner.get? name).or (outer.get? (Path.join path name)) := by
  induction inner with
  | nil => rfl
  | cons entry rest ih =>
    rw [List.foldr_cons, Dict.get?_insert, ih, Dict.get?_cons]
    by_cases same : entry.1 = name
    · rw [if_pos (congrArg (Path.join path) same), if_pos same, Option.some_or]
    · rw [if_neg fun equal => same (Path.join_injective path equal), if_neg same]

private theorem get?_foldr_apart {path other : String}
    (apart : ∀ rest, Path.join path rest ≠ other) (inner outer : Dict String) :
    (inner.foldr (fun entry virtuals => virtuals.insert (Path.join path entry.1) entry.2)
      outer).get? other = outer.get? other := by
  induction inner with
  | nil => rfl
  | cons entry rest ih =>
    rw [List.foldr_cons, Dict.get?_insert, if_neg (apart entry.1), ih]

theorem virtual?_flatten_join (embeds : schema.Embeds path sub) (name : String) :
    (schema.flatten path sub).virtual? (Path.join path name) = sub.virtual? name := by
  -- The schema around has no virtual relation of its own there.
  have absent : schema.virtuals.get? (Path.join path name) = none :=
    Dict.get?_eq_none_iff.mpr fun member =>
      embeds.virtuals _ member (Path.covers_join path name)
  rw [virtual?, flatten, get?_foldr_join, absent, Option.or_none, virtual?]

theorem virtual?_flatten_apart {other : String} (apart : ¬ Path.Covers path other) :
    (schema.flatten path sub).virtual? other = schema.virtual? other := by
  apply get?_foldr_apart
  rintro rest rfl
  exact apart (Path.covers_join path rest)

theorem pathNames_flatten (embeds : schema.Embeds path sub) :
    ∃ before after, schema.pathNames = before ++ path :: after ∧
      (schema.flatten path sub).pathNames =
        before ++ (sub.pathNames.map (Path.join path) ++ after) ∧
      ∀ name ∈ before ++ after, ¬ Path.Covers path name := by
  obtain ⟨before, after, cut, cut', clear⟩ := embeds.paths_flatten
  refine ⟨before.map Prod.fst, after.map Prod.fst, ?_, ?_, ?_⟩
  · simp [pathNames, cut]
  · simp [pathNames, cut', movedPaths, Function.comp_def]
  · intro name member
    rw [← List.map_append] at member
    obtain ⟨entry, inside, rfl⟩ := List.mem_map.mp member
    exact clear entry inside

theorem mem_virtualNames_flatten (schema sub : Schema) (path other : String) :
    other ∈ (schema.flatten path sub).virtualNames ↔
      other ∈ schema.virtualNames ∨ ∃ inner ∈ sub.virtualNames, other = Path.join path inner := by
  rw [virtualNames, flatten, virtualNames, virtualNames]
  induction sub.virtuals with
  | nil => simp [Dict.keys]
  | cons entry rest ih =>
    rw [List.foldr_cons, Dict.mem_keys_insert, ih]
    simp only [Dict.keys, List.map_cons, List.exists_mem_cons_iff]
    tauto

theorem hasDescendants_flatten_join (embeds : schema.Embeds path sub) (inner : String) :
    (schema.flatten path sub).hasDescendants (Path.join path inner) = sub.hasDescendants inner := by
  obtain ⟨before, after, -, cut, clear⟩ := embeds.pathNames_flatten
  -- Everything that the flattened schema has below the path was moved there.
  have declared : ∀ rest, Path.join path rest ∈ (schema.flatten path sub).pathNames ↔
      rest ∈ sub.pathNames := by
    intro rest
    have outside : ∀ names : List String, (∀ name ∈ names, name ∈ before ++ after) →
        Path.join path rest ∉ names := by
      intro names within member
      exact clear _ (within _ member) (Path.covers_join path rest)
    have front := outside before fun name member => List.mem_append_left _ member
    have back := outside after fun name member => List.mem_append_right _ member
    rw [cut, List.mem_append, List.mem_append, List.mem_map_of_injective (Path.join_injective path)]
    tauto
  have related : ∀ rest, Path.join path rest ∈ (schema.flatten path sub).virtualNames ↔
      rest ∈ sub.virtualNames := by
    intro rest
    rw [mem_virtualNames_flatten]
    constructor
    · rintro (member | ⟨inner, member, equal⟩)
      · exact absurd (Path.covers_join path rest) (embeds.virtuals _ member)
      · rwa [Path.join_injective path equal]
    · intro member
      exact Or.inr ⟨rest, member, rfl⟩
  rw [Bool.eq_iff_iff, hasDescendants_iff, hasDescendants_iff]
  simp only [Path.join_assoc, declared, related]

theorem hasDescendants_flatten_apart (embeds : schema.Embeds path sub) {other : String}
    (apart : ¬ Path.Covers path other) :
    (schema.flatten path sub).hasDescendants other = schema.hasDescendants other := by
  obtain ⟨before, after, cut, cut', clear⟩ := embeds.pathNames_flatten
  -- A moved path below `other` puts the path that embedded it below `other` as well.
  have above : ∀ rest inner, Path.join other rest = Path.join path inner →
      schema.hasDescendants other = true := by
    intro rest inner equal
    have covers : Path.Covers other (Path.join path inner) := equal ▸ Path.covers_join other rest
    have below := (covers.total (Path.covers_join path inner)).resolve_right apart
    rw [hasDescendants_iff]
    rcases (Path.covers_iff _ _).mp below with rfl | ⟨rest', rfl⟩
    · exact absurd below apart
    · exact ⟨rest', Or.inl (by simp [cut])⟩
  rw [Bool.eq_iff_iff]
  constructor
  · intro found
    obtain ⟨rest, declared | related⟩ := (hasDescendants_iff _ _).mp found
    · simp only [cut', List.mem_append, List.mem_map] at declared
      rcases declared with member | ⟨inner, -, equal⟩ | member
      · exact (hasDescendants_iff _ _).mpr ⟨rest, Or.inl (by simp [cut, member])⟩
      · exact above rest inner equal.symm
      · exact (hasDescendants_iff _ _).mpr ⟨rest, Or.inl (by simp [cut, member])⟩
    · rcases (mem_virtualNames_flatten _ _ _ _).mp related with member | ⟨inner, -, equal⟩
      · exact (hasDescendants_iff _ _).mpr ⟨rest, Or.inr member⟩
      · exact above rest inner equal
  · intro found
    rw [hasDescendants_iff]
    obtain ⟨rest, declared | related⟩ := (hasDescendants_iff _ _).mp found
    · simp only [cut, List.mem_append, List.mem_cons] at declared
      rcases declared with member | equal | member
      · exact ⟨rest, Or.inl (by simp [cut', member])⟩
      · -- The path itself is gone, but one of the moved paths stands in for it.
        obtain ⟨inner, member⟩ := List.exists_mem_of_ne_nil sub.pathNames
          (by simpa [pathNames] using embeds.inhabited)
        refine ⟨Path.join rest inner, Or.inl ?_⟩
        rw [← Path.join_assoc, equal, cut']
        exact List.mem_append_right _ (List.mem_append_left _ (List.mem_map_of_mem member))
      · exact ⟨rest, Or.inl (by simp [cut', member])⟩
    · exact ⟨rest, Or.inr ((mem_virtualNames_flatten _ _ _ _).mpr (Or.inl related))⟩

theorem virtual?_eq_none (embeds : schema.Embeds path sub) : schema.virtual? path = none :=
  Dict.get?_eq_none_iff.mpr fun member => embeds.virtuals _ member (Path.covers_refl path)

theorem path?_eq (embeds : schema.Embeds path sub) :
    schema.path? path = some (.embedded sub) := by
  obtain ⟨before, after, cut, clear⟩ := embeds.declared
  have absent : before.find? (fun entry => entry.1 == path) = none := by
    rw [List.find?_eq_none]
    intro entry member same
    apply clear entry (List.mem_append_left _ member)
    rw [beq_iff_eq.mp same]
    exact Path.covers_refl path
  rw [path?, cut, List.find?_append, absent, Option.none_or, List.find?_cons_of_pos (by simp)]
  rfl

theorem virtual?_flatten (embeds : schema.Embeds path sub) :
    (schema.flatten path sub).virtual? path = none := by
  rw [virtual?, flatten, get?_foldr_apart (Path.join_ne path)]
  exact embeds.virtual?_eq_none

theorem path?_flatten (embeds : schema.Embeds path sub) :
    (schema.flatten path sub).path? path = none := by
  -- Moved paths lie strictly below, and the others are not covered.
  obtain ⟨before, after, -, cut, clear⟩ := embeds.paths_flatten
  rw [path?, cut, Option.map_eq_none_iff, List.find?_eq_none]
  intro entry member same
  have equal : entry.1 = path := by simpa using same
  simp only [List.mem_append] at member
  rcases member with member | member | member
  · exact clear entry (List.mem_append_left _ member) (equal ▸ Path.covers_refl _)
  · obtain ⟨inner, -, rfl⟩ := List.mem_map.mp member
    exact Path.join_ne path inner.1 equal
  · exact clear entry (List.mem_append_right _ member) (equal ▸ Path.covers_refl _)

theorem hasDescendants_flatten (embeds : schema.Embeds path sub) :
    (schema.flatten path sub).hasDescendants path = true := by
  obtain ⟨before, after, -, cut, -⟩ := embeds.pathNames_flatten
  obtain ⟨inner, member⟩ := List.exists_mem_of_ne_nil sub.pathNames
    (by simpa [pathNames] using embeds.inhabited)
  rw [hasDescendants_iff, cut]
  refine ⟨inner, Or.inl ?_⟩
  exact List.mem_append_right _ (List.mem_append_left _ (List.mem_map_of_mem member))

theorem plain (embeds : schema.Embeds path sub) :
    ∀ name ∈ Path.segments path, Path.Plain name := by
  intro name member
  exact ⟨embeds.solid name member, Path.notMem_of_mem_segments member⟩

/-- At or below the path, the flattened schema has the children of the embedded one. -/
theorem otherChildren_flatten_inside (embeds : schema.Embeds path sub) {names : List String}
    (plain : ∀ name ∈ names, Path.Plain name) (excluded : List String) :
    Path.otherChildren (schema.flatten path sub).pathNames
        (Path.ofSegments (Path.segments path ++ names)) excluded =
      (Path.otherChildren sub.pathNames (Path.ofSegments names) excluded).map (Path.join path) := by
  obtain ⟨before, after, -, cut, clear⟩ := embeds.pathNames_flatten
  have absent : ∀ others : List String, (∀ name ∈ others, name ∈ before ++ after) →
      others.filterMap (Path.childToward (Path.segments path ++ names) excluded) = [] := by
    intro others within
    rw [List.filterMap_eq_nil_iff]
    intro other member
    exact Path.childToward_apart names excluded (clear other (within other member))
  have moved : (sub.pathNames.map (Path.join path)).filterMap
      (Path.childToward (Path.segments path ++ names) excluded) =
        (sub.pathNames.filterMap (Path.childToward names excluded)).map (Path.join path) := by
    rw [List.filterMap_map, List.map_filterMap]
    apply List.filterMap_congr
    intro other _
    exact Path.childToward_join path names excluded other
  have plain' : ∀ name ∈ Path.segments path ++ names, Path.Plain name := by
    intro name member
    exact (List.mem_append.mp member).elim (embeds.plain name) (plain name)
  rw [Path.otherChildren_ofSegments plain', Path.otherChildren_ofSegments plain, cut,
    List.filterMap_append, List.filterMap_append,
    absent before fun name member => List.mem_append_left _ member,
    absent after fun name member => List.mem_append_right _ member, moved, List.append_nil,
    List.nil_append, eraseDups_map (Path.join_injective path)]

/-- Outside of the path, the flattened schema has the children that it had before. -/
theorem otherChildren_flatten_outside (embeds : schema.Embeds path sub) {names : List String}
    (plain : ∀ name ∈ names, Path.Plain name) (outside : ¬ Path.segments path <+: names)
    (excluded : List String) :
    Path.otherChildren (schema.flatten path sub).pathNames (Path.ofSegments names) excluded =
      Path.otherChildren schema.pathNames (Path.ofSegments names) excluded := by
  obtain ⟨before, after, cut, cut', -⟩ := embeds.pathNames_flatten
  -- All moved paths lead to the child to which the path that embedded them led.
  have moved : ((sub.pathNames.map (Path.join path)).filterMap
      (Path.childToward names excluded)).eraseDups =
        ([path].filterMap (Path.childToward names excluded)).eraseDups := by
    have some : sub.pathNames ≠ [] := by simpa [pathNames] using embeds.inhabited
    have constant : (Path.childToward names excluded) ∘ Path.join path =
        fun _ => Path.childToward names excluded path := by
      funext other
      exact Path.childToward_join_of_not_prefix outside excluded other
    rw [List.filterMap_map, constant, eraseDups_filterMap_const some]
    exact (eraseDups_filterMap_const (List.cons_ne_nil path []) _).symm
  rw [Path.otherChildren_ofSegments plain, Path.otherChildren_ofSegments plain, cut, cut',
    List.filterMap_append, List.filterMap_append, ← List.singleton_append (x := path),
    List.filterMap_append, List.filterMap_append]
  exact eraseDups_append_congr rfl (eraseDups_append_congr moved rfl)

end Embeds

end Schema

end SelectionPlan
