import SelectionPlan.Path
import Mathlib.Data.List.Basic

/-!
# Paths as lists of segments

A path and the list of its segments determine each other, and joining paths appends their
segments. Everything that is said about paths by comparing strings is said about segments here.
-/
namespace SelectionPlan

namespace Text

theorem splitChars_eq_splitOn (separator : Char) (text : List Char) :
    splitChars separator text = text.splitOn separator := by
  induction text with
  | nil => rfl
  | cons c rest ih =>
    have some := splitChars_ne_nil separator rest
    rw [ih] at some
    obtain ⟨first, others, cut⟩ := List.exists_cons_of_ne_nil some
    rw [splitChars, ih, List.splitOn_cons_eq_if_modifyHead]
    by_cases same : c = separator
    · simp [same]
    · simp [same, cut, extendFirst]

theorem notMem_of_mem_splitChars {separator : Char} {text part : List Char}
    (member : part ∈ splitChars separator text) : separator ∉ part := by
  induction text generalizing part with
  | nil => simp_all [splitChars]
  | cons c rest ih =>
    rw [splitChars] at member
    split at member
    next =>
      rcases List.mem_cons.mp member with rfl | later
      · simp
      · exact ih later
    next different =>
      obtain ⟨first, others, cut⟩ := List.exists_cons_of_ne_nil (splitChars_ne_nil separator rest)
      rw [cut] at ih member
      rcases List.mem_cons.mp member with rfl | later
      · have inside := ih List.mem_cons_self
        simp [inside, Ne.symm different]
      · exact ih (List.mem_cons_of_mem _ later)

/-- Parts without the separator are found again after they were joined. -/
theorem split_intercalate {separator : Char} {parts : List String} (some : parts ≠ [])
    (free : ∀ part ∈ parts, separator ∉ part.toList) :
    split separator (String.intercalate (String.singleton separator) parts) = parts := by
  have cut : (String.intercalate (String.singleton separator) parts).toList.splitOn separator =
      parts.map String.toList := by
    rw [String.toList_intercalate, String.toList_singleton]
    apply List.splitOn_intercalate
    · simpa using free
    · simpa using some
  rw [split, splitChars_eq_splitOn, cut]
  simp [Function.comp_def]

end Text

namespace Path

/-- A name that is one segment of a path: it is not empty and holds no dot. -/
def Plain (name : String) : Prop :=
  name ≠ "" ∧ '.' ∉ name.toList

instance (name : String) : Decidable (Plain name) :=
  inferInstanceAs (Decidable (_ ∧ _))

theorem segments_ne_nil (path : String) : segments path ≠ [] :=
  Text.split_ne_nil _ _

theorem notMem_of_mem_segments {path segment : String} (member : segment ∈ segments path) :
    '.' ∉ segment.toList := by
  obtain ⟨part, inside, rfl⟩ := List.mem_map.mp member
  simpa using Text.notMem_of_mem_splitChars inside

@[simp] theorem ofSegments_segments (path : String) : ofSegments (segments path) = path := by
  apply String.toList_injective
  have parts : (segments path).map String.toList = path.toList.splitOn '.' := by
    simp [segments, Text.split, Text.splitChars_eq_splitOn, Function.comp_def]
  rw [ofSegments, String.toList_intercalate, parts]
  exact List.intercalate_splitOn _

theorem segments_ofSegments {names : List String} (some : names ≠ [])
    (plain : ∀ name ∈ names, '.' ∉ name.toList) : segments (ofSegments names) = names :=
  Text.split_intercalate some plain

/-- The first names of a path are the segments of the path that they lead to. -/
theorem segments_ofSegments_of_prefix {names : List String} {path : String} (some : names ≠ [])
    (front : names <+: segments path) : segments (ofSegments names) = names :=
  segments_ofSegments some fun _ member => notMem_of_mem_segments (front.subset member)

theorem segments_injective : Function.Injective segments :=
  Function.LeftInverse.injective ofSegments_segments

theorem ofSegments_append {above below : List String} (some : above ≠ []) (some' : below ≠ []) :
    ofSegments (above ++ below) = join (ofSegments above) (ofSegments below) :=
  String.intercalate_append_of_ne_nil some some'

@[simp] theorem ofSegments_singleton (name : String) : ofSegments [name] = name :=
  String.intercalate_singleton

theorem ofSegments_concat {above : List String} (some : above ≠ []) (name : String) :
    ofSegments (above ++ [name]) = join (ofSegments above) name := by
  rw [ofSegments_append some (List.cons_ne_nil name []), ofSegments_singleton]

theorem ofSegments_segments_append (above : String) {below : List String} (some : below ≠ []) :
    ofSegments (segments above ++ below) = join above (ofSegments below) := by
  rw [ofSegments_append (segments_ne_nil above) some, ofSegments_segments]

/-- Names may be joined in part before they are joined in full. -/
theorem ofSegments_append_ofSegments (above : List String) {below : List String}
    (some : below ≠ []) : ofSegments (above ++ [ofSegments below]) = ofSegments (above ++ below) := by
  by_cases root : above = []
  · simp [root]
  · rw [ofSegments_concat root, ofSegments_append root some]

@[simp] theorem segments_join (above below : String) :
    segments (join above below) = segments above ++ segments below := by
  have cut := ofSegments_append (segments_ne_nil above) (segments_ne_nil below)
  rw [ofSegments_segments, ofSegments_segments] at cut
  rw [← cut]
  apply segments_ofSegments (by simp [segments_ne_nil])
  intro segment member
  rcases List.mem_append.mp member with member | member
  · exact notMem_of_mem_segments member
  · exact notMem_of_mem_segments member

theorem join_assoc (first second third : String) :
    join (join first second) third = join first (join second third) := by
  simp [join, String.append_assoc]

theorem join_injective (above : String) : Function.Injective (join above) := by
  intro first second same
  apply segments_injective
  have equal := congrArg segments same
  rw [segments_join, segments_join] at equal
  exact List.append_cancel_left equal

theorem join_ne (above below : String) : join above below ≠ above := by
  intro same
  -- The joined path has more segments.
  have longer := congrArg (fun path => (segments path).length) same
  simp only [segments_join, List.length_append] at longer
  exact segments_ne_nil below (List.length_eq_zero_iff.mp (by omega))

theorem isBelow_iff (above path : String) :
    isBelow above path = true ↔ ∃ rest, path = join above rest := by
  rw [isBelow, List.isPrefixOf_iff_prefix]
  constructor
  · rintro ⟨rest, found⟩
    refine ⟨String.ofList rest, String.toList_injective ?_⟩
    rw [← found]
    simp [join]
  · rintro ⟨rest, rfl⟩
    exact ⟨rest.toList, by simp [join]⟩

/-- To lie below is to have more segments after the same ones. -/
theorem isBelow_iff_segments (above path : String) :
    isBelow above path = true ↔ ∃ name rest, segments path = segments above ++ name :: rest := by
  rw [isBelow_iff]
  constructor
  · rintro ⟨below, rfl⟩
    obtain ⟨name, rest, cut⟩ := List.exists_cons_of_ne_nil (segments_ne_nil below)
    exact ⟨name, rest, by rw [segments_join, cut]⟩
  · rintro ⟨name, rest, cut⟩
    refine ⟨ofSegments (name :: rest), ?_⟩
    have joined := ofSegments_append (segments_ne_nil above) (List.cons_ne_nil name rest)
    rw [← cut, ofSegments_segments, ofSegments_segments] at joined
    exact joined

/-- A path covers itself and what lies below it: its segments are the first ones there. -/
def Covers (above path : String) : Prop :=
  segments above <+: segments path

instance (above path : String) : Decidable (Covers above path) :=
  inferInstanceAs (Decidable (_ <+: _))

theorem covers_refl (path : String) : Covers path path :=
  List.prefix_rfl

theorem covers_join (above below : String) : Covers above (join above below) := by
  rw [Covers, segments_join]
  exact List.prefix_append _ _

theorem covers_iff (above path : String) :
    Covers above path ↔ path = above ∨ ∃ rest, path = join above rest := by
  constructor
  · rintro ⟨rest, cut⟩
    cases rest with
    | nil =>
      rw [List.append_nil] at cut
      exact Or.inl (segments_injective cut.symm)
    | cons name rest =>
      exact Or.inr ((isBelow_iff _ _).mp ((isBelow_iff_segments _ _).mpr ⟨name, rest, cut.symm⟩))
  · rintro (rfl | ⟨rest, rfl⟩)
    · exact covers_refl path
    · exact covers_join above rest

/-- Of two paths that cover a third one, one covers the other. -/
theorem Covers.total {first second path : String} (front : Covers first path)
    (back : Covers second path) : Covers first second ∨ Covers second first :=
  List.prefix_or_prefix_of_prefix front back

end Path

end SelectionPlan
