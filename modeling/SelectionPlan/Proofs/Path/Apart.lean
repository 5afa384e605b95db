import SelectionPlan.Proofs.Path.Children

/-!
# Paths that keep apart

Two paths keep apart when neither covers the other, so that a document can be asked for both. Paths
keep apart once they have gone on by different names from the same place, whatever comes after.
-/
namespace SelectionPlan.Path

/-- Neither of the paths is the other one, or lies below it. -/
def Apart (first second : String) : Prop :=
  ¬ Covers first second ∧ ¬ Covers second first

instance (first second : String) : Decidable (Apart first second) :=
  inferInstanceAs (Decidable (_ ∧ _))

instance : Std.Symm Apart :=
  ⟨fun _ _ apart => ⟨apart.2, apart.1⟩⟩

theorem Apart.ne {first second : String} (apart : Apart first second) : first ≠ second := by
  rintro rfl
  exact apart.1 (covers_refl first)

theorem nodup_of_apart {paths : List String} (apart : paths.Pairwise Apart) : paths.Nodup :=
  apart.imp Apart.ne

theorem covers_join_join_iff (above first second : String) :
    Covers (join above first) (join above second) ↔ Covers first second := by
  rw [Covers, Covers, segments_join, segments_join, List.prefix_append_right_inj]

theorem apart_join_iff (above first second : String) :
    Apart (join above first) (join above second) ↔ Apart first second := by
  rw [Apart, Apart, covers_join_join_iff, covers_join_join_iff]

theorem apart_of_fork {names : List String} {first second path other : String}
    (front : names ++ [first] <+: segments path) (back : names ++ [second] <+: segments other)
    (fork : first ≠ second) : Apart path other := by
  constructor
  · intro covers
    exact fork (eq_of_prefix_concat (front.trans covers) back)
  · intro covers
    exact fork (eq_of_prefix_concat front (back.trans covers))

private theorem prefix_segments_of_eq {names : List String} {path : String}
    (cut : segments path = names) : names <+: segments path :=
  ⟨[], by rw [List.append_nil, cut]⟩

/-- The paths keep apart, and each goes on from `names` by a name that is allowed there. -/
structure Fan (names : List String) (allowed : String → Prop) (paths : List String) : Prop where
  goOn : ∀ path ∈ paths, ∃ name, allowed name ∧ names ++ [name] <+: segments path
  apart : paths.Pairwise Apart

namespace Fan

variable {names paths others : List String} {allowed allowed' : String → Prop}

theorem nil : Fan names allowed [] :=
  ⟨by simp, List.Pairwise.nil⟩

theorem singleton {name : String} (plain : ∀ other ∈ names ++ [name], Plain other) :
    Fan names (· = name) [ofSegments (names ++ [name])] := by
  refine ⟨?_, List.pairwise_singleton _ _⟩
  intro path member
  rw [List.mem_singleton.mp member]
  exact ⟨name, rfl, prefix_segments_of_eq (segments_ofSegments_of_plain (by simp) plain)⟩

theorem mono (fan : Fan names allowed paths) (wider : ∀ name, allowed name → allowed' name) :
    Fan names allowed' paths := by
  refine ⟨?_, fan.apart⟩
  intro path member
  obtain ⟨name, inside, leads⟩ := fan.goOn path member
  exact ⟨name, wider name inside, leads⟩

/-- Fans by different names are one fan together. -/
theorem append (fan : Fan names allowed paths) (fan' : Fan names allowed' others)
    (disjoint : ∀ name, allowed name → ¬ allowed' name) :
    Fan names (fun name => allowed name ∨ allowed' name) (paths ++ others) := by
  constructor
  · intro path member
    rcases List.mem_append.mp member with front | back
    · exact (fan.mono fun _ => Or.inl).goOn path front
    · exact (fan'.mono fun _ => Or.inr).goOn path back
  · rw [List.pairwise_append]
    -- Between the parts, the names by which paths go on are different.
    refine ⟨fan.apart, fan'.apart, ?_⟩
    intro path member other member'
    obtain ⟨name, inside, leads⟩ := fan.goOn path member
    obtain ⟨name', inside', leads'⟩ := fan'.goOn other member'
    apply apart_of_fork leads leads'
    rintro rfl
    exact disjoint name inside inside'

theorem narrow {name : String} (fan : Fan (names ++ [name]) allowed paths) :
    Fan names (· = name) paths := by
  refine ⟨?_, fan.apart⟩
  intro path member
  obtain ⟨below, -, leads⟩ := fan.goOn path member
  exact ⟨name, rfl, (List.prefix_append _ _).trans leads⟩

/-- Entries with different names are a fan together if each of them goes on by its name. -/
theorem flatMap {α : Type} {entries : List (String × α)} {paths : String × α → List String}
    (distinct : (entries.map Prod.fst).Nodup)
    (fans : ∀ entry ∈ entries, Fan names (· = entry.1) (paths entry)) :
    Fan names (· ∈ entries.map Prod.fst) (entries.flatMap paths) := by
  induction entries with
  | nil => exact ⟨by simp, List.Pairwise.nil⟩
  | cons entry rest ih =>
    obtain ⟨fresh, distinct⟩ := List.nodup_cons.mp distinct
    have first := fans entry List.mem_cons_self
    have behind := ih distinct fun other member => fans other (List.mem_cons_of_mem _ member)
    have together := first.append behind (by rintro name rfl; exact fresh)
    exact together.mono fun name allowed => List.mem_cons.mpr allowed

theorem map_join (fan : Fan names allowed paths) (above : String) :
    Fan (segments above ++ names) allowed (paths.map (join above)) := by
  constructor
  · intro path member
    obtain ⟨inner, inside, rfl⟩ := List.mem_map.mp member
    obtain ⟨name, holds, leads⟩ := fan.goOn inner inside
    refine ⟨name, holds, ?_⟩
    rw [segments_join, List.append_assoc]
    exact (List.prefix_append_right_inj _).mpr leads
  · rw [List.pairwise_map]
    exact fan.apart.imp (apart_join_iff above _ _).mpr

theorem otherChildren (plain : ∀ name ∈ names, Plain name) (declared excluded : List String) :
    Fan names (· ∉ excluded) (otherChildren declared (ofSegments names) excluded) := by
  constructor
  · intro path member
    obtain ⟨name, fresh, cut⟩ := segments_of_mem_otherChildren plain member
    exact ⟨name, fresh, prefix_segments_of_eq cut⟩
  · apply (nodup_otherChildren declared (ofSegments names) excluded).imp_of_mem
    intro path other member member' different
    obtain ⟨name, -, cut⟩ := segments_of_mem_otherChildren plain member
    obtain ⟨name', -, cut'⟩ := segments_of_mem_otherChildren plain member'
    have fork : name ≠ name' := by
      rintro rfl
      exact different (segments_injective (cut.trans cut'.symm))
    exact apart_of_fork (prefix_segments_of_eq cut) (prefix_segments_of_eq cut') fork

end Fan

end SelectionPlan.Path
