import SelectionPlan.Proofs.Config.Building
import SelectionPlan.Proofs.Config.Compiled

/-!
# How builds end

There is one way in which a build can end, and it is said without compiling anything: either what is
visited is clean, and the registry holds what the models are declared to be, or the visit has a first
fault. Which of them it is depends on how names are declared and on where visits start.
-/
namespace SelectionPlan.Config

open Compile (Registers registerAll)

/-! ### The one end of a build -/

inductive Ends (config : Config) : Except BuildError Models → Prop
  | built {entries : List (String × Schema)} : (∀ root ∈ config.roots, config.Clean root) →
    List.Forall₂ (Registers config) config.models entries →
      Ends config (.ok (registerAll .empty entries))
  | refused {error : BuildError} : config.FirstFault [] config.roots error →
    Ends config (.error error)

theorem registers_unique {config : Config} {decls : List ModelDecl}
    {entries entries' : List (String × Schema)}
    (registers : List.Forall₂ (Registers config) decls entries)
    (registers' : List.Forall₂ (Registers config) decls entries') : entries = entries' := by
  refine List.right_unique_forall₂' ?_ registers registers'
  rintro decl ⟨name, schema⟩ ⟨name', schema'⟩ ⟨rfl, describes⟩ ⟨rfl, describes'⟩
  have same : schema = schema' := describes.unique describes'
  rw [same]

theorem Ends.unique {config : Config} {result result' : Except BuildError Models}
    (ends : config.Ends result) (ends' : config.Ends result') : result = result' := by
  cases ends with
  | built clean registers =>
    cases ends' with
    | built _ registers' => rw [registers_unique registers registers']
    | refused first => exact absurd clean (first.not_clean (surround_start config _))
  | refused first =>
    cases ends' with
    | built clean _ => exact absurd clean (first.not_clean (surround_start config _))
    | refused first' => rw [first.unique first' (surround_start config _)]

theorem ends_build (config : Config) : config.Ends config.build := by
  rcases Compile.build_outcome config with ⟨⟨models, built⟩, clean⟩ | ⟨error, refused, first⟩
  · obtain ⟨entries, registers, rfl⟩ := Compile.registered_of_build built
    rw [built]
    exact .built clean registers
  · rw [refused]
    exact .refused first

theorem build_of_clean {config : Config} (clean : ∀ root ∈ config.roots, config.Clean root) :
    ∃ entries, List.Forall₂ (Registers config) config.models entries ∧
      config.build = .ok (registerAll .empty entries) := by
  have ends := config.ends_build
  cases result : config.build with
  | ok models =>
    rw [result] at ends
    cases ends with
    | built _ registers => exact ⟨_, registers, rfl⟩
  | error error =>
    rw [result] at ends
    cases ends with
    | refused first => exact absurd clean (first.not_clean (surround_start config _))

theorem clean_of_build {config : Config} {models : Models} (built : config.build = .ok models) :
    ∃ entries, (∀ root ∈ config.roots, config.Clean root) ∧
      List.Forall₂ (Registers config) config.models entries ∧ models = registerAll .empty entries := by
  have ends := config.ends_build
  rw [built] at ends
  cases ends with
  | built clean registers => exact ⟨_, clean, registers, rfl⟩

/-! ### What it depends on -/

section Declared

variable {config other : Config} (same : other.declared? = config.declared?)

include same

theorem schemaSites_congr : other.schemaSites = config.schemaSites := by
  funext name
  rw [schemaSites, schemaSites, same]

theorem inside_congr : other.inside = config.inside := by
  funext site
  unfold inside
  rw [schemaSites_congr same]

theorem reaches_congr : other.Reaches = config.Reaches := by
  have step : other.Step = config.Step := by
    funext outer inner
    rw [Step, Step, inside_congr same]
  rw [Reaches, Reaches, step]

theorem admissible_congr : other.Admissible = config.Admissible := by
  funext decl
  cases decl with
  | embed name =>
    simp only [Admissible, EmbedsItself, Encloses, same, schemaSites_congr same,
      reaches_congr same]
  | scalar | array | reference | object => rfl

/-- What is wrong inside of a declaration depends on how names are declared. -/
theorem clean_congr : other.Clean = config.Clean := by
  funext site
  simp only [Clean, reaches_congr same, admissible_congr same]

end Declared

end SelectionPlan.Config
