import Mathlib
import SelectionPlan.Proofs.Config.Outcome

/-!
# What compiling remembers does not show

Schemas that are compiled already are used again, also by models that come later. A build is the same
as if each model were compiled with nothing remembered from the others. Neither does it matter in
which order models and schemas are declared, as long as their names tell them apart. Only which fault
is found first depends on the order.
-/
namespace SelectionPlan

namespace Compile

open Config

/-- Registers models one after the other, each compiled as if nothing had been compiled before. -/
def registerAfresh (config : Config) (models : Models) : List ModelDecl → Except BuildError Models
  | [] => pure models
  | decl :: rest => do
    let schema ← (model config decl).run' []
    registerAfresh config (models.register decl.name schema) rest

/-- A model that is compiled by itself is what it is declared to be, or has a first fault. -/
theorem model_afresh (config : Config) (decl : ModelDecl) :
    (∃ schema, (model config decl).run' [] = .ok schema ∧ config.Describes decl schema ∧
      ∀ site ∈ Site.members "" decl.fields, config.Clean site) ∨
    ∃ error, (model config decl).run' [] = .error error ∧
      config.FirstFault [] (Site.members "" decl.fields) error := by
  have outcome := visits_model config decl [] (ready_start config)
  have gives := gives_model config decl [] (sound_start config)
  have run : (model config decl).run' [] = ((model config decl).run []).map Prod.fst := rfl
  cases result : (model config decl).run [] with
  | error error =>
    rw [result] at outcome run
    cases outcome with
    | failed first => exact .inr ⟨error, run, first⟩
  | ok value =>
    obtain ⟨schema, after⟩ := value
    rw [result] at outcome run
    cases outcome with
    | done ready grows covers =>
      exact .inl ⟨schema, run, (gives schema after result).1, fun site member =>
        (covers site member).clean⟩

theorem registerAfresh_outcome (config : Config) (models : Models) (decls : List ModelDecl) :
    (∃ entries, registerAfresh config models decls = .ok (registerAll models entries) ∧
      List.Forall₂ (Registers config) decls entries ∧
      ∀ root ∈ decls.flatMap fun decl => Site.members "" decl.fields, config.Clean root) ∨
    ∃ error, registerAfresh config models decls = .error error ∧
      config.FirstFault [] (decls.flatMap fun decl => Site.members "" decl.fields) error := by
  induction decls generalizing models with
  | nil => exact .inl ⟨[], rfl, .nil, by simp⟩
  | cons decl rest ih =>
    rw [registerAfresh, List.flatMap_cons]
    rcases model_afresh config decl with ⟨schema, compiled, describes, clean⟩ | ⟨error, failed, first⟩
    · rw [compiled]
      rcases ih (models.register decl.name schema) with
        ⟨entries, registered, registers, clean'⟩ | ⟨error, failed, first⟩
      · exact .inl ⟨(decl.name, schema) :: entries, registered, .cons ⟨rfl, describes⟩ registers,
          List.forall_mem_append.mpr ⟨clean, clean'⟩⟩
      · exact .inr ⟨error, failed, first.behind clean⟩
    · rw [failed]
      exact .inr ⟨error, rfl, first.append _⟩

end Compile

namespace Config

open Compile (Registers registerAll)

/-- A build that remembers nothing from one model to the next. -/
def buildAfresh (config : Config) : Except BuildError Models :=
  Compile.registerAfresh config .empty config.models

theorem ends_buildAfresh (config : Config) : config.Ends config.buildAfresh := by
  rw [buildAfresh]
  rcases Compile.registerAfresh_outcome config .empty config.models with
    ⟨entries, registered, registers, clean⟩ | ⟨error, failed, first⟩
  · rw [registered]
    exact .built clean registers
  · rw [failed]
    exact .refused first

/-! ### The order of declarations -/

/-- Neither two models nor two schemas have one name. A model and a schema may. -/
structure NamesDistinct (config : Config) : Prop where
  models : (config.models.map ModelDecl.name).Nodup
  schemas : (config.schemas.map ModelDecl.name).Nodup

/-- The other configuration declares the same in another order. -/
structure Reordered (config other : Config) : Prop where
  models : config.models.Perm other.models
  schemas : config.schemas.Perm other.schemas
  options : config.options = other.options

namespace Reordered

variable {config other : Config}

theorem symm (reordered : config.Reordered other) : other.Reordered config :=
  ⟨reordered.models.symm, reordered.schemas.symm, reordered.options.symm⟩

theorem namesDistinct (reordered : config.Reordered other) (distinct : config.NamesDistinct) :
    other.NamesDistinct :=
  ⟨(reordered.models.map _).nodup_iff.mp distinct.models,
    (reordered.schemas.map _).nodup_iff.mp distinct.schemas⟩

theorem declared?_eq (reordered : config.Reordered other) (distinct : config.NamesDistinct) :
    other.declared? = config.declared? := by
  funext name
  simp only [declared?, declarations, List.find?_append]
  rw [find?_eq_of_perm reordered.schemas distinct.schemas name,
    find?_eq_of_perm reordered.models distinct.models name]

theorem registers_eq (reordered : config.Reordered other) (distinct : config.NamesDistinct) :
    Registers other = Registers config := by
  funext decl entry
  simp only [Registers, Describes, Lists, reordered.declared?_eq distinct, reordered.options]

theorem build_eq_ok (reordered : config.Reordered other) (distinct : config.NamesDistinct)
    {models : Models} (built : config.build = .ok models) : other.build = .ok models := by
  obtain ⟨entries, clean, registers, rfl⟩ := clean_of_build built
  have clean' : ∀ root ∈ other.roots, other.Clean root := by
    intro root member
    rw [clean_congr (reordered.declared?_eq distinct)]
    exact clean root ((reordered.models.flatMap_right _).mem_iff.mpr member)
  obtain ⟨entries', registers', built'⟩ := build_of_clean clean'
  -- The same models are registered, in another order.
  rw [reordered.registers_eq distinct] at registers'
  obtain ⟨others, registers'', perm⟩ := List.perm_comp_forall₂ reordered.models.symm registers
  obtain rfl : others = entries' := registers_unique registers'' registers'
  have distinct' : (others.map Prod.fst).Nodup :=
    Compile.names_registered registers'' ▸ (reordered.namesDistinct distinct).models
  rw [built', registerAll, registerAll, Dict.insertAll_of_perm perm distinct']

end Reordered

/-- A build gives the same models, or fails with the same error, as if nothing were remembered from
one model to the next. When models and schemas are told apart by their names, the order in which they
are declared does not matter to the models either. -/
theorem build_eq_buildAfresh (config : Config) :
    config.build = config.buildAfresh ∧
    ∀ other, config.Reordered other → config.NamesDistinct →
      ∀ models, other.build = .ok models ↔ config.build = .ok models := by
  refine ⟨config.ends_build.unique config.ends_buildAfresh, ?_⟩
  intro other reordered distinct models
  constructor
  · exact reordered.symm.build_eq_ok (reordered.namesDistinct distinct)
  · exact reordered.build_eq_ok distinct

theorem build_eq_buildAfresh_shared :
    let address : ModelDecl := ⟨"Address", [("street", .scalar "string")], []⟩
    let post : ModelDecl :=
      ⟨"Post", [("home", .embed "Address"), ("work", .array [.embed "Address"])], []⟩
    let place : ModelDecl := ⟨"Address", [("post", .embed "Post")], [("posts", "Post")]⟩
    let config : Config := ⟨[post, place], [address], { documentKeys := false }⟩
    let other : Config := ⟨[place, post], [address], { documentKeys := false }⟩
    let street : Schema := ⟨[("street", .scalar)], []⟩
    let posts : Schema := ⟨[("home", .embedded street), ("work", .embedded street)], []⟩
    let models : Models :=
      ⟨[("Address", ⟨[("post", .embedded posts)], [("posts", "Post")]⟩), ("Post", posts)]⟩
    config.Reordered other ∧ config.NamesDistinct ∧ config.build = .ok models ∧
      config.buildAfresh = .ok models ∧ other.build = .ok models := by
  intro address post place config other street posts models
  have reordered : config.Reordered other := ⟨.swap _ _ [], .refl _, rfl⟩
  have distinct : config.NamesDistinct := by
    constructor <;> simp [config, post, place, address]
  have built : config.build = .ok models := by
    simp only [config, address, post, place, models, posts, street]
    cbv
  obtain ⟨same, ordered⟩ := build_eq_buildAfresh config
  exact ⟨reordered, distinct, built, same.symm.trans built,
    (ordered other reordered distinct models).mpr built⟩

end Config

end SelectionPlan
