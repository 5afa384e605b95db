import SelectionPlan.Proofs.Config.Compiling
import SelectionPlan.Proofs.Config.Contents
import SelectionPlan.Proofs.Dictionaries

/-!
# Compiling gives what declarations mean

Compiling remembers the schemas that it has compiled. They are what their declarations mean, and so
is everything that is compiled with their help, in whatever order things are compiled.
-/
namespace SelectionPlan.Compile

open Config

/-! ### Steps that give good values -/

/-- Every schema that is remembered is what its declaration means. -/
def Sound (config : Config) (cache : Dict Schema) : Prop :=
  ∀ name schema, cache.get? name = some schema → config.Means (.embed name) (.embedded schema)

theorem sound_start (config : Config) : Sound config [] := by
  intro name schema found
  cases found

theorem Sound.insert {config : Config} {cache : Dict Schema} (sound : Sound config cache)
    {name : String} {schema : Schema} (holds : config.Means (.embed name) (.embedded schema)) :
    Sound config (cache.insert name schema) := by
  intro other schema' found
  rw [Dict.get?_insert] at found
  split at found
  next same =>
    subst same
    cases found
    exact holds
  next => exact sound other schema' found

section Steps

variable {config : Config} {α β : Type} {step : Compile α} {good : α → Prop}

/-- If a step comes to an end without an error, then with a good value. -/
def Gives (config : Config) (step : Compile α) (good : α → Prop) : Prop :=
  ∀ cache, Sound config cache → ∀ value after, step.run cache = .ok (value, after) →
    good value ∧ Sound config after

namespace Gives

theorem pure {value : α} (holds : good value) : Gives config (pure value) good := by
  intro cache sound value' after run
  cases run
  exact ⟨holds, sound⟩

theorem throw (error : BuildError) : Gives config (throw error : Compile α) good := by
  intro cache sound value after run
  cases run

theorem bind {next : α → Compile β} {good' : β → Prop} (gives : Gives config step good)
    (givesNext : ∀ value, good value → Gives config (next value) good') :
    Gives config (step >>= next) good' := by
  intro cache sound value after run
  rw [StateT.run_bind] at run
  cases first : step.run cache with
  | error error =>
    rw [first] at run
    cases run
  | ok result =>
    obtain ⟨between, cache'⟩ := result
    rw [first] at run
    obtain ⟨holds, sound'⟩ := gives cache sound between cache' first
    exact givesNext between holds cache' sound' value after run

theorem imp {good' : α → Prop} (gives : Gives config step good)
    (weaker : ∀ value, good value → good' value) : Gives config step good' := by
  intro cache sound value after run
  obtain ⟨holds, sound'⟩ := gives cache sound value after run
  exact ⟨weaker value holds, sound'⟩

theorem map {f : α → β} {good' : β → Prop} (gives : Gives config step good)
    (keeps : ∀ value, good value → good' (f value)) :
    Gives config (do return f (← step)) good' :=
  gives.bind fun value holds => pure (keeps value holds)

end Gives

end Steps

/-! ### Fields -/

/-- A schema after the declaration of leaves, with what they hold. -/
def Declares (config : Config) (schema : Schema) (sites : List Site) (result : Schema) : Prop :=
  ∃ entries, config.Lists sites entries ∧ result = schema.declareAll entries

namespace Declares

variable {config : Config} {schema result : Schema}

theorem nil : Declares config schema [] schema :=
  ⟨[], .nil, rfl⟩

theorem leaf {decl : FieldDecl} {info : PathInfo} (path : String)
    (holds : config.Means decl info) :
    Declares config schema [⟨path, decl⟩] (schema.declare path (.stored info)) :=
  ⟨[(path, info)], .single holds, rfl⟩

theorem append {front back : List Site} {between : Schema}
    (first : Declares config schema front between) (rest : Declares config between back result) :
    Declares config schema (front ++ back) result := by
  obtain ⟨entries, held, rfl⟩ := first
  obtain ⟨others, held', rfl⟩ := rest
  exact ⟨entries ++ others, held.append held', (Schema.declareAll_append ..).symm⟩

/-- An element that is neither an object nor an array counts for the array. -/
theorem item {path : String} {decl : FieldDecl} (object : ∀ members, decl ≠ .object members)
    (array : ∀ items, decl ≠ .array items) (declares : Declares config schema [⟨path, decl⟩] result) :
    Declares config schema [⟨path, .array [decl]⟩] result := by
  obtain ⟨entries, held, rfl⟩ := declares
  cases held with
  | cons holds rest =>
    cases rest
    exact leaf path (.item object array holds)

end Declares

/-- Fields declare their leaves. The cases are those of the functions that compile fields, single
fields and arrays. -/
theorem gives_fields {config : Config} {embed : String → Compile Schema}
    (embeds : ∀ name, Gives config (embed name) fun schema =>
      config.Means (.embed name) (.embedded schema))
    (above : String) (schema : Schema) (declared : List (String × FieldDecl)) :
    Gives config (fields embed config.options.documentKeys above schema declared)
      (Declares config schema (FieldDecl.leavesBelow above declared)) := by
  refine fields.induct config.options.documentKeys
    (fun above schema declared => Gives config
      (fields embed config.options.documentKeys above schema declared)
      (Declares config schema (FieldDecl.leavesBelow above declared)))
    (fun path schema decl => Gives config
      (field embed config.options.documentKeys path schema decl)
      (Declares config schema (FieldDecl.leaves path decl)))
    (fun path schema items => Gives config
      (array embed config.options.documentKeys path schema items)
      (Declares config schema [⟨path, .array items⟩]))
    ?known ?unknown ?reference ?embed ?blank ?object ?array
    ?none ?blanks ?documents ?arrays ?item ?mixed ?nil ?cons above schema declared
  case known =>
    intro path schema type known
    rw [field, if_pos known]
    exact .pure (.leaf path .scalar)
  case unknown =>
    intro path schema type unknown
    rw [field, if_neg unknown]
    exact .throw _
  case reference =>
    intro path schema model
    rw [field]
    exact .pure (.leaf path .reference)
  case embed =>
    intro path schema name
    rw [field]
    exact (embeds name).map fun sub holds => .leaf path holds
  case blank =>
    intro path schema members blank
    cases List.isEmpty_iff.mp blank
    rw [field, if_pos blank]
    exact .pure (.leaf path .blank)
  case object =>
    intro path schema members some ih
    rw [field, if_neg some, FieldDecl.leaves, if_neg some]
    exact ih
  case array =>
    intro path schema items ih
    rw [field, FieldDecl.leaves_eq path (by simp)]
    exact ih
  case none =>
    intro path schema
    rw [array]
    exact .pure (.leaf path .unspecified)
  case blanks =>
    intro path schema members blank
    cases List.isEmpty_iff.mp blank
    rw [array, if_pos blank]
    exact .pure (.leaf path .blanks)
  case documents =>
    intro path schema members some ih
    rw [array, if_neg some]
    refine ih.map ?_
    rintro sub ⟨entries, held, rfl⟩
    exact .leaf path (.documents (by simpa using some) held)
  case arrays =>
    intro path schema items
    rw [array]
    exact .pure (.leaf path .arrays)
  case item =>
    intro path schema item object array ih
    rw [FieldDecl.leaves_eq path object] at ih
    rw [Compile.array]
    · exact ih.imp fun sub declares => declares.item object array
    · exact object
    · exact array
  case mixed =>
    intro path schema first second rest
    rw [array]
    exact .throw _
  case nil =>
    intro above schema
    rw [fields]
    exact .pure .nil
  case cons =>
    intro above schema name decl rest first ih
    rw [fields]
    exact first.bind fun between declares => (ih between).imp fun result => declares.append

/-! ### Named schemas -/

/-- The declaration of a name is found among those that are left, unless the name is in progress. -/
theorem gives_named {config : Config} (left : List ModelDecl) (name : String) :
    ∀ within, left = unopened config within → Gives config (named config left name) fun schema =>
      config.Means (.embed name) (.embedded schema) := by
  induction left, name using named.induct with
  | case1 left name ih =>
    rintro within rfl cache sound schema after run
    cases compiled : cache.get? name with
    | some known =>
      rw [named_compiled compiled] at run
      cases run
      exact ⟨sound name _ compiled, sound⟩
    | none =>
      cases declared : config.declared? name with
      | none =>
        rw [named_unknown compiled declared] at run
        cases run
      | some decl =>
        have found := find_unopened config within name
        by_cases opened : name ∈ within
        · rw [if_pos opened] at found
          rw [named_again compiled declared found] at run
          cases run
        · rw [if_neg opened, declared] at found
          rw [named_fresh compiled declared found] at run
          -- While the fields are compiled, this name is in progress as well.
          have embeds := fun other => ih decl found other (name :: within)
            (without_unopened config within name)
          have gives := gives_fields embeds "" (start config.options.documentKeys) decl.fields cache
            sound
          cases result : (fields (named config (without name (unopened config within)))
              config.options.documentKeys "" (start config.options.documentKeys) decl.fields).run
              cache with
          | error error =>
            rw [result] at run
            cases run
          | ok value =>
            obtain ⟨sub, between⟩ := value
            rw [result] at run
            cases run
            obtain ⟨⟨entries, held, rfl⟩, sound'⟩ := gives sub between result
            have holds := Holds.embed declared held
            exact ⟨holds, sound'.insert holds⟩

/-! ### Models -/

theorem gives_model (config : Config) (decl : ModelDecl) :
    Gives config (model config decl) (config.Describes decl) := by
  have all : config.declarations = unopened config [] := by simp [unopened]
  have embeds := fun name => gives_named config.declarations name [] all
  refine (gives_fields embeds "" _ decl.fields).map ?_
  rintro declared ⟨entries, held, rfl⟩
  exact ⟨entries, held, rfl⟩

/-- A model is registered under its name. -/
def Registers (config : Config) (decl : ModelDecl) (entry : String × Schema) : Prop :=
  entry.1 = decl.name ∧ config.Describes decl entry.2

/-- The registry after schemas were registered one after the other. -/
def registerAll (models : Models) (entries : List (String × Schema)) : Models :=
  ⟨models.schemas.insertAll entries⟩

theorem names_registered {config : Config} {decls : List ModelDecl}
    {entries : List (String × Schema)} (registers : List.Forall₂ (Registers config) decls entries) :
    entries.map Prod.fst = decls.map ModelDecl.name := by
  rw [← List.forall₂_eq_eq_eq, List.forall₂_map_left_iff, List.forall₂_map_right_iff]
  exact (registers.imp fun decl entry named => named.1).flip

/-- Of the models with one name, the last is found. -/
theorem registered_last {config : Config} {before after : List ModelDecl} {decl : ModelDecl}
    (last : ∀ later ∈ after, later.name ≠ decl.name) {entries : List (String × Schema)}
    (registers : List.Forall₂ (Registers config) (before ++ decl :: after) entries)
    (models : Models) :
    ∃ schema, (registerAll models entries).get? decl.name = some schema ∧
      config.Describes decl schema := by
  induction before generalizing entries models with
  | nil =>
    cases registers with
    | @cons _ entry _ rest first registers =>
      obtain ⟨name, schema⟩ := entry
      obtain ⟨rfl, describes⟩ := first
      -- Nothing that is registered later can take its place.
      have absent : decl.name ∉ rest.map Prod.fst := by
        rw [names_registered registers, List.mem_map]
        rintro ⟨later, member, same⟩
        exact last later member same
      refine ⟨schema, ?_, describes⟩
      exact (Dict.get?_insertAll_of_notMem absent _).trans (by rw [Dict.get?_insert, if_pos rfl])
  | cons other before ih =>
    cases registers with
    | @cons _ entry _ _ _ registers => exact ih registers (models.register entry.1 entry.2)

theorem gives_register (config : Config) (models : Models) (decls : List ModelDecl) :
    Gives config (register config models decls) fun result =>
      ∃ entries, List.Forall₂ (Registers config) decls entries ∧
        result = registerAll models entries := by
  induction decls generalizing models with
  | nil => exact .pure ⟨[], .nil, rfl⟩
  | cons decl rest ih =>
    refine (gives_model config decl).bind fun schema describes => (ih _).imp ?_
    rintro result ⟨entries, registers, rfl⟩
    exact ⟨(decl.name, schema) :: entries, .cons ⟨rfl, describes⟩ registers, rfl⟩

/-- What a build registers: each model under its name, in the order of their declarations. -/
theorem registered_of_build {config : Config} {models : Models}
    (built : config.build = .ok models) :
    ∃ entries, List.Forall₂ (Registers config) config.models entries ∧
      models = registerAll .empty entries := by
  have run : config.build = ((register config .empty config.models).run []).map Prod.fst := rfl
  rw [run] at built
  cases result : (register config .empty config.models).run [] with
  | error error =>
    rw [result] at built
    cases built
  | ok value =>
    rw [result] at built
    cases built
    exact (gives_register config .empty config.models [] (sound_start config) _ _ result).1

end SelectionPlan.Compile
