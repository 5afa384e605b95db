import SelectionPlan.Proofs.Config.Declarations
import SelectionPlan.Proofs.Schema.Lookup

/-!
# Compiling visits every declaration

A schema that is compiled already is not compiled again. Nothing is missed that way: whatever would
be visited from a compiled schema is admissible and embeds compiled schemas only.
-/
namespace SelectionPlan.Compile

open Config

variable {config : Config} {within : List String} {cache after : Dict Schema} {site : Site}
  {error : BuildError}

/-! ### Compiled schemas -/

/-- What is visited from a site is admissible, and the schemas that it embeds are compiled. -/
def Covers (config : Config) (cache : Dict Schema) (site : Site) : Prop :=
  ∀ inner, config.Reaches site inner → config.Admissible inner.decl ∧
    ∀ name, inner.decl = .embed name → name ∈ cache.keys

theorem Covers.clean (covers : Covers config cache site) : config.Clean site :=
  fun inner reached => (covers inner reached).1

theorem Covers.mono (covers : Covers config cache site) (grows : cache.keys ⊆ after.keys) :
    Covers config after site := by
  intro inner reached
  obtain ⟨admissible, embedded⟩ := covers inner reached
  exact ⟨admissible, fun name embeds => grows (embedded name embeds)⟩

theorem covers_iff :
    Covers config cache site ↔
      (config.Admissible site.decl ∧ ∀ name, site.decl = .embed name → name ∈ cache.keys) ∧
        ∀ inner ∈ config.inside site, Covers config cache inner := by
  constructor
  · intro covers
    refine ⟨covers site .refl, ?_⟩
    intro inner member last reached
    exact covers last (.head member reached)
  · rintro ⟨own, below⟩ last reached
    rcases reached.cases_head with rfl | ⟨inner, member, reached⟩
    · exact own
    · exact below inner member last reached

/-- The schemas that are compiled while the fields of the schemas `within` are. -/
structure Ready (config : Config) (within : List String) (cache : Dict Schema) : Prop where
  covers : ∀ name ∈ cache.keys, ∀ path, Covers config cache ⟨path, .embed name⟩
  unfinished : ∀ name ∈ within, name ∉ cache.keys

theorem ready_start (config : Config) : Ready config [] [] := by
  constructor <;> simp [Dict.keys]

theorem Ready.enter {name : String} (ready : Ready config within cache)
    (absent : name ∉ cache.keys) : Ready config (name :: within) cache :=
  ⟨ready.covers, List.forall_mem_cons.mpr ⟨absent, ready.unfinished⟩⟩

/-- A schema is compiled when its fields are. It cannot embed itself, as it was not compiled when
they were. -/
theorem Ready.insert {name : String} {schema : Schema} (ready : Ready config (name :: within) after)
    (declared : config.declared? name ≠ none) (fresh : name ∉ within)
    (covers : ∀ field ∈ config.schemaSites name, Covers config after field) :
    Ready config within (after.insert name schema) := by
  have grows := Dict.keys_subset_insert name schema after
  have finite : ¬config.EmbedsItself name := by
    rintro ⟨path, field, member, reached⟩
    -- The schemas that its fields embed are compiled, and this one is not.
    have compiled := (covers field member _ reached).2 name rfl
    exact ready.unfinished name List.mem_cons_self compiled
  constructor
  · intro other member path
    rcases (Dict.mem_keys_insert ..).mp member with rfl | member
    · rw [covers_iff]
      refine ⟨⟨⟨declared, finite⟩, ?_⟩, fun field own => (covers field own).mono grows⟩
      intro embedded same
      cases same
      exact Dict.self_mem_keys_insert ..
    · exact (ready.covers other member path).mono grows
  · intro other opened member
    rcases (Dict.mem_keys_insert ..).mp member with rfl | member
    · exact fresh opened
    · exact ready.unfinished other (List.mem_cons_of_mem _ opened) member

/-! ### Steps -/

section Steps

variable {α β : Type} {sites front back : List Site} {step : Compile α}

/-- How a step ends that visits sites: either they are covered by what is compiled then, or it fails
with the first fault. -/
inductive Outcome (config : Config) (within : List String) (sites : List Site)
    (cache : Dict Schema) : Except BuildError (α × Dict Schema) → Prop
  | done {value : α} {after : Dict Schema} : Ready config within after → cache.keys ⊆ after.keys →
    (∀ site ∈ sites, Covers config after site) → Outcome config within sites cache (.ok (value, after))
  | failed {error : BuildError} : config.FirstFault within sites error →
    Outcome config within sites cache (.error error)

/-- A step visits sites, whatever is compiled when it begins. -/
def Visits (config : Config) (within : List String) (sites : List Site) (step : Compile α) : Prop :=
  ∀ cache, Ready config within cache → Outcome config within sites cache (step.run cache)

/-- A visit goes on behind sites that are covered. -/
theorem Outcome.behind {between : Dict Schema} {result : Except BuildError (α × Dict Schema)}
    (outcome : Outcome config within back between result) (grows : cache.keys ⊆ between.keys)
    (covers : ∀ site ∈ front, Covers config between site) :
    Outcome config within (front ++ back) cache result := by
  cases outcome with
  | failed first => exact .failed (first.behind fun site member => (covers site member).clean)
  | done ready growsMore coversMore =>
    refine .done ready (List.Subset.trans grows growsMore) ?_
    intro site member
    rcases List.mem_append.mp member with member | member
    · exact (covers site member).mono growsMore
    · exact coversMore site member

/-- A site that is no embedded schema is visited with what is inside of it. -/
theorem Outcome.enter {result : Except BuildError (α × Dict Schema)}
    (outcome : Outcome config within (config.inside site) cache result)
    (admissible : config.Admissible site.decl) (plain : ∀ name, site.decl ≠ .embed name) :
    Outcome config within [site] cache result := by
  cases outcome with
  | failed first =>
    refine .failed (.inside (fault_eq_none admissible plain) ?_)
    rwa [entered_eq plain]
  | done ready grows covers =>
    have all := covers_iff.mpr
      ⟨⟨admissible, fun name embeds => absurd embeds (plain name)⟩, covers⟩
    exact .done ready grows (List.forall_mem_singleton.mpr all)

namespace Visits

theorem pure (value : α) : Visits config within [] (pure value) :=
  fun _ ready => .done ready (List.Subset.refl _) (by simp)

theorem throw (fault : config.fault? within site = some error) :
    Visits config within [site] (throw error : Compile α) :=
  fun _ _ => .failed (.here fault)

theorem bind {next : α → Compile β} (visits : Visits config within front step)
    (visitsNext : ∀ value, Visits config within back (next value)) :
    Visits config within (front ++ back) (step >>= next) := by
  intro cache ready
  have first := visits cache ready
  rw [StateT.run_bind]
  cases result : step.run cache with
  | error error =>
    rw [result] at first
    cases first with
    | failed first => exact .failed (first.append back)
  | ok value =>
    rw [result] at first
    cases first with
    | done ready grows covers => exact (visitsNext _ _ ready).behind grows covers

theorem map (visits : Visits config within sites step) (f : α → β) :
    Visits config within sites (do return f (← step)) := by
  have visits := visits.bind fun value => Visits.pure (f value)
  rwa [List.append_nil] at visits

theorem enter (visits : Visits config within (config.inside site) step)
    (admissible : config.Admissible site.decl) (plain : ∀ name, site.decl ≠ .embed name) :
    Visits config within [site] step :=
  fun cache ready => (visits cache ready).enter admissible plain

end Visits

end Steps

/-! ### Fields -/

/-- Fields are visited one after the other, and each of them with what is inside of it. The cases
are those of the functions that compile fields, single fields and arrays. -/
theorem visits_fields {embed : String → Compile Schema}
    (embeds : ∀ path name, Visits config within [⟨path, .embed name⟩] (embed name)) (keys : Bool)
    (above : String) (schema : Schema) (declared : List (String × FieldDecl)) :
    Visits config within (Site.members above declared)
      (fields embed keys above schema declared) := by
  refine fields.induct keys
    (fun above schema declared => Visits config within (Site.members above declared)
      (fields embed keys above schema declared))
    (fun path schema decl => Visits config within [⟨path, decl⟩]
      (field embed keys path schema decl))
    (fun path schema items => Visits config within [⟨path, .array items⟩]
      (array embed keys path schema items))
    ?known ?unknown ?reference ?embed ?blank ?object ?array
    ?none ?blanks ?documents ?arrays ?item ?mixed ?nil ?cons above schema declared
  case known =>
    intro path schema type known
    rw [field, if_pos known]
    exact (Visits.pure _).enter (List.contains_iff_mem.mp known) (by simp)
  case unknown =>
    intro path schema type unknown
    rw [field, if_neg unknown]
    refine .throw ?_
    simpa [fault?] using unknown
  case reference =>
    intro path schema model
    rw [field]
    exact (Visits.pure _).enter trivial (by simp)
  case embed =>
    intro path schema name
    rw [field]
    exact (embeds path name).map _
  case blank =>
    -- An object without fields is a leaf.
    intro path schema members blank
    cases List.isEmpty_iff.mp blank
    rw [field, if_pos blank]
    exact (Visits.pure _).enter trivial (by simp)
  case object =>
    intro path schema members some ih
    rw [field, if_neg some]
    exact ih.enter trivial (by simp)
  case array =>
    intro path schema items ih
    rw [field]
    exact ih
  case none =>
    intro path schema
    rw [array]
    exact (Visits.pure _).enter (Nat.zero_le 1) (by simp)
  case blanks =>
    intro path schema members blank
    cases List.isEmpty_iff.mp blank
    rw [array, if_pos blank]
    exact (Visits.pure _).enter (Nat.le_refl 1) (by simp)
  case documents =>
    -- The fields of the element are visited, and not the element.
    intro path schema members some ih
    rw [array, if_neg some]
    exact (ih.map _).enter (Nat.le_refl 1) (by simp)
  case arrays =>
    intro path schema items
    rw [array]
    exact (Visits.pure _).enter (Nat.le_refl 1) (by simp)
  case item =>
    -- An element that is neither an object nor an array is visited itself.
    intro path schema item object array ih
    rw [Compile.array]
    · refine Visits.enter ?_ (Nat.le_refl 1) (by simp)
      rw [inside]
      · exact ih
      · exact object
      · exact array
    · exact object
    · exact array
  case mixed =>
    intro path schema first second rest
    rw [array]
    refine .throw ?_
    simp [fault?]
  case nil =>
    intro above schema
    rw [fields]
    exact .pure schema
  case cons =>
    intro above schema name decl rest visits ih
    rw [fields]
    exact visits.bind ih

/-! ### Named schemas -/

/-- The declarations that a visit is not inside of. -/
def unopened (config : Config) (within : List String) : List ModelDecl :=
  config.declarations.filter fun decl => decl.name ∉ within

theorem without_unopened (config : Config) (within : List String) (name : String) :
    without name (unopened config within) = unopened config (name :: within) := by
  rw [without, unopened, unopened, List.filter_filter]
  refine List.filter_congr fun decl _ => ?_
  by_cases same : decl.name = name <;> simp [same]

theorem find_unopened (config : Config) (within : List String) (name : String) :
    (unopened config within).find? (·.name == name) =
      if name ∈ within then none else config.declared? name := by
  rw [unopened, List.find?_filter]
  split
  next opened =>
    rw [List.find?_eq_none]
    intro decl _
    by_cases same : decl.name = name <;> simp [same, opened]
  next fresh =>
    rw [declared?]
    congr 1
    funext decl
    by_cases same : decl.name = name <;> simp [same, fresh]

section Named

variable {left : List ModelDecl} {name : String}

theorem named_compiled {schema : Schema} (compiled : cache.get? name = some schema) :
    (named config left name).run cache = .ok (schema, cache) := by
  rw [named, StateT.run_bind, StateT.run_get, pure_bind, compiled]
  rfl

theorem named_unknown (absent : cache.get? name = none)
    (undeclared : config.declared? name = none) :
    (named config left name).run cache = .error (.unknownSchema name) := by
  rw [declared?] at undeclared
  rw [named, StateT.run_bind, StateT.run_get, pure_bind, absent, undeclared]
  rfl

theorem named_again {decl : ModelDecl} (absent : cache.get? name = none)
    (declared : config.declared? name = some decl)
    (opened : left.find? (·.name == name) = none) :
    (named config left name).run cache = .error (.embedsItself name) := by
  rw [declared?] at declared
  rw [named, StateT.run_bind, StateT.run_get, pure_bind, absent, declared]
  dsimp only
  split
  next => rfl
  next found => cases opened.symm.trans found

/-- A schema that is not compiled yet is its fields, compiled without the declaration of its name,
and its virtual relations. -/
theorem named_fresh {decl decl' : ModelDecl} (absent : cache.get? name = none)
    (declared : config.declared? name = some decl')
    (found : left.find? (·.name == name) = some decl) :
    (named config left name).run cache =
      ((fields (named config (without name left)) config.options.documentKeys ""
        (start config.options.documentKeys) decl.fields).run cache).map fun (schema, after) =>
          (virtuals schema decl.virtuals, after.insert name (virtuals schema decl.virtuals)) := by
  rw [declared?] at declared
  rw [named, StateT.run_bind, StateT.run_get, pure_bind, absent, declared]
  dsimp only
  split
  next opened => cases found.symm.trans opened
  next found' =>
    cases found.symm.trans found'
    rw [StateT.run_bind]
    cases StateT.run _ cache <;> rfl

/-- A schema is visited with its fields. -/
theorem Outcome.schema {α : Type} {result : Except BuildError (α × Dict Schema)}
    (outcome : Outcome config (name :: within) (config.schemaSites name) cache result)
    (declared : config.declared? name ≠ none) (fresh : name ∉ within) (path : String)
    (schema : α → Schema) :
    Outcome config within [⟨path, .embed name⟩] cache
      (result.map fun (value, after) => (schema value, after.insert name (schema value))) := by
  cases outcome with
  | failed first =>
    refine .failed (.inside ?_ first)
    simp [fault?, declared, fresh]
  | @done value after ready grows covers =>
    have ready : Ready config within (after.insert name (schema value)) :=
      ready.insert declared fresh covers
    have own := ready.covers name (Dict.self_mem_keys_insert ..) path
    exact .done ready (List.Subset.trans grows (Dict.keys_subset_insert ..))
      (List.forall_mem_singleton.mpr own)

end Named

/-- The declarations that are left are those that the visit is not inside of, so a name among the
others closes a circle. -/
theorem visits_named (left : List ModelDecl) (name : String) :
    ∀ within path, left = unopened config within →
      Visits config within [⟨path, .embed name⟩] (named config left name) := by
  induction left, name using named.induct with
  | case1 left name ih =>
    rintro within path rfl cache ready
    -- The cases are the answers that `named` looks for, in its order.
    cases compiled : cache.get? name with
    | some schema =>
      have member : name ∈ cache.keys := by
        by_contra absent
        simp [Dict.get?_eq_none_iff.mpr absent] at compiled
      have own := ready.covers name member path
      rw [named_compiled compiled]
      exact .done ready (List.Subset.refl _) (List.forall_mem_singleton.mpr own)
    | none =>
      cases declared : config.declared? name with
      | none =>
        rw [named_unknown compiled declared]
        refine .failed (.here ?_)
        simp [fault?, declared]
      | some decl =>
        by_cases opened : name ∈ within
        · have closed : (unopened config within).find? (·.name == name) = none := by
            rw [find_unopened, if_pos opened]
          rw [named_again compiled declared closed]
          refine .failed (.here ?_)
          simp [fault?, declared, opened]
        · have found : (unopened config within).find? (·.name == name) = some decl := by
            rw [find_unopened, if_neg opened, declared]
          rw [named_fresh compiled declared found]
          have embeds : ∀ path other, Visits config (name :: within) [⟨path, .embed other⟩]
              (named config (without name (unopened config within)) other) := fun path other =>
            ih decl found other (name :: within) path (without_unopened config within name)
          have ready := ready.enter (Dict.get?_eq_none_iff.mp compiled)
          have outcome := visits_fields embeds config.options.documentKeys ""
            (start config.options.documentKeys) decl.fields cache ready
          have sites : Site.members "" decl.fields = config.schemaSites name := by
            rw [schemaSites, declared]
          rw [sites] at outcome
          exact outcome.schema (by simp [declared]) opened path (virtuals · decl.virtuals)

end SelectionPlan.Compile
