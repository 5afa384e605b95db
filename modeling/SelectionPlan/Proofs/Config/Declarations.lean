import SelectionPlan.Config.Compile
import Mathlib.Logic.Relation

/-!
# Visiting the declarations of a configuration

A visit starts with the fields of the models. It goes on from a plain object to the fields of the
object, from an array to what the array holds, and from an embedded schema to the fields of its
declaration. Nothing is remembered on the way, so a visit of a schema that embeds itself has no end,
and a schema that is embedded twice is visited twice.
-/
namespace SelectionPlan

namespace Config

/-- A declaration, and the path that it declares. -/
structure Site where
  path : String
  decl : FieldDecl

/-- The fields of the object at `above`. -/
def Site.members (above : String) (fields : List (String × FieldDecl)) : List Site :=
  fields.map fun field => ⟨Compile.fieldPath above field.1, field.2⟩

variable (config : Config)

def declared? (name : String) : Option ModelDecl :=
  config.declarations.find? (·.name == name)

/-- The fields of the declaration of a name. Documents of embedded schemas have paths of their own. -/
def schemaSites (name : String) : List Site :=
  match config.declared? name with
  | some decl => Site.members "" decl.fields
  | none => []

/-- What is visited from a declaration, in order. -/
def inside : Site → List Site
  | ⟨path, .object fields⟩ => Site.members path fields
  | ⟨_, .array [.object fields]⟩ => Site.members "" fields
  | ⟨_, .array [.array _]⟩ => []
  | ⟨path, .array [item]⟩ => [⟨path, item⟩]
  | ⟨_, .embed name⟩ => config.schemaSites name
  | _ => []

def Step (outer inner : Site) : Prop :=
  inner ∈ config.inside outer

abbrev Reaches : Site → Site → Prop :=
  Relation.ReflTransGen config.Step

/-- Where a visit starts. -/
def roots : List Site :=
  config.models.flatMap fun model => Site.members "" model.fields

def Visited (site : Site) : Prop :=
  ∃ root ∈ config.roots, config.Reaches root site

/-- A site is visited from the fields of the declaration of a name. -/
def Encloses (name : String) (site : Site) : Prop :=
  ∃ field ∈ config.schemaSites name, config.Reaches field site

def EmbedsItself (name : String) : Prop :=
  ∃ path, config.Encloses name ⟨path, .embed name⟩

/-- Nothing is wrong with a declaration. -/
def Admissible : FieldDecl → Prop
  | .scalar type => type ∈ scalarTypes
  | .array items => items.length ≤ 1
  | .embed name => config.declared? name ≠ none ∧ ¬config.EmbedsItself name
  | .reference _ => True
  | .object _ => True

/-- Nothing is wrong with what is visited from a site. -/
def Clean (site : Site) : Prop :=
  ∀ inner, config.Reaches site inner → config.Admissible inner.decl

/-- What is found wrong at a site when a visit comes to it from inside of the schemas `within`. -/
def fault? (within : List String) : Site → Option BuildError
  | ⟨path, .scalar type⟩ => if type ∈ scalarTypes then none else some (.unknownType type path)
  | ⟨path, .array items⟩ => if items.length ≤ 1 then none else some (.mixedArray path)
  | ⟨_, .embed name⟩ =>
    if (config.declared? name).isNone then some (.unknownSchema name)
    else if name ∈ within then some (.embedsItself name)
    else none
  | _ => none

/-- The schemas that a visit is inside of once it has entered a site. -/
def entered (within : List String) : Site → List String
  | ⟨_, .embed name⟩ => name :: within
  | _ => within

/-- The first fault of a depth-first visit: a site comes before what is inside of it, and that comes
before the sites behind it. -/
inductive FirstFault : List String → List Site → BuildError → Prop
  | here {within : List String} {site : Site} {rest : List Site} {error : BuildError} :
    config.fault? within site = some error → FirstFault within (site :: rest) error
  | inside {within : List String} {site : Site} {rest : List Site} {error : BuildError} :
    config.fault? within site = none →
    FirstFault (entered within site) (config.inside site) error →
      FirstFault within (site :: rest) error
  | later {within : List String} {site : Site} {rest : List Site} {error : BuildError} :
    config.Clean site → FirstFault within rest error → FirstFault within (site :: rest) error

/-- What an error says about a site. -/
def Blames : BuildError → Site → Prop
  | .unknownSchema name, site => site.decl = .embed name ∧ config.declared? name = none
  | .unknownType type path, site => site = ⟨path, .scalar type⟩ ∧ type ∉ scalarTypes
  | .mixedArray path, site => ∃ items, site = ⟨path, .array items⟩ ∧ 1 < items.length
  | .embedsItself name, site => site.decl = .embed name ∧ config.EmbedsItself name

variable {config : Config} {within : List String} {site inner : Site} {error error' : BuildError}

/-! ### Where a visit comes to -/

theorem Clean.inside (clean : config.Clean site) :
    ∀ inner ∈ config.inside site, config.Clean inner :=
  fun _ step last reached => clean last (.head step reached)

/-- A visit that is inside of the schemas `within` comes to sites that all of them enclose. -/
def Surround (config : Config) (within : List String) (sites : List Site) : Prop :=
  ∀ name ∈ within, ∀ site ∈ sites, config.Encloses name site

theorem surround_start (config : Config) (sites : List Site) : config.Surround [] sites :=
  List.forall_mem_nil _

theorem Encloses.step {name : String} (encloses : config.Encloses name site)
    (step : config.Step site inner) : config.Encloses name inner := by
  obtain ⟨field, own, reached⟩ := encloses
  exact ⟨field, own, reached.tail step⟩

namespace Surround

variable {others : List Site}

theorem rest (surround : config.Surround within (site :: others)) : config.Surround within others :=
  fun name opened _ member => surround name opened _ (List.mem_cons_of_mem _ member)

theorem inside (surround : config.Surround within (site :: others)) :
    config.Surround (entered within site) (config.inside site) := by
  obtain ⟨path, decl⟩ := site
  intro name opened inner step
  have around : name ∈ within → config.Encloses name inner := fun opened =>
    (surround name opened _ List.mem_cons_self).step step
  cases decl with
  | embed schema =>
    rcases List.mem_cons.mp opened with rfl | opened
    · exact ⟨inner, step, .refl⟩
    · exact around opened
  | scalar | array | reference | object => exact around opened

end Surround

/-! ### Faults -/

theorem Blames.not_admissible (blames : config.Blames error site) :
    ¬config.Admissible site.decl := by
  cases error with
  | unknownSchema name =>
    obtain ⟨embeds, undeclared⟩ := blames
    rw [embeds]
    exact fun admissible => admissible.1 undeclared
  | unknownType type path =>
    obtain ⟨rfl, unknown⟩ := blames
    exact unknown
  | mixedArray path =>
    obtain ⟨items, rfl, many⟩ := blames
    exact Nat.not_le.mpr many
  | embedsItself name =>
    obtain ⟨embeds, again⟩ := blames
    rw [embeds]
    exact fun admissible => admissible.2 again

/-- A schema that is embedded inside of itself embeds itself, so every fault is a true one. -/
theorem blames_of_fault {rest : List Site} (surround : config.Surround within (site :: rest))
    (fault : config.fault? within site = some error) : config.Blames error site := by
  obtain ⟨path, decl⟩ := site
  cases decl with
  | scalar type =>
    obtain ⟨unknown, rfl⟩ : type ∉ scalarTypes ∧ _ = error := by simpa [fault?] using fault
    exact ⟨rfl, unknown⟩
  | array items =>
    obtain ⟨many, rfl⟩ : 1 < items.length ∧ _ = error := by simpa [fault?] using fault
    exact ⟨items, rfl, many⟩
  | reference model => simp [fault?] at fault
  | object fields => simp [fault?] at fault
  | embed name =>
    rw [fault?] at fault
    split at fault
    next undeclared =>
      cases fault
      exact ⟨rfl, Option.isNone_iff_eq_none.mp undeclared⟩
    next =>
      split at fault
      next opened =>
        cases fault
        exact ⟨rfl, path, surround name opened _ List.mem_cons_self⟩
      next => cases fault

theorem fault_eq_none (admissible : config.Admissible site.decl)
    (plain : ∀ name, site.decl ≠ .embed name) : config.fault? within site = none := by
  obtain ⟨path, decl⟩ := site
  cases decl with
  | scalar type => exact if_pos admissible
  | array items => exact if_pos admissible
  | embed name => exact absurd rfl (plain name)
  | reference | object => rfl

theorem entered_eq (plain : ∀ name, site.decl ≠ .embed name) : entered within site = within := by
  obtain ⟨path, decl⟩ := site
  cases decl with
  | embed name => exact absurd rfl (plain name)
  | scalar | array | reference | object => rfl

/-! ### The first fault -/

namespace FirstFault

variable {front back : List Site}

theorem append (first : config.FirstFault within front error) (back : List Site) :
    config.FirstFault within (front ++ back) error := by
  induction first with
  | here fault => exact .here fault
  | inside sound first => exact .inside sound first
  | later clean _ ih => exact .later clean ih

theorem behind (first : config.FirstFault within back error)
    (clean : ∀ site ∈ front, config.Clean site) :
    config.FirstFault within (front ++ back) error := by
  induction front with
  | nil => exact first
  | cons site front ih =>
    obtain ⟨clean, others⟩ := List.forall_mem_cons.mp clean
    exact .later clean (ih others)

/-- A first fault is no false alarm. -/
theorem blames {sites : List Site} (first : config.FirstFault within sites error)
    (surround : config.Surround within sites) :
    ∃ site ∈ sites, ∃ inner, config.Reaches site inner ∧ config.Blames error inner := by
  induction first with
  | @here within site _ _ fault =>
    exact ⟨site, List.mem_cons_self, site, .refl, blames_of_fault surround fault⟩
  | @inside within site _ _ _ _ ih =>
    obtain ⟨inner, step, last, reached, blames⟩ := ih surround.inside
    exact ⟨site, List.mem_cons_self, last, .head step reached, blames⟩
  | later _ _ ih =>
    obtain ⟨other, member, last, reached, blames⟩ := ih surround.rest
    exact ⟨other, List.mem_cons_of_mem _ member, last, reached, blames⟩

theorem not_clean {sites : List Site} (first : config.FirstFault within sites error)
    (surround : config.Surround within sites) : ¬∀ site ∈ sites, config.Clean site := by
  intro clean
  obtain ⟨site, member, last, reached, blames⟩ := first.blames surround
  exact blames.not_admissible (clean site member last reached)

/-- No site that is clean has a fault, neither itself nor inside of it. That leaves one rule for
each site. -/
theorem unique {sites : List Site} (first : config.FirstFault within sites error)
    (other : config.FirstFault within sites error') (surround : config.Surround within sites) :
    error = error' := by
  induction first with
  | @here within site _ _ fault =>
    cases other with
    | here fault' => exact Option.some.inj (fault.symm.trans fault')
    | inside sound _ => cases fault.symm.trans sound
    | later clean _ =>
      exact absurd (clean site .refl) (blames_of_fault surround fault).not_admissible
  | inside sound first ih =>
    cases other with
    | here fault => cases fault.symm.trans sound
    | inside _ other => exact ih other surround.inside
    | later clean _ => exact absurd clean.inside (first.not_clean surround.inside)
  | @later within site _ _ clean _ ih =>
    cases other with
    | here fault =>
      exact absurd (clean site .refl) (blames_of_fault surround fault).not_admissible
    | inside _ other => exact absurd clean.inside (other.not_clean surround.inside)
    | later _ other => exact ih other surround.rest

end FirstFault

end Config

end SelectionPlan
