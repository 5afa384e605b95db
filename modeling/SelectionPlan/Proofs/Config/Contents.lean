import SelectionPlan.Proofs.Config.Declarations
import SelectionPlan.Proofs.Schema.Declaring

/-!
# What declarations mean

The schema of a declaration, said without compiling it. Plain objects with fields are written out, so
that only leaves remain, each with a path of its own. A document declares its leaves one after the
other, each with what it holds; for a sub-document that is a schema again. Nothing is remembered and
nothing is in progress here, so what a declaration holds depends on named declarations and on
nothing else.
-/
namespace SelectionPlan

/-! ### Leaves -/

namespace FieldDecl

open Config (Site)

mutual

/-- The leaves of the fields of the object at `above`, in order. -/
def leavesBelow (above : String) : List (String × FieldDecl) → List Site
  | [] => []
  | (name, decl) :: rest => leaves (Compile.fieldPath above name) decl ++ leavesBelow above rest

/-- The leaves of the field at a path: those inside of it if it is an object with fields, and itself
otherwise. -/
def leaves (path : String) : FieldDecl → List Site
  | .object members =>
    if members.isEmpty then [⟨path, .object members⟩] else leavesBelow path members
  | decl => [⟨path, decl⟩]

end

theorem leaves_object (path : String) {members : List (String × FieldDecl)} (some : members ≠ []) :
    leaves path (.object members) = leavesBelow path members := by
  rw [leaves, if_neg (by simpa using some)]

theorem leaves_eq (path : String) {decl : FieldDecl} (plain : ∀ members, decl ≠ .object members) :
    leaves path decl = [⟨path, decl⟩] := by
  cases decl with
  | object members => exact absurd rfl (plain members)
  | scalar | array | reference | embed => rfl

end FieldDecl

/-! ### Documents -/

namespace Compile

/-- The schema of a sub-document with the given entries and virtual relations. -/
def document (keys : Bool) (entries : List (String × PathInfo)) (relations : Dict String) : Schema :=
  virtuals ((start keys).declareAll entries) relations

/-- The schema of a model with the given entries and virtual relations. -/
def record (keys : Bool) (entries : List (String × PathInfo)) (relations : Dict String) : Schema :=
  let declared := (start keys).declareAll entries
  virtuals (if keys then declared.scalar "__v" else declared) relations

@[simp] theorem paths_virtuals (schema : Schema) (relations : Dict String) :
    (virtuals schema relations).paths = schema.paths := by
  induction relations generalizing schema with
  | nil => rfl
  | cons entry rest ih => exact ih _

@[simp] theorem pathNames_virtuals (schema : Schema) (relations : Dict String) :
    (virtuals schema relations).pathNames = schema.pathNames := by
  rw [Schema.pathNames, paths_virtuals, Schema.pathNames]

@[simp] theorem path?_virtuals (schema : Schema) (relations : Dict String) (path : String) :
    (virtuals schema relations).path? path = schema.path? path := by
  rw [Schema.path?, paths_virtuals, Schema.path?]

theorem nodup_pathNames_start (keys : Bool) : (start keys).pathNames.Nodup := by
  cases keys <;> decide

theorem pathNames_document (keys : Bool) (entries : List (String × PathInfo))
    (relations : Dict String) : (document keys entries relations).pathNames =
      ((start keys).pathNames ++ entries.map Prod.fst).eraseDups := by
  rw [document, pathNames_virtuals, Schema.pathNames_declareAll _ (nodup_pathNames_start keys)]

theorem pathNames_record (keys : Bool) (entries : List (String × PathInfo))
    (relations : Dict String) : (record keys entries relations).pathNames =
      ((start keys).pathNames ++ entries.map Prod.fst ++ if keys then ["__v"] else []).eraseDups := by
  have names := Schema.pathNames_declareAll _ (nodup_pathNames_start keys) entries
  rw [record, pathNames_virtuals]
  split
  · rw [Schema.scalar, Schema.pathNames_declare_eq_eraseDups _ _ _ (names ▸ nodup_eraseDups _),
      names]
    exact eraseDups_append_congr (eraseDups_eraseDups _) rfl
  · rw [names, List.append_nil]

/-- The virtual relations of a declaration are stored over those of the schema. -/
theorem virtuals_virtuals (schema : Schema) (relations : Dict String) :
    (virtuals schema relations).virtuals = schema.virtuals.insertAll relations := by
  induction relations generalizing schema with
  | nil => rfl
  | cons entry rest ih => exact ih _

theorem virtuals_congr {schema schema' : Schema} (same : schema.virtuals = schema'.virtuals)
    (relations : Dict String) :
    (virtuals schema relations).virtuals = (virtuals schema' relations).virtuals := by
  rw [virtuals_virtuals, virtuals_virtuals, same]

theorem virtual?_virtuals (schema : Schema) {relations : Dict String} {path : String}
    (absent : path ∉ relations.keys) :
    (virtuals schema relations).virtual? path = schema.virtual? path := by
  rw [Schema.virtual?, virtuals_virtuals]
  exact Dict.get?_insertAll_of_notMem absent schema.virtuals

theorem virtual?_record (keys : Bool) (entries : List (String × PathInfo))
    {relations : Dict String} {path : String} (absent : path ∉ relations.keys) :
    (record keys entries relations).virtual? path = none := by
  have start : ((start keys).declareAll entries).virtuals = [] := by
    rw [Schema.virtuals_declareAll]
    cases keys <;> rfl
  rw [record, virtual?_virtuals _ absent, Schema.virtual?]
  split
  · rw [Schema.scalar, Schema.declare, start]
    rfl
  · rw [start]
    rfl

end Compile

/-! ### Contents -/

namespace Config

section Contents

variable (declared? : String → Option ModelDecl) (keys : Bool)

mutual

/-- What the path of a leaf holds, when declarations are found by their names. -/
inductive Holds : FieldDecl → PathInfo → Prop
  | scalar {type : String} : Holds (.scalar type) .scalar
  | reference {model : String} : Holds (.reference model) (.reference model)
  | embed {name : String} {decl : ModelDecl} {entries : List (String × PathInfo)} :
    declared? name = some decl → Entries (FieldDecl.leavesBelow "" decl.fields) entries →
      Holds (.embed name) (.embedded (Compile.document keys entries decl.virtuals))
  | blank : Holds (.object []) .scalar
  | unspecified : Holds (.array []) .scalar
  | blanks : Holds (.array [.object []]) .scalar
  | arrays {items : List FieldDecl} : Holds (.array [.array items]) .scalar
  | documents {members : List (String × FieldDecl)} {entries : List (String × PathInfo)} :
    members ≠ [] → Entries (FieldDecl.leavesBelow "" members) entries →
      Holds (.array [.object members]) (.embedded (Compile.document keys entries []))
  -- Any other element counts for the array.
  | item {item : FieldDecl} {info : PathInfo} :
    (∀ members, item ≠ .object members) → (∀ items, item ≠ .array items) → Holds item info →
      Holds (.array [item]) info

/-- Leaves with their paths and contents. -/
inductive Entries : List Site → List (String × PathInfo) → Prop
  | nil : Entries [] []
  | cons {path : String} {decl : FieldDecl} {info : PathInfo} {rest : List Site}
      {entries : List (String × PathInfo)} :
    Holds decl info → Entries rest entries → Entries (⟨path, decl⟩ :: rest) ((path, info) :: entries)

end

variable {declared? keys}

mutual

/-- A leaf holds one thing. -/
theorem Holds.unique {decl : FieldDecl} {info info' : PathInfo} (holds : Holds declared? keys decl info)
    (holds' : Holds declared? keys decl info') : info = info' := by
  match holds, holds' with
  | .scalar, .scalar => rfl
  | .reference, .reference => rfl
  | .embed found entries, .embed found' entries' =>
    cases found.symm.trans found'
    rw [Entries.unique entries entries']
  | .blank, .blank => rfl
  | .unspecified, .unspecified => rfl
  | .blanks, .blanks => rfl
  | .blanks, .documents inhabited _ => exact absurd rfl inhabited
  | .blanks, .item object _ _ => exact absurd rfl (object _)
  | .arrays, .arrays => rfl
  | .arrays, .item _ array _ => exact absurd rfl (array _)
  | .documents inhabited _, .blanks => exact absurd rfl inhabited
  | .documents _ entries, .documents _ entries' => rw [Entries.unique entries entries']
  | .documents _ _, .item object _ _ => exact absurd rfl (object _)
  | .item object _ _, .blanks => exact absurd rfl (object _)
  | .item _ array _, .arrays => exact absurd rfl (array _)
  | .item object _ _, .documents _ _ => exact absurd rfl (object _)
  | .item _ _ holds, .item _ _ holds' => exact Holds.unique holds holds'

theorem Entries.unique {sites : List Site} {entries entries' : List (String × PathInfo)}
    (held : Entries declared? keys sites entries) (held' : Entries declared? keys sites entries') :
    entries = entries' := by
  match held, held' with
  | .nil, .nil => rfl
  | .cons holds held, .cons holds' held' =>
    rw [Holds.unique holds holds', Entries.unique held held']

end

theorem Entries.append {front back : List Site} {entries others : List (String × PathInfo)}
    (first : Entries declared? keys front entries) (rest : Entries declared? keys back others) :
    Entries declared? keys (front ++ back) (entries ++ others) := by
  match first with
  | .nil => exact rest
  | .cons holds first => exact .cons holds (Entries.append first rest)

theorem Entries.single {path : String} {decl : FieldDecl} {info : PathInfo}
    (holds : Holds declared? keys decl info) :
    Entries declared? keys [⟨path, decl⟩] [(path, info)] :=
  .cons holds .nil

theorem Entries.beside {sites : List Site} {entries : List (String × PathInfo)}
    (held : Entries declared? keys sites entries) :
    List.Forall₂ (Dict.Beside (Holds declared? keys))
      (sites.map fun site => (site.path, site.decl)) entries := by
  match held with
  | .nil => exact .nil
  | .cons holds held => exact .cons ⟨rfl, holds⟩ (Entries.beside held)

theorem Entries.map_fst {sites : List Site} {entries : List (String × PathInfo)}
    (held : Entries declared? keys sites entries) : entries.map Prod.fst = sites.map Site.path := by
  match held with
  | .nil => rfl
  | .cons _ held => exact congrArg _ (Entries.map_fst held)

end Contents

/-- What the path of a leaf holds in the schemas of a configuration. -/
abbrev Means (config : Config) : FieldDecl → PathInfo → Prop :=
  Holds config.declared? config.options.documentKeys

/-- Leaves with their paths, and with their contents in the schemas of a configuration. -/
abbrev Lists (config : Config) : List Site → List (String × PathInfo) → Prop :=
  Entries config.declared? config.options.documentKeys

/-- The schema of a model is the record of its leaves. -/
def Describes (config : Config) (decl : ModelDecl) (schema : Schema) : Prop :=
  ∃ entries, config.Lists (FieldDecl.leavesBelow "" decl.fields) entries ∧
    schema = Compile.record config.options.documentKeys entries decl.virtuals

theorem Describes.unique {config : Config} {decl : ModelDecl} {schema schema' : Schema}
    (describes : config.Describes decl schema) (describes' : config.Describes decl schema') :
    schema = schema' := by
  obtain ⟨entries, held, rfl⟩ := describes
  obtain ⟨entries', held', rfl⟩ := describes'
  rw [held.unique held']

end Config

end SelectionPlan
