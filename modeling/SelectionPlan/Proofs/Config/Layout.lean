import Mathlib
import SelectionPlan.Proofs.Config.Members

/-!
# The layout of configured schemas

The paths of a configured schema are the leaves of its declaration: the chains of keys that lead to
them, in order, each once, with the keys of documents around them. Each path holds what its leaf
declares, and no path lies below another one. A leaf may embed a part with fields of its own. Its
schema is laid out by the declaration of the part in the same way, at whatever depth.
-/
namespace SelectionPlan

open SelectionPlan.Path (Plain ofSegments)

/-! ### Leaves and what they declare -/

/-- What a declaration embeds: a schema by its name, or fields that are written out. -/
inductive Part where
  | named (schema : String)
  | inline (members : Dict FieldDecl)

/-- What holds of two contents if they are of one kind: they refer to the same model, or they embed
what is related. -/
inductive Content.Lift {σ τ : Type} (related : σ → τ → Prop) : Content σ → Content τ → Prop
  | scalar : Lift related .scalar .scalar
  | reference {model : String} : Lift related (.reference model) (.reference model)
  | embedded {schema : σ} {schema' : τ} : related schema schema' →
      Lift related (.embedded schema) (.embedded schema')

namespace Content.Lift

variable {σ τ : Type} {related related' : σ → τ → Prop} {content : Content σ} {content' : Content τ}

theorem imp (lift : content.Lift related content')
    (weaker : ∀ schema schema', content = .embedded schema → content' = .embedded schema' →
      related schema schema' → related' schema schema') : content.Lift related' content' := by
  cases lift with
  | scalar => exact .scalar
  | reference => exact .reference
  | embedded same => exact .embedded (weaker _ _ rfl rfl same)

theorem eq_embedded {schema : τ} (lift : content.Lift related (.embedded schema)) :
    ∃ part, content = .embedded part ∧ related part schema := by
  cases lift with
  | embedded same => exact ⟨_, rfl, same⟩

end Content.Lift

namespace FieldDecl

mutual

/-- The leaves of an object, each with the chain of keys that leads to it. -/
def chains : List (String × FieldDecl) → List (List String × FieldDecl)
  | [] => []
  | (name, decl) :: rest =>
    ((chainsOf decl).map fun leaf => (name :: leaf.1, leaf.2)) ++ chains rest

/-- The leaves of a declaration. Everything but an object with fields is a leaf itself. -/
def chainsOf : FieldDecl → List (List String × FieldDecl)
  | .object (field :: rest) => chains (field :: rest)
  | decl => [([], decl)]

end

/-- What a leaf declares. An array refers to what its elements refer to, and embeds what they embed;
objects as elements are embedded if they have fields. -/
def content : FieldDecl → Content Part
  | .reference model | .array [.reference model] => .reference model
  | .embed schema | .array [.embed schema] => .embedded (.named schema)
  | .array [.object (field :: rest)] => .embedded (.inline (field :: rest))
  | _ => .scalar

theorem content_item {item : FieldDecl} (object : ∀ members, item ≠ .object members)
    (array : ∀ items, item ≠ .array items) : content (.array [item]) = item.content := by
  cases item with
  | scalar | reference | embed => rfl
  | array items => exact absurd rfl (array items)
  | object members => exact absurd rfl (object members)

theorem chainsOf_object {members : Dict FieldDecl} (inhabited : members ≠ []) :
    chainsOf (.object members) = chains members := by
  obtain ⟨field, rest, rfl⟩ := List.exists_cons_of_ne_nil inhabited
  rw [chainsOf]

theorem chainsOf_leaf {decl : FieldDecl}
    (leaf : ∀ members, members ≠ [] → decl ≠ .object members) : chainsOf decl = [([], decl)] := by
  rw [chainsOf]
  exact fun field rest => leaf (field :: rest) (List.cons_ne_nil field rest)

theorem chains_eq (fields : Dict FieldDecl) :
    chains fields =
      fields.flatMap fun field =>
        (chainsOf field.2).map fun leaf => (field.1 :: leaf.1, leaf.2) := by
  induction fields with
  | nil => rfl
  | cons field rest ih =>
    obtain ⟨name, decl⟩ := field
    rw [chains, List.flatMap_cons, ← ih]

/-- The path of a leaf is its chain of keys. -/
theorem leavesBelow_eq_chains {follows : String → String → Prop} {fields : Dict FieldDecl}
    {names : List String} (keyed : Keyed follows fields) (plain : ∀ name ∈ names, Plain name) :
    leavesBelow (ofSegments names) fields =
      (chains fields).map fun leaf => ⟨ofSegments (names ++ leaf.1), leaf.2⟩ := by
  induction keyed generalizing names with
  | @fields fields _ plainKeys _ ih =>
    -- Both sides go through the fields one after the other, and only objects go on inside.
    rw [leavesBelow_eq plain, chains_eq, List.map_flatMap]
    refine List.flatMap_congr ?_
    rintro ⟨name, decl⟩ member
    rw [List.map_map]
    by_cases object : ∃ members, members ≠ [] ∧ decl = .object members
    · obtain ⟨members, inhabited, rfl⟩ := object
      have plain' := plain_concat plain (plainKeys name (List.mem_map_of_mem member))
      rw [leaves_object _ inhabited, chainsOf_object inhabited, ih name members member plain']
      refine List.map_congr_left fun leaf _ => ?_
      rw [List.append_assoc]
      rfl
    · have leaf : ∀ members, members ≠ [] → decl ≠ .object members :=
        fun members inhabited same => object ⟨members, inhabited, same⟩
      rw [leaves_leaf leaf, chainsOf_leaf leaf]
      rfl

end FieldDecl

/-! ### Outlines -/

/-- What a schema is made of: the declarations of its fields, and its virtual relations. -/
structure Outline where
  fields : Dict FieldDecl
  virtuals : Dict String

def ModelDecl.outline (decl : ModelDecl) : Outline :=
  ⟨decl.fields, decl.virtuals⟩

namespace Outline

/-- The leaves with their paths. -/
def leaves (outline : Outline) : List (String × FieldDecl) :=
  (FieldDecl.leavesBelow "" outline.fields).map fun site => (site.path, site.decl)

/-- The keys are plain names in ascending order, at every depth of objects, and none of the
outermost ones is a key that documents have besides. -/
structure Regular (outline : Outline) : Prop where
  keyed : FieldDecl.Keyed (· < ·) outline.fields
  id : "_id" ∉ outline.fields.keys
  version : "__v" ∉ outline.fields.keys

variable {outline : Outline}

theorem Regular.leaves_eq (regular : outline.Regular) :
    outline.leaves =
      (FieldDecl.chains outline.fields).map fun leaf => (ofSegments leaf.1, leaf.2) := by
  have sites : FieldDecl.leavesBelow "" outline.fields =
      (FieldDecl.chains outline.fields).map fun leaf => ⟨ofSegments leaf.1, leaf.2⟩ :=
    FieldDecl.leavesBelow_eq_chains regular.keyed (List.forall_mem_nil Plain)
  rw [leaves, sites, List.map_map]
  rfl

/-- The paths of leaves keep apart, from each other and from the keys of documents. -/
theorem Regular.apart (regular : outline.Regular) :
    ("_id" :: outline.leaves.map Prod.fst ++ ["__v"]).Pairwise Path.Apart := by
  have keyed := regular.keyed.distinct.recordFields true regular.id regular.version
  have apart := (keyed.fan (List.forall_mem_nil Plain)).apart
  rw [FieldDecl.pathsBelow_recordFields] at apart
  rw [leaves, List.map_map]
  exact apart

end Outline

namespace Config

variable (config : Config)

/-- The keys that every schema has before its fields. -/
def frontKeys : List String :=
  if config.options.documentKeys then ["_id"] else []

/-- The keys that the schema of a model has after its fields. -/
def backKeys : List String :=
  if config.options.documentKeys then ["__v"] else []

/-- What a part is made of. A part that is written out has no virtual relations. -/
def outline? : Part → Option Outline
  | .named schema => (config.declared? schema).map ModelDecl.outline
  | .inline members => some ⟨members, []⟩

/-- The outline of a part is related to a schema. -/
def Through (related : Outline → Schema → Prop) (part : Part) (sub : Schema) : Prop :=
  ∃ inner, config.outline? part = some inner ∧ related inner sub

/-- The schema of an outline embeds `sub`, whose outline is `inner`. Of the leaves with one path,
the last counts. -/
def Embeds (outline : Outline) (schema : Schema) (inner : Outline) (sub : Schema) : Prop :=
  ∃ path decl part, Dict.last? path outline.leaves = some decl ∧
    decl.content = .embedded part ∧ config.outline? part = some inner ∧
      schema.path? path = some (.embedded sub)

/-- The schemas that are embedded inside of a schema, at whatever depth, with their outlines. -/
inductive Inside (outline : Outline) (schema : Schema) : Outline → Schema → Prop
  | here {inner : Outline} {sub : Schema} :
    config.Embeds outline schema inner sub → Inside outline schema inner sub
  | deeper {between inner : Outline} {sub sub' : Schema} :
    Inside outline schema between sub → config.Embeds between sub inner sub' →
      Inside outline schema inner sub'

/-- The layout of a schema by its outline, with keys before the fields and after them. -/
structure LaidOut (before after : List String) (outline : Outline) (schema : Schema) : Prop where
  /-- The paths of the fields are the chains of keys that lead to leaves. -/
  paths : schema.pathNames =
    before ++ (FieldDecl.chains outline.fields).map (fun leaf => ofSegments leaf.1) ++ after
  once : schema.pathNames.Nodup
  /-- Each leaf holds what it declares. -/
  leaves : ∀ leaf ∈ FieldDecl.chains outline.fields,
    ∃ info, schema.path? (ofSegments leaf.1) = some info ∧
      leaf.2.content.Lift (config.Through (config.Embeds outline schema)) info
  keys : ∀ key ∈ before ++ after, schema.path? key = some .scalar
  /-- No path lies below another one. -/
  apart : schema.pathNames.Pairwise Path.Apart
  virtuals : schema.virtuals = Dict.ofList outline.virtuals

end Config

/-! ### Composed schemas -/

namespace Compile

/-- Keys that hold plain values. -/
def scalars (keys : List String) : List (String × PathInfo) :=
  keys.map fun key => (key, .scalar)

/-- The schema with the given entries and virtual relations, and with keys around the entries. -/
def around (before after : List String) (entries : List (String × PathInfo))
    (relations : Dict String) : Schema :=
  virtuals (Schema.empty.declareAll (scalars before ++ entries ++ scalars after)) relations

variable {before after : List String} {entries : List (String × PathInfo)} {relations : Dict String}

theorem document_eq_around (config : Config) :
    document config.options.documentKeys entries relations =
      around config.frontKeys [] entries relations := by
  rw [document, around, Schema.declareAll_append, Schema.declareAll_append, Config.frontKeys]
  cases config.options.documentKeys <;> rfl

theorem record_eq_around (config : Config) :
    record config.options.documentKeys entries relations =
      around config.frontKeys config.backKeys entries relations := by
  rw [record, around, Schema.declareAll_append, Schema.declareAll_append, Config.frontKeys,
    Config.backKeys]
  cases config.options.documentKeys <;> rfl

theorem path?_around (path : String) :
    (around before after entries relations).path? path =
      Dict.last? path (scalars before ++ entries ++ scalars after) := by
  rw [around, path?_virtuals, Schema.path?_declareAll]
  exact Option.or_none ..

theorem eq_scalar_of_last? {path : String} {keys : List String} {info : PathInfo}
    (found : Dict.last? path (scalars keys) = some info) : info = .scalar := by
  obtain ⟨key, _, same⟩ := List.mem_map.mp (Dict.mem_of_last? found)
  exact (Prod.ext_iff.mp same).2.symm

/-- What is embedded is among the entries. -/
theorem last?_of_embedded {path : String} {sub : Schema}
    (found : (around before after entries relations).path? path = some (.embedded sub)) :
    Dict.last? path entries = some (.embedded sub) := by
  rw [path?_around, Dict.last?_append, Dict.last?_append, Option.or_eq_some_iff,
    Option.or_eq_some_iff] at found
  -- A key of documents holds a plain value, whether it stands before the entries or after them.
  rcases found with key | ⟨-, entry | ⟨-, key⟩⟩
  · cases eq_scalar_of_last? key
  · exact entry
  · cases eq_scalar_of_last? key

theorem virtuals_around :
    (around before after entries relations).virtuals = Dict.ofList relations := by
  rw [around, virtuals_virtuals, Schema.virtuals_declareAll]
  rfl

theorem names_scalars (keys : List String) : (scalars keys).map Prod.fst = keys := by
  rw [scalars, List.map_map]
  exact List.map_id keys

/-- Paths that are declared once are the paths of the schema. -/
theorem pathNames_around (once : (before ++ entries.map Prod.fst ++ after).Nodup) :
    (around before after entries relations).pathNames =
      before ++ entries.map Prod.fst ++ after := by
  rw [around, pathNames_virtuals, Schema.pathNames_declareAll Schema.empty List.nodup_nil,
    List.map_append, List.map_append, names_scalars, names_scalars]
  exact eraseDups_eq_self once

/-- What is declared once is there. -/
theorem path?_around_of_mem (once : (before ++ entries.map Prod.fst ++ after).Nodup)
    {entry : String × PathInfo} (member : entry ∈ scalars before ++ entries ++ scalars after)
    (relations : Dict String) :
    (around before after entries relations).path? entry.1 = some entry.2 := by
  rw [path?_around]
  refine Dict.last?_of_nodup ?_ member
  rwa [List.map_append, List.map_append, names_scalars, names_scalars]

end Compile

namespace Config

variable {config : Config}

/-- A schema is what its outline means, with keys around. -/
def Composed (config : Config) (before after : List String) (outline : Outline)
    (schema : Schema) : Prop :=
  ∃ entries, config.Lists (FieldDecl.leavesBelow "" outline.fields) entries ∧
    schema = Compile.around before after entries outline.virtuals

/-- What a leaf means is of the kind that it declares, and what it embeds is composed in turn. -/
theorem lift_of_means {decl : FieldDecl} {info : PathInfo} (means : config.Means decl info) :
    decl.content.Lift (config.Through (config.Composed config.frontKeys [])) info := by
  match means with
  | .scalar | .blank | .unspecified | .blanks | .arrays => exact .scalar
  | .reference => exact .reference
  | .embed found held =>
    exact .embedded ⟨ModelDecl.outline _, congrArg (Option.map ModelDecl.outline) found, _, held,
      Compile.document_eq_around config⟩
  | .documents inhabited held =>
    obtain ⟨field, rest, rfl⟩ := List.exists_cons_of_ne_nil inhabited
    exact .embedded ⟨_, rfl, _, held, Compile.document_eq_around config⟩
  | .item object array holds =>
    rw [FieldDecl.content_item object array]
    exact lift_of_means holds

/-- What the last leaf with a path means is the last entry with the path. -/
theorem means_of_last? {outline : Outline} {entries : List (String × PathInfo)}
    (lists : config.Lists (FieldDecl.leavesBelow "" outline.fields) entries) {path : String}
    {decl : FieldDecl} (last : Dict.last? path outline.leaves = some decl) :
    ∃ info, Dict.last? path entries = some info ∧ config.Means decl info := by
  have related := Dict.rel_last?_of_forall₂ lists.beside path
  rw [← Outline.leaves, last] at related
  generalize Dict.last? path entries = content at related
  cases related with
  | some means => exact ⟨_, rfl, means⟩

namespace Composed

variable {before after : List String} {outline inner : Outline} {schema sub : Schema}

/-- What a path embeds is what the last leaf with the path means. -/
theorem leaf_of_embedded (composed : config.Composed before after outline schema) {path : String}
    (held : schema.path? path = some (.embedded sub)) :
    ∃ decl, Dict.last? path outline.leaves = some decl ∧ config.Means decl (.embedded sub) := by
  obtain ⟨entries, lists, rfl⟩ := composed
  have related := Dict.rel_last?_of_forall₂ lists.beside path
  rw [← Outline.leaves, Compile.last?_of_embedded held] at related
  generalize last : Dict.last? path outline.leaves = leaf at related
  cases related with
  | some means => exact ⟨_, rfl, means⟩

/-- Whatever is embedded has an outline. -/
theorem exists_embeds (composed : config.Composed before after outline schema) {path : String}
    (held : schema.path? path = some (.embedded sub)) :
    ∃ inner, config.Embeds outline schema inner sub := by
  obtain ⟨decl, last, means⟩ := composed.leaf_of_embedded held
  obtain ⟨part, declares, inner, named, -⟩ := (lift_of_means means).eq_embedded
  exact ⟨inner, path, decl, part, last, declares, named, held⟩

/-- Embedded schemas are composed as well. -/
theorem embedded (composed : config.Composed before after outline schema)
    (embeds : config.Embeds outline schema inner sub) :
    config.Composed config.frontKeys [] inner sub := by
  obtain ⟨path, decl, part, last, declares, named, held⟩ := embeds
  obtain ⟨decl', last', means⟩ := composed.leaf_of_embedded held
  -- One leaf is the last with the path, it declares one part, and the part has one outline.
  cases last.symm.trans last'
  obtain ⟨part', declares', inner', named', composed'⟩ := (lift_of_means means).eq_embedded
  cases declares.symm.trans declares'
  cases named.symm.trans named'
  exact composed'

theorem inside (composed : config.Composed before after outline schema)
    (inside : config.Inside outline schema inner sub) :
    config.Composed config.frontKeys [] inner sub := by
  induction inside with
  | here embeds => exact composed.embedded embeds
  | deeper _ embeds ih => exact ih.embedded embeds

/-- Nothing is declared twice in a regular outline, so each declaration is the last one. -/
theorem laidOut (composed : config.Composed before after outline schema)
    (regular : outline.Regular) (front : before.Sublist ["_id"]) (back : after.Sublist ["__v"]) :
    config.LaidOut before after outline schema := by
  obtain ⟨entries, lists, rfl⟩ := composed
  have names : outline.leaves.map Prod.fst = entries.map Prod.fst :=
    Dict.keys_eq_of_forall₂ lists.beside
  have apart : (before ++ entries.map Prod.fst ++ after).Pairwise Path.Apart := by
    rw [← names]
    exact regular.apart.sublist ((front.append_right _).append back)
  have once := Path.nodup_of_apart apart
  have paths : (Compile.around before after entries outline.virtuals).pathNames = _ :=
    Compile.pathNames_around once
  refine { paths := ?_, once := ?_, leaves := ?_, keys := ?_, apart := ?_, virtuals := ?_ }
  · rw [paths, ← names, regular.leaves_eq, List.map_map]
    rfl
  · rwa [paths]
  · intro leaf member
    have declared : (ofSegments leaf.1, leaf.2) ∈ outline.leaves := by
      rw [regular.leaves_eq]
      exact List.mem_map_of_mem member
    -- No other leaf has its path, so it is the last one with it.
    have last := Dict.last?_of_nodup (names ▸ once.of_append_left.of_append_right) declared
    obtain ⟨info, found, means⟩ := means_of_last? lists last
    have stored := Dict.mem_of_last? found
    have held := Compile.path?_around_of_mem once
      (List.mem_append_left _ (List.mem_append_right _ stored)) outline.virtuals
    refine ⟨info, held, (lift_of_means means).imp ?_⟩
    rintro part sub declares rfl ⟨inner, named, -⟩
    exact ⟨inner, named, _, leaf.2, part, last, declares, named, held⟩
  · intro key member
    have stored : (key, Content.scalar) ∈
        Compile.scalars before ++ entries ++ Compile.scalars after := by
      rcases List.mem_append.mp member with first | last
      · exact List.mem_append_left _ (List.mem_append_left _ (List.mem_map_of_mem first))
      · exact List.mem_append_right _ (List.mem_map_of_mem last)
    exact Compile.path?_around_of_mem once stored outline.virtuals
  · rwa [paths]
  · exact Compile.virtuals_around

end Composed

theorem frontKeys_sublist (config : Config) : config.frontKeys.Sublist ["_id"] := by
  rw [frontKeys]
  split
  · exact .refl _
  · exact List.nil_sublist _

theorem backKeys_sublist (config : Config) : config.backKeys.Sublist ["__v"] := by
  rw [backKeys]
  split
  · exact .refl _
  · exact List.nil_sublist _

/-- The schema of a model is laid out as the model says: its paths are the leaves of its fields, and
hold what the leaves declare. So are the schemas that it embeds, at whatever depth, by outlines of
their own. Of the models with one name, this is about the last. -/
theorem build_laidOut {config : Config} {models : Models} (built : config.build = .ok models)
    {before after : List ModelDecl} {decl : ModelDecl}
    (declared : config.models = before ++ decl :: after)
    (last : ∀ later ∈ after, later.name ≠ decl.name) (regular : decl.outline.Regular) :
    ∃ schema, models.get? decl.name = some schema ∧
      config.LaidOut config.frontKeys config.backKeys decl.outline schema ∧
      ∀ inner sub, config.Inside decl.outline schema inner sub →
        (inner.Regular → config.LaidOut config.frontKeys [] inner sub) ∧
          ∀ path further, sub.path? path = some (.embedded further) →
            ∃ other, config.Embeds inner sub other further := by
  obtain ⟨entries, -, registers, rfl⟩ := clean_of_build built
  rw [declared] at registers
  obtain ⟨schema, found, contents, lists, rfl⟩ := Compile.registered_last last registers .empty
  have composed : config.Composed config.frontKeys config.backKeys decl.outline _ :=
    ⟨contents, lists, Compile.record_eq_around config⟩
  have front := config.frontKeys_sublist
  refine ⟨_, found, composed.laidOut regular front config.backKeys_sublist, ?_⟩
  intro inner sub inside
  have composed' := composed.inside inside
  refine ⟨?_, ?_⟩
  · exact fun regular => composed'.laidOut regular front (List.nil_sublist _)
  · exact fun path further held => composed'.exists_embeds held

theorem build_laidOut_post :
    let size : Dict FieldDecl := [("h", .scalar "number"), ("w", .array [.scalar "number"])]
    let media : Dict FieldDecl :=
      [("alt", .object []), ("cover", .embed "Image"), ("size", .object size)]
    let reply : Dict FieldDecl := [("by", .reference "User"), ("marks", .array [.embed "Image"])]
    let image : ModelDecl := ⟨"Image", [("url", .scalar "string")], [("uses", "Post")]⟩
    let draft : ModelDecl := ⟨"Post", [("text", .scalar "string")], []⟩
    let post : ModelDecl :=
      ⟨"Post", [("authors", .array [.reference "User"]), ("media", .object media),
        ("replies", .array [.object reply])], [("comments", "Comment")]⟩
    let config : Config := ⟨[draft, post], [image], {}⟩
    let images : Schema := ⟨[("_id", .scalar), ("url", .scalar)], [("uses", "Post")]⟩
    let replies : Schema :=
      ⟨[("_id", .scalar), ("by", .reference "User"), ("marks", .embedded images)], []⟩
    let posts : Schema :=
      ⟨[("_id", .scalar), ("authors", .reference "User"), ("media.alt", .scalar),
        ("media.cover", .embedded images), ("media.size.h", .scalar), ("media.size.w", .scalar),
        ("replies", .embedded replies), ("__v", .scalar)], [("comments", "Comment")]⟩
    let models : Models := ⟨[("Post", posts)]⟩
    config.build = .ok models ∧ post.outline.Regular ∧
      ∃ schema, models.get? "Post" = some schema ∧
        config.LaidOut ["_id"] ["__v"] post.outline schema ∧
        ∀ inner sub, config.Inside post.outline schema inner sub →
          (inner.Regular → config.LaidOut ["_id"] [] inner sub) ∧
            ∀ path further, sub.path? path = some (.embedded further) →
              ∃ other, config.Embeds inner sub other further := by
  intro size media reply image draft post config images replies posts models
  have built : config.build = .ok models := by
    simp only [config, draft, post, image, reply, media, size, models, posts, replies, images]
    cbv
  have keyed : FieldDecl.Keyed (· < ·) post.fields := by
    have blank : FieldDecl.Keyed (· < ·) [] := .fields (by decide) (by decide) (by simp)
    have inner : FieldDecl.Keyed (· < ·) size := .fields (by decide) (by decide) (by simp [size])
    have middle : FieldDecl.Keyed (· < ·) media := by
      refine .fields (by decide) (by decide) ?_
      intro name members member
      have cases : members = [] ∨ members = size := by
        simp [media] at member
        tauto
      rcases cases with rfl | rfl
      · exact blank
      · exact inner
    refine .fields (by decide) (by decide) ?_
    intro name members member
    have only : name = "media" ∧ members = media := by simpa [post] using member
    exact only.2 ▸ middle
  have regular : post.outline.Regular := ⟨keyed, by decide, by decide⟩
  have declared : config.models = [draft] ++ post :: [] := rfl
  have last : ∀ later ∈ ([] : List ModelDecl), later.name ≠ post.name := List.forall_mem_nil _
  exact ⟨built, regular, build_laidOut built declared last regular⟩

end Config

end SelectionPlan
