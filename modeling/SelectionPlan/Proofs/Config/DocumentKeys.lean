import Mathlib
import SelectionPlan.Proofs.Config.Outcome

/-!
# What the keys of documents add

A configuration can be built with the keys that a store adds to documents, or without them. They do
not decide whether it builds. Every sub-document then has the path `_id` in front of its own, and
every model has `__v` behind its own as well, and what the configuration declares stays as it was.
The exception is a path `__v` of a model: it is declared once more, after the fields, and holds a
plain value then, whatever the configuration says. A path `_id` is declared before the fields, so it
holds what the configuration says.
-/
namespace SelectionPlan

/-! ### Schemas with and without the keys -/

/-- What a path holds with the keys of documents, beside what it holds without them. By the list of
its paths a sub-document keeps them all, so that only what they hold is left to compare. -/
inductive Content.Keyed : PathInfo → PathInfo → Prop
  | scalar : Keyed .scalar .scalar
  | reference {model : String} : Keyed (.reference model) (.reference model)
  | embedded {bare keyed : Schema} : keyed.virtuals = bare.virtuals →
    keyed.pathNames = ("_id" :: bare.pathNames).eraseDups →
    (∀ path info info', bare.path? path = some info → keyed.path? path = some info' →
      Keyed info info') →
      Keyed (.embedded bare) (.embedded keyed)

/-- The schema of a model with the keys of documents, beside its schema without them. -/
structure Schema.Keyed (bare keyed : Schema) : Prop where
  virtuals : keyed.virtuals = bare.virtuals
  paths : keyed.pathNames = ("_id" :: bare.pathNames ++ ["__v"]).eraseDups
  kept : ∀ path info, path ≠ "__v" → bare.path? path = some info →
    ∃ info', keyed.path? path = some info' ∧ info.Keyed info'
  version : keyed.path? "__v" = some .scalar

namespace Compile

open Content (Keyed)

variable {entries entries' : List (String × PathInfo)}

theorem kept_declareAll (beside : List.Forall₂ (Dict.Beside Keyed) entries entries')
    {bare keyed : Schema} (kept : ∀ path info info', bare.path? path = some info →
      keyed.path? path = some info' → Keyed info info') :
    ∀ path info info', (bare.declareAll entries).path? path = some info →
      (keyed.declareAll entries').path? path = some info' → Keyed info info' := by
  induction beside generalizing bare keyed with
  | nil => exact kept
  | @cons entry other _ _ first _ ih =>
    obtain ⟨name, content⟩ := entry
    obtain ⟨name', content'⟩ := other
    obtain ⟨⟨⟩, same⟩ := first
    refine ih ?_
    intro path info info' found found'
    rw [Schema.path?_declare] at found found'
    split at found
    next here =>
      rw [if_pos here] at found'
      cases found
      cases found'
      exact same
    next elsewhere =>
      rw [if_neg elsewhere] at found'
      exact kept path info info' found found'

/-- Nothing that is declared first is lost. -/
theorem kept_fields (beside : List.Forall₂ (Dict.Beside Keyed) entries entries') :
    ∀ path info info', ((start false).declareAll entries).path? path = some info →
      ((start true).declareAll entries').path? path = some info' → Keyed info info' := by
  refine kept_declareAll beside ?_
  intro path info info' found
  cases found

theorem virtuals_fields (relations : Dict String) :
    (virtuals ((start true).declareAll entries') relations).virtuals =
      (virtuals ((start false).declareAll entries) relations).virtuals := by
  refine virtuals_congr ?_ relations
  rw [Schema.virtuals_declareAll, Schema.virtuals_declareAll]
  rfl

theorem keyed_document (beside : List.Forall₂ (Dict.Beside Keyed) entries entries')
    (relations : Dict String) :
    Keyed (.embedded (document false entries relations))
      (.embedded (document true entries' relations)) := by
  have names : entries.map Prod.fst = entries'.map Prod.fst := Dict.keys_eq_of_forall₂ beside
  refine .embedded (virtuals_fields relations) ?_ ?_
  · rw [pathNames_document, pathNames_document, names]
    exact eraseDups_append_congr rfl (eraseDups_eraseDups _).symm
  · intro path info info'
    rw [document, document, path?_virtuals, path?_virtuals]
    exact kept_fields beside path info info'

theorem keyed_record (beside : List.Forall₂ (Dict.Beside Keyed) entries entries')
    (relations : Dict String) :
    (record false entries relations).Keyed (record true entries' relations) := by
  have names : entries.map Prod.fst = entries'.map Prod.fst := Dict.keys_eq_of_forall₂ beside
  have paths : (record true entries' relations).pathNames =
      ("_id" :: (record false entries relations).pathNames ++ ["__v"]).eraseDups := by
    rw [pathNames_record, pathNames_record, if_pos rfl, if_neg Bool.false_ne_true, List.append_nil,
      names]
    have kept := eraseDups_append_congr (rfl : ["_id"].eraseDups = _)
      (eraseDups_eraseDups (entries'.map Prod.fst)).symm
    exact eraseDups_append_congr kept rfl
  refine ⟨?_, paths, ?_, ?_⟩
  · refine virtuals_congr ?_ relations
    exact virtuals_fields []
  · intro path info other found
    -- No path gets lost, and only `__v` is declared once more after the fields.
    have declared : path ∈ (record true entries' relations).pathNames := by
      have member : path ∈ (record false entries relations).pathNames := by
        by_contra absent
        rw [(Schema.path?_eq_none_iff _ path).mpr absent] at found
        cases found
      rw [paths]
      simp [member]
    obtain ⟨info', found'⟩ := Option.ne_none_iff_exists'.mp fun absent =>
      (Schema.path?_eq_none_iff _ path).mp absent declared
    refine ⟨info', found', ?_⟩
    simp only [record, path?_virtuals, Schema.scalar, Bool.false_eq_true, if_true,
      if_false] at found found'
    rw [Schema.path?_declare, if_neg other.symm] at found'
    exact kept_fields beside path info info' found found'
  · simp only [record, path?_virtuals, Schema.scalar, if_true]
    rw [Schema.path?_declare, if_pos rfl]

end Compile

/-! ### Configurations with and without the keys -/

namespace Config

open Compile (Registers registerAll)
open Content (Keyed)

/-- The configuration with the keys of documents turned on or off. -/
def withKeys (config : Config) (keys : Bool) : Config :=
  { config with options := { config.options with documentKeys := keys } }

mutual

theorem Holds.keyed {declared? : String → Option ModelDecl} {decl : FieldDecl} {info : PathInfo}
    (holds : Holds declared? false decl info) :
    ∃ info', Holds declared? true decl info' ∧ Keyed info info' := by
  match holds with
  | .scalar => exact ⟨_, .scalar, .scalar⟩
  | .reference => exact ⟨_, .reference, .reference⟩
  | .embed found held =>
    obtain ⟨entries', held', beside⟩ := Entries.keyed held
    exact ⟨_, .embed found held', Compile.keyed_document beside _⟩
  | .blank => exact ⟨_, .blank, .scalar⟩
  | .unspecified => exact ⟨_, .unspecified, .scalar⟩
  | .blanks => exact ⟨_, .blanks, .scalar⟩
  | .arrays => exact ⟨_, .arrays, .scalar⟩
  | .documents inhabited held =>
    obtain ⟨entries', held', beside⟩ := Entries.keyed held
    exact ⟨_, .documents inhabited held', Compile.keyed_document beside _⟩
  | .item object array holds =>
    obtain ⟨info', holds', keyed⟩ := Holds.keyed holds
    exact ⟨info', .item object array holds', keyed⟩

theorem Entries.keyed {declared? : String → Option ModelDecl} {sites : List Site}
    {entries : List (String × PathInfo)} (held : Entries declared? false sites entries) :
    ∃ entries', Entries declared? true sites entries' ∧
      List.Forall₂ (Dict.Beside Keyed) entries entries' := by
  match held with
  | .nil => exact ⟨[], .nil, .nil⟩
  | .cons holds held =>
    obtain ⟨info', holds', keyed⟩ := Holds.keyed holds
    obtain ⟨entries', held', beside⟩ := Entries.keyed held
    exact ⟨_, .cons holds' held', .cons ⟨rfl, keyed⟩ beside⟩

end

theorem Describes.keyed {config : Config} {decl : ModelDecl} {schema schema' : Schema}
    (describes : (config.withKeys false).Describes decl schema)
    (describes' : (config.withKeys true).Describes decl schema') : schema.Keyed schema' := by
  obtain ⟨entries, held, rfl⟩ := describes
  obtain ⟨entries', held', beside⟩ := held.keyed
  have same : schema' = Compile.record true entries' decl.virtuals :=
    describes'.unique ⟨entries', held', rfl⟩
  rw [same]
  exact Compile.keyed_record beside decl.virtuals

theorem registers_keyed {config : Config} {decls : List ModelDecl}
    {entries entries' : List (String × Schema)}
    (registers : List.Forall₂ (Registers (config.withKeys false)) decls entries)
    (registers' : List.Forall₂ (Registers (config.withKeys true)) decls entries') :
    List.Forall₂ (Dict.Beside Schema.Keyed) entries entries' := by
  induction registers generalizing entries' with
  | nil =>
    cases registers'
    exact .nil
  | cons first _ ih =>
    cases registers' with
    | cons first' rest' =>
      obtain ⟨named, describes⟩ := first
      obtain ⟨named', describes'⟩ := first'
      exact .cons ⟨named.trans named'.symm, describes.keyed describes'⟩ (ih rest')

/-- A configuration that builds without the keys of documents also builds with them, and every model
then has them besides what it had before. Only what a model declares at `__v` is replaced. -/
theorem build_withKeys (config : Config) {models : Models}
    (built : (config.withKeys false).build = .ok models) :
    ∃ models', (config.withKeys true).build = .ok models' ∧ models'.names = models.names ∧
      ∀ name schema, models.get? name = some schema →
        ∃ schema', models'.get? name = some schema' ∧ schema.Keyed schema' := by
  obtain ⟨entries, clean, registers, rfl⟩ := clean_of_build built
  have same : (config.withKeys true).declared? = (config.withKeys false).declared? := rfl
  have clean' : ∀ root ∈ (config.withKeys true).roots, (config.withKeys true).Clean root := by
    rw [clean_congr same]
    exact clean
  obtain ⟨entries', registers', built'⟩ := build_of_clean clean'
  have beside := Dict.forall₂_insertAll (registers_keyed registers registers') .nil
  refine ⟨_, built', (Dict.keys_eq_of_forall₂ beside).symm, ?_⟩
  exact fun name schema => Dict.get?_of_forall₂ beside

theorem build_withKeys_post :
    let address : ModelDecl := ⟨"Address", [("__v", .reference "Version")], [("posts", "Post")]⟩
    let post : ModelDecl :=
      ⟨"Post", [("_id", .reference "Key"), ("places", .array [.object [("at", .embed "Address")]])],
        []⟩
    let config : Config := ⟨[post], [address], {}⟩
    let place : Schema := ⟨[("__v", .reference "Version")], [("posts", "Post")]⟩
    let places : Schema := ⟨[("at", .embedded place)], []⟩
    let models : Models :=
      ⟨[("Post", ⟨[("_id", .reference "Key"), ("places", .embedded places)], []⟩)]⟩
    (config.withKeys false).build = .ok models ∧
      ∃ models', (config.withKeys true).build = .ok models' ∧ models'.names = models.names ∧
        ∀ name schema, models.get? name = some schema →
          ∃ schema', models'.get? name = some schema' ∧ schema.Keyed schema' := by
  intro address post config place places models
  have built : (config.withKeys false).build = .ok models := by
    simp only [config, post, address, models, places, place]
    cbv
  exact ⟨built, build_withKeys config built⟩

/-- A model that declares `__v` loses what it declares there. -/
theorem version_replaced :
    let post : ModelDecl := ⟨"Post", [("__v", .reference "Version")], []⟩
    let config : Config := ⟨[post], [], {}⟩
    let bare : Schema := ⟨[("__v", .reference "Version")], []⟩
    let keyed : Schema := ⟨[("_id", .scalar), ("__v", .scalar)], []⟩
    (config.withKeys false).build = .ok ⟨[("Post", bare)]⟩ ∧
      (config.withKeys true).build = .ok ⟨[("Post", keyed)]⟩ ∧
      bare.path? "__v" = some (.reference "Version") ∧
      ∀ info, keyed.path? "__v" = some info → ¬Keyed (.reference "Version") info := by
  intro post config bare keyed
  refine ⟨?_, ?_, rfl, ?_⟩
  · simp only [config, post, bare]
    cbv
  · simp only [config, post, keyed]
    cbv
  · rintro info found kept
    cases kept
    cases found

end Config

end SelectionPlan
