import Mathlib
import SelectionPlan.Proofs.Config.Objects
import SelectionPlan.Proofs.Config.Outcome
import SelectionPlan.Proofs.Resolve.Everything

/-!
# Everything of a configured object

Selecting everything of an object that a model declares gives the keys of the object, in the order
of the declaration. The keys of documents are like two more fields of the model, one before all
others and one after them.
-/
namespace SelectionPlan

open SelectionPlan.Path (Plain ofSegments otherChildren)

/-! ### The fields of a record -/

namespace FieldDecl

/-- The fields that the records of a model have, with the keys of documents among them. -/
def recordFields (keys : Bool) (fields : Dict FieldDecl) : Dict FieldDecl :=
  -- What the two keys hold does not matter here, only where they stand.
  if keys then ("_id", .scalar "id") :: fields ++ [("__v", .scalar "number")] else fields

variable {fields members : Dict FieldDecl} {chain : List String} (keys : Bool)

theorem leavesBelow_append (above : String) (front back : Dict FieldDecl) :
    leavesBelow above (front ++ back) = leavesBelow above front ++ leavesBelow above back := by
  induction front with
  | nil => rfl
  | cons field rest ih =>
    obtain ⟨name, decl⟩ := field
    rw [List.cons_append, leavesBelow, leavesBelow, ih, List.append_assoc]

theorem pathsBelow_recordFields :
    pathsBelow [] (recordFields true fields) = "_id" :: pathsBelow [] fields ++ ["__v"] := by
  rw [pathsBelow, recordFields, if_pos rfl, leavesBelow_append, List.map_append]
  rfl

theorem keys_recordFields : (recordFields true fields).keys = "_id" :: fields.keys ++ ["__v"] := by
  simp [recordFields, Dict.keys]

theorem Keyed.recordFields (keyed : Keyed (· ≠ ·) fields) (fresh : "_id" ∉ fields.keys)
    (fresh' : "__v" ∉ fields.keys) : Keyed (· ≠ ·) (recordFields keys fields) := by
  cases keys with
  | false => exact keyed
  | true =>
    have ⟨distinct, plain, inside⟩ := keyed
    refine .fields ?_ ?_ ?_
    · rw [keys_recordFields]
      have absent : "_id" ∉ fields.keys ++ ["__v"] := by simpa using fresh
      have distinct' : (fields.keys ++ ["__v"]).Nodup := by
        rw [List.nodup_append_comm]
        exact List.nodup_cons.mpr ⟨fresh', distinct⟩
      exact List.nodup_cons.mpr ⟨absent, distinct'⟩
    · rw [keys_recordFields]
      refine List.forall_mem_append.mpr ⟨List.forall_mem_cons.mpr ⟨by decide, plain⟩, ?_⟩
      exact List.forall_mem_singleton.mpr (by decide)
    · intro name members member
      have declared : (name, .object members) ∈ fields := by
        simpa [FieldDecl.recordFields] using member
      exact inside name members declared

/-- What is selected of the object that a chain of keys leads to: its own keys, each below the chain.
A record has the keys of documents besides its own. -/
def listed (keys : Bool) (chain : List String) (members : Dict FieldDecl) : List String :=
  let named := members.keys.map fun key => ofSegments (chain ++ [key])
  if keys && chain.isEmpty then "_id" :: named ++ ["__v"] else named

theorem Leads.recordFields (leads : Leads fields chain members) :
    ∃ stored, Leads (recordFields keys fields) chain stored ∧
      stored.keys.map (fun key => ofSegments (chain ++ [key])) = listed keys chain members := by
  cases keys with
  | false => exact ⟨members, leads, rfl⟩
  | true =>
    cases leads with
    | here =>
      refine ⟨_, .here, ?_⟩
      rw [keys_recordFields]
      simp [listed]
    | into member inhabited leads =>
      refine ⟨members, .into ?_ inhabited leads, rfl⟩
      exact List.mem_append_left _ (List.mem_cons_of_mem _ member)

end FieldDecl

/-! ### The schema of a record -/

namespace Compile

open FieldDecl (pathsBelow recordFields Keyed Leads)

variable {fields members : Dict FieldDecl} {keys : Bool} {entries : List (String × PathInfo)}
  {chain : List String}

theorem pathNames_recordFields (keyed : Keyed (· ≠ ·) (recordFields keys fields))
    (listed : entries.map Prod.fst = pathsBelow [] fields) (relations : Dict String) :
    (record keys entries relations).pathNames = pathsBelow [] (recordFields keys fields) := by
  have apart := (keyed.fan (List.forall_mem_nil Plain)).apart
  -- No path is declared twice, so each of them stays where it is declared.
  have once := eraseDups_eq_self (Path.nodup_of_apart apart)
  rw [pathNames_record, listed, ← once]
  cases keys with
  | false =>
    rw [if_neg Bool.false_ne_true, List.append_nil]
    rfl
  | true =>
    rw [if_pos rfl, FieldDecl.pathsBelow_recordFields]
    rfl

theorem opens_record (leads : Leads (recordFields keys fields) chain members)
    (keyed : Keyed (· ≠ ·) (recordFields keys fields))
    (listed : entries.map Prod.fst = pathsBelow [] fields) {relations : Dict String}
    (stored : ∀ above, above ≠ [] → above <+: chain → ofSegments above ∉ relations.keys) :
    (record keys entries relations).Opens chain := by
  intro above some front
  have names := pathNames_recordFields keyed listed relations
  obtain ⟨between, leads⟩ := leads.prefix front
  obtain ⟨unlisted, path, member, below⟩ := leads.object keyed some
  rw [← names] at unlisted member
  constructor
  · rw [Schema.role, virtual?_record keys entries (stored above some front),
      (Schema.path?_eq_none_iff _ _).mpr unlisted]
  · rw [Schema.hasDescendants, List.any_eq_true]
    exact ⟨path, List.mem_append_left _ member, below⟩

end Compile

/-! ### Configured objects -/

namespace Config

open FieldDecl (Keyed Leads)

/-- Selecting everything of an object of a model selects the keys of the object in ascending order,
and nothing is populated. A chain of keys leads to the object, with no virtual relation on the way.
Of the models with one name, this is about the last. -/
theorem resolve_listed {config : Config} {models : Models} (built : config.build = .ok models)
    {before after : List ModelDecl} {decl : ModelDecl}
    (declared : config.models = before ++ decl :: after)
    (last : ∀ later ∈ after, later.name ≠ decl.name)
    (keyed : Keyed (· < ·) decl.fields) (fresh : "_id" ∉ decl.fields.keys)
    (fresh' : "__v" ∉ decl.fields.keys) {chain : List String} {members : Dict FieldDecl}
    (leads : Leads decl.fields chain members)
    (stored : ∀ above, above ≠ [] → above <+: chain →
      ofSegments above ∉ decl.virtuals.keys) :
    members.keys.Pairwise (· < ·) ∧
      ∃ schema, models.get? decl.name = some schema ∧
        ∀ resolver : Resolver, resolver.resolve schema (.through chain) =
          .ok ⟨FieldDecl.listed config.options.documentKeys chain members, []⟩ := by
  obtain ⟨entries, -, registers, rfl⟩ := clean_of_build built
  rw [declared] at registers
  obtain ⟨schema, found, contents, held, rfl⟩ := Compile.registered_last last registers .empty
  have names : contents.map Prod.fst = FieldDecl.pathsBelow [] decl.fields := held.map_fst
  -- Keys of documents do not stand in the order of the others, so only differences count from here.
  have different : ∀ first second : String, first < second → first ≠ second := by
    rintro name _ lower rfl
    exact String.lt_irrefl name lower
  have keyed' := (keyed.imp different).recordFields config.options.documentKeys fresh fresh'
  obtain ⟨fields, leads', listed⟩ := leads.recordFields config.options.documentKeys
  have ⟨ordered, _, _⟩ := leads.keyed keyed
  refine ⟨ordered, _, found, ?_⟩
  intro resolver
  rw [resolver.resolve_through (Compile.opens_record leads' keyed' names stored),
    Compile.pathNames_recordFields keyed' names, leads'.otherChildren_eq keyed', listed]

theorem resolve_listed_date :
    let time : Dict FieldDecl := [("h", .scalar "number"), ("m", .scalar "number")]
    let date : Dict FieldDecl := [("days", .array []), ("time", .object time), ("zone", .object [])]
    let draft : ModelDecl := ⟨"Post", [("text", .scalar "string")], []⟩
    let post : ModelDecl :=
      ⟨"Post", [("date", .object date), ("name", .scalar "string")], [("comments", "Comment")]⟩
    let comment : ModelDecl := ⟨"Comment", [("post", .reference "Post")], []⟩
    let config : Config := ⟨[draft, post, comment], [], {}⟩
    let replies : Schema := ⟨[("_id", .scalar), ("post", .reference "Post"), ("__v", .scalar)], []⟩
    let posts : Schema :=
      ⟨[("_id", .scalar), ("date.days", .scalar), ("date.time.h", .scalar), ("date.time.m", .scalar),
        ("date.zone", .scalar), ("name", .scalar), ("__v", .scalar)], [("comments", "Comment")]⟩
    let models : Models := ⟨[("Comment", replies), ("Post", posts)]⟩
    config.build = .ok models ∧ date.keys.Pairwise (· < ·) ∧
      ∃ schema, models.get? "Post" = some schema ∧
        ∀ resolver : Resolver, resolver.resolve schema (.through ["date"]) =
          .ok ⟨["date.days", "date.time", "date.zone"], []⟩ := by
  intro time date draft post comment config replies posts models
  have built : config.build = .ok models := by
    simp only [config, draft, post, comment, date, time, models, replies, posts]
    cbv
  have keyed : Keyed (· < ·) post.fields := by
    have blank : Keyed (· < ·) [] := .fields (by decide) (by decide) (by simp)
    have inner : Keyed (· < ·) time := .fields (by decide) (by decide) (by simp [time])
    have middle : Keyed (· < ·) date := by
      refine .fields (by decide) (by decide) ?_
      intro name members member
      have cases : members = time ∨ members = [] := by
        simp [date] at member
        tauto
      rcases cases with rfl | rfl
      · exact inner
      · exact blank
    refine .fields (by decide) (by decide) ?_
    intro name members member
    have only : name = "date" ∧ members = date := by simpa [post] using member
    exact only.2 ▸ middle
  have leads : Leads post.fields ["date"] date :=
    .into List.mem_cons_self (List.cons_ne_nil _ _) .here
  have declared : config.models = [draft] ++ post :: [comment] := rfl
  have last : ∀ later ∈ [comment], later.name ≠ post.name := by decide
  have stored : ∀ above, above ≠ [] → above <+: ["date"] →
      ofSegments above ∉ post.virtuals.keys := by
    intro above some front
    obtain ⟨name, rest, rfl⟩ := List.exists_cons_of_ne_nil some
    obtain ⟨rfl, behind⟩ := List.cons_prefix_cons.mp front
    cases List.prefix_nil.mp behind
    decide
  exact ⟨built, resolve_listed built declared last keyed (by decide) (by decide) leads stored⟩

end Config

end SelectionPlan
