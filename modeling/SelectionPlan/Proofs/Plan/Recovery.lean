import SelectionPlan.Plan.Document
import SelectionPlan.Proofs.Path.Segments
import SelectionPlan.Proofs.Plan.Levels

/-!
# Plans read back from documents

A plan can be read back from its document. The paths that the plan itself selects stand one by one
in an array. Those that a relation selects stand in one string, from which they are found again as
long as none of them is empty or holds a space.
-/
namespace SelectionPlan

namespace DocumentValue

def asString? : DocumentValue → Option String
  | .string value => some value
  | _ => none

def asStrings? : DocumentValue → Option (List String)
  | .array items => items.mapM asString?
  | _ => none

theorem asStrings?_strings (values : List String) :
    asStrings? (.array (values.map .string)) = some values := by
  rw [asStrings?, List.mapM_map]
  induction values with
  | nil => rfl
  | cons value rest ih => rw [List.mapM_cons, ih]; rfl

end DocumentValue

namespace Plan

open DocumentValue (asString? asStrings?)

/-! ### Reading documents -/

/-- The paths in a string, between single spaces. The empty string holds none. -/
def words (text : String) : List String :=
  if text = "" then [] else Text.split ' ' text

mutual

def readRelations : DocumentValue → Option (List (String × Plan))
  | .array items => readItems items
  | _ => none

def readItems : List DocumentValue → Option (List (String × Plan))
  | [] => some []
  | .document entries :: rest => do
    let path ← (entries.lookup "path").bind asString?
    let select ← (entries.lookup "select").bind asString?
    let populate ← readPopulate entries
    let others ← readItems rest
    return (path, ⟨words select, populate⟩) :: others
  | _ => none

/-- The relations that a document holds under `populate`. -/
def readPopulate : List (String × DocumentValue) → Option (List (String × Plan))
  | [] => none
  | (name, value) :: rest => if name = "populate" then readRelations value else readPopulate rest

end

/-- Reads a plan from its document. -/
def ofDocument? (document : Document) : Option Plan := do
  let select ← (List.lookup "select" document).bind asStrings?
  let populate ← readPopulate document
  return ⟨select, populate⟩

/-! ### Reading what was written -/

/-- Paths that are found again in a string with spaces between them. -/
def Spaced (level : Plan) : Prop :=
  ∀ path ∈ level.select, path ≠ "" ∧ ' ' ∉ path.toList

/-- At whatever depth relations are followed, their paths are found again. -/
def Readable (plan : Plan) : Prop :=
  ∀ entry ∈ plan.populate, entry.2.EveryLevel Spaced

theorem Spaced.words_intercalate {level : Plan} (spaced : level.Spaced) :
    words (String.intercalate " " level.select) = level.select := by
  by_cases none : level.select = []
  · rw [none]
    rfl
  · have parts : Text.split ' ' (String.intercalate " " level.select) = level.select :=
      Text.split_intercalate none fun path member => (spaced path member).2
    have some : String.intercalate " " level.select ≠ "" := by
      -- The empty string has one part, and that part is empty.
      intro blank
      rw [blank] at parts
      have part : "" ∈ level.select := parts ▸ List.mem_singleton_self ""
      exact (spaced "" part).1 rfl
    rw [words, if_neg some, parts]

theorem relationDocuments_cons (path : String) (related : Plan) (rest : List (String × Plan)) :
    relationDocuments ((path, related) :: rest) =
      .document [("path", .string path), ("select", .string (String.intercalate " " related.select)),
        ("populate", .array (relationDocuments related.populate))] :: relationDocuments rest := by
  obtain ⟨select, populate⟩ := related
  rw [relationDocuments]

theorem readItems_cons {path : String} {related : Plan} (spaced : related.Spaced)
    (inner : readItems (relationDocuments related.populate) = some related.populate)
    {rest : List (String × Plan)} (behind : readItems (relationDocuments rest) = some rest) :
    readItems (relationDocuments ((path, related) :: rest)) = some ((path, related) :: rest) := by
  rw [relationDocuments_cons]
  -- Of the document only what its three keys give is used below.
  generalize written : [("path", DocumentValue.string path), _, _] = entries
  have named : (entries.lookup "path").bind asString? = some path := by
    rw [← written]
    rfl
  have joined : (entries.lookup "select").bind asString? =
      some (String.intercalate " " related.select) := by
    rw [← written]
    rfl
  have populate : readPopulate entries = some related.populate := by
    rw [← written]
    simpa [readPopulate, readRelations] using inner
  rw [readItems, named, joined, populate, behind]
  dsimp only [Option.bind_eq_bind, Option.bind_some, Option.pure_def]
  rw [spaced.words_intercalate]
  cases related
  rfl

theorem readItems_relationDocuments {relations : List (String × Plan)}
    (each : ∀ entry ∈ relations, entry.2.Spaced ∧
      readItems (relationDocuments entry.2.populate) = some entry.2.populate) :
    readItems (relationDocuments relations) = some relations := by
  induction relations with
  | nil => rw [relationDocuments, readItems]
  | cons entry rest ih =>
    obtain ⟨⟨spaced, inner⟩, others⟩ := List.forall_mem_cons.mp each
    exact readItems_cons spaced inner (ih others)

theorem EveryLevel.spaced {plan : Plan} (every : plan.EveryLevel Spaced) :
    plan.Spaced ∧ readItems (relationDocuments plan.populate) = some plan.populate := by
  induction every with
  | intro spaced _ ih =>
    exact ⟨spaced, readItems_relationDocuments fun entry member => ih entry.1 entry.2 member⟩

theorem Readable.ofDocument?_toDocument {plan : Plan} (readable : plan.Readable) :
    ofDocument? plan.toDocument = some plan := by
  have relations := readItems_relationDocuments fun entry member => (readable entry member).spaced
  have select : (List.lookup "select" plan.toDocument).bind asStrings? = some plan.select :=
    DocumentValue.asStrings?_strings plan.select
  have populate : readPopulate plan.toDocument = some plan.populate := by
    simpa [toDocument, readPopulate, readRelations] using relations
  rw [ofDocument?, select, populate]
  cases plan
  rfl

/-- A plan is found again in its document, if no relation at any depth selects an empty path or one
with a space in it. So such plans have the same document only if they are the same. -/
theorem document_determines_plan :
    (∀ plan : Plan, plan.Readable → ofDocument? plan.toDocument = some plan) ∧
      ∀ plan plan' : Plan, plan.Readable → plan'.Readable →
        plan.toDocument = plan'.toDocument → plan = plan' := by
  refine ⟨fun plan readable => readable.ofDocument?_toDocument, ?_⟩
  intro plan plan' readable readable' same
  have found := readable.ofDocument?_toDocument
  rw [same, readable'.ofDocument?_toDocument] at found
  exact (Option.some.inj found).symm

theorem document_determines_plan_post :
    let category : Plan := ⟨["name", "posts"], [("posts", ⟨["name"], [("author", .empty)]⟩)]⟩
    let plan : Plan := ⟨["", "a b", "category"], [("category", category), ("owner", .empty)]⟩
    plan.Readable ∧ ofDocument? plan.toDocument = some plan ∧
      ∀ plan' : Plan, plan'.Readable → plan.toDocument = plan'.toDocument → plan = plan' := by
  intro category plan
  have blank : EveryLevel Spaced .empty := .intro (by simp [Spaced, empty]) (by simp [empty])
  have posts : EveryLevel Spaced ⟨["name"], [("author", .empty)]⟩ := by
    refine .intro (by simp [Spaced]) ?_
    intro path related member
    obtain ⟨-, rfl⟩ : path = "author" ∧ related = .empty := by simpa using member
    exact blank
  have related : EveryLevel Spaced category := by
    refine .intro (by simp [Spaced, category]) ?_
    intro path related member
    obtain ⟨-, rfl⟩ := by simpa [category] using member
    exact posts
  have readable : plan.Readable := by
    intro entry member
    have cases : entry = ("category", category) ∨ entry = ("owner", .empty) := by
      simpa [plan] using member
    rcases cases with rfl | rfl
    · exact related
    · exact blank
  exact ⟨readable, document_determines_plan.1 plan readable,
    fun plan' readable' => document_determines_plan.2 plan plan' readable readable'⟩

/-- One empty path cannot be told from no path at all. -/
example : ofDocument? (toDocument ⟨[], [("a", .unit "")]⟩) = some ⟨[], [("a", .empty)]⟩ := by cbv

end Plan

end SelectionPlan
