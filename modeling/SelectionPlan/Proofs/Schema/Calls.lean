import Mathlib.Data.Finset.Card
import SelectionPlan.Proofs.Schema.Declaring
import SelectionPlan.Resolve

/-!
# Schemas after any declarations

A schema is declared call by call, in any order and with any repetitions. Whatever the calls are, it
holds each stored path once, at the place of its first declaration and with the last one, and each
virtual relation with its last target. Stored paths and virtual relations do not touch each other.
The same is true when a schema is kept in three containers that have to be changed together.
-/
namespace SelectionPlan.Schema

/-! ### Calls -/

/-- A call that declares something of a schema. -/
inductive Call where
  | scalar (path : String)
  | embedded (path : String) (sub : Schema)
  | reference (path model : String)
  | virtualRef (name model : String)
  | declare (path : String) (declaration : Declaration)
  | idKey
  | documentKeys

def Call.apply (schema : Schema) : Call → Schema
  | .scalar path => schema.scalar path
  | .embedded path sub => schema.embedded path sub
  | .reference path model => schema.reference path model
  | .virtualRef name model => schema.virtualRef name model
  | .declare path declaration => schema.declare path declaration
  | .idKey => schema.idKey
  | .documentKeys => schema.documentKeys

/-- What a call declares, in order. -/
def Call.declarations : Call → List (String × Declaration)
  | .scalar path => [(path, .stored .scalar)]
  | .embedded path sub => [(path, .stored (.embedded sub))]
  | .reference path model => [(path, .stored (.reference model))]
  | .virtualRef name model => [(name, .virtual model)]
  | .declare path declaration => [(path, declaration)]
  | .idKey => [("_id", .stored .scalar)]
  | .documentKeys => [("_id", .stored .scalar), ("__v", .stored .scalar)]

/-- The schema after calls, one after the other. -/
def ofCalls (calls : List Call) : Schema :=
  calls.foldl Call.apply empty

/-- Everything that calls declare, in order. -/
def declared (calls : List Call) : List (String × Declaration) :=
  calls.flatMap Call.declarations

/-! ### What is declared -/

/-- The stored paths among declarations, with what they hold. -/
def storedIn (declarations : List (String × Declaration)) : List (String × PathInfo) :=
  declarations.filterMap fun entry =>
    match entry.2 with
    | .stored info => some (entry.1, info)
    | .virtual _ => none

/-- The virtual relations among declarations, with their targets. -/
def virtualIn (declarations : List (String × Declaration)) : List (String × String) :=
  declarations.filterMap fun entry =>
    match entry.2 with
    | .stored _ => none
    | .virtual model => some (entry.1, model)

/-- The schema holds what was declared. -/
structure Holds (schema : Schema) (declarations : List (String × Declaration)) : Prop where
  /-- The stored paths are those of the stored declarations alone. -/
  stored : schema.paths = (empty.declareAll (storedIn declarations)).paths
  /-- The virtual relations are those of the virtual declarations alone. -/
  virtuals : schema.virtuals = Dict.ofList (virtualIn declarations)
  /-- Each stored path is listed once, in the order of the first declarations. -/
  order : schema.pathNames = ((storedIn declarations).map Prod.fst).eraseDups
  distinct : schema.pathNames.Nodup
  /-- Exactly the stored paths are found. -/
  found : ∀ path, (schema.path? path).isSome ↔ path ∈ (storedIn declarations).map Prod.fst
  /-- Each stored path holds what was declared last. -/
  info : ∀ path, schema.path? path = Dict.last? path (storedIn declarations)
  /-- Each virtual relation has the target that was declared last. -/
  target : ∀ name, schema.virtual? name = Dict.last? name (virtualIn declarations)
  size : schema.size = ((storedIn declarations).map Prod.fst).toFinset.card

/-- Declares paths and virtual relations, one after the other. -/
def declareEach (schema : Schema) (declarations : List (String × Declaration)) : Schema :=
  declarations.foldl (fun schema entry => schema.declare entry.1 entry.2) schema

theorem apply_eq_declareEach (schema : Schema) (call : Call) :
    call.apply schema = schema.declareEach call.declarations := by
  cases call <;> rfl

theorem declareEach_append (schema : Schema) (front back : List (String × Declaration)) :
    schema.declareEach (front ++ back) = (schema.declareEach front).declareEach back :=
  List.foldl_append

theorem foldl_apply (schema : Schema) (calls : List Call) :
    calls.foldl Call.apply schema = schema.declareEach (declared calls) := by
  induction calls generalizing schema with
  | nil => rfl
  | cons call rest ih =>
    have cut : declared (call :: rest) = call.declarations ++ declared rest := List.flatMap_cons
    rw [List.foldl_cons, ih, apply_eq_declareEach, cut, declareEach_append]

theorem ofCalls_eq (calls : List Call) : ofCalls calls = empty.declareEach (declared calls) :=
  foldl_apply empty calls

/-! ### Stored paths and virtual relations -/

section Declarations

variable (schema : Schema) (declarations : List (String × Declaration))

theorem paths_declareAll_congr {schema other : Schema} (same : schema.paths = other.paths)
    (entries : List (String × PathInfo)) :
    (schema.declareAll entries).paths = (other.declareAll entries).paths := by
  induction entries generalizing schema other with
  | nil => exact same
  | cons entry rest ih => exact ih (congrArg (declareIn entry.1 entry.2) same)

theorem paths_declareEach :
    (schema.declareEach declarations).paths = (schema.declareAll (storedIn declarations)).paths := by
  induction declarations generalizing schema with
  | nil => rfl
  | cons entry rest ih =>
    obtain ⟨name, declaration⟩ := entry
    refine (ih _).trans ?_
    cases declaration with
    | stored info => rfl
    | virtual model =>
      -- A virtual relation leaves the stored paths as they are.
      have same : (schema.declare name (.virtual model)).paths = schema.paths := rfl
      exact paths_declareAll_congr same (storedIn rest)

theorem virtuals_declareEach :
    (schema.declareEach declarations).virtuals =
      schema.virtuals.insertAll (virtualIn declarations) := by
  induction declarations generalizing schema with
  | nil => rfl
  | cons entry rest ih =>
    obtain ⟨name, declaration⟩ := entry
    refine (ih _).trans ?_
    cases declaration <;> rfl

theorem holds_declareEach : (empty.declareEach declarations).Holds declarations := by
  have stored := paths_declareEach empty declarations
  have virtuals := virtuals_declareEach empty declarations
  have order : (empty.declareEach declarations).pathNames =
      ((storedIn declarations).map Prod.fst).eraseDups := by
    rw [pathNames, stored]
    exact pathNames_declareAll empty List.nodup_nil _
  have distinct := order ▸ nodup_eraseDups ((storedIn declarations).map Prod.fst)
  have info : ∀ path, (empty.declareEach declarations).path? path =
      Dict.last? path (storedIn declarations) := by
    intro path
    rw [path?, stored]
    exact (path?_declareAll empty path _).trans (Option.or_none ..)
  refine { stored, virtuals, order, distinct, info, found := ?_, target := ?_, size := ?_ }
  · intro path
    rw [info, Option.isSome_iff_ne_none, Ne, Dict.last?_eq_none_iff, not_not]
  · intro name
    rw [virtual?, virtuals, Dict.get?_insertAll]
    exact Option.or_none ..
  · have names : (empty.declareEach declarations).pathNames.toFinset =
        ((storedIn declarations).map Prod.fst).toFinset := by
      ext path
      rw [order, List.mem_toFinset, List.mem_toFinset, List.mem_eraseDups]
    rw [← names, List.toFinset_card_of_nodup distinct, pathNames, List.length_map, size]

end Declarations

/-! ### Three containers -/

/-- A schema in three containers: the stored paths in order, what was declared under each of them,
and the virtual relations. The containers hold declarations of any kind. -/
structure Containers where
  order : List String
  paths : Dict Declaration
  virtuals : Dict Declaration

namespace Containers

def empty : Containers := ⟨[], [], []⟩

/-- Declares a path. The order is extended only by a path that is new. -/
def declare (containers : Containers) (path : String) : Declaration → Containers
  | .virtual model =>
    { containers with virtuals := containers.virtuals.insert path (.virtual model) }
  | .stored info =>
    { containers with
      order :=
        if (containers.paths.get? path).isSome then containers.order else containers.order ++ [path]
      paths := containers.paths.insert path (.stored info) }

/-- The containers after calls, one after the other. -/
def ofCalls (calls : List Call) : Containers :=
  (declared calls).foldl (fun containers entry => containers.declare entry.1 entry.2) empty

def virtual? (containers : Containers) (name : String) : Option String :=
  match containers.virtuals.get? name with
  | some (.virtual model) => some model
  | _ => none

/-- Classifies a path. A virtual relation among the stored paths would be a relation as well. -/
def role (containers : Containers) (path : String) : Role :=
  match containers.virtual? path with
  | some model => .relation model
  | none =>
    match containers.paths.get? path with
    | some (.stored (.reference model)) => .relation model
    | some (.virtual model) => .relation model
    | some (.stored (.embedded sub)) => .embedded sub
    | some (.stored .scalar) => .leaf
    | none => .object

/-- The containers hold what the schema holds. -/
structure Mirrors (containers : Containers) (schema : Schema) : Prop where
  order : containers.order = schema.pathNames
  paths : ∀ path, containers.paths.get? path = (schema.path? path).map .stored
  virtuals : ∀ name, containers.virtuals.get? name = (schema.virtual? name).map .virtual

namespace Mirrors

variable {containers : Containers} {schema : Schema}

theorem declare (mirrors : containers.Mirrors schema) (path : String) (declaration : Declaration) :
    (containers.declare path declaration).Mirrors (schema.declare path declaration) := by
  cases declaration with
  | stored info =>
    refine ⟨?_, ?_, mirrors.virtuals⟩
    · have known : (containers.paths.get? path).isSome ↔ path ∈ schema.pathNames := by
        rw [mirrors.paths, Option.isSome_map, Option.isSome_iff_ne_none, Ne, path?_eq_none_iff,
          not_not]
      rw [pathNames_declare, Containers.declare]
      simp only [known, mirrors.order]
    · intro other
      rw [path?_declare, Containers.declare, Dict.get?_insert, mirrors.paths]
      split <;> rfl
  | virtual model =>
    refine ⟨mirrors.order, mirrors.paths, ?_⟩
    intro other
    have found : (schema.declare path (.virtual model)).virtual? other =
        if path = other then some model else schema.virtual? other := Dict.get?_insert ..
    rw [found, Containers.declare, Dict.get?_insert, mirrors.virtuals]
    split <;> rfl

theorem declareEach (mirrors : containers.Mirrors schema)
    (declarations : List (String × Declaration)) :
    (declarations.foldl (fun containers entry => containers.declare entry.1 entry.2)
      containers).Mirrors (schema.declareEach declarations) := by
  induction declarations generalizing containers schema with
  | nil => exact mirrors
  | cons entry rest ih => exact ih (mirrors.declare entry.1 entry.2)

theorem ofCalls (calls : List Call) :
    (Containers.ofCalls calls).Mirrors (Schema.ofCalls calls) := by
  have start : Containers.empty.Mirrors Schema.empty := ⟨rfl, fun _ => rfl, fun _ => rfl⟩
  rw [ofCalls_eq]
  exact start.declareEach (declared calls)

/-- No virtual relation is among the stored paths. -/
theorem ne_virtual (mirrors : containers.Mirrors schema) (path model : String) :
    containers.paths.get? path ≠ some (.virtual model) := by
  rw [mirrors.paths]
  cases schema.path? path <;> simp

theorem virtual?_eq (mirrors : containers.Mirrors schema) (name : String) :
    containers.virtual? name = schema.virtual? name := by
  rw [Containers.virtual?, mirrors.virtuals]
  cases schema.virtual? name <;> rfl

theorem role_eq (mirrors : containers.Mirrors schema) (path : String) :
    containers.role path = schema.role path := by
  rw [role, Schema.role, mirrors.virtual?_eq, mirrors.paths]
  cases schema.virtual? path with
  | some model => rfl
  | none =>
    cases schema.path? path with
    | none => rfl
    | some info => cases info <;> rfl

end Mirrors

end Containers

/-- Whatever calls declare a schema, it holds what they declared. Kept in three containers it is the
same schema, and the case that a stored path is a virtual relation never arises. -/
theorem ofCalls_holds (calls : List Call) :
    (ofCalls calls).Holds (declared calls) ∧
      (Containers.ofCalls calls).Mirrors (ofCalls calls) ∧
      (∀ path model, (Containers.ofCalls calls).paths.get? path ≠ some (.virtual model)) ∧
      ∀ path, (Containers.ofCalls calls).role path = (ofCalls calls).role path := by
  have mirrors := Containers.Mirrors.ofCalls calls
  refine ⟨?_, mirrors, mirrors.ne_virtual, mirrors.role_eq⟩
  rw [ofCalls_eq]
  exact holds_declareEach (declared calls)

/-- A path that is declared again keeps its place, beside a virtual relation of its name. -/
example :
    ofCalls [.scalar "a", .documentKeys, .virtualRef "a" "User", .reference "a" "Post"] =
      ⟨[("a", .reference "Post"), ("_id", .scalar), ("__v", .scalar)], [("a", "User")]⟩ := rfl

end SelectionPlan.Schema
