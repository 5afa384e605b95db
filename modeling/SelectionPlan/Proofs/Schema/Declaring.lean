import SelectionPlan.Proofs.Repetition
import SelectionPlan.Proofs.Schema.Lookup
import Mathlib.Data.List.Nodup

/-!
# Declaring paths

What a schema has after paths were declared one after the other: every path once, at the place where
it was declared first, and with what it was declared to hold last.
-/
namespace SelectionPlan.Schema

/-- Declares paths with what they hold, one after the other. -/
def declareAll (schema : Schema) (entries : List (String × PathInfo)) : Schema :=
  entries.foldl (fun schema entry => schema.declare entry.1 (.stored entry.2)) schema

variable (schema : Schema) (path : String) (info : PathInfo)

theorem declareAll_append (front back : List (String × PathInfo)) :
    schema.declareAll (front ++ back) = (schema.declareAll front).declareAll back :=
  List.foldl_append

/-! ### One path -/

theorem path?_declare (other : String) :
    (schema.declare path (.stored info)).path? other =
      if path = other then some info else schema.path? other := by
  obtain ⟨paths, virtuals⟩ := schema
  simp only [declare, path?]
  induction paths with
  | nil => by_cases same : path = other <;> simp [declareIn, same]
  | cons entry rest ih =>
    obtain ⟨name, old⟩ := entry
    rw [declareIn]
    split
    next equal =>
      subst equal
      by_cases same : name = other <;> simp [same]
    next different =>
      by_cases found : name = other
      · subst found
        simp [Ne.symm different]
      · rw [List.find?_cons_of_neg (by simpa using found), ih,
          List.find?_cons_of_neg (by simpa using found)]

theorem pathNames_declare :
    (schema.declare path (.stored info)).pathNames =
      if path ∈ schema.pathNames then schema.pathNames else schema.pathNames ++ [path] := by
  obtain ⟨paths, virtuals⟩ := schema
  simp only [declare, pathNames]
  induction paths with
  | nil => rfl
  | cons entry rest ih =>
    obtain ⟨name, old⟩ := entry
    rw [declareIn]
    split
    next equal => simp [equal]
    next different =>
      rw [List.map_cons, ih]
      by_cases member : path ∈ rest.map Prod.fst
      · simp [member]
      · simp [member, Ne.symm different]

theorem pathNames_declare_eq_eraseDups (distinct : schema.pathNames.Nodup) :
    (schema.declare path (.stored info)).pathNames = (schema.pathNames ++ [path]).eraseDups := by
  rw [pathNames_declare]
  split
  next member => simp [List.eraseDups_append, List.removeAll, member, eraseDups_eq_self distinct]
  next absent =>
    refine (eraseDups_eq_self ?_).symm
    rw [List.nodup_append]
    refine ⟨distinct, List.nodup_singleton path, ?_⟩
    rintro other member _ added rfl
    exact absent (List.mem_singleton.mp added ▸ member)

/-! ### Several paths -/

/-- Each path keeps the place of its first declaration. -/
theorem pathNames_declareAll (distinct : schema.pathNames.Nodup)
    (entries : List (String × PathInfo)) :
    (schema.declareAll entries).pathNames =
      (schema.pathNames ++ entries.map Prod.fst).eraseDups := by
  induction entries generalizing schema with
  | nil => simp [declareAll, eraseDups_eq_self distinct]
  | cons entry rest ih =>
    have first := pathNames_declare_eq_eraseDups schema entry.1 entry.2 distinct
    have step := ih (schema.declare entry.1 (.stored entry.2)) (first ▸ nodup_eraseDups _)
    rw [first] at step
    have regroup : schema.pathNames ++ (entry :: rest).map Prod.fst =
        schema.pathNames ++ [entry.1] ++ rest.map Prod.fst := List.append_cons ..
    rw [regroup]
    exact step.trans (eraseDups_append_congr (eraseDups_eraseDups _) rfl)

/-- Each path holds what it was declared to hold last. -/
theorem path?_declareAll (entries : List (String × PathInfo)) :
    (schema.declareAll entries).path? path =
      (Dict.last? path entries).or (schema.path? path) := by
  induction entries generalizing schema with
  | nil => rfl
  | cons entry rest ih =>
    obtain ⟨name, info⟩ := entry
    have step := ih (schema.declare name (.stored info))
    rw [path?_declare] at step
    refine step.trans ?_
    rw [Dict.last?_cons, Option.or_assoc]
    split <;> rfl

theorem virtuals_declareAll (entries : List (String × PathInfo)) :
    (schema.declareAll entries).virtuals = schema.virtuals := by
  induction entries generalizing schema with
  | nil => rfl
  | cons entry rest ih => exact ih _

end SelectionPlan.Schema
