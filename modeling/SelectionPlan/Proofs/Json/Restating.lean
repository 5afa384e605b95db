import SelectionPlan.Json.Record
import SelectionPlan.Proofs.Json.Drafts
import Mathlib.Data.List.Forall2
import Mathlib.Data.List.Perm.Basic
import Mathlib.Logic.Relation

/-!
# Values restated

A record is written as an object whose members come in some order, and a `select` that is null may
as well be missing. A reader is steady if it goes by the names of members alone, and does not tell
such values apart. Lists are read steadily if their items are, and records if their fields are.
-/
namespace SelectionPlan.Json

variable {α : Type} {read : Json → Except Mismatch α} {result : α}

/-- One change to a value that concerns no record in it: the members of an object come in another
order, or a `select` that is null is left out. -/
inductive Restated : Json → Json → Prop
  | reordered {members members' : List (String × Json)} : members.Perm members' →
    Restated (.object members) (.object members')
  | leftOut {front back : List (String × Json)} :
    Restated (.object (front ++ ("select", .null) :: back)) (.object (front ++ back))
  | item {value value' : Json} {front back : List Json} : Restated value value' →
    Restated (.array (front ++ value :: back)) (.array (front ++ value' :: back))
  | member {key : String} {value value' : Json} {front back : List (String × Json)} :
    Restated value value' →
      Restated (.object (front ++ (key, value) :: back)) (.object (front ++ (key, value') :: back))

/-- A reader still reads a result from a value after the value has been restated. -/
def Steady (read : Json → Except Mismatch α) (result : α) : Prop :=
  ∀ value value', Restated value value' → read value = .ok result → read value' = .ok result

theorem Steady.part (steady : Steady read result) {value value' : Json}
    (change : Relation.ReflGen Restated value value') (found : read value = .ok result) :
    read value' = .ok result := by
  cases change with
  | refl => exact found
  | single restated => exact steady _ _ restated found

theorem Steady.run (steady : Steady read result) {value value' : Json}
    (changes : Relation.ReflTransGen Restated value value') (found : read value = .ok result) :
    read value' = .ok result := by
  induction changes with
  | refl => exact found
  | tail _ restated ih => exact steady _ _ restated ih

/-! ### Arrays -/

/-- Only one item of an array changes at a time. -/
theorem Restated.items {items : List Json} {value' : Json}
    (restated : Restated (.array items) value') :
    ∃ items', value' = .array items' ∧ List.Forall₂ (Relation.ReflGen Restated) items items' := by
  cases restated with
  | @item value value' front back inner =>
    have same (part : List Json) : List.Forall₂ (Relation.ReflGen Restated) part part :=
      List.forall₂_refl part
    exact ⟨_, rfl, List.rel_append (same front) (.cons (.single inner) (same back))⟩

/-- Reads an array item by item. -/
def asArray (read : Json → Except Mismatch α) : Json → Except Mismatch (List α)
  | .array items => items.mapM read
  | value => .error (.wrongType (found value) .sequence)

theorem asStrings_eq_asArray (value : Json) : asStrings value = asArray asString value := by
  cases value <;> rfl

theorem mapM_eq_ok_iff {items : List Json} {results : List α} :
    items.mapM read = .ok results ↔
      List.Forall₂ (fun item result => read item = .ok result) items results := by
  induction items generalizing results with
  | nil =>
    rw [List.mapM_nil, List.forall₂_nil_left_iff]
    exact ⟨fun same => (Except.ok.inj same).symm, fun same => same ▸ rfl⟩
  | cons item rest ih =>
    rw [List.mapM_cons, bind_eq_ok]
    constructor
    · rintro ⟨first, own, found⟩
      obtain ⟨others, behind, ⟨⟩⟩ := bind_eq_ok.mp found
      exact .cons own (ih.mp behind)
    · rintro (_ | ⟨own, behind⟩)
      exact ⟨_, own, bind_eq_ok.mpr ⟨_, ih.mpr behind, rfl⟩⟩

theorem asArray_eq_ok_iff {value : Json} {results : List α} :
    asArray read value = .ok results ↔ ∃ items, value = .array items ∧
      List.Forall₂ (fun item result => read item = .ok result) items results := by
  cases value with
  | array items =>
    rw [asArray, mapM_eq_ok_iff]
    exact ⟨fun found => ⟨items, rfl, found⟩, fun ⟨_, same, found⟩ => Json.array.inj same ▸ found⟩
  | null | bool | number | string | object => exact ⟨nofun, nofun⟩

/-- A list is read as it was written if each of its items is. -/
theorem asArray_map {write : α → Json} {results : List α}
    (each : ∀ result ∈ results, read (write result) = .ok result) :
    asArray read (.array (results.map write)) = .ok results := by
  rw [asArray_eq_ok_iff]
  refine ⟨_, rfl, ?_⟩
  rw [List.forall₂_map_left_iff, List.forall₂_same]
  exact each

theorem steady_asArray {results : List α} (each : ∀ result ∈ results, Steady read result) :
    Steady (asArray read) results := by
  intro value value' restated found
  obtain ⟨items, rfl, inside⟩ := asArray_eq_ok_iff.mp found
  obtain ⟨items', rfl, changes⟩ := restated.items
  refine asArray_eq_ok_iff.mpr ⟨items', rfl, ?_⟩
  clear found restated
  -- By the items that are read: the change concerns the first one or is among the others.
  induction inside generalizing items' with
  | nil =>
    cases changes
    exact .nil
  | cons own _ ih =>
    obtain ⟨first, others⟩ := List.forall_mem_cons.mp each
    obtain _ | ⟨change, changes⟩ := changes
    exact .cons (first.part change own) (ih others _ changes)

/-! ### Scalars -/

theorem steady_asString (result : String) : Steady asString result := by
  rintro _ _ restated found
  cases restated <;> cases found

theorem steady_asBool (result : Bool) : Steady asBool result := by
  rintro _ _ restated found
  cases restated <;> cases found

theorem steady_asStrings (results : List String) : Steady asStrings results := by
  rw [funext asStrings_eq_asArray]
  exact steady_asArray fun result _ => steady_asString result

theorem asStrings_strings (values : List String) :
    asStrings (.array (values.map .string)) = .ok values := by
  rw [asStrings_eq_asArray]
  exact asArray_map fun _ _ => rfl

/-! ### Members -/

/-- The values that stand under a name. -/
def valuesAt (name : String) (members : List (String × Json)) : List Json :=
  (members.filter fun member => member.1 == name).map Prod.snd

@[simp] theorem valuesAt_nil (name : String) : valuesAt name [] = [] := rfl

@[simp] theorem valuesAt_cons_self (name : String) (value : Json) (rest : List (String × Json)) :
    valuesAt name ((name, value) :: rest) = value :: valuesAt name rest := by
  simp [valuesAt]

theorem valuesAt_cons_of_ne {name key : String} (different : key ≠ name) (value : Json)
    (rest : List (String × Json)) : valuesAt name ((key, value) :: rest) = valuesAt name rest := by
  simp [valuesAt, different]

theorem valuesAt_append (name : String) (front back : List (String × Json)) :
    valuesAt name (front ++ back) = valuesAt name front ++ valuesAt name back := by
  simp [valuesAt]

theorem Restated.object {members : List (String × Json)} {value' : Json}
    (restated : Restated (.object members) value') : ∃ members', value' = .object members' := by
  cases restated <;> exact ⟨_, rfl⟩

/-- What one change makes of the values under a name. -/
theorem Restated.values {members members' : List (String × Json)}
    (restated : Restated (.object members) (.object members')) (name : String) :
    (valuesAt name members).Perm (valuesAt name members') ∨
      (∃ front back, name = "select" ∧ valuesAt name members = front ++ .null :: back ∧
        valuesAt name members' = front ++ back) ∨
      ∃ front back value value', Restated value value' ∧
        valuesAt name members = front ++ value :: back ∧
        valuesAt name members' = front ++ value' :: back := by
  cases restated with
  | reordered perm => exact .inl ((perm.filter _).map _)
  | @leftOut front back =>
    by_cases own : name = "select"
    · subst own
      exact .inr (.inl ⟨_, _, rfl, by rw [valuesAt_append, valuesAt_cons_self],
        valuesAt_append _ _ _⟩)
    · left
      rw [valuesAt_append, valuesAt_append, valuesAt_cons_of_ne (Ne.symm own)]
  | @member key value value' front back inner =>
    by_cases own : key = name
    · subst own
      exact .inr (.inr ⟨_, _, _, _, inner, by rw [valuesAt_append, valuesAt_cons_self],
        by rw [valuesAt_append, valuesAt_cons_self]⟩)
    · left
      rw [valuesAt_append, valuesAt_append, valuesAt_cons_of_ne own, valuesAt_cons_of_ne own]

theorem Restated.absent {members members' : List (String × Json)}
    (restated : Restated (.object members) (.object members')) {name : String}
    (absent : valuesAt name members = []) : valuesAt name members' = [] := by
  rcases restated.values name with perm | ⟨_, _, -, found, -⟩ | ⟨_, _, _, _, -, found, -⟩
  · exact List.nil_perm.mp (absent ▸ perm)
  all_goals simp [absent] at found

private theorem eq_of_singleton {value other : Json} {front back : List Json}
    (same : front ++ other :: back = [value]) : front = [] ∧ other = value ∧ back = [] := by
  rcases List.append_eq_singleton_iff.mp same with ⟨rfl, same⟩ | ⟨-, none⟩
  · simpa using same
  · cases none

theorem Restated.alone {members members' : List (String × Json)}
    (restated : Restated (.object members) (.object members')) {name : String} {value : Json}
    (alone : valuesAt name members = [value]) :
    (∃ value', Relation.ReflGen Restated value value' ∧ valuesAt name members' = [value']) ∨
      (name = "select" ∧ value = .null ∧ valuesAt name members' = []) := by
  rcases restated.values name with
    perm | ⟨front, back, own, found, left⟩ | ⟨front, back, old, value', inner, found, left⟩
  · exact .inl ⟨value, .refl, List.perm_singleton.mp (alone ▸ perm.symm)⟩
  · obtain ⟨rfl, rfl, rfl⟩ := eq_of_singleton (found.symm.trans alone)
    exact .inr ⟨own, rfl, left⟩
  · obtain ⟨rfl, rfl, rfl⟩ := eq_of_singleton (found.symm.trans alone)
    exact .inl ⟨value', .single inner, left⟩

/-- One value stands under a name, and it is read as a result. -/
def Has (name : String) (read : Json → Except Mismatch α) (members : List (String × Json))
    (result : α) : Prop :=
  ∃ value, valuesAt name members = [value] ∧ read value = .ok result

theorem Steady.has (steady : Steady read result) {members members' : List (String × Json)}
    (restated : Restated (.object members) (.object members')) {name : String}
    (needed : name ≠ "select" ∨ read .null ≠ .ok result) (has : Has name read members result) :
    Has name read members' result := by
  obtain ⟨value, alone, found⟩ := has
  rcases restated.alone alone with ⟨value', change, alone'⟩ | ⟨own, rfl, -⟩
  · exact ⟨value', alone', steady.part change found⟩
  · exact absurd found (needed.resolve_left (not_not_intro own))

/-! ### Reading members one after the other -/

/-- What is known of a field after the values under its name is what is wanted, when `slot` was
known before. -/
def Fills (read : Json → Except Mismatch α) (wanted : Option α → Prop) : Option α → List Json → Prop
  | slot, [] => wanted slot
  | slot, value :: rest =>
    slot = none ∧ ∃ result, read value = .ok result ∧ Fills read wanted (some result) rest

/-- A field may stand there once. -/
theorem fills_none_iff {wanted : Option α → Prop} {values : List Json} :
    Fills read wanted none values ↔ values = [] ∧ wanted none ∨
      ∃ value result, values = [value] ∧ read value = .ok result ∧ wanted (some result) := by
  rcases values with _ | ⟨value, _ | ⟨other, rest⟩⟩
  · simp [Fills]
  · simp [Fills]
  · simp [Fills]

theorem fills_eq_some_iff {name : String} {members : List (String × Json)} :
    Fills read (· = some result) none (valuesAt name members) ↔ Has name read members result := by
  simp [fills_none_iff, Has]

theorem required_eq_ok_iff {name : String} {slot : Option α} :
    required name slot = .ok result ↔ slot = some result := by
  cases slot with
  | none => exact ⟨nofun, nofun⟩
  | some value => simp [required]

/-- A field is stored if it was not seen before and its value can be read. The values that are left
then fill it as they would have filled it after the first one. -/
theorem stored_eq_ok_iff {β : Type} {name : String} {wanted : Option α → Prop} {slot : Option α}
    {value : Json} {values : List Json} {next : α → Except Mismatch β} {record : β} {others : Prop}
    (behind : ∀ result,
      next result = .ok record ↔ Fills read wanted (some result) values ∧ others) :
    (do unseen name slot; next (← read value)) = .ok record ↔
      Fills read wanted slot (value :: values) ∧ others := by
  cases slot with
  | some old => exact ⟨nofun, fun filled => nomatch filled.1.1⟩
  | none =>
    change read value >>= next = .ok record ↔ _
    rw [bind_eq_ok, Fills]
    constructor
    · rintro ⟨result, own, found⟩
      obtain ⟨filled, rest⟩ := (behind result).mp found
      exact ⟨⟨rfl, result, own, filled⟩, rest⟩
    · rintro ⟨⟨-, result, own, filled⟩, rest⟩
      exact ⟨result, own, (behind result).mpr ⟨filled, rest⟩⟩

end SelectionPlan.Json
