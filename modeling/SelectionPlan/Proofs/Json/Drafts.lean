import SelectionPlan.Json.Draft
import Mathlib.Data.List.Nodup

/-!
# Drafts of values

A draft with nothing wrong in it stands for a value, and every value has a draft. If no object in a
draft repeats a key, none in its value does.
-/
namespace SelectionPlan.Json

/-! ### Values -/

/-- What every value has if arrays and objects have it from their parts. -/
@[elab_as_elim]
theorem byParts {motive : Json → Prop} (null : motive .null)
    (bool : ∀ value, motive (.bool value)) (number : ∀ value, motive (.number value))
    (string : ∀ value, motive (.string value))
    (array : ∀ items, (∀ item ∈ items, motive item) → motive (.array items))
    (object : ∀ members, (∀ member ∈ members, motive member.2) → motive (.object members)) :
    ∀ value, motive value
  | .null => null
  | .bool value => bool value
  | .number value => number value
  | .string value => string value
  | .array items =>
    array items fun item _ => byParts null bool number string array object item
  | .object members =>
    object members fun member _ => byParts null bool number string array object member.2
decreasing_by
  · have smaller := List.sizeOf_lt_of_mem ‹item ∈ items›
    rw [Json.array.sizeOf_spec]
    omega
  · have smaller := List.sizeOf_lt_of_mem ‹member ∈ members›
    rw [Json.object.sizeOf_spec]
    cases member
    simp only [Prod.mk.sizeOf_spec] at smaller ⊢
    omega

/-- No object in a value repeats a key. -/
inductive KeysDistinct : Json → Prop
  | null : KeysDistinct .null
  | bool (value : Bool) : KeysDistinct (.bool value)
  | number (value : Number) : KeysDistinct (.number value)
  | string (value : String) : KeysDistinct (.string value)
  | array {items : List Json} : (∀ item ∈ items, KeysDistinct item) → KeysDistinct (.array items)
  | object {members : List (String × Json)} : (members.map Prod.fst).Nodup →
    (∀ member ∈ members, KeysDistinct member.2) → KeysDistinct (.object members)

theorem bind_eq_ok {ε α β : Type} {first : Except ε α} {next : α → Except ε β} {last : β} :
    first >>= next = .ok last ↔ ∃ result, first = .ok result ∧ next result = .ok last := by
  cases first with
  | error => exact ⟨nofun, nofun⟩
  | ok result =>
    refine ⟨fun found => ⟨result, rfl, found⟩, ?_⟩
    rintro ⟨_, ⟨⟩, found⟩
    exact found

theorem map_eq_ok {ε α β : Type} {change : α → β} {first : Except ε α} {last : β} :
    change <$> first = .ok last ↔ ∃ result, first = .ok result ∧ change result = last := by
  rw [← bind_pure_comp, bind_eq_ok]
  exact exists_congr fun result => and_congr_right fun _ => ⟨Except.ok.inj, congrArg Except.ok⟩

theorem throw_ne_ok {ε α : Type} {reason : ε} {result : α} :
    (throw reason : Except ε α) ≠ .ok result :=
  nofun

namespace Draft

/-! ### What a draft stands for -/

section Complete

variable {draft : Draft} {items : Items} {members : Members}

/-- The form of a draft that a value can be completed from. -/
def Spells (draft : Draft) : Json → Prop
  | .null => ∃ after, draft = .null after
  | .bool value => ∃ after, draft = .bool value after
  | .number value => ∃ after, draft = .number value after
  | .string value => ∃ after, draft = .string value after
  | .array values => ∃ items text, draft = .array items text ∧ completeItems items = .ok values
  | .object values =>
    ∃ members text, draft = .object members text ∧ completeMembers members = .ok values

theorem spells_of_complete {value : Json} (whole : draft.complete = .ok value) :
    draft.Spells value := by
  cases draft with
  | null after | bool _ after | number _ after | string _ after =>
    cases whole
    exact ⟨after, rfl⟩
  | array items text =>
    obtain ⟨_, inside, ⟨⟩⟩ := bind_eq_ok.mp whole
    exact ⟨items, text, rfl, inside⟩
  | object members text =>
    obtain ⟨_, inside, ⟨⟩⟩ := bind_eq_ok.mp whole
    exact ⟨members, text, rfl, inside⟩
  | unusable | broken => cases whole

theorem completeItems_eq_nil (whole : completeItems items = .ok []) :
    ∃ after, items = .closed after := by
  cases items with
  | closed after => exact ⟨after, rfl⟩
  | item value rest =>
    obtain ⟨_, _, whole⟩ := bind_eq_ok.mp whole
    obtain ⟨_, _, other⟩ := bind_eq_ok.mp whole
    cases other
  | broken => cases whole

theorem completeItems_eq_cons {first : Json} {others : List Json}
    (whole : completeItems items = .ok (first :: others)) :
    ∃ value rest, items = .item value rest ∧ value.complete = .ok first ∧
      completeItems rest = .ok others := by
  cases items with
  | closed | broken => cases whole
  | item value rest =>
    obtain ⟨_, found, whole⟩ := bind_eq_ok.mp whole
    obtain ⟨_, behind, ⟨⟩⟩ := bind_eq_ok.mp whole
    exact ⟨value, rest, rfl, found, behind⟩

theorem completeMembers_eq_nil (whole : completeMembers members = .ok []) :
    ∃ after, members = .closed after := by
  cases members with
  | closed after => exact ⟨after, rfl⟩
  | member key after value rest =>
    obtain ⟨_, _, whole⟩ := bind_eq_ok.mp whole
    obtain ⟨_, _, other⟩ := bind_eq_ok.mp whole
    cases other
  | unusable | broken => cases whole

theorem completeMembers_eq_cons {key : String} {first : Json} {others : List (String × Json)}
    (whole : completeMembers members = .ok ((key, first) :: others)) :
    ∃ after value rest, members = .member key after value rest ∧ value.complete = .ok first ∧
      completeMembers rest = .ok others := by
  cases members with
  | closed | unusable | broken => cases whole
  | member key after value rest =>
    obtain ⟨_, found, whole⟩ := bind_eq_ok.mp whole
    obtain ⟨_, behind, ⟨⟩⟩ := bind_eq_ok.mp whole
    exact ⟨after, value, rest, rfl, found, behind⟩

end Complete

mutual

/-- A draft of a value, of no text in particular. -/
def ofJson : Json → Draft
  | .null => .null []
  | .bool value => .bool value []
  | .number value => .number value []
  | .string value => .string value []
  | .array items => .array (ofItems items) []
  | .object members => .object (ofMembers members) []

def ofItems : List Json → Items
  | [] => .closed []
  | item :: rest => .item (ofJson item) (ofItems rest)

def ofMembers : List (String × Json) → Members
  | [] => .closed []
  | (key, value) :: rest => .member key [] (ofJson value) (ofMembers rest)

end

mutual

theorem complete_ofJson (value : Json) : (ofJson value).complete = .ok value := by
  match value with
  | .null | .bool _ | .number _ | .string _ => rfl
  | .array items => rw [ofJson, complete, completeItems_ofItems items]; rfl
  | .object members => rw [ofJson, complete, completeMembers_ofMembers members]; rfl

theorem completeItems_ofItems (values : List Json) :
    completeItems (ofItems values) = .ok values := by
  match values with
  | [] => rfl
  | item :: rest =>
    rw [ofItems, completeItems, complete_ofJson item, completeItems_ofItems rest]
    rfl

theorem completeMembers_ofMembers (values : List (String × Json)) :
    completeMembers (ofMembers values) = .ok values := by
  match values with
  | [] => rfl
  | (key, value) :: rest =>
    rw [ofMembers, completeMembers, complete_ofJson value, completeMembers_ofMembers rest]
    rfl

end

/-! ### Keys -/

/-- The keys of an object as far as they can be read. -/
def names : Members → List String
  | .member key _ _ rest => key :: names rest
  | _ => []

mutual

/-- No object in a draft repeats a key, as far as the draft can be used. -/
def KeysDistinct : Draft → Prop
  | .array items _ => ItemsDistinct items
  | .object members _ => (names members).Nodup ∧ MembersDistinct members
  | _ => True

def ItemsDistinct : Items → Prop
  | .item value rest => KeysDistinct value ∧ ItemsDistinct rest
  | _ => True

def MembersDistinct : Members → Prop
  | .member _ _ value rest => KeysDistinct value ∧ MembersDistinct rest
  | _ => True

end

theorem names_of_completeMembers {members : Members} {values : List (String × Json)}
    (whole : completeMembers members = .ok values) : names members = values.map Prod.fst := by
  induction values generalizing members with
  | nil =>
    obtain ⟨after, rfl⟩ := completeMembers_eq_nil whole
    rfl
  | cons first others ih =>
    obtain ⟨key, first⟩ := first
    obtain ⟨after, value, rest, rfl, -, behind⟩ := completeMembers_eq_cons whole
    rw [names, ih behind]
    rfl

mutual

theorem KeysDistinct.complete {draft : Draft} {value : Json} (distinct : draft.KeysDistinct)
    (whole : draft.complete = .ok value) : value.KeysDistinct := by
  match draft with
  | .null _ => cases whole; exact .null
  | .bool value _ => cases whole; exact .bool value
  | .number value _ => cases whole; exact .number value
  | .string value _ => cases whole; exact .string value
  | .array items _ =>
    obtain ⟨values, inside, ⟨⟩⟩ := bind_eq_ok.mp whole
    rw [KeysDistinct] at distinct
    exact .array (distinct.complete inside)
  | .object members _ =>
    obtain ⟨values, inside, ⟨⟩⟩ := bind_eq_ok.mp whole
    rw [KeysDistinct, names_of_completeMembers inside] at distinct
    exact .object distinct.1 (distinct.2.complete inside)
  | .unusable _ _ | .broken _ => cases whole

theorem ItemsDistinct.complete {items : Items} {values : List Json}
    (distinct : ItemsDistinct items) (whole : completeItems items = .ok values) :
    ∀ value ∈ values, value.KeysDistinct := by
  match items with
  | .closed _ => cases whole; exact List.forall_mem_nil _
  | .item value rest =>
    obtain ⟨first, found, whole⟩ := bind_eq_ok.mp whole
    obtain ⟨others, behind, ⟨⟩⟩ := bind_eq_ok.mp whole
    rw [ItemsDistinct] at distinct
    exact List.forall_mem_cons.mpr ⟨distinct.1.complete found, distinct.2.complete behind⟩
  | .broken _ => cases whole

theorem MembersDistinct.complete {members : Members} {values : List (String × Json)}
    (distinct : MembersDistinct members) (whole : completeMembers members = .ok values) :
    ∀ member ∈ values, member.2.KeysDistinct := by
  match members with
  | .closed _ => cases whole; exact List.forall_mem_nil _
  | .member _ _ value rest =>
    obtain ⟨first, found, whole⟩ := bind_eq_ok.mp whole
    obtain ⟨others, behind, ⟨⟩⟩ := bind_eq_ok.mp whole
    rw [MembersDistinct] at distinct
    exact List.forall_mem_cons.mpr ⟨distinct.1.complete found, distinct.2.complete behind⟩
  | .unusable _ _ | .broken _ => cases whole

end

end Draft

end SelectionPlan.Json
