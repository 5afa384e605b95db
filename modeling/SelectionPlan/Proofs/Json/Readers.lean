import SelectionPlan.Json.Draft.Record
import SelectionPlan.Json.Parser
import SelectionPlan.Proofs.Json.Drafts

/-!
# Readers of drafts

What holds of the defaults of a record and is kept by every field holds of all records that are
read. A reader that gives the same result for all drafts of a value reads the value, whatever text
it was written in; a list or a map is read part by part, and a record field by field.
-/
namespace SelectionPlan.Json.Draft

variable {α : Type} {shape : RecordShape} {readField : String → Draft → α → Except Fault α}
  {read : Draft → Except Fault α}

/-! ### What every result has -/

/-- What is read from something without repeated keys has a property. -/
def Ensures (read : Draft → Except Fault α) (property : α → Prop) : Prop :=
  ∀ {draft : Draft} {result : α}, draft.KeysDistinct → read draft = .ok result → property result

/-- Reading a field from something without repeated keys keeps a property. -/
def Keeps (readField : String → Draft → α → Except Fault α) (property : α → Prop) : Prop :=
  ∀ {name : String} {draft : Draft} {value next : α}, draft.KeysDistinct → property value →
    readField name draft value = .ok next → property next

section Ensures

variable {property : α → Prop}

theorem Ensures.items (ensures : Ensures read property) {items : Items} {results : List α}
    (distinct : ItemsDistinct items) (found : Draft.items read items = .ok results) :
    ∀ result ∈ results, property result := by
  match items with
  | .closed _ =>
    cases found
    exact List.forall_mem_nil _
  | .item part rest =>
    rw [ItemsDistinct] at distinct
    obtain ⟨first, own, found⟩ := bind_eq_ok.mp found
    obtain ⟨others, behind, ⟨⟩⟩ := bind_eq_ok.mp found
    exact List.forall_mem_cons.mpr ⟨ensures distinct.1 own, ensures.items distinct.2 behind⟩
  | .broken _ => cases found

theorem Ensures.members (ensures : Ensures read property) {members : Members}
    {results : List (String × α)} (distinct : MembersDistinct members)
    (found : Draft.members read members = .ok results) :
    ∀ result ∈ results, property result.2 := by
  match members with
  | .closed _ =>
    cases found
    exact List.forall_mem_nil _
  | .member _ _ part rest =>
    rw [MembersDistinct] at distinct
    obtain ⟨first, own, found⟩ := bind_eq_ok.mp found
    obtain ⟨others, behind, ⟨⟩⟩ := bind_eq_ok.mp found
    exact List.forall_mem_cons.mpr ⟨ensures distinct.1 own, ensures.members distinct.2 behind⟩
  | .unusable _ _ | .broken _ => cases found

theorem Ensures.asList (ensures : Ensures read property) :
    Ensures (asList read) (∀ result ∈ ·, property result) := by
  intro draft results distinct found
  cases draft with
  | array items text => exact ensures.items distinct found
  | null | bool | number | string | object | unusable | broken => cases found

theorem Ensures.asMap (ensures : Ensures read property) :
    Ensures (asMap read) (∀ result ∈ ·, property result.2) := by
  intro draft results distinct found
  cases draft with
  | object members text =>
    rw [KeysDistinct] at distinct
    exact ensures.members distinct.2 found
  | null | bool | number | string | array | unusable | broken => cases found

theorem Keeps.recordMembers (keeps : Keeps readField property) {members : Members} {value : α}
    {seen : List String} {result : List String × α × List Char}
    (distinct : MembersDistinct members) (start : property value)
    (found : recordMembers shape readField seen value members = .ok result) :
    property result.2.1 := by
  match members with
  | .closed _ =>
    cases found
    exact start
  | .unusable _ _ | .broken _ => cases found
  | .member key after draft rest =>
    rw [MembersDistinct] at distinct
    rw [Draft.recordMembers] at found
    split at found
    next =>
      split at found
      next => cases found
      next =>
        obtain ⟨next, own, found⟩ := bind_eq_ok.mp found
        exact keeps.recordMembers distinct.2 (keeps distinct.1 start own) found
    next =>
      split at found
      next => cases found
      next =>
        obtain ⟨_, _, found⟩ := bind_eq_ok.mp found
        exact keeps.recordMembers distinct.2 start found

theorem Keeps.recordItems (keeps : Keeps readField property) {fields : List (String × Bool)}
    {count : Nat} {items : Items} {value last : α} (distinct : ItemsDistinct items)
    (start : property value)
    (found : recordItems shape readField fields count value items = .ok last) : property last := by
  induction fields generalizing count value items with
  | nil =>
    cases items with
    | closed after =>
      cases found
      exact start
    | item | broken => cases found
  | cons field fields ih =>
    cases items with
    | closed after =>
      rw [Draft.recordItems] at found
      split at found
      -- Fields that are left out keep their defaults.
      next => exact ih distinct start found
      next => cases found
    | item draft rest =>
      rw [ItemsDistinct] at distinct
      obtain ⟨next, own, found⟩ := bind_eq_ok.mp found
      exact ih distinct.2 (keeps distinct.1 start own) found
    | broken => cases found

theorem Keeps.record {defaults : α} (keeps : Keeps readField property)
    (start : property defaults) : Ensures (record shape readField defaults) property := by
  intro draft last distinct found
  cases draft with
  | object members text =>
    rw [KeysDistinct] at distinct
    obtain ⟨⟨seen, result, after⟩, inside, found⟩ := bind_eq_ok.mp found
    dsimp only at found
    split at found
    next => cases found
    next =>
      cases found
      exact keeps.recordMembers distinct.2 start inside
  | array items text => exact keeps.recordItems distinct start found
  | null | bool | number | string | unusable | broken => cases found

end Ensures

/-! ### What is read -/

/-- What a reader makes of a value, whatever the value was written in. -/
def Reads (read : Draft → Except Fault α) (value : Json) (result : α) : Prop :=
  ∀ draft : Draft, draft.complete = .ok value → read draft = .ok result

theorem reads_asString (value : String) : Reads asString (.string value) value := by
  intro draft whole
  obtain ⟨after, rfl⟩ := spells_of_complete whole
  rfl

theorem reads_asBool (value : Bool) : Reads asBool (.bool value) value := by
  intro draft whole
  obtain ⟨after, rfl⟩ := spells_of_complete whole
  rfl

theorem items_eq_ok {write : α → Json} {results : List α}
    (each : ∀ result ∈ results, Reads read (write result) result) {items : Items}
    (whole : completeItems items = .ok (results.map write)) :
    Draft.items read items = .ok results := by
  induction results generalizing items with
  | nil =>
    obtain ⟨after, rfl⟩ := completeItems_eq_nil whole
    rfl
  | cons first others ih =>
    obtain ⟨value, rest, rfl, whole, behind⟩ := completeItems_eq_cons whole
    obtain ⟨own, each⟩ := List.forall_mem_cons.mp each
    rw [Draft.items, own value whole, ih each behind]
    rfl

theorem members_eq_ok {write : α → Json} {results : List (String × α)}
    (each : ∀ result ∈ results, Reads read (write result.2) result.2) {members : Members}
    (whole : completeMembers members = .ok (results.map fun result => (result.1, write result.2))) :
    Draft.members read members = .ok results := by
  induction results generalizing members with
  | nil =>
    obtain ⟨after, rfl⟩ := completeMembers_eq_nil whole
    rfl
  | cons first others ih =>
    obtain ⟨after, draft, rest, rfl, whole, behind⟩ := completeMembers_eq_cons whole
    obtain ⟨own, each⟩ := List.forall_mem_cons.mp each
    rw [Draft.members, own draft whole, ih each behind]
    rfl

/-- A list is read as it was written if each of its items is. -/
theorem reads_list {write : α → Json} {results : List α}
    (each : ∀ result ∈ results, Reads read (write result) result) :
    Reads (asList read) (.array (results.map write)) results := by
  intro draft whole
  obtain ⟨items, text, rfl, inside⟩ := spells_of_complete whole
  exact items_eq_ok each inside

/-- A map is read as it was written if the values of its entries are. -/
theorem reads_map {write : α → Json} {results : List (String × α)}
    (each : ∀ result ∈ results, Reads read (write result.2) result.2) :
    Reads (asMap read) (.object (results.map fun result => (result.1, write result.2)))
      results := by
  intro draft whole
  obtain ⟨members, text, rfl, inside⟩ := spells_of_complete whole
  exact members_eq_ok each inside

/-- Every member changes the record in its own way, whatever it was written in. -/
inductive Fills (readField : String → Draft → α → Except Fault α) :
    α → List (String × Json) → α → Prop
  | nil {value : α} : Fills readField value [] value
  | cons {value next last : α} {name : String} {json : Json} {rest : List (String × Json)} :
    Reads (readField name · value) json next → Fills readField next rest last →
      Fills readField value ((name, json) :: rest) last

theorem recordMembers_eq_ok {values : List (String × Json)} {value last : α}
    (fills : Fills readField value values last)
    (known : ∀ name ∈ values.map Prod.fst, shape.has name)
    (distinct : (values.map Prod.fst).Nodup) {seen : List String}
    (new : ∀ name ∈ values.map Prod.fst, name ∉ seen) {members : Members}
    (whole : completeMembers members = .ok values) :
    ∃ after, recordMembers shape readField seen value members =
      .ok ((values.map Prod.fst).reverse ++ seen, last, after) := by
  induction fills generalizing seen members with
  | nil =>
    obtain ⟨after, rfl⟩ := completeMembers_eq_nil whole
    exact ⟨after, rfl⟩
  | @cons value next last name _ rest reads _ ih =>
    obtain ⟨_, draft, members, rfl, whole, behind⟩ := completeMembers_eq_cons whole
    obtain ⟨own, known⟩ := List.forall_mem_cons.mp known
    obtain ⟨once, distinct⟩ := List.nodup_cons.mp distinct
    obtain ⟨first, new⟩ := List.forall_mem_cons.mp new
    -- What was read just now does not come again.
    have new' : ∀ other ∈ rest.map Prod.fst, other ∉ name :: seen := by
      intro other member stored
      rcases List.mem_cons.mp stored with rfl | stored
      · exact once member
      · exact new other member stored
    obtain ⟨after, found⟩ := ih known distinct new' behind
    have changed : readField name draft value = .ok next := reads draft whole
    refine ⟨after, ?_⟩
    rw [recordMembers, if_pos own, if_neg (mt List.contains_iff_mem.mp first), changed,
      List.map_cons, List.reverse_cons, List.append_assoc]
    exact found

theorem reads_record {values : List (String × Json)} {defaults last : α}
    (fills : Fills readField defaults values last)
    (written : values.map Prod.fst = shape.fields.map Prod.fst)
    (distinct : (shape.fields.map Prod.fst).Nodup) :
    Reads (record shape readField defaults) (.object values) last := by
  intro draft whole
  obtain ⟨members, text, rfl, inside⟩ := spells_of_complete whole
  have known : ∀ name ∈ values.map Prod.fst, shape.has name := by
    intro name member
    rw [written] at member
    obtain ⟨field, own, rfl⟩ := List.mem_map.mp member
    exact List.any_eq_true.mpr ⟨field, own, beq_self_eq_true _⟩
  have new : ∀ name ∈ values.map Prod.fst, name ∉ [] := fun _ _ => List.not_mem_nil
  obtain ⟨after, found⟩ := recordMembers_eq_ok fills known (written ▸ distinct) new inside
  have full : shape.missing? ((values.map Prod.fst).reverse ++ []) = none := by
    rw [RecordShape.missing?, Option.map_eq_none_iff, List.find?_eq_none]
    intro field member
    have seen : field.1 ∈ (values.map Prod.fst).reverse ++ [] := by
      rw [List.append_nil, List.mem_reverse, written]
      exact List.mem_map_of_mem member
    rw [List.contains_iff_mem.mpr seen, Bool.not_true, Bool.and_false]
    exact Bool.false_ne_true
  rw [record, found]
  dsimp only [bind, Except.bind]
  rw [full]
  rfl

/-! ### Texts -/

theorem decodeText_eq_ok_iff {room : Nat} {text : String} {result : α} :
    decodeText room read text = .ok result ↔
      read (ofText room text).1 = .ok result ∧ (ofText room text).2 = none := by
  rw [decodeText]
  dsimp only
  constructor
  · intro found
    obtain ⟨result', found, last⟩ := bind_eq_ok.mp found
    split at last
    next behind =>
      cases last
      exact ⟨found, behind⟩
    next => cases last
  · rintro ⟨found, behind⟩
    rw [found, behind]
    rfl

/-- What reads a value reads every text that says no more than the value. -/
theorem Reads.decodeText {value : Json} {result : α} (reads : Reads read value result) {room : Nat}
    {text : String} (whole : Draft.decodeText room complete text = .ok value) :
    Draft.decodeText room read text = .ok result := by
  obtain ⟨whole, behind⟩ := decodeText_eq_ok_iff.mp whole
  exact decodeText_eq_ok_iff.mpr ⟨reads _ whole, behind⟩

end SelectionPlan.Json.Draft
