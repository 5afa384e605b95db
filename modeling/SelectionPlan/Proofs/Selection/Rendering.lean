import SelectionPlan.Proofs.Selection.Depth
import Mathlib.Data.List.Forall2

/-!
# Canonical texts of selections

Every selection that some text stands for has a canonical text: its fields in order without any gap,
and `...` behind them. The selections that have no text are those with a body that asks for nothing,
with a name that cannot be written, or with too many bodies inside of each other.
-/
namespace SelectionPlan.Selection

mutual

/-- The fields of a body, and `...` behind them if the body wants everything, joined by commas. -/
def render : Selection → String
  | ⟨all, fields⟩ => String.intercalate "," (renderFields fields ++ if all then ["..."] else [])

def renderFields : List Field → List String
  | [] => []
  | ⟨name, none⟩ :: rest => name :: renderFields rest
  | ⟨name, some body⟩ :: rest => (name ++ "\x7b" ++ render body ++ "\x7d") :: renderFields rest

end

example : render ⟨true, [⟨"date", some everything⟩, ⟨"_id", none⟩]⟩ = "date\x7b...\x7d,_id,..." := by
  decide

/-- A body that asks for something, and whose names can be written. -/
structure Writable (body : Selection) : Prop where
  inhabited : body.all = true ∨ body.fields ≠ []
  named : ∀ name ∈ body.names, IsName name.toList

/-! ### What is read can be written -/

/-- A field with a name that can be written and with a body, if any, of writable bodies. -/
def WritableField (field : Field) : Prop :=
  IsName field.name.toList ∧ ∀ body, field.body = some body → body.EveryBody Writable

theorem everyBody_writable_iff {body : Selection} :
    body.EveryBody Writable ↔
      (body.all = true ∨ body.fields ≠ []) ∧ ∀ field ∈ body.fields, WritableField field := by
  constructor
  · rintro ⟨⟨inhabited, named⟩, below⟩
    refine ⟨inhabited, fun field member => ⟨?_, below field member⟩⟩
    exact named field.name (List.mem_map_of_mem member)
  · rintro ⟨inhabited, fields⟩
    refine .intro ⟨inhabited, ?_⟩ fun field member => (fields field member).2
    intro name member
    obtain ⟨field, inside, rfl⟩ := List.mem_map.mp member
    exact (fields field inside).1

/-- A body with an entry asks for something. -/
private theorem everyBody_ofItems {items : List Item} (inhabited : items ≠ [])
    (writable : ∀ item ∈ items, ∀ field, item.field? = some field → WritableField field) :
    (ofItems items).EveryBody Writable := by
  rw [everyBody_writable_iff]
  constructor
  · obtain ⟨first, rest, rfl⟩ := List.exists_cons_of_ne_nil inhabited
    cases first with
    | spread => exact Or.inl rfl
    | named field => exact Or.inr (List.cons_ne_nil _ _)
  · intro field member
    obtain ⟨item, inside, found⟩ := List.mem_filterMap.mp member
    exact writable item inside field found

theorem ItemsText.ne_nil {text : List Char} {items : List Item} (derived : ItemsText text items) :
    items ≠ [] := by
  cases derived <;> exact List.cons_ne_nil _ _

mutual

theorem BodyText.writable {text : List Char} {body : Selection} (derived : BodyText text body) :
    body.EveryBody Writable := by
  match derived with
  | .entries items stands =>
    cases standsFor_iff.mp stands
    exact everyBody_ofItems items.ne_nil items.writable

theorem ItemsText.writable {text : List Char} {items : List Item}
    (derived : ItemsText text items) :
    ∀ item ∈ items, ∀ field, item.field? = some field → WritableField field := by
  match derived with
  | .last item => exact List.forall_mem_singleton.mpr item.writable
  | .more item rest => exact List.forall_mem_cons.mpr ⟨item.writable, rest.writable⟩

theorem ItemText.writable {text : List Char} {item : Item} (derived : ItemText text item) :
    ∀ field, item.field? = some field → WritableField field := by
  match derived with
  | .spread _ _ =>
    intro field found
    cases found
  | .named _ inside _ =>
    have holds := inside.writable
    rintro _ ⟨⟩
    exact holds

theorem FieldText.writable {text : List Char} {field : Field} (derived : FieldText text field) :
    WritableField field := by
  match derived with
  | .whole letters => exact ⟨by simpa using letters, by simp⟩
  | .expanded letters _ inner =>
    have holds := inner.writable
    refine ⟨by simpa using letters, ?_⟩
    rintro _ ⟨⟩
    exact holds

theorem InnerText.writable {text : List Char} {body : Selection}
    (derived : InnerText text body) : body.EveryBody Writable := by
  match derived with
  | .blank _ => exact everyBody_writable_iff.mpr ⟨Or.inl rfl, List.forall_mem_nil _⟩
  | .body body => exact body.writable

end

/-! ### What is written is read -/

theorem itemsText_intercalate {texts : List (List Char)} {items : List Item} (some : items ≠ [])
    (derived : List.Forall₂ ItemText texts items) :
    ItemsText (List.intercalate [','] texts) items := by
  induction derived with
  | nil => exact absurd rfl some
  | @cons text item texts items first rest ih =>
    cases rest with
    | nil =>
      rw [List.intercalate_singleton]
      exact .last first
    | cons second others =>
      rw [List.intercalate_cons_cons, List.append_assoc]
      exact .more first (ih (List.cons_ne_nil _ _))

/-- The entries of the canonical text of a body. -/
def entries (body : Selection) : List Item :=
  body.fields.map Item.named ++ if body.all then [.spread] else []

theorem ofItems_entries (body : Selection) : ofItems body.entries = body := by
  obtain ⟨all, fields⟩ := body
  cases all <;>
    simp [ofItems, entries, Item.isSpread, Item.field?, List.filterMap_append, Function.comp_def]

theorem fieldText_whole {name : String} (letters : IsName name.toList) :
    FieldText name.toList ⟨name, none⟩ := by
  have derived := FieldText.whole letters
  rwa [String.ofList_toList] at derived

theorem fieldText_expanded {name : String} {text : List Char} {body : Selection}
    (letters : IsName name.toList) (inner : InnerText text body) :
    FieldText (name.toList ++ '{' :: (text ++ ['}'])) ⟨name, some body⟩ := by
  have derived := FieldText.expanded letters isGap_nil inner
  rwa [String.ofList_toList, List.nil_append] at derived

theorem itemText_named {text : List Char} {field : Field} (derived : FieldText text field) :
    ItemText text (.named field) := by
  have item := ItemText.named isGap_nil derived isGap_nil
  rwa [List.append_nil, List.nil_append] at item

/-- The text of a body joins the texts of its entries. -/
private theorem bodyText_render_of_fields {body : Selection} (writable : body.EveryBody Writable)
    (fields : List.Forall₂ ItemText ((renderFields body.fields).map String.toList)
      (body.fields.map Item.named)) : BodyText body.render.toList body := by
  have inhabited := (everyBody_writable_iff.mp writable).1
  obtain ⟨all, fields'⟩ := body
  have spread : ItemText ['.', '.', '.'] .spread := .spread isGap_nil isGap_nil
  have derived : List.Forall₂ ItemText
      ((renderFields fields' ++ if all then ["..."] else []).map String.toList)
      (entries ⟨all, fields'⟩) := by
    rw [List.map_append, entries]
    refine List.rel_append fields ?_
    cases all with
    | true => exact .cons spread .nil
    | false => exact .nil
  have some : entries ⟨all, fields'⟩ ≠ [] := by
    rcases inhabited with rfl | some
    · simp [entries]
    · simp [entries, some]
  have body := BodyText.items (itemsText_intercalate some derived)
  rw [ofItems_entries] at body
  rw [render, String.toList_intercalate]
  exact body

theorem itemTexts_renderFields {fields : List Field}
    (writable : ∀ field ∈ fields, WritableField field) :
    List.Forall₂ ItemText ((renderFields fields).map String.toList) (fields.map Item.named) := by
  induction fields using fields_induction with
  | nil => exact .nil
  | unit name rest ih =>
    obtain ⟨⟨letters, -⟩, behind⟩ := List.forall_mem_cons.mp writable
    exact .cons (itemText_named (fieldText_whole letters)) (ih behind)
  | expanded name body rest ihInner ih =>
    obtain ⟨⟨letters, below⟩, behind⟩ := List.forall_mem_cons.mp writable
    have every := below body rfl
    have derived := bodyText_render_of_fields every (ihInner (everyBody_writable_iff.mp every).2)
    have field := fieldText_expanded letters (.body derived)
    refine .cons ?_ (ih behind)
    simpa using itemText_named field

theorem bodyText_render {selection : Selection} (writable : selection.EveryBody Writable) :
    BodyText selection.render.toList selection :=
  bodyText_render_of_fields writable (itemTexts_renderFields (everyBody_writable_iff.mp writable).2)

/-- The texts of selections are those of writable bodies within the depth limit, and the canonical
text is always one of them. -/
theorem parse_render (selection : Selection) :
    ((∃ text, parse text = .ok selection) ↔
      selection.EveryBody Writable ∧ selection.depth ≤ 64) ∧
    (parse selection.render = .ok selection ↔
      selection.EveryBody Writable ∧ selection.depth ≤ 64) ∧
    ∀ text, parse text = .ok selection → parse selection.render = .ok selection := by
  have writable : ∀ text, parse text = .ok selection →
      selection.EveryBody Writable ∧ selection.depth ≤ 64 := by
    intro text parsed
    have within := depth_le_of_parse parsed
    rw [parse, parseChars_eq_ok_iff, ← bodyText_iff] at parsed
    exact ⟨parsed.2.writable, within⟩
  have written : selection.EveryBody Writable ∧ selection.depth ≤ 64 →
      parse selection.render = .ok selection := by
    rintro ⟨every, within⟩
    have derived := bodyText_render every
    rw [parse, parseChars_eq_ok_iff, ← bodyText_iff, derived.balanced.findTooDeep_iff]
    exact ⟨(derived.nestsWithin_iff maxDepth).mpr within, derived⟩
  refine ⟨⟨?_, fun holds => ⟨_, written holds⟩⟩, ⟨writable _, written⟩, ?_⟩
  · rintro ⟨text, parsed⟩
    exact writable text parsed
  · intro text parsed
    exact written (writable text parsed)

end SelectionPlan.Selection
