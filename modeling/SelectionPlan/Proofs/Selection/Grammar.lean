import SelectionPlan.Proofs.Selection.Token

/-!
# The grammar of selection texts

What a text derives, said without the reader. A gap may stand around every entry, before an opening
brace and alone between two braces; a gap alone between braces stands for `...`. Texts are lists of
characters, and every rule cuts its text into the pieces that its parts derive.
-/
namespace SelectionPlan.Selection

/-- What entries stand for: their fields in order, and everything else besides if one of them is
`...`. -/
inductive StandsFor : List Item → Selection → Prop
  | none : StandsFor [] ⟨false, []⟩
  | spread {items : List Item} {all : Bool} {fields : List Field} :
    StandsFor items ⟨all, fields⟩ → StandsFor (.spread :: items) ⟨true, fields⟩
  | named {items : List Item} {field : Field} {all : Bool} {fields : List Field} :
    StandsFor items ⟨all, fields⟩ → StandsFor (.named field :: items) ⟨all, field :: fields⟩

theorem standsFor_iff {items : List Item} {body : Selection} :
    StandsFor items body ↔ body = ofItems items := by
  constructor
  · intro stands
    induction stands with
    | none => rfl
    | spread _ ih | named _ ih =>
      cases ih
      rfl
  · rintro rfl
    induction items with
    | nil => exact .none
    | cons item rest ih =>
      cases item with
      | spread => exact .spread ih
      | named field => exact .named ih

mutual

/-- A body is a list of entries, and stands for what they stand for. -/
inductive BodyText : List Char → Selection → Prop
  | entries {text : List Char} {items : List Item} {body : Selection} :
    ItemsText text items → StandsFor items body → BodyText text body

/-- One or more entries, separated by commas. -/
inductive ItemsText : List Char → List Item → Prop
  | last {text : List Char} {item : Item} : ItemText text item → ItemsText text [item]
  | more {text rest : List Char} {item : Item} {items : List Item} :
    ItemText text item → ItemsText rest items → ItemsText (text ++ ',' :: rest) (item :: items)

/-- An entry: `...` or a field, with the gaps around it. -/
inductive ItemText : List Char → Item → Prop
  | spread {before after : List Char} :
    IsGap before → IsGap after → ItemText (before ++ '.' :: '.' :: '.' :: after) .spread
  | named {before text after : List Char} {field : Field} :
    IsGap before → FieldText text field → IsGap after →
      ItemText (before ++ (text ++ after)) (.named field)

/-- A name, alone or with a body in braces. -/
inductive FieldText : List Char → Field → Prop
  | whole {name : List Char} : IsName name → FieldText name ⟨String.ofList name, none⟩
  | expanded {name gap text : List Char} {body : Selection} :
    IsName name → IsGap gap → InnerText text body →
      FieldText (name ++ (gap ++ '{' :: (text ++ ['}']))) ⟨String.ofList name, some body⟩

/-- What stands between braces: a gap, which takes everything, or a body. -/
inductive InnerText : List Char → Selection → Prop
  | blank {text : List Char} : IsGap text → InnerText text ⟨true, []⟩
  | body {text : List Char} {selection : Selection} :
    BodyText text selection → InnerText text selection

end

theorem BodyText.items {text : List Char} {items : List Item} (derived : ItemsText text items) :
    BodyText text (ofItems items) :=
  .entries derived (standsFor_iff.mpr rfl)

end SelectionPlan.Selection
