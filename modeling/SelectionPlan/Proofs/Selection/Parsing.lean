import SelectionPlan.Proofs.Selection.Bodies
import SelectionPlan.Proofs.Selection.Exactness
import SelectionPlan.Proofs.Selection.Nesting

/-!
# What texts are selections

A text parses to a selection exactly when the grammar derives the whole text with that value and
braces nest no deeper than the limit. No text has two values, and every value is well named.
-/
namespace SelectionPlan.Selection

theorem parseChars_eq_ok_iff (text : List Char) (selection : Selection) :
    parseChars text = .ok selection ↔
      findTooDeep 0 text = none ∧ bodyAt text = .read selection [] := by
  unfold parseChars bodyAt
  cases findTooDeep 0 text with
  | some place => simp
  | none =>
    cases readBody text with
    | read body rest shorter => cases rest <;> simp [Attempt.reading]
    | absent place => simp [Attempt.reading]
    | unclosed place => simp [Attempt.reading]

/-- Reading accepts exactly the derivable texts within the depth limit, with their derived values,
and the grammar is unambiguous at any depth. -/
theorem parse_exact (text : String) (selection : Selection) :
    (parse text = .ok selection ↔
      BodyText text.toList selection ∧ NestsWithin 64 text.toList) ∧
    ∀ other, BodyText text.toList selection → BodyText text.toList other → other = selection := by
  refine ⟨?_, fun other derived derived' => derived'.unique derived⟩
  rw [parse, parseChars_eq_ok_iff, ← bodyText_iff]
  constructor
  · rintro ⟨scanned, derived⟩
    exact ⟨derived, derived.balanced.findTooDeep_iff.mp scanned⟩
  · rintro ⟨derived, nested⟩
    exact ⟨derived.balanced.findTooDeep_iff.mpr nested, derived⟩

theorem IsName.plain {name : List Char} (letters : IsName name) :
    Path.Plain (String.ofList name) := by
  constructor
  · simpa using letters.1
  · intro member
    have letter := letters.2 '.' (by simpa using member)
    rw [isNameChar_dot] at letter
    contradiction

private theorem wellNamed_filterMap_cons {item : Item} {items : List Item}
    (first : ∀ field, item.field? = some field →
      Path.Plain field.name ∧ ∀ body, field.body = some body → body.WellNamed)
    (rest : ∀ all, WellNamed ⟨all, items.filterMap Item.field?⟩) (all : Bool) :
    WellNamed ⟨all, (item :: items).filterMap Item.field?⟩ := by
  cases found : item.field? with
  | none =>
    -- `...` names nothing.
    rw [List.filterMap_cons_none found]
    exact rest all
  | some field =>
    obtain ⟨plain, below⟩ := first field found
    rw [List.filterMap_cons_some found]
    exact wellNamed_cons_iff.mpr ⟨plain, below, rest all⟩

mutual

theorem BodyText.wellNamed {text : List Char} {body : Selection} (derived : BodyText text body) :
    body.WellNamed := by
  match derived with
  | .entries items stands =>
    cases standsFor_iff.mp stands
    exact items.wellNamed _

theorem ItemsText.wellNamed {text : List Char} {items : List Item}
    (derived : ItemsText text items) :
    ∀ all, WellNamed ⟨all, items.filterMap Item.field?⟩ := by
  match derived with
  | .last item =>
    -- Nothing follows the last entry.
    have none : ∀ all, WellNamed ⟨all, [].filterMap Item.field?⟩ := wellNamed_nil
    exact wellNamed_filterMap_cons item.wellNamed none
  | .more item rest => exact wellNamed_filterMap_cons item.wellNamed rest.wellNamed

theorem ItemText.wellNamed {text : List Char} {item : Item} (derived : ItemText text item) :
    ∀ field, item.field? = some field →
      Path.Plain field.name ∧ ∀ body, field.body = some body → body.WellNamed := by
  match derived with
  | .spread _ _ =>
    intro field found
    cases found
  | .named _ inside _ =>
    have holds := inside.wellNamed
    rintro _ ⟨⟩
    exact holds

theorem FieldText.wellNamed {text : List Char} {field : Field} (derived : FieldText text field) :
    Path.Plain field.name ∧ ∀ body, field.body = some body → body.WellNamed := by
  match derived with
  | .whole letters => exact ⟨letters.plain, by simp⟩
  | .expanded letters _ inner =>
    have holds := inner.wellNamed
    refine ⟨letters.plain, ?_⟩
    rintro _ ⟨⟩
    exact holds

theorem InnerText.wellNamed {text : List Char} {body : Selection}
    (derived : InnerText text body) : body.WellNamed := by
  match derived with
  | .blank _ => exact wellNamed_nil true
  | .body body => exact body.wellNamed

end

/-- Names of parsed selections are single segments of paths. -/
theorem wellNamed_of_parse {text : String} {selection : Selection}
    (parsed : parse text = .ok selection) : selection.WellNamed := by
  rw [parse, parseChars_eq_ok_iff, ← bodyText_iff] at parsed
  exact parsed.2.wellNamed

end SelectionPlan.Selection
