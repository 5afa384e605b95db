import SelectionPlan.Proofs.Selection.Parsing

/-!
# Texts joined by a comma

Two selections that are written one after the other, with a comma between them, are one selection:
it has the fields of the first and then those of the second. Nothing in either text can reach over
the comma, since every text that is a selection closes its own braces.
-/
namespace SelectionPlan.Selection

/-! ### Two bodies in one text -/

/-- First the fields of the one selection, then those of the other. -/
def append (first second : Selection) : Selection :=
  ⟨first.all || second.all, first.fields ++ second.fields⟩

instance : Append Selection := ⟨append⟩

theorem ofItems_append (items items' : List Item) :
    ofItems (items ++ items') = ofItems items ++ ofItems items' := by
  rw [ofItems, List.any_append, List.filterMap_append]
  rfl

theorem ItemsText.append {text text' : List Char} {items items' : List Item}
    (front : ItemsText text items) (back : ItemsText text' items') :
    ItemsText (text ++ ',' :: text') (items ++ items') := by
  induction items generalizing text with
  | nil => cases front
  | cons item items ih =>
    cases front with
    | last entry => exact .more entry back
    | more entry rest =>
      rw [List.append_assoc, List.cons_append, List.cons_append]
      exact .more entry (ih rest)

theorem BodyText.append {text text' : List Char} {first second : Selection}
    (front : BodyText text first) (back : BodyText text' second) :
    BodyText (text ++ ',' :: text') (first ++ second) := by
  obtain ⟨front, stands⟩ := front
  obtain ⟨back, stands'⟩ := back
  rw [standsFor_iff.mp stands, standsFor_iff.mp stands', ← ofItems_append]
  exact .items (front.append back)

theorem parse_append {text text' : String} {first second : Selection}
    (parsed : parse text = .ok first) (parsed' : parse text' = .ok second) :
    parse (text ++ "," ++ text') = .ok (first ++ second) := by
  rw [parse, parseChars_eq_ok_iff, ← bodyText_iff] at parsed parsed' ⊢
  obtain ⟨scanned, front⟩ := parsed
  obtain ⟨scanned', back⟩ := parsed'
  have joined : (text ++ "," ++ text').toList = text.toList ++ ([','] ++ text'.toList) := by simp
  have derived : BodyText (text.toList ++ ([','] ++ text'.toList)) (first ++ second) :=
    front.append back
  have comma : Balanced [','] := balanced_of_plain (by simp)
  rw [joined]
  refine ⟨?_, derived⟩
  -- Each of the three pieces closes its own braces, so none of them adds to the depth of another.
  rw [derived.balanced.findTooDeep_iff, front.balanced.nestsWithin_append_iff,
    comma.nestsWithin_append_iff]
  exact ⟨front.balanced.findTooDeep_iff.mp scanned, nestsWithin_of_plain (by simp) maxDepth,
    back.balanced.findTooDeep_iff.mp scanned'⟩

/-! ### No selection is blank -/

theorem IsName.solid {name : List Char} (letters : IsName name) :
    ∃ c ∈ name, Text.isSpace c = false := by
  obtain ⟨some, letters⟩ := letters
  obtain ⟨c, member⟩ := List.exists_mem_of_ne_nil name some
  refine ⟨c, member, ?_⟩
  rw [← Bool.not_eq_true]
  intro space
  cases (isNameChar_of_isSpace space).symm.trans (letters c member)

theorem FieldText.solid {text : List Char} {field : Field} (derived : FieldText text field) :
    ∃ c ∈ text, Text.isSpace c = false := by
  cases derived with
  | whole letters => exact letters.solid
  | expanded letters _ _ =>
    obtain ⟨c, member, solid⟩ := letters.solid
    exact ⟨c, List.mem_append_left _ member, solid⟩

theorem ItemText.solid {text : List Char} {item : Item} (derived : ItemText text item) :
    ∃ c ∈ text, Text.isSpace c = false := by
  cases derived with
  | spread _ _ => exact ⟨'.', by simp, by decide⟩
  | named _ field _ =>
    obtain ⟨c, member, solid⟩ := field.solid
    exact ⟨c, by simp [member], solid⟩

theorem BodyText.not_blank {text : List Char} {body : Selection} (derived : BodyText text body) :
    Text.isBlank text = false := by
  have solid : ∃ c ∈ text, Text.isSpace c = false := by
    obtain ⟨items, -⟩ := derived
    cases items with
    | last item => exact item.solid
    | more item _ =>
      obtain ⟨c, member, solid⟩ := item.solid
      exact ⟨c, List.mem_append_left _ member, solid⟩
  rw [Text.isBlank, List.all_eq_false]
  simpa using solid

theorem not_blank_of_parse {text : String} {selection : Selection}
    (parsed : parse text = .ok selection) : Text.isBlank text.toList = false := by
  rw [parse, parseChars_eq_ok_iff, ← bodyText_iff] at parsed
  exact parsed.2.not_blank

end SelectionPlan.Selection
