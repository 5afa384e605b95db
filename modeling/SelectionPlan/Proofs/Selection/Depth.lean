import SelectionPlan.Proofs.Selection.Parsing

/-!
# How deep selections nest

Every body that expands a field is one level deeper than the body that names the field. In a text
each level is a pair of braces, so the depth of a parsed selection is the depth to which the braces
of its text nest, and the limit on texts is a limit on selections.
-/
namespace SelectionPlan.Selection

mutual

/-- How many bodies stand one inside the other below a selection. -/
def depth : Selection → Nat
  | ⟨_, fields⟩ => depthBelow fields

/-- The depth of a body with the given fields. -/
def depthBelow : List Field → Nat
  | [] => 0
  | ⟨_, none⟩ :: rest => depthBelow rest
  | ⟨_, some body⟩ :: rest => max (depth body + 1) (depthBelow rest)

end

/-- The depth that one field gives to its body. -/
theorem depthBelow_cons (field : Field) (rest : List Field) :
    depthBelow (field :: rest) = max (depthBelow [field]) (depthBelow rest) := by
  rcases field with ⟨name, _ | body⟩ <;> simp [depthBelow]

theorem depthBelow_filterMap_cons (item : Item) (items : List Item) :
    depthBelow ((item :: items).filterMap Item.field?) =
      max (depthBelow item.field?.toList) (depthBelow (items.filterMap Item.field?)) := by
  cases item with
  | spread => simp [List.filterMap_cons, Item.field?, depthBelow]
  | named field => exact depthBelow_cons field _

/-! ### Braces in texts nest as bodies do -/

mutual

theorem BodyText.nestsWithin_iff {text : List Char} {body : Selection}
    (derived : BodyText text body) (limit : Nat) : NestsWithin limit text ↔ body.depth ≤ limit := by
  match derived with
  | .entries items stands =>
    cases standsFor_iff.mp stands
    exact items.nestsWithin_iff limit

theorem ItemsText.nestsWithin_iff {text : List Char} {items : List Item}
    (derived : ItemsText text items) (limit : Nat) :
    NestsWithin limit text ↔ depthBelow (items.filterMap Item.field?) ≤ limit := by
  match derived with
  | .last item =>
    rw [item.nestsWithin_iff limit, depthBelow_filterMap_cons]
    simp [depthBelow]
  | .more item rest =>
    have comma : NestsWithin limit [','] := nestsWithin_of_plain (by simp) limit
    have between : Balanced [','] := balanced_of_plain (by simp)
    rw [item.balanced.nestsWithin_append_iff, ← List.singleton_append,
      between.nestsWithin_append_iff, item.nestsWithin_iff limit, rest.nestsWithin_iff limit,
      depthBelow_filterMap_cons, Nat.max_le]
    simp [comma]

theorem ItemText.nestsWithin_iff {text : List Char} {item : Item} (derived : ItemText text item)
    (limit : Nat) : NestsWithin limit text ↔ depthBelow item.field?.toList ≤ limit := by
  match derived with
  | @ItemText.spread _ after before behind =>
    have plain : ∀ c ∈ '.' :: '.' :: '.' :: after, c ≠ '{' ∧ c ≠ '}' := by
      simpa using behind.braceFree
    rw [before.balanced.nestsWithin_append_iff]
    simp [Item.field?, depthBelow, nestsWithin_of_plain before.braceFree limit,
      nestsWithin_of_plain plain limit]
  | .named before field behind =>
    rw [before.balanced.nestsWithin_append_iff, field.balanced.nestsWithin_append_iff,
      field.nestsWithin_iff limit]
    simp [Item.field?, nestsWithin_of_plain before.braceFree limit,
      nestsWithin_of_plain behind.braceFree limit]

theorem FieldText.nestsWithin_iff {text : List Char} {field : Field}
    (derived : FieldText text field) (limit : Nat) :
    NestsWithin limit text ↔ depthBelow [field] ≤ limit := by
  match derived with
  | .whole letters => simp [depthBelow, nestsWithin_of_plain letters.braceFree limit]
  | @FieldText.expanded _ _ _ body letters blank inner =>
    have level : ∀ below, NestsWithin below _ ↔ body.depth ≤ below := inner.nestsWithin_iff
    rw [letters.balanced.nestsWithin_append_iff, blank.balanced.nestsWithin_append_iff,
      inner.balanced.nestsWithin_braces_iff]
    simp only [level, nestsWithin_of_plain letters.braceFree limit,
      nestsWithin_of_plain blank.braceFree limit, true_and, depthBelow, Nat.max_le]
    constructor
    · rintro ⟨below, rfl, within⟩
      omega
    · intro within
      exact ⟨limit - 1, by omega, by omega⟩

theorem InnerText.nestsWithin_iff {text : List Char} {body : Selection}
    (derived : InnerText text body) (limit : Nat) :
    NestsWithin limit text ↔ body.depth ≤ limit := by
  match derived with
  | .blank gap =>
    simp [depth, depthBelow, nestsWithin_of_plain gap.braceFree limit]
  | .body body => exact body.nestsWithin_iff limit

end

theorem depth_le_of_parse {text : String} {selection : Selection}
    (parsed : parse text = .ok selection) : selection.depth ≤ maxDepth := by
  rw [parse, parseChars_eq_ok_iff, ← bodyText_iff] at parsed
  obtain ⟨scanned, derived⟩ := parsed
  exact (derived.nestsWithin_iff maxDepth).mp (derived.balanced.findTooDeep_iff.mp scanned)

end SelectionPlan.Selection
