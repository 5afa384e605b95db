import SelectionPlan.Proofs.Selection.Grammar
import Mathlib.Data.List.Basic

/-!
# How deep braces nest

The nesting of a text is checked by a scan over its characters that knows no grammar. Where every
closing brace closes an earlier one, which holds of all texts that the grammar derives, the scan
finds nothing exactly when at no place too many braces are open.
-/
namespace SelectionPlan.Selection

/-- Nowhere in the text are more than `limit` braces open. -/
def NestsWithin (limit : Nat) (text : List Char) : Prop :=
  ∀ front, front <+: text → front.count '{' ≤ front.count '}' + limit

/-- Every closing brace closes an earlier one, and in the end all are closed. -/
structure Balanced (text : List Char) : Prop where
  covered : ∀ front, front <+: text → front.count '}' ≤ front.count '{'
  closed : text.count '}' = text.count '{'

theorem forall_prefix_cons {P : List Char → Prop} {c : Char} {rest : List Char} :
    (∀ front, front <+: c :: rest → P front) ↔ P [] ∧ ∀ front, front <+: rest → P (c :: front) := by
  constructor
  · intro all
    refine ⟨all [] List.nil_prefix, fun front below => all (c :: front) ?_⟩
    exact List.prefix_cons_iff.mpr (Or.inr ⟨front, rfl, below⟩)
  · rintro ⟨empty, all⟩ front below
    rcases List.prefix_cons_iff.mp below with rfl | ⟨front', rfl, below'⟩
    · exact empty
    · exact all front' below'

theorem counts_open (front : List Char) :
    ('{' :: front).count '{' = front.count '{' + 1 ∧ ('{' :: front).count '}' = front.count '}' :=
  ⟨List.count_cons_self, List.count_cons_of_ne (by decide)⟩

theorem counts_close (front : List Char) :
    ('}' :: front).count '{' = front.count '{' ∧ ('}' :: front).count '}' = front.count '}' + 1 :=
  ⟨List.count_cons_of_ne (by decide), List.count_cons_self⟩

theorem counts_other {c : Char} (unopened : c ≠ '{') (unclosed : c ≠ '}')
    (front : List Char) :
    (c :: front).count '{' = front.count '{' ∧ (c :: front).count '}' = front.count '}' :=
  ⟨List.count_cons_of_ne unopened, List.count_cons_of_ne unclosed⟩

/-- The scan finds nothing when `depth` open braces and those of the text stay within the limit.
Closing braces that close nothing, which the scan passes over, are excluded. -/
theorem findTooDeep_eq_none_iff {text : List Char} {depth : Nat} (within : depth ≤ maxDepth)
    (covered : ∀ front, front <+: text → front.count '}' ≤ front.count '{' + depth) :
    findTooDeep depth text = none ↔
      ∀ front, front <+: text → front.count '{' + depth ≤ front.count '}' + maxDepth := by
  induction text generalizing depth with
  | nil => simp [findTooDeep, within]
  | cons c rest ih =>
    rw [forall_prefix_cons] at covered ⊢
    obtain ⟨-, covered⟩ := covered
    have empty : [].count '{' + depth ≤ [].count '}' + maxDepth := by simpa using within
    rw [and_iff_right empty]
    rcases eq_or_ne c '{' with rfl | unopened
    -- An opening brace is found when it is one too many, and the bound fails right behind it.
    · simp only [counts_open] at covered ⊢
      by_cases full : maxDepth ≤ depth
      · simp only [findTooDeep, if_pos, if_pos full, reduceCtorEq, false_iff]
        intro bounded
        have one := bounded [] List.nil_prefix
        simp only [List.count_nil] at one
        omega
      · simp only [findTooDeep, if_pos, if_neg full]
        rw [ih (by omega) fun front below => by have bound := covered front below; omega]
        exact forall₂_congr fun front _ => by omega
    · rcases eq_or_ne c '}' with rfl | unclosed
      -- A closing brace closes something, so the scan does not stop counting at zero.
      · simp only [counts_close] at covered ⊢
        have positive := covered [] List.nil_prefix
        simp only [List.count_nil] at positive
        simp only [findTooDeep, if_neg unopened, if_pos]
        rw [ih (by omega) fun front below => by have bound := covered front below; omega]
        exact forall₂_congr fun front _ => by omega
      · simp only [counts_other unopened unclosed] at covered ⊢
        simp only [findTooDeep, if_neg unopened, if_neg unclosed]
        exact ih within covered

theorem Balanced.findTooDeep_iff {text : List Char} (balanced : Balanced text) :
    findTooDeep 0 text = none ↔ NestsWithin maxDepth text :=
  findTooDeep_eq_none_iff (Nat.zero_le _) balanced.covered

/-! ### Derived texts are balanced -/

theorem balanced_of_plain {text : List Char} (plain : ∀ c ∈ text, c ≠ '{' ∧ c ≠ '}') :
    Balanced text := by
  have closes : text.count '}' = 0 := List.count_eq_zero.mpr fun member => (plain _ member).2 rfl
  have opens : text.count '{' = 0 := List.count_eq_zero.mpr fun member => (plain _ member).1 rfl
  refine ⟨fun front below => ?_, by rw [closes, opens]⟩
  have fewer := below.sublist.count_le '}'
  omega

theorem Balanced.append {first second : List Char} (front : Balanced first)
    (back : Balanced second) : Balanced (first ++ second) := by
  refine ⟨fun part below => ?_, by rw [List.count_append, List.count_append, front.closed,
    back.closed]⟩
  -- A part ends in the first text, or holds all of it and ends in the second.
  rcases List.prefix_or_prefix_of_prefix below (List.prefix_append first second) with
    inside | ⟨tail, rfl⟩
  · exact front.covered part inside
  · have covered := back.covered tail ((List.prefix_append_right_inj first).mp below)
    have closed := front.closed
    simp only [List.count_append]
    omega

theorem Balanced.braces {text : List Char} (inside : Balanced text) :
    Balanced ('{' :: (text ++ ['}'])) := by
  constructor
  · rw [forall_prefix_cons]
    refine ⟨Nat.le_refl _, fun front below => ?_⟩
    rw [(counts_open front).1, (counts_open front).2]
    rcases List.prefix_concat_iff.mp below with rfl | shorter
    · have closed := inside.closed
      simp only [List.count_append, counts_close, List.count_nil]
      omega
    · have covered := inside.covered front shorter
      omega
  · have closed := inside.closed
    simp only [counts_open, List.count_append, counts_close, List.count_nil]
    omega

theorem IsGap.braceFree {text : List Char} (blank : IsGap text) :
    ∀ c ∈ text, c ≠ '{' ∧ c ≠ '}' := by
  refine fun c member => ⟨?_, ?_⟩
  · rintro rfl
    exact absurd (blank _ member) (by decide)
  · rintro rfl
    exact absurd (blank _ member) (by decide)

theorem IsGap.balanced {text : List Char} (blank : IsGap text) : Balanced text :=
  balanced_of_plain blank.braceFree

theorem IsName.braceFree {text : List Char} (letters : IsName text) :
    ∀ c ∈ text, c ≠ '{' ∧ c ≠ '}' := by
  refine fun c member => ⟨?_, ?_⟩
  · rintro rfl
    have letter := letters.2 _ member
    rw [isNameChar_open] at letter
    contradiction
  · rintro rfl
    have letter := letters.2 _ member
    rw [isNameChar_close] at letter
    contradiction

theorem IsName.balanced {text : List Char} (letters : IsName text) : Balanced text :=
  balanced_of_plain letters.braceFree

mutual

theorem BodyText.balanced {text : List Char} {body : Selection} (derived : BodyText text body) :
    Balanced text := by
  match derived with
  | .entries items _ => exact items.balanced

theorem ItemsText.balanced {text : List Char} {items : List Item}
    (derived : ItemsText text items) : Balanced text := by
  match derived with
  | .last item => exact item.balanced
  | .more item rest =>
    have comma : Balanced [','] := balanced_of_plain (by simp)
    exact item.balanced.append (comma.append rest.balanced)

theorem ItemText.balanced {text : List Char} {item : Item} (derived : ItemText text item) :
    Balanced text := by
  match derived with
  | .spread before after =>
    have dots : Balanced ['.', '.', '.'] := balanced_of_plain (by simp)
    exact before.balanced.append (dots.append after.balanced)
  | .named before field after =>
    exact before.balanced.append (field.balanced.append after.balanced)

theorem FieldText.balanced {text : List Char} {field : Field} (derived : FieldText text field) :
    Balanced text := by
  match derived with
  | .whole letters => exact letters.balanced
  | .expanded letters blank inner =>
    exact letters.balanced.append (blank.balanced.append inner.balanced.braces)

theorem InnerText.balanced {text : List Char} {body : Selection} (derived : InnerText text body) :
    Balanced text := by
  match derived with
  | .blank blank => exact blank.balanced
  | .body body => exact body.balanced

end

/-! ### The pieces of a text nest by themselves -/

theorem nestsWithin_of_plain {text : List Char} (plain : ∀ c ∈ text, c ≠ '{' ∧ c ≠ '}')
    (limit : Nat) : NestsWithin limit text := by
  intro front below
  have opens : text.count '{' = 0 := List.count_eq_zero.mpr fun member => (plain _ member).1 rfl
  have fewer := below.sublist.count_le '{'
  omega

theorem Balanced.nestsWithin_append_iff {first : List Char} (front : Balanced first)
    (second : List Char) (limit : Nat) :
    NestsWithin limit (first ++ second) ↔ NestsWithin limit first ∧ NestsWithin limit second := by
  have closed := front.closed
  constructor
  · intro nested
    refine ⟨fun part below => nested part (below.trans (List.prefix_append _ _)), ?_⟩
    intro part below
    have bound := nested (first ++ part) ((List.prefix_append_right_inj first).mpr below)
    simp only [List.count_append] at bound
    omega
  · rintro ⟨nested, nested'⟩ part below
    -- A part ends in the first text, or holds all of it and ends in the second.
    rcases List.prefix_or_prefix_of_prefix below (List.prefix_append first second) with
      inside | ⟨tail, rfl⟩
    · exact nested part inside
    · have bound := nested' tail ((List.prefix_append_right_inj first).mp below)
      simp only [List.count_append]
      omega

theorem Balanced.nestsWithin_braces_iff {text : List Char} (inside : Balanced text)
    (limit : Nat) :
    NestsWithin limit ('{' :: (text ++ ['}'])) ↔
      ∃ inner, limit = inner + 1 ∧ NestsWithin inner text := by
  have closed := inside.closed
  unfold NestsWithin
  rw [forall_prefix_cons]
  simp only [counts_open]
  constructor
  · rintro ⟨-, nested⟩
    have one := nested [] List.nil_prefix
    simp only [List.count_nil] at one
    refine ⟨limit - 1, by omega, fun part below => ?_⟩
    have bound := nested part (below.trans (List.prefix_append _ _))
    omega
  · rintro ⟨inner, rfl, nested⟩
    refine ⟨Nat.zero_le _, fun part below => ?_⟩
    -- The part ends before the closing brace or takes it as well, when all is closed.
    rcases List.prefix_concat_iff.mp below with rfl | shorter
    · simp only [List.count_append, counts_close, List.count_nil]
      omega
    · have bound := nested part shorter
      omega

end SelectionPlan.Selection
