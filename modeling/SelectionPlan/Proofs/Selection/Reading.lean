import SelectionPlan.Proofs.Selection.Token
import Mathlib.Data.List.DropRight

/-!
# The reading functions as equations

Reading returns evidence that the rest of the text is shorter, which statements about it do not
need. Here the evidence is dropped, and each reading function gets one equation for every way in
which a text can start. Nothing else about the reading functions is used later.
-/
namespace SelectionPlan.Selection

/-- What became of reading one construct, without evidence. -/
inductive Reading (α : Type) where
  | read (value : α) (rest : List Char)
  | absent (place : List Char)
  | unclosed (place : List Char)

def Attempt.reading {α : Type} {text : List Char} : Attempt α text → Reading α
  | .read value rest _ => .read value rest
  | .absent place => .absent place
  | .unclosed place => .unclosed place

def itemAt (text : List Char) : Reading Item :=
  (readItem text).reading

def bodyAt (text : List Char) : Reading Selection :=
  (readBody text).reading

/-- The further entries of a body with the text after them, or the place of an unclosed brace. -/
def moreAt (text : List Char) : Except (List Char) (List Item × List Char) :=
  (readMore text).map Subtype.val

theorem length_lt_of_itemAt {text rest : List Char} {item : Item}
    (read : itemAt text = .read item rest) : rest.length < text.length := by
  unfold itemAt at read
  cases attempt : readItem text with
  | read item' rest' shorter =>
    rw [attempt] at read
    cases read
    exact shorter
  | absent place => rw [attempt] at read; cases read
  | unclosed place => rw [attempt] at read; cases read

-- The closing brace of an expanded field, behind what stands between the braces.
def closing (name : List Char) (body : Selection) (inner : List Char) : Reading Item :=
  match Text.dropGap inner with
  | '}' :: rest => .read (.named ⟨String.ofList name, some body⟩) (Text.dropGap rest)
  | place => .unclosed place

-- What follows the name of a field and the gap after it.
def expansion (name : List Char) : List Char → Reading Item
  | '{' :: inner =>
    match bodyAt inner with
    | .read body rest => closing name body rest
    | .absent _ => closing name everything inner
    | .unclosed place => .unclosed place
  | rest => .read (.named ⟨String.ofList name, none⟩) rest

theorem reading_closeField {text : List Char} (name : List Char) (body : Selection)
    (inner : List Char) (shorter : inner.length < text.length) :
    (closeField name body inner shorter).reading = closing name body inner := by
  unfold closeField closing
  split
  next rest found => simp only [found, Attempt.reading]
  next unmatched =>
    split
    next rest found => exact absurd found (unmatched rest)
    next => rfl

theorem itemAt_spread {text rest : List Char}
    (found : Text.dropGap text = '.' :: '.' :: '.' :: rest) :
    itemAt text = .read .spread (Text.dropGap rest) := by
  rw [itemAt, readItem]
  split
  next rest' found' =>
    obtain rfl : rest = rest' := by simpa using found.symm.trans found'
    rfl
  next plain => exact absurd found (plain rest)

theorem itemAt_nameless {text : List Char}
    (plain : ∀ rest, Text.dropGap text ≠ '.' :: '.' :: '.' :: rest)
    (nameless : (Text.dropGap text).takeWhile isNameChar = []) :
    itemAt text = .absent (Text.dropGap text) := by
  rw [itemAt, readItem]
  split
  next rest found => exact absurd found (plain rest)
  next => rw [dif_pos nameless]; rfl

theorem itemAt_name {text name rest : List Char} (letters : IsName name)
    (ends : rest.takeWhile isNameChar = []) (found : Text.dropGap text = name ++ rest) :
    itemAt text = expansion name (Text.dropGap rest) := by
  -- The letters that reading takes are this name, and it goes on with what follows it.
  have taken : (Text.dropGap text).takeWhile isNameChar = name := by
    rw [found, letters.takeWhile_append ends]
  have left : (Text.dropGap text).dropWhile isNameChar = rest := by
    rw [found, letters.dropWhile_append ends]
  rw [itemAt, readItem]
  split
  next rest' dots =>
    -- A dot is no letter.
    rw [dots] at taken
    exact absurd (by simpa [isNameChar_dot] using taken.symm) letters.1
  next =>
    rw [dif_neg (by rw [taken]; exact letters.1)]
    split
    next inner opened =>
      have brace : Text.dropGap rest = '{' :: inner := left ▸ opened
      rw [brace, expansion, bodyAt]
      cases readBody inner with
      | read body rest' shorter => subst taken; exact reading_closeField _ _ _ _
      | absent place => subst taken; exact reading_closeField _ _ _ _
      | unclosed place => rfl
    next unopened =>
      rw [expansion]
      · simp only [Attempt.reading, taken, left]
      · exact fun inner brace => unopened inner (left ▸ brace)

/-- A name with an opening brace behind it is expanded by what follows the brace. -/
theorem itemAt_open {before name gap : List Char} (blank : IsGap before) (letters : IsName name)
    (blank' : IsGap gap) (text : List Char) :
    itemAt (before ++ (name ++ (gap ++ '{' :: text))) = expansion name ('{' :: text) := by
  have found : Text.dropGap (before ++ (name ++ (gap ++ '{' :: text))) =
      name ++ (gap ++ '{' :: text) := by
    rw [dropGap_append blank, letters.dropGap_append]
  -- Neither a gap nor a brace goes on with the name.
  have stops : (gap ++ '{' :: text).takeWhile isNameChar = [] := by
    cases gap with
    | nil => simp [isNameChar_open]
    | cons c tail => simp [isNameChar_of_isGap (blank' c (by simp))]
  rw [itemAt_name letters stops found, dropGap_append blank', dropGap_cons (by decide)]

/-- Every text starts with `...`, with a name or with neither, apart from a gap. -/
theorem item_start (text : List Char) :
    (∃ rest, Text.dropGap text = '.' :: '.' :: '.' :: rest) ∨
    (∃ name rest, IsName name ∧ rest.takeWhile isNameChar = [] ∧
      Text.dropGap text = name ++ rest) ∨
    ((∀ rest, Text.dropGap text ≠ '.' :: '.' :: '.' :: rest) ∧
      (Text.dropGap text).takeWhile isNameChar = []) := by
  by_cases dots : ∃ rest, Text.dropGap text = '.' :: '.' :: '.' :: rest
  · exact Or.inl dots
  · refine Or.inr ?_
    by_cases nameless : (Text.dropGap text).takeWhile isNameChar = []
    · exact Or.inr ⟨fun rest found => dots ⟨rest, found⟩, nameless⟩
    · refine Or.inl ⟨_, _, isName_takeWhile nameless, ?_, List.takeWhile_append_dropWhile.symm⟩
      exact takeWhile_dropWhile _

/-- The gap in front of an entry does not matter. -/
theorem itemAt_dropGap (text : List Char) : itemAt (Text.dropGap text) = itemAt text := by
  have again : Text.dropGap (Text.dropGap text) = Text.dropGap text := List.dropWhile_idempotent ..
  rcases item_start text with ⟨rest, found⟩ | ⟨name, rest, letters, ends, found⟩ | ⟨plain, nameless⟩
  · rw [itemAt_spread found, itemAt_spread (again.trans found)]
  · rw [itemAt_name letters ends found, itemAt_name letters ends (again.trans found)]
  · rw [itemAt_nameless plain nameless, itemAt_nameless, again] <;> rwa [again]

theorem bodyAt_eq (text : List Char) :
    bodyAt text =
      match itemAt text with
      | .read item rest =>
        match moreAt rest with
        | .ok (items, after) => .read (ofItems (item :: items)) after
        | .error place => .unclosed place
      | .absent place => .absent place
      | .unclosed place => .unclosed place := by
  rw [bodyAt, itemAt, readBody]
  cases readItem text with
  | read item rest shorter =>
    simp only [Attempt.reading, moreAt]
    cases readMore rest with
    | ok more => rfl
    | error place => rfl
  | absent place => rfl
  | unclosed place => rfl

theorem moreAt_comma (next : List Char) :
    moreAt (',' :: next) =
      match itemAt next with
      | .read item rest =>
        match moreAt rest with
        | .ok (items, after) => .ok (item :: items, after)
        | .error place => .error place
      | .absent _ => .ok ([], ',' :: next)
      | .unclosed place => .error place := by
  rw [moreAt, itemAt, readMore]
  cases readItem next with
  | read item rest shorter =>
    simp only [Attempt.reading, moreAt]
    cases readMore rest with
    | ok more => rfl
    | error place => rfl
  | absent place => rfl
  | unclosed place => rfl

theorem moreAt_ends {text : List Char} (ends : ∀ next, text ≠ ',' :: next) :
    moreAt text = .ok ([], text) := by
  rw [moreAt, readMore]
  · rfl
  · exact ends

end SelectionPlan.Selection
