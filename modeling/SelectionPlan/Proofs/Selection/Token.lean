import SelectionPlan.Selection.Parser
import Mathlib.Data.List.TakeWhile

/-!
# Gaps, names and the ends of entries

The pieces that selection texts are cut into, and what skipping a gap or taking a name does to a
text that starts with one. The two never mix, as no character of a name is white space.
-/
namespace SelectionPlan

namespace Text

/-- Ranges that keep apart have no character in common. -/
theorem inRanges_of_apart {ranges others : List (Nat × Nat)}
    (apart : ∀ range ∈ ranges, ∀ other ∈ others, range.2 < other.1 ∨ other.2 < range.1) {c : Char}
    (within : inRanges ranges c = true) : inRanges others c = false := by
  rw [← Bool.not_eq_true]
  intro within'
  obtain ⟨range, member, low, high⟩ := (inRanges_iff _ _).mp within
  obtain ⟨other, member', low', high'⟩ := (inRanges_iff _ _).mp within'
  have split := apart range member other member'
  omega

def asciiAlphanumeric : List (Nat × Nat) :=
  [(0x30, 0x39), (0x41, 0x5A), (0x61, 0x7A)]

theorem inRanges_asciiAlphanumeric {c : Char} (letter : c.isAlphanum = true) :
    inRanges asciiAlphanumeric c = true := by
  have kinds : (c.isUpper || c.isLower || c.isDigit) = true := letter
  rw [Bool.or_eq_true, Bool.or_eq_true] at kinds
  rw [inRanges_iff]
  rcases kinds with (upper | lower) | digit
  · obtain ⟨low, high⟩ := of_decide_eq_true upper
    exact ⟨(0x41, 0x5A), by decide, low, high⟩
  · obtain ⟨low, high⟩ := Bool.and_eq_true_iff.mp lower
    exact ⟨(0x61, 0x7A), by decide, of_decide_eq_true low, of_decide_eq_true high⟩
  · obtain ⟨low, high⟩ := Bool.and_eq_true_iff.mp digit
    exact ⟨(0x30, 0x39), by decide, of_decide_eq_true low, of_decide_eq_true high⟩

theorem isAlphanumeric_of_isSpace {c : Char} (space : isSpace c = true) :
    isAlphanumeric c = false := by
  have beyond : inRanges alphanumericRanges c = false :=
    inRanges_of_apart (by decide +kernel) space
  have ascii : c.isAlphanum = false := by
    rw [← Bool.not_eq_true]
    intro letter
    have outside : inRanges asciiAlphanumeric c = false := inRanges_of_apart (by decide) space
    cases (inRanges_asciiAlphanumeric letter).symm.trans outside
  rw [isAlphanumeric, ascii, beyond, Bool.or_false]

end Text

namespace Selection

/-- A run of spaces, tabs and line ends, of any length. -/
def IsGap (text : List Char) : Prop :=
  ∀ c ∈ text, Text.isGap c = true

theorem isGap_nil : IsGap [] :=
  List.forall_mem_nil _

/-- At least one character, each of them one that names are made of. -/
def IsName (text : List Char) : Prop :=
  text ≠ [] ∧ ∀ c ∈ text, isNameChar c = true

/-- Where an entry ends: at a comma, at a closing brace or with the text. -/
def EndsEntry (rest : List Char) : Prop :=
  ∀ c ∈ rest.head?, c = ',' ∨ c = '}'

/-- Where a body ends: at a closing brace or with the text. -/
def EndsBody (rest : List Char) : Prop :=
  ∀ c ∈ rest.head?, c = '}'

theorem EndsBody.endsEntry {rest : List Char} (ends : EndsBody rest) : EndsEntry rest :=
  fun c first => Or.inr (ends c first)

theorem endsEntry_comma (rest : List Char) : EndsEntry (',' :: rest) := by
  simp [EndsEntry]

theorem endsBody_nil : EndsBody [] := by
  simp [EndsBody]

theorem endsBody_brace (rest : List Char) : EndsBody ('}' :: rest) := by
  simp [EndsBody]

/-- No character of a name is white space of any kind. -/
theorem isNameChar_of_isSpace {c : Char} (space : Text.isSpace c = true) : isNameChar c = false := by
  have dash : c ≠ '_' := by
    rintro rfl
    cases space
  have dollar : c ≠ '$' := by
    rintro rfl
    cases space
  simp [isNameChar, Text.isAlphanumeric_of_isSpace space, dash, dollar]

theorem isNameChar_of_isGap {c : Char} (gap : Text.isGap c = true) : isNameChar c = false :=
  isNameChar_of_isSpace (Text.isSpace_of_isGap gap)

theorem isNameChar_dot : isNameChar '.' = false := by decide +kernel

theorem isNameChar_open : isNameChar '{' = false := by decide +kernel

theorem isNameChar_close : isNameChar '}' = false := by decide +kernel

theorem isNameChar_comma : isNameChar ',' = false := by decide +kernel

theorem dropGap_append {gap : List Char} (blank : IsGap gap) (rest : List Char) :
    Text.dropGap (gap ++ rest) = Text.dropGap rest :=
  List.dropWhile_append_of_pos blank

theorem dropGap_cons {c : Char} (solid : Text.isGap c = false) (rest : List Char) :
    Text.dropGap (c :: rest) = c :: rest := by
  simp [Text.dropGap, solid]

/-- Every text is a gap, maybe an empty one, and what is left after it. -/
theorem exists_gap (text : List Char) : ∃ gap, IsGap gap ∧ text = gap ++ Text.dropGap text :=
  ⟨text.takeWhile Text.isGap, fun _ member => List.mem_takeWhile_imp member,
    List.takeWhile_append_dropWhile.symm⟩

theorem EndsEntry.dropGap {rest : List Char} (ends : EndsEntry rest) :
    Text.dropGap rest = rest := by
  cases rest with
  | nil => rfl
  | cons c tail =>
    rcases ends c rfl with rfl | rfl
    · exact dropGap_cons (by decide) tail
    · exact dropGap_cons (by decide) tail

/-- No name goes on after a gap into the end of an entry. -/
theorem EndsEntry.takeWhile_append {gap rest : List Char} (blank : IsGap gap)
    (ends : EndsEntry rest) : (gap ++ rest).takeWhile isNameChar = [] := by
  cases gap with
  | cons c tail => simp [isNameChar_of_isGap (blank c (by simp))]
  | nil =>
    cases rest with
    | nil => rfl
    | cons c tail => rcases ends c rfl with rfl | rfl <;> simp [isNameChar_comma, isNameChar_close]

/-- The name at the front of a text is found again when nothing continues it. -/
theorem IsName.takeWhile_append {name rest : List Char} (letters : IsName name)
    (ends : rest.takeWhile isNameChar = []) : (name ++ rest).takeWhile isNameChar = name := by
  rw [List.takeWhile_append_of_pos letters.2, ends, List.append_nil]

theorem IsName.dropWhile_append {name rest : List Char} (letters : IsName name)
    (ends : rest.takeWhile isNameChar = []) : (name ++ rest).dropWhile isNameChar = rest := by
  have split := List.takeWhile_append_dropWhile (p := isNameChar) (l := name ++ rest)
  rw [letters.takeWhile_append ends] at split
  exact List.append_cancel_left split

theorem takeWhile_dropWhile (text : List Char) :
    (text.dropWhile isNameChar).takeWhile isNameChar = [] := by
  induction text with
  | nil => rfl
  | cons c rest ih =>
    cases letter : isNameChar c with
    | true => rw [List.dropWhile_cons_of_pos letter, ih]
    | false => simp [letter]

theorem isName_takeWhile {text : List Char} (found : text.takeWhile isNameChar ≠ []) :
    IsName (text.takeWhile isNameChar) :=
  ⟨found, fun _ member => List.mem_takeWhile_imp member⟩

theorem IsName.dropGap_length_lt {name text rest : List Char} (letters : IsName name)
    (found : Text.dropGap text = name ++ rest) : (Text.dropGap rest).length < text.length := by
  -- Skipping gaps never adds characters, and a name has at least one.
  have positive := List.length_pos_iff.mpr letters.1
  have front := Text.dropGap_length_le text
  have back := Text.dropGap_length_le rest
  rw [found, List.length_append] at front
  omega

theorem IsName.dropGap_append {name : List Char} (letters : IsName name) (rest : List Char) :
    Text.dropGap (name ++ rest) = name ++ rest := by
  obtain ⟨some, all⟩ := letters
  cases name with
  | nil => contradiction
  | cons c tail =>
    have letter := all c (by simp)
    cases gap : Text.isGap c with
    | false => exact dropGap_cons gap (tail ++ rest)
    | true =>
      -- A name does not start with a gap.
      rw [isNameChar_of_isGap gap] at letter
      contradiction

end Selection

end SelectionPlan
