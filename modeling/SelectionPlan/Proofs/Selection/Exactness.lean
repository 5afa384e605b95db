import SelectionPlan.Proofs.Selection.Grammar
import SelectionPlan.Proofs.Selection.Reading

/-!
# Reading is exact

A construct is read off the front of a text exactly when the grammar derives the piece that was
taken. One direction follows the recursion of the reading functions; the other follows derivations,
and needs to know where the construct ends, since names and gaps are taken as far as they go.
-/
namespace SelectionPlan.Selection

theorem IsGap.append {first second : List Char} (front : IsGap first) (back : IsGap second) :
    IsGap (first ++ second) := by
  intro c member
  rcases List.mem_append.mp member with member | member
  · exact front c member
  · exact back c member

/-- Entries take the gap behind them, so they take a longer one as well. -/
theorem ItemText.append_gap {text gap : List Char} {item : Item} (derived : ItemText text item)
    (blank : IsGap gap) : ItemText (text ++ gap) item := by
  cases derived with
  | spread before after =>
    have longer := ItemText.spread before (after.append blank)
    simpa using longer
  | named before field after =>
    have longer := ItemText.named before field (after.append blank)
    simpa using longer

theorem ItemsText.append_gap {text gap : List Char} {items : List Item}
    (derived : ItemsText text items) (blank : IsGap gap) : ItemsText (text ++ gap) items := by
  induction items generalizing text with
  | nil => cases derived
  | cons item items ih =>
    cases derived with
    | last entry => exact .last (entry.append_gap blank)
    | more entry rest =>
      have longer := ItemsText.more entry (ih rest)
      simpa using longer

theorem BodyText.append_gap {text gap : List Char} {body : Selection}
    (derived : BodyText text body) (blank : IsGap gap) : BodyText (text ++ gap) body := by
  cases derived with
  | entries items stands => exact .entries (items.append_gap blank) stands

/-! ### What is read is derived -/

private theorem closing_read {name inner rest : List Char} {body : Selection} {item : Item}
    (read : closing name body inner = .read item rest) :
    ∃ before after, IsGap before ∧ IsGap after ∧ inner = before ++ '}' :: (after ++ rest) ∧
      item = .named ⟨String.ofList name, some body⟩ := by
  unfold closing at read
  split at read
  next tail found =>
    cases read
    obtain ⟨before, blank, front⟩ := exists_gap inner
    obtain ⟨after, blank', back⟩ := exists_gap tail
    exact ⟨before, after, blank, blank', by rw [← back, ← found]; exact front, rfl⟩
  next => cases read

mutual

-- What was read is derived from the piece that was taken for it. The recursion is that of reading:
-- behind every entry, and inside every brace, less of the text is left.
theorem itemAt_derives {text rest : List Char} {item : Item}
    (read : itemAt text = .read item rest) :
    ∃ front, ItemText front item ∧ text = front ++ rest := by
  obtain ⟨before, blank, front⟩ := exists_gap text
  rcases item_start text with ⟨tail, found⟩ | ⟨name, tail, letters, ends, found⟩ | ⟨plain, nameless⟩
  -- `...` takes the gap behind it along.
  · rw [itemAt_spread found] at read
    cases read
    obtain ⟨after, blank', back⟩ := exists_gap tail
    refine ⟨_, .spread blank blank', ?_⟩
    rw [List.append_assoc, List.cons_append, List.cons_append, List.cons_append, ← back, ← found]
    exact front
  -- A name: what follows the gap behind it decides whether the field is expanded.
  · have smaller := letters.dropGap_length_lt found
    rw [itemAt_name letters ends found] at read
    obtain ⟨gap, blank', back⟩ := exists_gap tail
    obtain ⟨field, piece, after, blank'', derived, rfl, cut⟩ := expansion_derives letters blank' read
    refine ⟨before ++ (piece ++ after), .named blank derived blank'', ?_⟩
    rw [List.append_assoc, List.append_assoc, ← cut, ← back, ← found]
    exact front
  -- Neither of them, so nothing was read.
  · rw [itemAt_nameless plain nameless] at read
    cases read
termination_by (text.length, 0)

theorem expansion_derives {name gap text rest : List Char} {item : Item} (letters : IsName name)
    (blank : IsGap gap) (read : expansion name text = .read item rest) :
    ∃ field piece after, IsGap after ∧ FieldText piece field ∧ item = .named field ∧
      name ++ (gap ++ text) = piece ++ (after ++ rest) := by
  unfold expansion at read
  split at read
  next inner =>
    split at read
    next body left inside =>
      -- The gap before the closing brace was skipped for the brace, but belongs to the body.
      obtain ⟨front, derived, cut⟩ := bodyAt_derives inside
      obtain ⟨before, after, blank', blank'', brace, rfl⟩ := closing_read read
      refine ⟨_, _, after, blank'', .expanded letters blank
        (.body (derived.append_gap blank')), rfl, ?_⟩
      simp [cut, brace]
    next =>
      -- No body was found between the braces, so only a gap stands there.
      obtain ⟨before, after, blank', blank'', brace, rfl⟩ := closing_read read
      refine ⟨_, _, after, blank'', .expanded letters blank (.blank blank'), rfl, ?_⟩
      simp [brace]
    next => cases read
  next =>
    cases read
    exact ⟨_, name, gap, blank, .whole letters, rfl, rfl⟩
termination_by (text.length, 0)

theorem bodyAt_derives {text rest : List Char} {body : Selection}
    (read : bodyAt text = .read body rest) :
    ∃ front, BodyText front body ∧ text = front ++ rest := by
  rw [bodyAt_eq] at read
  split at read
  next item left first =>
    have smaller := length_lt_of_itemAt first
    obtain ⟨front, derived, cut⟩ := itemAt_derives first
    split at read
    next items after others =>
      cases read
      rcases moreAt_derives others with ⟨rfl, rfl⟩ | ⟨piece, derived', cut'⟩
      · exact ⟨front, .items (.last derived), cut⟩
      · refine ⟨_, .items (.more derived derived'), ?_⟩
        simp [cut, cut']
    next => cases read
  next => cases read
  next => cases read
termination_by (text.length, 1)

theorem moreAt_derives {text rest : List Char} {items : List Item}
    (read : moreAt text = .ok (items, rest)) :
    (items = [] ∧ text = rest) ∨ ∃ piece, ItemsText piece items ∧ text = ',' :: (piece ++ rest) := by
  by_cases comma : ∃ next, text = ',' :: next
  · obtain ⟨next, rfl⟩ := comma
    rw [moreAt_comma] at read
    split at read
    next item left first =>
      have smaller := length_lt_of_itemAt first
      obtain ⟨front, derived, cut⟩ := itemAt_derives first
      split at read
      next items after others =>
        cases read
        right
        rcases moreAt_derives others with ⟨rfl, rfl⟩ | ⟨piece, derived', cut'⟩
        · exact ⟨front, .last derived, by rw [cut]⟩
        · exact ⟨_, .more derived derived', by simp [cut, cut']⟩
      next => cases read
    next =>
      -- No entry follows the comma, which is left unread.
      cases read
      exact Or.inl ⟨rfl, rfl⟩
    next => cases read
  · rw [moreAt_ends fun next starts => comma ⟨next, starts⟩] at read
    cases read
    exact Or.inl ⟨rfl, rfl⟩
termination_by (text.length, 0)

end

/-! ### What is derived is read -/

private theorem closing_brace {name blank tail : List Char} {body : Selection}
    (gap : IsGap blank) : closing name body (blank ++ '}' :: tail) =
      .read (.named ⟨String.ofList name, some body⟩) (Text.dropGap tail) := by
  unfold closing
  rw [dropGap_append gap, dropGap_cons (by decide)]
  rfl

mutual

-- What is derived is read whole, when it ends where its kind of construct can end. The induction is
-- over the derivation, across all five kinds of text.
theorem ItemText.reads {text rest : List Char} {item : Item} (derived : ItemText text item)
    (ends : EndsEntry rest) : itemAt (text ++ rest) = .read item rest := by
  match derived with
  | @ItemText.spread before after blank blank' =>
    have found : Text.dropGap (before ++ '.' :: '.' :: '.' :: after ++ rest) =
        '.' :: '.' :: '.' :: (after ++ rest) := by
      rw [List.append_assoc, dropGap_append blank]
      exact dropGap_cons (by decide) _
    rw [itemAt_spread found, dropGap_append blank', ends.dropGap]
  | @ItemText.named before piece after field blank derived blank' =>
    simp only [List.append_assoc]
    exact derived.reads blank blank' ends

theorem FieldText.reads {before text after rest : List Char} {field : Field}
    (derived : FieldText text field) (blank : IsGap before) (blank' : IsGap after)
    (ends : EndsEntry rest) :
    itemAt (before ++ (text ++ (after ++ rest))) = .read (.named field) rest := by
  match derived with
  | .whole letters =>
    have found : Text.dropGap (before ++ (text ++ (after ++ rest))) = text ++ (after ++ rest) := by
      rw [dropGap_append blank, letters.dropGap_append]
    rw [itemAt_name letters (ends.takeWhile_append blank') found, dropGap_append blank',
      ends.dropGap]
    -- What ends an entry is no opening brace.
    unfold expansion
    split
    next inner => rcases ends '{' rfl with same | same <;> cases same
    next => rfl
  | @FieldText.expanded name gap inner body letters blank'' derived =>
    have opened := itemAt_open blank letters blank'' (inner ++ '}' :: (after ++ rest))
    rw [derived.reads, dropGap_append blank', ends.dropGap] at opened
    simpa using opened

theorem InnerText.reads {name text tail : List Char} {body : Selection}
    (derived : InnerText text body) :
    expansion name ('{' :: (text ++ '}' :: tail)) =
      .read (.named ⟨String.ofList name, some body⟩) (Text.dropGap tail) := by
  unfold expansion
  match derived with
  | .blank blank =>
    have brace : Text.dropGap (text ++ '}' :: tail) = '}' :: tail := by
      rw [dropGap_append blank, dropGap_cons (by decide)]
    -- A closing brace starts no entry, so a body is looked for in vain.
    have nameless : itemAt (text ++ '}' :: tail) = .absent ('}' :: tail) := by
      rw [itemAt_nameless, brace]
      · intro rest dots
        rw [brace] at dots
        cases dots
      · rw [brace]
        simp [isNameChar_close]
    simp only [bodyAt_eq, nameless]
    exact closing_brace blank
  | .body derived =>
    simp only [derived.reads (endsBody_brace tail)]
    exact closing_brace isGap_nil

theorem ItemsText.reads {text rest : List Char} {items : List Item}
    (derived : ItemsText text items) (ends : EndsBody rest) :
    ∃ first others middle, items = first :: others ∧
      itemAt (text ++ rest) = .read first middle ∧
      moreAt middle = .ok (others, rest) := by
  match derived with
  | @ItemsText.last _ item derived =>
    refine ⟨item, [], rest, rfl, derived.reads ends.endsEntry, moreAt_ends ?_⟩
    rintro next rfl
    cases ends ',' rfl
  | @ItemsText.more front back item items derived derived' =>
    obtain ⟨first, others, middle, rfl, read, more⟩ := derived'.reads ends
    refine ⟨item, first :: others, ',' :: (back ++ rest), rfl, ?_, ?_⟩
    · rw [List.append_assoc, List.cons_append]
      exact derived.reads (endsEntry_comma _)
    · simp only [moreAt_comma, read, more]

theorem BodyText.reads {text rest : List Char} {body : Selection} (derived : BodyText text body)
    (ends : EndsBody rest) : bodyAt (text ++ rest) = .read body rest := by
  match derived with
  | .entries derived stands =>
    rw [standsFor_iff.mp stands]
    obtain ⟨first, others, middle, rfl, read, more⟩ := derived.reads ends
    simp only [bodyAt_eq, read, more]

end

/-- A text is a body exactly when reading it leaves nothing. -/
theorem bodyText_iff (text : List Char) (body : Selection) :
    BodyText text body ↔ bodyAt text = .read body [] := by
  constructor
  · intro derived
    simpa using derived.reads endsBody_nil
  · intro read
    obtain ⟨front, derived, cut⟩ := bodyAt_derives read
    rw [cut, List.append_nil]
    exact derived

/-- No text has two values, however deep its braces nest. -/
theorem BodyText.unique {text : List Char} {first second : Selection}
    (derived : BodyText text first) (derived' : BodyText text second) : first = second := by
  rw [bodyText_iff] at derived derived'
  rw [derived] at derived'
  cases derived'
  rfl

end SelectionPlan.Selection
