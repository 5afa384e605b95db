import SelectionPlan.Proofs.Selection.Exactness
import SelectionPlan.Proofs.Selection.Nesting

/-!
# Texts that can be completed

A text that ends inside of braces may become a body once they are closed. What was read before a
brace is found unclosed is such a text, so reading never stops in front of a place that could not
have been reached by a selection.
-/
namespace SelectionPlan.Selection

/-- Closing the braces that are open at its end makes the text a body. -/
def Completable (unclosed : Nat) (text : List Char) : Prop :=
  text.count '{' = text.count '}' + unclosed ∧
    ∃ body, BodyText (text ++ List.replicate unclosed '}') body

/-- In a body, as many braces are missing as are open. -/
theorem BodyText.completable {text : List Char} {unclosed : Nat} {body : Selection}
    (derived : BodyText (text ++ List.replicate unclosed '}') body) :
    Completable unclosed text := by
  have closed := derived.balanced.closed
  rw [List.count_append, List.count_append, List.count_replicate_self,
    List.count_replicate] at closed
  exact ⟨by simpa using closed.symm, body, derived⟩

theorem closing_unclosed {name inner place : List Char} {body : Selection}
    (stopped : closing name body inner = .unclosed place) :
    ∃ gap, IsGap gap ∧ inner = gap ++ place := by
  unfold closing at stopped
  split at stopped
  next => cases stopped
  next =>
    cases stopped
    exact exists_gap inner

/-- A body in braces of which the last one is missing. -/
private theorem expanded_unclosed {name gap inner : List Char} {body : Selection} {count : Nat}
    (letters : IsName name) (blank : IsGap gap)
    (derived : InnerText (inner ++ List.replicate count '}') body) :
    FieldText (name ++ (gap ++ ('{' :: inner ++ List.replicate (count + 1) '}')))
      ⟨String.ofList name, some body⟩ := by
  have field := FieldText.expanded letters blank derived
  rwa [List.append_assoc, ← List.replicate_succ'] at field

mutual

-- Where a brace is found unclosed, the text up to there lacks nothing but closing braces. The
-- recursion is that of reading.
theorem itemAt_unclosed {text place : List Char} (stopped : itemAt text = .unclosed place) :
    ∃ front count item, text = front ++ place ∧
      ItemText (front ++ List.replicate (count + 1) '}') item := by
  obtain ⟨before, blank, front⟩ := exists_gap text
  rcases item_start text with ⟨tail, found⟩ | ⟨name, tail, letters, ends, found⟩ | ⟨plain, nameless⟩
  · rw [itemAt_spread found] at stopped
    cases stopped
  · have smaller := letters.dropGap_length_lt found
    rw [itemAt_name letters ends found] at stopped
    obtain ⟨gap, blank', back⟩ := exists_gap tail
    obtain ⟨inner, count, field, cut, derived⟩ := expansion_unclosed letters blank' stopped
    refine ⟨before ++ (name ++ (gap ++ inner)), count, .named field, ?_, ?_⟩
    · rw [front, found, back, cut]
      simp
    · have item := ItemText.named blank derived isGap_nil
      simpa using item
  · rw [itemAt_nameless plain nameless] at stopped
    cases stopped
termination_by (text.length, 0)

theorem expansion_unclosed {name gap text place : List Char} (letters : IsName name)
    (blank : IsGap gap) (stopped : expansion name text = .unclosed place) :
    ∃ front count field, text = front ++ place ∧
      FieldText (name ++ (gap ++ (front ++ List.replicate (count + 1) '}'))) field := by
  unfold expansion at stopped
  split at stopped
  next inner =>
    split at stopped
    next body left inside =>
      -- The body was read, but it goes on at the place where it should be closed.
      obtain ⟨piece, derived, rfl⟩ := bodyAt_derives inside
      obtain ⟨before, blank', rfl⟩ := closing_unclosed stopped
      have whole : BodyText (piece ++ before ++ List.replicate 0 '}') body := by
        simpa using derived.append_gap blank'
      exact ⟨'{' :: (piece ++ before), 0, _, by simp, expanded_unclosed letters blank (.body whole)⟩
    next =>
      obtain ⟨before, blank', rfl⟩ := closing_unclosed stopped
      refine ⟨'{' :: before, 0, _, by simp, expanded_unclosed letters blank (.blank ?_)⟩
      simpa using blank'
    next place' inside =>
      -- The brace is missing further inside, and so is the one of this field.
      cases stopped
      obtain ⟨piece, count, body, rfl, derived⟩ := bodyAt_unclosed inside
      exact ⟨'{' :: piece, count + 1, _, by simp, expanded_unclosed letters blank (.body derived)⟩
  next => cases stopped
termination_by (text.length, 0)

theorem bodyAt_unclosed {text place : List Char} (stopped : bodyAt text = .unclosed place) :
    ∃ front count body, text = front ++ place ∧
      BodyText (front ++ List.replicate (count + 1) '}') body := by
  rw [bodyAt_eq] at stopped
  split at stopped
  next item left first =>
    have smaller := length_lt_of_itemAt first
    obtain ⟨front, derived, cut⟩ := itemAt_derives first
    split at stopped
    next => cases stopped
    next place' others =>
      cases stopped
      obtain ⟨piece, count, items, cut', derived'⟩ := moreAt_unclosed others
      have longer := ItemsText.more derived derived'
      refine ⟨front ++ ',' :: piece, count, ofItems (item :: items), by simp [cut, cut'], ?_⟩
      simpa using BodyText.items longer
  next => cases stopped
  next place' first =>
    cases stopped
    obtain ⟨front, count, item, cut, derived⟩ := itemAt_unclosed first
    exact ⟨front, count, _, cut, .items (.last derived)⟩
termination_by (text.length, 1)

theorem moreAt_unclosed {text place : List Char} (stopped : moreAt text = .error place) :
    ∃ front count items, text = ',' :: (front ++ place) ∧
      ItemsText (front ++ List.replicate (count + 1) '}') items := by
  by_cases comma : ∃ next, text = ',' :: next
  · obtain ⟨next, rfl⟩ := comma
    rw [moreAt_comma] at stopped
    split at stopped
    next item left first =>
      have smaller := length_lt_of_itemAt first
      obtain ⟨front, derived, cut⟩ := itemAt_derives first
      split at stopped
      next => cases stopped
      next place' others =>
        cases stopped
        obtain ⟨piece, count, items, cut', derived'⟩ := moreAt_unclosed others
        have longer := ItemsText.more derived derived'
        refine ⟨front ++ ',' :: piece, count, item :: items, by simp [cut, cut'], ?_⟩
        simpa using longer
    next => cases stopped
    next place' first =>
      cases stopped
      obtain ⟨front, count, item, rfl, derived⟩ := itemAt_unclosed first
      exact ⟨front, count, _, rfl, .last derived⟩
  · rw [moreAt_ends fun next starts => comma ⟨next, starts⟩] at stopped
    cases stopped
termination_by (text.length, 0)

end

end SelectionPlan.Selection
