import SelectionPlan.Proofs.Selection.Completion
import SelectionPlan.Proofs.Selection.Parsing
import SelectionPlan.Proofs.Selection.Reports

/-!
# Where reading stops

A text that is no selection is refused at the end of its longest prefix that could still become one.
What was read can be completed, and conversely reading gets at least to the end of every prefix that
can be completed, whatever follows it.
-/
namespace SelectionPlan.Selection

/-! ### How far reading gets -/

/-- Something was read, and reading did not stop before `rest`. -/
def Reading.Passes {α : Type} (reading : Reading α) (rest : List Char) : Prop :=
  match reading with
  | .read _ left => left.length ≤ rest.length
  | .absent _ => False
  | .unclosed place => place.length ≤ rest.length

theorem Reading.Passes.mono {α : Type} {reading : Reading α} {rest longer : List Char}
    (passes : reading.Passes rest) (shorter : rest.length ≤ longer.length) :
    reading.Passes longer := by
  cases reading with
  | read value left => exact Nat.le_trans passes shorter
  | absent place => exact passes
  | unclosed place => exact Nat.le_trans passes shorter

/-- A body reads on behind its first entry. -/
theorem bodyAt_passes {text rest : List Char} (passes : (itemAt text).Passes rest) :
    (bodyAt text).Passes rest := by
  rw [bodyAt_eq]
  cases first : itemAt text with
  | read item left =>
    rw [first] at passes
    cases more : moreAt left with
    | ok result =>
      obtain ⟨items, after⟩ := result
      have shorter : after.length ≤ left.length := by
        rcases moreAt_derives more with ⟨-, rfl⟩ | ⟨piece, -, rfl⟩ <;> simp
        omega
      simp only [more]
      exact Nat.le_trans shorter passes
    | error place =>
      obtain ⟨front, count, items, rfl, -⟩ := moreAt_unclosed more
      simp only [more]
      refine Nat.le_trans ?_ passes
      simp
      omega
  | absent place =>
    rw [first] at passes
    exact passes
  | unclosed place =>
    rw [first] at passes
    exact passes

/-- A body reads on behind a comma as it does at the start. -/
theorem bodyAt_passes_comma {text next rest : List Char} {item : Item}
    (first : itemAt text = .read item (',' :: next)) (passes : (bodyAt next).Passes rest) :
    (bodyAt text).Passes rest := by
  rw [bodyAt_eq] at passes ⊢
  simp only [first, moreAt_comma]
  cases second : itemAt next with
  | read item' left =>
    rw [second] at passes
    cases more : moreAt left with
    | ok result =>
      simp only [more] at passes ⊢
      exact passes
    | error place =>
      simp only [more] at passes ⊢
      exact passes
  | absent place =>
    rw [second] at passes
    cases passes
  | unclosed place =>
    rw [second] at passes
    exact passes

theorem closing_passes {name inner rest : List Char} (body : Selection)
    (near : (Text.dropGap inner).length ≤ rest.length) : (closing name body inner).Passes rest := by
  unfold closing
  split
  next tail brace =>
    have shorter := Text.dropGap_length_le tail
    rw [brace, List.length_cons] at near
    exact Nat.le_trans shorter (Nat.le_trans (Nat.le_succ _) near)
  next place _ => exact near

/-- An expanded field reads on behind its body. -/
theorem expansion_passes {name inner rest : List Char}
    (passes : (bodyAt inner).Passes rest) : (expansion name ('{' :: inner)).Passes rest := by
  unfold expansion
  cases body : bodyAt inner with
  | read value left =>
    rw [body] at passes
    simp only [body]
    exact closing_passes value (Nat.le_trans (Text.dropGap_length_le left) passes)
  | absent place =>
    rw [body] at passes
    cases passes
  | unclosed place =>
    rw [body] at passes
    simp only [body]
    exact passes

theorem bodyAt_absent_or_passes (text : List Char) :
    (∃ place, bodyAt text = .absent place) ∨ (bodyAt text).Passes text := by
  cases read : bodyAt text with
  | read body left =>
    obtain ⟨front, -, rfl⟩ := bodyAt_derives read
    exact Or.inr (by simp [Reading.Passes])
  | absent place => exact Or.inl ⟨place, rfl⟩
  | unclosed place =>
    obtain ⟨front, count, body, rfl, -⟩ := bodyAt_unclosed read
    exact Or.inr (by simp [Reading.Passes])

theorem bodyAt_dropGap (text : List Char) : bodyAt (Text.dropGap text) = bodyAt text := by
  rw [bodyAt_eq, bodyAt_eq, itemAt_dropGap]

/-- Behind an opening brace a gap is passed, since the brace stands for a body by itself. -/
theorem expansion_gap_passes {name gap : List Char} (blank : IsGap gap) (rest : List Char) :
    (expansion name ('{' :: (gap ++ rest))).Passes rest := by
  have skipped := dropGap_append blank rest
  have near := Text.dropGap_length_le rest
  have same : bodyAt (gap ++ rest) = bodyAt (Text.dropGap rest) := by
    rw [← bodyAt_dropGap, skipped]
  rcases bodyAt_absent_or_passes (Text.dropGap rest) with ⟨place, absent⟩ | passes
  · unfold expansion
    simp only [same, absent]
    exact closing_passes everything (by rwa [skipped])
  · rw [← same] at passes
    exact expansion_passes (passes.mono near)

theorem expansion_passes_self (name text : List Char) : (expansion name text).Passes text := by
  by_cases opened : ∃ inner, text = '{' :: inner
  · obtain ⟨inner, rfl⟩ := opened
    exact (expansion_gap_passes isGap_nil inner).mono (by simp)
  · unfold expansion
    split
    next inner => exact absurd ⟨inner, rfl⟩ opened
    next => exact Nat.le_refl _

/-- A name is passed with the gap behind it, even if what follows continues the name. -/
theorem itemAt_name_passes {before name gap : List Char} (blank : IsGap before)
    (letters : IsName name) (blank' : IsGap gap) (rest : List Char) :
    (itemAt (before ++ (name ++ (gap ++ rest)))).Passes rest := by
  have split := List.takeWhile_append_dropWhile (p := isNameChar) (l := gap ++ rest)
  have longer : IsName (name ++ (gap ++ rest).takeWhile isNameChar) := by
    refine ⟨by simp [letters.1], List.forall_mem_append.mpr ⟨letters.2, ?_⟩⟩
    exact fun c member => List.mem_takeWhile_imp member
  have found : Text.dropGap (before ++ (name ++ (gap ++ rest))) =
      name ++ (gap ++ rest).takeWhile isNameChar ++ (gap ++ rest).dropWhile isNameChar := by
    rw [dropGap_append blank, letters.dropGap_append, List.append_assoc, split]
  rw [itemAt_name longer (takeWhile_dropWhile _) found]
  apply (expansion_passes_self _ _).mono
  cases gap with
  | nil =>
    exact Nat.le_trans (Text.dropGap_length_le _) (List.dropWhile_sublist _).length_le
  | cons c tail =>
    -- A gap ends the name.
    have solid := isNameChar_of_isGap (blank' c (by simp))
    rw [List.cons_append, List.dropWhile_cons_of_neg (by simp [solid]), ← List.cons_append,
      dropGap_append blank']
    exact Text.dropGap_length_le rest

/-! ### Prefixes that can be completed are passed -/

theorem IsGap.of_append {first second : List Char} (blank : IsGap (first ++ second)) :
    IsGap first :=
  fun c member => blank c (List.mem_append_left _ member)

/-- Closing braces that were added at the end stand behind every other character. -/
private theorem split_closers {front before after : List Char} {c : Char} {count : Nat}
    (other : c ≠ '}') (same : front ++ List.replicate count '}' = before ++ c :: after) :
    ∃ inside, front = before ++ c :: inside ∧ after = inside ++ List.replicate count '}' := by
  have outside : c ∉ List.replicate count '}' :=
    fun member => other (List.eq_of_mem_replicate member)
  rcases List.append_eq_append_iff.mp same with ⟨between, rfl, closers⟩ | ⟨between, rfl, closers⟩
  · rw [closers] at outside
    simp at outside
  · cases between with
    | nil =>
      rw [List.nil_append] at closers
      rw [← closers] at outside
      simp at outside
    | cons first inside =>
      rw [List.cons_append, List.cons.injEq] at closers
      obtain ⟨rfl, rfl⟩ := closers
      exact ⟨inside, rfl, rfl⟩

mutual

theorem ItemText.passes {text front : List Char} {count : Nat} {item : Item}
    (derived : ItemText text item) (same : front ++ List.replicate count '}' = text)
    (rest : List Char) : (itemAt (front ++ rest)).Passes rest := by
  match derived with
  | @ItemText.spread before after blank blank' =>
    have dots : front ++ List.replicate count '}' = (before ++ ['.', '.']) ++ '.' :: after := by
      simpa using same
    obtain ⟨inside, rfl, rfl⟩ := split_closers (by decide) dots
    have found : Text.dropGap (before ++ ['.', '.'] ++ '.' :: inside ++ rest) =
        '.' :: '.' :: '.' :: (inside ++ rest) := by
      simp only [List.append_assoc]
      rw [dropGap_append blank]
      exact dropGap_cons (by decide) _
    rw [itemAt_spread found, dropGap_append blank'.of_append]
    exact Text.dropGap_length_le rest
  | .named blank field blank' => exact field.passes blank blank' same rest

theorem FieldText.passes {before text after front : List Char} {count : Nat} {field : Field}
    (derived : FieldText text field) (blank : IsGap before) (blank' : IsGap after)
    (same : front ++ List.replicate count '}' = before ++ (text ++ after)) (rest : List Char) :
    (itemAt (front ++ rest)).Passes rest := by
  match derived with
  | .whole letters =>
    obtain ⟨init, c, rfl⟩ := (List.eq_nil_or_concat' text).resolve_left letters.1
    have letter : c ≠ '}' := by
      rintro rfl
      have name := letters.2 '}' (by simp)
      rw [isNameChar_close] at name
      contradiction
    have last : front ++ List.replicate count '}' = before ++ init ++ c :: after := by
      simpa using same
    obtain ⟨inside, rfl, rfl⟩ := split_closers letter last
    have passes := itemAt_name_passes blank letters blank'.of_append rest
    simpa using passes
  | @FieldText.expanded name gap inner body letters blank'' derived =>
    have brace : front ++ List.replicate count '}' =
        before ++ (name ++ gap) ++ '{' :: (inner ++ '}' :: after) := by
      simpa using same
    obtain ⟨inside, rfl, cut⟩ := split_closers (by decide) brace
    have opened := itemAt_open blank letters blank'' (inside ++ rest)
    have passes : (expansion name ('{' :: (inside ++ rest))).Passes rest := by
      rcases List.append_eq_append_iff.mp cut with ⟨between, rfl, closed⟩ | ⟨between, cut', closed⟩
      · cases between with
        | nil =>
          have whole : inner ++ [] ++ List.replicate 0 '}' = inner := by simp
          exact derived.passes whole rest
        | cons c more =>
          -- The field is closed, so that only the gap behind it is left to be passed.
          obtain ⟨rfl, rfl⟩ := List.cons.inj closed
          have read : expansion name ('{' :: (inner ++ '}' :: (more ++ rest))) =
              .read _ (Text.dropGap (more ++ rest)) := derived.reads
          rw [List.append_assoc, List.cons_append, read, dropGap_append blank'.of_append]
          exact Text.dropGap_length_le rest
      · -- The field is not closed yet, so that all that follows are closing braces.
        have closers := (List.append_eq_replicate_iff.mp closed.symm).2.1
        exact derived.passes (by rw [← closers, cut']) rest
    simpa [opened] using passes

theorem InnerText.passes {name text front : List Char} {count : Nat} {body : Selection}
    (derived : InnerText text body) (same : front ++ List.replicate count '}' = text)
    (rest : List Char) : (expansion name ('{' :: (front ++ rest))).Passes rest := by
  match derived with
  | .blank blank =>
    rw [← same] at blank
    exact expansion_gap_passes blank.of_append rest
  | .body derived => exact expansion_passes (derived.passes same rest)

theorem ItemsText.passes {text front : List Char} {count : Nat} {items : List Item}
    (derived : ItemsText text items) (same : front ++ List.replicate count '}' = text)
    (rest : List Char) : (bodyAt (front ++ rest)).Passes rest := by
  match derived with
  | .last item => exact bodyAt_passes (item.passes same rest)
  | @ItemsText.more piece back item items derived derived' =>
    obtain ⟨inside, rfl, more⟩ := split_closers (by decide) same
    have first := derived.reads (endsEntry_comma (inside ++ rest))
    rw [List.append_assoc, List.cons_append]
    exact bodyAt_passes_comma first (derived'.passes more.symm rest)

theorem BodyText.passes {text front : List Char} {count : Nat} {body : Selection}
    (derived : BodyText text body) (same : front ++ List.replicate count '}' = text)
    (rest : List Char) : (bodyAt (front ++ rest)).Passes rest := by
  match derived with
  | .entries items _ => exact items.passes same rest

end

theorem Completable.passes {front : List Char} {unclosed : Nat}
    (completable : Completable unclosed front) (rest : List Char) :
    (bodyAt (front ++ rest)).Passes rest := by
  obtain ⟨-, body, derived⟩ := completable
  exact derived.passes rfl rest

/-! ### The longest prefix that can be completed -/

/-- No longer prefix of the text can be completed. -/
structure LongestCompletable (text front : List Char) (unclosed : Nat) : Prop where
  inside : front <+: text
  completable : Completable unclosed front
  longest : ∀ other count, other <+: text → Completable count other → other.length ≤ front.length

theorem LongestCompletable.unique {text first second : List Char} {count count' : Nat}
    (one : LongestCompletable text first count) (other : LongestCompletable text second count') :
    first = second ∧ count = count' := by
  have shorter := one.longest second count' other.inside other.completable
  have longer := other.longest first count one.inside one.completable
  have below := List.prefix_of_prefix_length_le one.inside other.inside longer
  obtain rfl := below.eq_of_length (Nat.le_antisymm longer shorter)
  have opened := one.completable.1
  have opened' := other.completable.1
  exact ⟨rfl, by omega⟩

/-- What can be completed is the longest such prefix if whatever reading passes is behind it. -/
private theorem longestCompletable_of_stop {front rest : List Char} {unclosed : Nat}
    (completable : Completable unclosed front)
    (stops : ∀ tail, (bodyAt (front ++ rest)).Passes tail → rest.length ≤ tail.length) :
    LongestCompletable (front ++ rest) front unclosed := by
  refine ⟨List.prefix_append _ _, completable, ?_⟩
  rintro other count ⟨tail, cut⟩ completable'
  have passes := completable'.passes tail
  rw [cut] at passes
  have near := stops tail passes
  have total := congrArg List.length cut
  rw [List.length_append, List.length_append] at total
  omega

theorem longestCompletable_of_read {text rest : List Char} {body : Selection}
    (read : bodyAt text = .read body rest) :
    ∃ front, text = front ++ rest ∧ LongestCompletable text front 0 := by
  obtain ⟨front, derived, rfl⟩ := bodyAt_derives read
  have whole : BodyText (front ++ List.replicate 0 '}') body := by simpa using derived
  refine ⟨front, rfl, longestCompletable_of_stop whole.completable ?_⟩
  intro tail passes
  rwa [read] at passes

theorem longestCompletable_of_unclosed {text place : List Char}
    (stopped : bodyAt text = .unclosed place) :
    ∃ front count, text = front ++ place ∧ LongestCompletable text front (count + 1) := by
  obtain ⟨front, count, body, rfl, derived⟩ := bodyAt_unclosed stopped
  refine ⟨front, count, rfl, longestCompletable_of_stop derived.completable ?_⟩
  intro tail passes
  rwa [stopped] at passes

theorem not_completable_of_absent {text place front : List Char} {unclosed : Nat}
    (absent : bodyAt text = .absent place) (inside : front <+: text) :
    ¬ Completable unclosed front := by
  intro completable
  obtain ⟨rest, rfl⟩ := inside
  have passes := completable.passes rest
  rw [absent] at passes
  exact passes

/-- No entry is found where one would start, behind the gap. -/
theorem itemAt_eq_absent {text place : List Char} (absent : itemAt text = .absent place) :
    place = Text.dropGap text := by
  rcases item_start text with ⟨rest, found⟩ | ⟨name, rest, letters, ends, found⟩ | ⟨plain, nameless⟩
  · rw [itemAt_spread found] at absent
    cases absent
  · have passes := expansion_passes_self name (Text.dropGap rest)
    rw [← itemAt_name letters ends found, absent] at passes
    cases passes
  · rw [itemAt_nameless plain nameless] at absent
    cases absent
    rfl

theorem bodyAt_eq_absent {text place : List Char} (absent : bodyAt text = .absent place) :
    place = Text.dropGap text := by
  cases first : itemAt text with
  | read item left =>
    -- After an entry there is a body.
    have passes : (itemAt text).Passes left := by
      rw [first]
      exact Nat.le_refl left.length
    have passes' := bodyAt_passes passes
    rw [absent] at passes'
    cases passes'
  | absent place' =>
    simp only [bodyAt_eq, first] at absent
    cases absent
    exact itemAt_eq_absent first
  | unclosed place' =>
    simp only [bodyAt_eq, first] at absent
    cases absent

/-- The longest prefix that can be completed decides what reading the text comes to. -/
theorem LongestCompletable.reading {front rest : List Char} {unclosed : Nat}
    (longest : LongestCompletable (front ++ rest) front unclosed) :
    (unclosed = 0 ∧ ∃ body, bodyAt (front ++ rest) = .read body rest) ∨
      (0 < unclosed ∧ bodyAt (front ++ rest) = .unclosed rest) := by
  cases read : bodyAt (front ++ rest) with
  | read body left =>
    obtain ⟨front', cut, longest'⟩ := longestCompletable_of_read read
    obtain ⟨rfl, rfl⟩ := longest.unique longest'
    obtain rfl := List.append_cancel_left cut
    exact Or.inl ⟨rfl, body, rfl⟩
  | absent place =>
    exact absurd longest.completable (not_completable_of_absent read longest.inside)
  | unclosed place =>
    obtain ⟨front', count, cut, longest'⟩ := longestCompletable_of_unclosed read
    obtain ⟨rfl, rfl⟩ := longest.unique longest'
    obtain rfl := List.append_cancel_left cut
    exact Or.inr ⟨Nat.succ_pos count, rfl⟩

/-- Reading fails to find an entry, or there is a longest prefix that can be completed. -/
theorem absent_or_longestCompletable (text : List Char) :
    bodyAt text = .absent (Text.dropGap text) ∨
      ∃ front unclosed, LongestCompletable text front unclosed := by
  cases read : bodyAt text with
  | read body left =>
    obtain ⟨front, -, longest⟩ := longestCompletable_of_read read
    exact Or.inr ⟨front, 0, longest⟩
  | absent place => exact Or.inl (by rw [bodyAt_eq_absent read])
  | unclosed place =>
    obtain ⟨front, count, -, longest⟩ := longestCompletable_of_unclosed read
    exact Or.inr ⟨front, count + 1, longest⟩

theorem parseChars_of_accepted {text : List Char} (accepted : findTooDeep 0 text = none) :
    parseChars text =
      match bodyAt text with
      | .read selection [] => .ok selection
      | .read _ place => .error ⟨.textLeft, text, place⟩
      | .absent place => .error ⟨.entryMissing, text, place⟩
      | .unclosed place => .error ⟨.braceUnclosed, text, place⟩ := by
  unfold parseChars bodyAt
  rw [accepted]
  cases readBody text with
  | read body rest shorter => cases rest <;> rfl
  | absent place => rfl
  | unclosed place => rfl

end SelectionPlan.Selection
