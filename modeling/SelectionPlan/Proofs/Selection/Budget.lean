import SelectionPlan.Proofs.Selection.Depth

/-!
# The scan guards the reader

The nesting of a text is checked before it is read, by a scan that knows no grammar: it counts
braces over the whole text, also where reading has stopped long before, and takes a closing brace
that closes nothing for no brace at all. As long as reading goes on, though, every closing brace
closes an earlier one, so the scan counts just the braces that reading is inside of. A reader that
gives up at a brace too many therefore never gives up on a text that the scan accepts.
-/
namespace SelectionPlan.Selection

/-! ### What the scan counts -/

/-- How many braces the scan takes for open behind a text, when `depth` are open in front of it. -/
def openBehind (depth : Nat) : List Char → Nat
  | [] => depth
  | c :: rest =>
    if c = '{' then openBehind (depth + 1) rest
    else if c = '}' then openBehind (depth - 1) rest
    else openBehind depth rest

theorem findTooDeep_append {depth : Nat} {front : List Char}
    (accepted : findTooDeep depth front = none) (rest : List Char) :
    findTooDeep depth (front ++ rest) = findTooDeep (openBehind depth front) rest := by
  induction front generalizing depth with
  | nil => rfl
  | cons c front ih =>
    rw [List.cons_append]
    simp only [findTooDeep, openBehind] at accepted ⊢
    split_ifs at accepted ⊢ <;> exact ih accepted

theorem findTooDeep_front {depth : Nat} {front rest : List Char}
    (accepted : findTooDeep depth (front ++ rest) = none) : findTooDeep depth front = none := by
  induction front generalizing depth with
  | nil => rfl
  | cons c front ih =>
    rw [List.cons_append] at accepted
    simp only [findTooDeep] at accepted ⊢
    split_ifs at accepted ⊢ <;> exact ih accepted

/-- Where every closing brace closes something, the scan counts what is open. -/
theorem openBehind_add_count {text : List Char} (depth : Nat)
    (covered : ∀ front, front <+: text → front.count '}' ≤ front.count '{' + depth) :
    openBehind depth text + text.count '}' = text.count '{' + depth := by
  induction text generalizing depth with
  | nil => simp [openBehind]
  | cons c rest ih =>
    rw [forall_prefix_cons] at covered
    obtain ⟨-, covered⟩ := covered
    rcases eq_or_ne c '{' with rfl | unopened
    · simp only [counts_open] at covered ⊢
      have below := ih (depth + 1) fun front below => by
        have bound := covered front below
        omega
      rw [openBehind, if_pos rfl]
      omega
    · rcases eq_or_ne c '}' with rfl | unclosed
      · simp only [counts_close] at covered ⊢
        have positive := covered [] List.nil_prefix
        simp only [List.count_nil] at positive
        have below := ih (depth - 1) fun front below => by
          have bound := covered front below
          omega
        rw [openBehind, if_neg unopened, if_pos rfl]
        omega
      · simp only [counts_other unopened unclosed] at covered ⊢
        rw [openBehind, if_neg unopened, if_neg unclosed]
        exact ih depth covered

theorem Balanced.openBehind_eq {text : List Char} (balanced : Balanced text) (depth : Nat) :
    openBehind depth text = depth := by
  have counted := openBehind_add_count depth fun front below =>
    Nat.le_add_right_of_le (balanced.covered front below)
  have closed := balanced.closed
  omega

/-- Behind a balanced piece the scan goes on as in front of it. -/
theorem Balanced.findTooDeep_behind {front rest : List Char} {depth : Nat} (balanced : Balanced front)
    (accepted : findTooDeep depth (front ++ rest) = none) : findTooDeep depth rest = none := by
  rwa [findTooDeep_append (findTooDeep_front accepted), balanced.openBehind_eq] at accepted

theorem findTooDeep_open {depth : Nat} {inner : List Char}
    (accepted : findTooDeep depth ('{' :: inner) = none) :
    depth < maxDepth ∧ findTooDeep (depth + 1) inner = none := by
  rw [findTooDeep, if_pos rfl] at accepted
  split_ifs at accepted with full
  exact ⟨Nat.lt_of_not_le full, accepted⟩

/-! ### Reading within a budget -/

theorem dropGap_dots_length_lt {text rest : List Char}
    (found : Text.dropGap text = '.' :: '.' :: '.' :: rest) :
    (Text.dropGap rest).length < text.length := by
  have front := Text.dropGap_length_le text
  have back := Text.dropGap_length_le rest
  simp only [found, List.length_cons] at front
  omega

theorem dropGap_name_length_lt {text start : List Char} (found : Text.dropGap text = start)
    (named : start.takeWhile isNameChar ≠ []) :
    (Text.dropGap (start.dropWhile isNameChar)).length < text.length := by
  have front := Text.dropGap_length_le text
  have back := dropGap_dropWhile_length_lt named
  rw [found] at front
  omega

mutual

/-- Reads an entry, and gives up when more than `room` braces are open at once. -/
def itemWithin (room : Nat) (text : List Char) : Option (Attempt Item text) :=
  match found : Text.dropGap text with
  | '.' :: '.' :: '.' :: rest =>
    some (.read .spread (Text.dropGap rest) (dropGap_dots_length_lt found))
  | start =>
    if named : start.takeWhile isNameChar = [] then some (.absent start)
    else
      have shorter := dropGap_name_length_lt found named
      match opened : Text.dropGap (start.dropWhile isNameChar) with
      | '{' :: inner =>
        have inside : inner.length < text.length := by
          rw [opened, List.length_cons] at shorter
          omega
        match room with
        | 0 => none
        | room + 1 =>
          match bodyWithin room inner with
          | none => none
          | some (.read body rest shorterRest) =>
            some (closeField (start.takeWhile isNameChar) body rest
              (Nat.lt_trans shorterRest inside))
          | some (.absent _) =>
            some (closeField (start.takeWhile isNameChar) everything inner inside)
          | some (.unclosed place) => some (.unclosed place)
      | rest =>
        some (.read (.named ⟨String.ofList (start.takeWhile isNameChar), none⟩) rest
          (by rwa [opened] at shorter))
termination_by (text.length, 0)

def bodyWithin (room : Nat) (text : List Char) : Option (Attempt Selection text) :=
  match itemWithin room text with
  | none => none
  | some (.read item rest shorter) =>
    match moreWithin room rest with
    | none => none
    | some (.ok ⟨(items, after), notLonger⟩) =>
      some (.read (ofItems (item :: items)) after (Nat.lt_of_le_of_lt notLonger shorter))
    | some (.error place) => some (.unclosed place)
  | some (.absent place) => some (.absent place)
  | some (.unclosed place) => some (.unclosed place)
termination_by (text.length, 1)

def moreWithin (room : Nat) (text : List Char) :
    Option (Except (List Char) { read : List Item × List Char // read.2.length ≤ text.length }) :=
  match text with
  | ',' :: next =>
    match itemWithin room next with
    | none => none
    | some (.read item rest shorter) =>
      match moreWithin room rest with
      | none => none
      | some (.ok ⟨(items, after), notLonger⟩) =>
        some (.ok ⟨(item :: items, after),
          Nat.le_succ_of_le (Nat.le_trans notLonger (Nat.le_of_lt shorter))⟩)
      | some (.error place) => some (.error place)
    | some (.absent _) => some (.ok ⟨([], ',' :: next), Nat.le_refl _⟩)
    | some (.unclosed place) => some (.error place)
  | text => some (.ok ⟨([], text), Nat.le_refl _⟩)
termination_by (text.length, 0)

end

theorem Attempt.reading_injective {α : Type} {text : List Char} :
    Function.Injective (Attempt.reading : Attempt α text → Reading α) := by
  intro first second same
  cases first <;> cases second <;> cases same <;> rfl

/-- The budget does not show in reading an entry if it lasts for what its brace opens. -/
theorem itemWithin_of_enough {room : Nat} {text : List Char}
    (enough : ∀ inner, (Text.dropGap text).takeWhile isNameChar ≠ [] →
      Text.dropGap ((Text.dropGap text).dropWhile isNameChar) = '{' :: inner →
      ∃ less, room = less + 1 ∧ bodyWithin less inner = some (readBody inner)) :
    itemWithin room text = some (readItem text) := by
  apply Option.map_injective Attempt.reading_injective
  change _ = some (itemAt text)
  rw [itemWithin]
  split
  next rest found =>
    rw [itemAt_spread found]
    rfl
  next plain =>
    split
    next nameless =>
      rw [itemAt_nameless plain nameless]
      rfl
    next named =>
      have read := itemAt_name (isName_takeWhile named) (takeWhile_dropWhile _)
        List.takeWhile_append_dropWhile.symm
      dsimp only
      split
      next inner opened =>
        obtain ⟨less, rfl, body⟩ := enough inner named opened
        rw [opened, expansion, bodyAt] at read
        rw [read]
        simp only [body]
        cases readBody inner with
        | read body rest shorter => exact congrArg some (reading_closeField _ _ _ _)
        | absent place => exact congrArg some (reading_closeField _ _ _ _)
        | unclosed place => rfl
      next unopened =>
        rw [read, expansion]
        · rfl
        · exact unopened

/-- Behind an entry that was read the scan goes on as in front of it. -/
theorem findTooDeep_behind_item {depth : Nat} {text rest : List Char} {item : Item}
    {shorter : rest.length < text.length} (read : readItem text = .read item rest shorter)
    (accepted : findTooDeep depth text = none) : findTooDeep depth rest = none := by
  have taken : itemAt text = .read item rest := by
    rw [itemAt, read]
    rfl
  obtain ⟨front, derived, cut⟩ := itemAt_derives taken
  rw [cut] at accepted
  exact derived.balanced.findTooDeep_behind accepted

mutual

-- Where the scan accepts the rest of a text with `depth` braces open, there is room for whatever
-- reading comes to. The recursion is that of reading.
theorem itemWithin_eq {room depth : Nat} {text : List Char} (budget : depth + room = maxDepth)
    (accepted : findTooDeep depth text = none) : itemWithin room text = some (readItem text) := by
  refine itemWithin_of_enough fun inner named opened => ?_
  -- In front of the brace stand a gap, a name and another gap.
  obtain ⟨before, blank, front⟩ := exists_gap text
  obtain ⟨gap, blank', back⟩ := exists_gap ((Text.dropGap text).dropWhile isNameChar)
  have cut : text = before ++ ((Text.dropGap text).takeWhile isNameChar ++ (gap ++ '{' :: inner)) := by
    rw [← opened, ← back, List.takeWhile_append_dropWhile, ← front]
  rw [cut] at accepted
  have brace := blank'.balanced.findTooDeep_behind ((isName_takeWhile named).balanced.findTooDeep_behind
    (blank.balanced.findTooDeep_behind accepted))
  obtain ⟨open', inside⟩ := findTooDeep_open brace
  have smaller : inner.length < text.length := by
    have shorter := dropGap_name_length_lt rfl named
    rw [opened, List.length_cons] at shorter
    omega
  exact ⟨room - 1, by omega, bodyWithin_eq (by omega) inside⟩
termination_by (text.length, 0)

theorem bodyWithin_eq {room depth : Nat} {text : List Char} (budget : depth + room = maxDepth)
    (accepted : findTooDeep depth text = none) : bodyWithin room text = some (readBody text) := by
  rw [bodyWithin, readBody, itemWithin_eq budget accepted]
  cases first : readItem text with
  | read item rest shorter =>
    have behind := findTooDeep_behind_item first accepted
    simp only [moreWithin_eq budget behind]
    cases readMore rest <;> rfl
  | absent place => rfl
  | unclosed place => rfl
termination_by (text.length, 1)

theorem moreWithin_eq {room depth : Nat} {text : List Char} (budget : depth + room = maxDepth)
    (accepted : findTooDeep depth text = none) : moreWithin room text = some (readMore text) := by
  by_cases comma : ∃ next, text = ',' :: next
  · obtain ⟨next, starts⟩ := comma
    have smaller : next.length < text.length := by
      rw [starts]
      exact Nat.lt_succ_self _
    rw [starts] at accepted ⊢
    have after : findTooDeep depth next = none := by
      have comma : Balanced [','] := balanced_of_plain (by simp)
      exact comma.findTooDeep_behind accepted
    rw [moreWithin, readMore, itemWithin_eq budget after]
    cases first : readItem next with
    | read item rest shorter =>
      have behind := findTooDeep_behind_item first after
      simp only [moreWithin_eq budget behind]
      cases readMore rest <;> rfl
    | absent place => rfl
    | unclosed place => rfl
  · have ends : ∀ next, text ≠ ',' :: next := fun next starts => comma ⟨next, starts⟩
    rw [moreWithin, readMore]
    · exact ends
    · exact ends
termination_by (text.length, 0)

end

/-! ### Where the scan stops -/

/-- The brace between `front` and `rest` is the first one in the text that opens a level below the
limit. -/
structure FirstTooDeep (limit : Nat) (text front rest : List Char) : Prop where
  cut : text = front ++ '{' :: rest
  within : NestsWithin limit front
  full : front.count '{' = front.count '}' + limit

/-- The scan stops at a brace that it accepts everything in front of. -/
theorem findTooDeep_eq_some {text place : List Char} {depth : Nat} (within : depth ≤ maxDepth)
    (found : findTooDeep depth text = some place) :
    ∃ front rest, text = front ++ place ∧ place = '{' :: rest ∧ findTooDeep depth front = none ∧
      openBehind depth front = maxDepth := by
  induction text generalizing depth with
  | nil => cases found
  | cons c text ih =>
    simp only [findTooDeep] at found
    split_ifs at found with opens full closes
    · cases found
      exact ⟨[], text, rfl, by rw [opens], rfl, Nat.le_antisymm within full⟩
    · obtain ⟨front, rest, rfl, brace, accepted, open'⟩ := ih (Nat.lt_of_not_le full) found
      refine ⟨c :: front, rest, rfl, brace, ?_, ?_⟩
      · rwa [findTooDeep, if_pos opens, if_neg full]
      · rwa [openBehind, if_pos opens]
    · obtain ⟨front, rest, rfl, brace, accepted, open'⟩ := ih (by omega) found
      refine ⟨c :: front, rest, rfl, brace, ?_, ?_⟩
      · rwa [findTooDeep, if_neg opens, if_pos closes]
      · rwa [openBehind, if_neg opens, if_pos closes]
    · obtain ⟨front, rest, rfl, brace, accepted, open'⟩ := ih within found
      refine ⟨c :: front, rest, rfl, brace, ?_, ?_⟩
      · rwa [findTooDeep, if_neg opens, if_neg closes]
      · rwa [openBehind, if_neg opens, if_neg closes]

theorem Balanced.firstTooDeep {text place : List Char} (balanced : Balanced text)
    (found : findTooDeep 0 text = some place) :
    ∃ front rest, FirstTooDeep maxDepth text front rest ∧ place = '{' :: rest := by
  obtain ⟨front, rest, cut, rfl, accepted, open'⟩ := findTooDeep_eq_some (Nat.zero_le _) found
  have covered : ∀ part, part <+: front → part.count '}' ≤ part.count '{' + 0 :=
    fun part below => balanced.covered part (below.trans ⟨_, cut.symm⟩)
  have counted := openBehind_add_count 0 covered
  have within := (findTooDeep_eq_none_iff (Nat.zero_le _) covered).mp accepted
  exact ⟨front, rest, ⟨cut, within, by omega⟩, rfl⟩

/-- On every text that the scan accepts, reading never has more than 64 braces open at once, so that
a budget of 64 levels changes nothing. Of the texts that the grammar derives the scan refuses just
those whose braces nest deeper, at the first brace that opens a level too many. -/
theorem scan_guards_reading (text : String) :
    (findTooDeep 0 text.toList = none →
      bodyWithin 64 text.toList = some (readBody text.toList)) ∧
    ∀ selection, BodyText text.toList selection →
      (findTooDeep 0 text.toList = none ↔ NestsWithin 64 text.toList) ∧
      ∀ place, findTooDeep 0 text.toList = some place →
        parse text = .error ⟨.nestedTooDeep, text.toList, place⟩ ∧
        ∃ front rest, FirstTooDeep 64 text.toList front rest ∧ place = '{' :: rest ∧
          SyntaxError.details ⟨.nestedTooDeep, text.toList, place⟩ =
            s!"nesting deeper than 64 at offset {Text.byteSize front}" := by
  refine ⟨fun accepted => bodyWithin_eq (Nat.zero_add _) accepted, ?_⟩
  intro selection derived
  refine ⟨derived.balanced.findTooDeep_iff, ?_⟩
  intro place found
  refine ⟨by rw [parse, parseChars, found], ?_⟩
  obtain ⟨front, rest, first, rfl⟩ := derived.balanced.firstTooDeep found
  have offset := Text.offset_append front ('{' :: rest)
  rw [← first.cut] at offset
  refine ⟨front, rest, first, rfl, ?_⟩
  rw [SyntaxError.details, SyntaxError.offset, offset]
  rfl

end SelectionPlan.Selection
