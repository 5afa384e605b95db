import SelectionPlan.Json.Printer
import SelectionPlan.Proofs.Json.Readers
import Mathlib.Data.List.TakeWhile

/-!
# Printed values read back

A printed value is read as the value again, whatever follows it. Strings hold any characters; only
numbers are left out.
-/
namespace SelectionPlan.Json

open Draft (isGap readItems readKey readMember readMembers readValue)
open Scalar (hasFourBytes hexUnit isLeading isTrailing readString unicodeEscape)

/-! ### Strings -/

theorem unicodeEscape_control {code : Nat} (control : code < 0x20) (rest : List Char) :
    unicodeEscape ('0' :: '0' :: Nat.digitChar (code / 16) :: Nat.digitChar (code % 16) :: rest) =
      .ok (Char.ofNat code, rest) := by
  have digits : ∀ code < 0x20,
      hasFourBytes ['0', '0', Nat.digitChar (code / 16), Nat.digitChar (code % 16)] = true ∧
        Text.number? 16 ['0', '0', Nat.digitChar (code / 16), Nat.digitChar (code % 16)] =
          some code ∧ isTrailing code = false ∧ isLeading code = false := by decide
  obtain ⟨enough, number, notTrailing, notLeading⟩ := digits code control
  have unit : hexUnit ('0' :: '0' :: Nat.digitChar (code / 16) :: Nat.digitChar (code % 16) ::
      rest) = .ok (code, rest) := by
    have enough' : hasFourBytes ('0' :: '0' :: Nat.digitChar (code / 16) ::
        Nat.digitChar (code % 16) :: rest) = true := enough
    rw [hexUnit, if_pos enough']
    simp only [List.take_succ_cons, List.take_zero, number, List.drop_succ_cons, List.drop_zero]
  rw [unicodeEscape, unit]
  simp [bind, Except.bind, notTrailing, notLeading, pure, Except.pure]

theorem readString_escapeChar (fuel : Nat) (c : Char) (rest : List Char) :
    readString (fuel + 1) (escapeChar c ++ rest) = (do
      let (values, done) ← readString fuel rest
      return (c :: values, done)) := by
  -- Seven characters have an escape of their own. Of the others, control characters are written by
  -- their code and all the rest as they are.
  by_cases simple : c ∈ ['"', '\\', '\x08', '\x0c', '\n', '\r', '\t']
  · simp only [List.mem_cons, List.not_mem_nil, or_false] at simple
    rcases simple with rfl | rfl | rfl | rfl | rfl | rfl | rfl <;> rfl
  · simp only [List.mem_cons, List.not_mem_nil, or_false, not_or] at simple
    simp only [escapeChar, simple, if_false]
    split
    · next control =>
      have value := unicodeEscape_control control rest
      rw [Char.ofNat_toNat] at value
      simp only [List.cons_append, List.nil_append]
      rw [Scalar.readString.eq_def]
      simp only [value]
      rfl
    · next visible =>
      rw [List.singleton_append, Scalar.readString.eq_def]
      simp only [simple, if_false, if_neg visible]

/-- A string is read up to the quote behind it, one character in each round. -/
theorem readString_flatMap {chars : List Char} {fuel : Nat} (enough : chars.length < fuel)
    (rest : List Char) :
    readString fuel (chars.flatMap escapeChar ++ '"' :: rest) = .ok (chars, rest) := by
  induction chars generalizing fuel with
  | nil =>
    obtain _ | fuel := fuel
    · exact absurd enough (Nat.not_lt_zero _)
    · rfl
  | cons c chars ih =>
    obtain _ | fuel := fuel
    · exact absurd enough (Nat.not_lt_zero _)
    · rw [List.flatMap_cons, List.append_assoc, readString_escapeChar,
        ih (Nat.lt_of_succ_lt_succ enough)]
      rfl

theorem length_escapeChar_pos (c : Char) : 0 < (escapeChar c).length := by
  unfold escapeChar
  repeat' split
  all_goals exact Nat.succ_pos _

theorem length_le_flatMap (chars : List Char) :
    chars.length ≤ (chars.flatMap escapeChar).length := by
  induction chars with
  | nil => exact Nat.le_refl _
  | cons c chars ih =>
    have pos := length_escapeChar_pos c
    rw [List.flatMap_cons, List.length_append, List.length_cons]
    omega

theorem readString_stringText (value : String) (rest : List Char) :
    ∃ text, stringText value ++ rest = '"' :: text ∧
      readString (text.length + 1) text = .ok (value.toList, rest) := by
  refine ⟨value.toList.flatMap escapeChar ++ '"' :: rest, by simp [stringText], ?_⟩
  refine readString_flatMap ?_ rest
  have shorter := length_le_flatMap value.toList
  rw [List.length_append]
  omega

/-! ### Layout -/

theorem length_newLine (level : Nat) : (newLine level).length = 2 * level + 1 := by
  simp [newLine]

theorem isGap_newLine (level : Nat) : ∀ c ∈ newLine level, isGap c = true := by
  intro c member
  rcases List.mem_cons.mp member with rfl | member
  · rfl
  · rw [List.eq_of_mem_replicate member]
    rfl

theorem readValue_gap {gap : List Char} (blank : ∀ c ∈ gap, isGap c = true) (fuel room : Nat)
    (text : List Char) : readValue fuel room (gap ++ text) = readValue fuel room text := by
  cases fuel with
  | zero => rw [readValue, readValue]
  | succ fuel => simp only [readValue, List.dropWhile_append_of_pos blank]

/-- Begins with a character of a value, which is neither white space nor a closing bracket. -/
def Begins (text : List Char) : Prop :=
  ∃ c rest, text = c :: rest ∧ isGap c = false ∧ c ≠ ']'

theorem Begins.append {text : List Char} (begins : Begins text) (rest : List Char) :
    Begins (text ++ rest) := by
  obtain ⟨c, others, rfl, visible, opens⟩ := begins
  exact ⟨c, others ++ rest, rfl, visible, opens⟩

/-- Reads as a value in as many rounds, and with room for as many brackets, as the text is long,
whatever follows it. -/
def ReadsBack (text : List Char) (value : Json) : Prop :=
  ∀ fuel room rest, text.length ≤ fuel → text.length ≤ room →
    ∃ draft, readValue fuel room (text ++ rest) = (draft, some rest) ∧
      draft.complete = .ok value

/-! ### Arrays -/

theorem readItems_closed {gap : List Char} (blank : ∀ c ∈ gap, isGap c = true) (fuel room : Nat)
    (first : Bool) (rest : List Char) :
    readItems (fuel + 1) room first (gap ++ ']' :: rest) = (.closed rest, some rest) := by
  rw [readItems, List.dropWhile_append_of_pos blank]
  rfl

theorem readItems_first {gap text after : List Char} {fuel room : Nat} {draft : Draft}
    (blank : ∀ c ∈ gap, isGap c = true) (begins : Begins text)
    (found : readValue fuel room text = (draft, some after)) :
    readItems (fuel + 1) room true (gap ++ text) =
      (.item draft (readItems fuel room false after).1, (readItems fuel room false after).2) := by
  obtain ⟨c, rest, rfl, visible, opens⟩ := begins
  rw [readItems, List.dropWhile_append_of_pos blank, List.dropWhile_cons_of_neg (by simp [visible])]
  split
  · next none => cases none
  · next closed =>
    cases closed
    exact absurd rfl opens
  · next same =>
    cases same
    simp [found]

theorem readItems_next {gap text after : List Char} {fuel room : Nat} {draft : Draft}
    (blank : ∀ c ∈ gap, isGap c = true)
    (found : readValue fuel room text = (draft, some after)) :
    readItems (fuel + 1) room false (',' :: (gap ++ text)) =
      (.item draft (readItems fuel room false after).1, (readItems fuel room false after).2) := by
  rw [readItems, List.dropWhile_cons_of_neg (by decide)]
  simp [readValue_gap blank, found]

/-- The items behind the first one, up to the closing bracket. Each takes a round, and the comma in
front of it pays for that. -/
theorem readItems_prettyItems {items : List Json} {level : Nat}
    (each : ∀ item ∈ items, ReadsBack (prettyAt level item) item) {fuel room : Nat}
    (enough : (prettyItems level items).length < fuel)
    (roomy : (prettyItems level items).length ≤ room) {gap : List Char}
    (blank : ∀ c ∈ gap, isGap c = true) (rest : List Char) :
    ∃ draft, readItems fuel room false (prettyItems level items ++ (gap ++ ']' :: rest)) =
      (draft, some rest) ∧ Draft.completeItems draft = .ok items := by
  induction items generalizing fuel with
  | nil =>
    obtain _ | fuel := fuel
    · exact absurd enough (Nat.not_lt_zero _)
    · exact ⟨_, readItems_closed blank fuel room false rest, rfl⟩
  | cons item items ih =>
    obtain _ | fuel := fuel
    · exact absurd enough (Nat.not_lt_zero _)
    obtain ⟨own, each⟩ := List.forall_mem_cons.mp each
    have printed : prettyItems level (item :: items) =
        ',' :: (newLine level ++ (prettyAt level item ++ prettyItems level items)) := by
      simp [prettyItems]
    rw [printed] at enough roomy ⊢
    simp only [List.length_cons, List.length_append] at enough roomy
    have shorter : (prettyItems level items).length < fuel := by omega
    obtain ⟨others, found', whole'⟩ := ih each shorter (by omega)
    obtain ⟨first, found, whole⟩ := own fuel room
      (prettyItems level items ++ (gap ++ ']' :: rest)) (by omega) (by omega)
    refine ⟨.item first others, ?_, ?_⟩
    · rw [List.cons_append, List.append_assoc, List.append_assoc,
        readItems_next (isGap_newLine level) found, found']
    · rw [Draft.completeItems, whole, whole']
      rfl

theorem readsBack_brackets {inside : List Char} {items : List Json}
    (reads : ∀ fuel room rest, inside.length < fuel → inside.length ≤ room →
      ∃ draft, readItems fuel room true (inside ++ ']' :: rest) = (draft, some rest) ∧
        Draft.completeItems draft = .ok items) :
    ReadsBack ('[' :: (inside ++ [']'])) (.array items) := by
  intro fuel room rest enough roomy
  simp only [List.length_cons, List.length_append, List.length_nil] at enough roomy
  obtain ⟨fuel, rfl⟩ : ∃ rounds, fuel = rounds + 1 := ⟨fuel - 1, by omega⟩
  obtain ⟨draft, found, whole⟩ := reads fuel (room - 1) rest (by omega) (by omega)
  refine ⟨.array draft ('[' :: (inside ++ ']' :: rest)), ?_, ?_⟩
  · have some : room ≠ 0 := by omega
    simp [readValue, isGap, found, Draft.nested, some]
  · rw [Draft.complete, whole]
    rfl

theorem readsBack_array {items : List Json} {level : Nat}
    (each : ∀ item ∈ items, ReadsBack (prettyAt (level + 1) item) item ∧
      Begins (prettyAt (level + 1) item)) :
    ReadsBack (prettyAt level (.array items)) (.array items) := by
  cases items with
  | nil =>
    rw [prettyAt]
    refine @readsBack_brackets [] [] fun fuel room rest enough _ => ?_
    obtain ⟨fuel, rfl⟩ : ∃ rounds, fuel = rounds + 1 := ⟨fuel - 1, by omega⟩
    exact ⟨_, readItems_closed (List.forall_mem_nil _) fuel room true rest, rfl⟩
  | cons item items =>
    obtain ⟨⟨own, begins⟩, each⟩ := List.forall_mem_cons.mp each
    have printed : prettyAt level (.array (item :: items)) = '[' ::
        ((newLine (level + 1) ++ (prettyAt (level + 1) item ++
          (prettyItems (level + 1) items ++ newLine level))) ++ [']']) := by
      simp [prettyAt]
    rw [printed]
    refine readsBack_brackets fun fuel room rest enough roomy => ?_
    simp only [List.length_append, length_newLine] at enough roomy
    obtain ⟨fuel, rfl⟩ : ∃ rounds, fuel = rounds + 1 := ⟨fuel - 1, by omega⟩
    obtain ⟨others, found', whole'⟩ := readItems_prettyItems
      (fun item member => (each item member).1) (show _ < fuel by omega) (show _ ≤ room by omega)
      (isGap_newLine level) rest
    obtain ⟨first, found, whole⟩ := own fuel room
      (prettyItems (level + 1) items ++ (newLine level ++ ']' :: rest)) (by omega) (by omega)
    refine ⟨.item first others, ?_, ?_⟩
    · simp only [List.append_assoc]
      rw [readItems_first (isGap_newLine _) (begins.append _) found, found']
    · rw [Draft.completeItems, whole, whole']
      rfl

/-! ### Objects -/

theorem readMembers_closed {gap : List Char} (blank : ∀ c ∈ gap, isGap c = true) (fuel room : Nat)
    (first : Bool) (rest : List Char) :
    readMembers (fuel + 1) room first (gap ++ '}' :: rest) = (.closed rest, some rest) := by
  rw [readMembers, List.dropWhile_append_of_pos blank]
  rfl

/-- A member is its key, a colon and its value, and then come the others. The key and the value take
a round each. -/
theorem readKey_stringText (key : String) {text after rest : List Char} {value : Json}
    {members : List (String × Json)} {others : Members} {fuel room : Nat}
    (own : ReadsBack text value) (enough : text.length ≤ fuel) (roomy : text.length ≤ room)
    (behind : readMembers fuel room false after = (others, some rest))
    (whole : Draft.completeMembers others = .ok members) :
    ∃ draft, readKey (fuel + 2) room (stringText key ++ ([':', ' '] ++ (text ++ after))) =
      (draft, some rest) ∧ Draft.completeMembers draft = .ok ((key, value) :: members) := by
  obtain ⟨first, found, whole'⟩ := own fuel room after enough roomy
  obtain ⟨quoted, same, read⟩ := readString_stringText key ([':', ' '] ++ (text ++ after))
  have blank : ∀ c ∈ [' '], isGap c = true := List.forall_mem_singleton.mpr rfl
  have spaced : readValue fuel room (' ' :: (text ++ after)) = (first, some after) :=
    (readValue_gap blank fuel room (text ++ after)).trans found
  refine ⟨.member key (':' :: ' ' :: (text ++ after)) first others, ?_, ?_⟩
  · rw [same, readKey, if_pos rfl, read]
    simp [readMember, isGap, spaced, behind]
  · rw [Draft.completeMembers, whole', whole]
    rfl

theorem readMembers_first {gap rest : List Char} {fuel room : Nat}
    (blank : ∀ c ∈ gap, isGap c = true) (key : String) :
    readMembers (fuel + 1) room true (gap ++ (stringText key ++ rest)) =
      readKey fuel room (stringText key ++ rest) := by
  rw [readMembers, List.dropWhile_append_of_pos blank]
  simp [stringText, isGap]

theorem readMembers_next {gap rest : List Char} {fuel room : Nat}
    (blank : ∀ c ∈ gap, isGap c = true) (key : String) :
    readMembers (fuel + 1) room false (',' :: (gap ++ (stringText key ++ rest))) =
      readKey fuel room (stringText key ++ rest) := by
  rw [readMembers, List.dropWhile_cons_of_neg (by decide)]
  change readKey fuel room ((gap ++ (stringText key ++ rest)).dropWhile isGap) = _
  rw [List.dropWhile_append_of_pos blank]
  simp [stringText, isGap]

/-- The members behind the first one, up to the closing brace. Each takes three rounds, which the
comma and the two quotes of its key pay for. -/
theorem readMembers_prettyMembers {members : List (String × Json)} {level : Nat}
    (each : ∀ member ∈ members, ReadsBack (prettyAt level member.2) member.2) {fuel room : Nat}
    (enough : (prettyMembers level members).length < fuel)
    (roomy : (prettyMembers level members).length ≤ room) {gap : List Char}
    (blank : ∀ c ∈ gap, isGap c = true) (rest : List Char) :
    ∃ draft, readMembers fuel room false (prettyMembers level members ++ (gap ++ '}' :: rest)) =
      (draft, some rest) ∧ Draft.completeMembers draft = .ok members := by
  induction members generalizing fuel with
  | nil =>
    obtain _ | fuel := fuel
    · exact absurd enough (Nat.not_lt_zero _)
    · exact ⟨_, readMembers_closed blank fuel room false rest, rfl⟩
  | cons member members ih =>
    obtain ⟨key, value⟩ := member
    obtain ⟨own, each⟩ := List.forall_mem_cons.mp each
    dsimp only at own
    have printed : prettyMembers level ((key, value) :: members) = ',' ::
        (newLine level ++ (stringText key ++ ([':', ' '] ++
          (prettyAt level value ++ prettyMembers level members)))) := by
      simp [prettyMembers]
    rw [printed] at enough roomy ⊢
    simp only [List.length_cons, List.length_append, List.length_nil] at enough roomy
    obtain ⟨fuel, rfl⟩ : ∃ rounds, fuel = rounds + 3 := ⟨fuel - 3, by omega⟩
    have shorter : (prettyMembers level members).length < fuel := by omega
    obtain ⟨others, behind, whole⟩ := ih each shorter (by omega)
    obtain ⟨draft, found, whole'⟩ := readKey_stringText key own (by omega) (by omega) behind whole
    refine ⟨draft, ?_, whole'⟩
    rw [List.cons_append, List.append_assoc, List.append_assoc, List.append_assoc,
      List.append_assoc, readMembers_next (isGap_newLine level) key, found]

theorem readsBack_braces {inside : List Char} {members : List (String × Json)}
    (reads : ∀ fuel room rest, inside.length < fuel → inside.length ≤ room →
      ∃ draft, readMembers fuel room true (inside ++ '}' :: rest) = (draft, some rest) ∧
        Draft.completeMembers draft = .ok members) :
    ReadsBack ('{' :: (inside ++ ['}'])) (.object members) := by
  intro fuel room rest enough roomy
  simp only [List.length_cons, List.length_append, List.length_nil] at enough roomy
  obtain ⟨fuel, rfl⟩ : ∃ rounds, fuel = rounds + 1 := ⟨fuel - 1, by omega⟩
  obtain ⟨draft, found, whole⟩ := reads fuel (room - 1) rest (by omega) (by omega)
  refine ⟨.object draft ('{' :: (inside ++ '}' :: rest)), ?_, ?_⟩
  · have some : room ≠ 0 := by omega
    simp [readValue, isGap, found, Draft.nested, some]
  · rw [Draft.complete, whole]
    rfl

theorem readsBack_object {members : List (String × Json)} {level : Nat}
    (each : ∀ member ∈ members, ReadsBack (prettyAt (level + 1) member.2) member.2) :
    ReadsBack (prettyAt level (.object members)) (.object members) := by
  cases members with
  | nil =>
    rw [prettyAt]
    refine @readsBack_braces [] [] fun fuel room rest enough _ => ?_
    obtain ⟨fuel, rfl⟩ : ∃ rounds, fuel = rounds + 1 := ⟨fuel - 1, by omega⟩
    exact ⟨_, readMembers_closed (List.forall_mem_nil _) fuel room true rest, rfl⟩
  | cons member members =>
    obtain ⟨key, value⟩ := member
    obtain ⟨own, each⟩ := List.forall_mem_cons.mp each
    dsimp only at own
    have printed : prettyAt level (.object ((key, value) :: members)) = '{' ::
        ((newLine (level + 1) ++ (stringText key ++ ([':', ' '] ++ (prettyAt (level + 1) value ++
          (prettyMembers (level + 1) members ++ newLine level))))) ++ ['}']) := by
      simp [prettyAt]
    rw [printed]
    refine readsBack_braces fun fuel room rest enough roomy => ?_
    simp only [List.length_append, List.length_cons, List.length_nil, length_newLine]
      at enough roomy
    obtain ⟨fuel, rfl⟩ : ∃ rounds, fuel = rounds + 3 := ⟨fuel - 3, by omega⟩
    obtain ⟨others, behind, whole⟩ := readMembers_prettyMembers each
      (show _ < fuel by omega) (show _ ≤ room by omega) (isGap_newLine level) rest
    obtain ⟨draft, found, whole'⟩ := readKey_stringText key own (by omega) (by omega) behind whole
    refine ⟨draft, ?_, whole'⟩
    simp only [List.append_assoc]
    rw [readMembers_first (isGap_newLine _) key, found]

/-! ### Values -/

/-- There is no number in a value. -/
inductive NumberFree : Json → Prop
  | null : NumberFree .null
  | bool (value : Bool) : NumberFree (.bool value)
  | string (value : String) : NumberFree (.string value)
  | array {items : List Json} : (∀ item ∈ items, NumberFree item) → NumberFree (.array items)
  | object {members : List (String × Json)} : (∀ member ∈ members, NumberFree member.2) →
    NumberFree (.object members)

theorem NumberFree.begins {value : Json} (free : NumberFree value) (level : Nat) :
    Begins (prettyAt level value) := by
  cases free with
  | null => exact ⟨'n', _, rfl, rfl, by decide⟩
  | bool value => cases value <;> exact ⟨_, _, rfl, rfl, by decide⟩
  | string value => exact ⟨'"', _, rfl, rfl, by decide⟩
  | @array items _ => cases items <;> exact ⟨'[', _, rfl, rfl, by decide⟩
  | @object members _ => cases members <;> exact ⟨'{', _, rfl, rfl, by decide⟩

/-- A scalar takes one round and needs no room. -/
theorem readsBack_scalar {text : List Char} {value : Json} (begins : Begins text)
    (reads : ∀ fuel room rest, ∃ draft, readValue (fuel + 1) room (text ++ rest) =
      (draft, some rest) ∧ draft.complete = .ok value) : ReadsBack text value := by
  intro fuel room rest enough _
  obtain ⟨c, others, rfl, -⟩ := begins
  obtain ⟨fuel, rfl⟩ : ∃ rounds, fuel = rounds + 1 :=
    ⟨fuel - 1, by rw [List.length_cons] at enough; omega⟩
  exact reads fuel room rest

theorem NumberFree.readsBack {value : Json} (free : NumberFree value) (level : Nat) :
    ReadsBack (prettyAt level value) value := by
  induction free generalizing level with
  | null =>
    refine readsBack_scalar (NumberFree.null.begins level) fun fuel room rest => ?_
    exact ⟨.null rest, by simp [prettyAt, readValue, isGap, Draft.word], rfl⟩
  | bool value =>
    refine readsBack_scalar ((NumberFree.bool value).begins level) fun fuel room rest => ?_
    refine ⟨.bool value rest, ?_, rfl⟩
    cases value <;> simp [prettyAt, readValue, isGap, Draft.word]
  | string value =>
    refine readsBack_scalar ((NumberFree.string value).begins level) fun fuel room rest => ?_
    obtain ⟨text, same, read⟩ := readString_stringText value rest
    refine ⟨.string value rest, ?_, rfl⟩
    rw [prettyAt, same, readValue]
    simp [isGap, Draft.ofScalar, read]
  | array free ih =>
    exact readsBack_array fun item member => ⟨ih item member _, (free item member).begins _⟩
  | object _ ih => exact readsBack_object fun member inside => ih member inside _

/-- A printed value is the value again when it is read, with any white space behind it. -/
theorem NumberFree.parse_pretty {value : Json} (free : NumberFree value) {behind : String}
    (blank : ∀ c ∈ behind.toList, isGap c = true) : parse (value.pretty ++ behind) = .ok value := by
  have chars : (value.pretty ++ behind).toList = prettyAt 0 value ++ behind.toList := by
    rw [pretty, String.toList_append, String.toList_ofList]
  -- There is room for one level of brackets for each character.
  have length : (value.pretty ++ behind).length =
      (prettyAt 0 value).length + behind.toList.length := by
    rw [← String.length_toList, chars, List.length_append]
  obtain ⟨draft, found, whole⟩ := free.readsBack 0
    (2 * (prettyAt 0 value ++ behind.toList).length + 2) (value.pretty ++ behind).length
    behind.toList (by rw [List.length_append]; omega) (by omega)
  have rest : behind.toList.dropWhile isGap = [] := List.dropWhile_eq_nil_iff.mpr blank
  have read : Draft.ofText (value.pretty ++ behind).length (value.pretty ++ behind) =
      (draft, none) := by
    simp only [Draft.ofText, chars, found, rest]
    rfl
  refine Draft.decodeText_eq_ok_iff.mpr ?_
  rw [read]
  exact ⟨whole, rfl⟩

end SelectionPlan.Json
