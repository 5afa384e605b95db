import SelectionPlan.Dict
import Mathlib.Data.List.Forall2
import Mathlib.Data.List.Nodup
import Mathlib.Data.List.Perm.Basic

/-!
# Filling dictionaries

What is found under a key is what was stored there last. The order in which values are stored under
different keys leaves no trace, so that entries with ascending keys are a dictionary already, and
what is stored at corresponding keys of two dictionaries corresponds. Entries are found by their
names in lists as well, where the order does not matter as long as no name occurs twice.
-/
namespace SelectionPlan

namespace Dict

variable {α β : Type}

/-! ### One key -/

theorem get?_cons (key name : String) (value : α) (rest : Dict α) :
    get? key ((name, value) :: rest) = if name = key then some value else get? key rest := by
  by_cases same : name = key <;> simp [get?, same]

theorem get?_insert (key other : String) (value : α) (dict : Dict α) :
    (dict.insert key value).get? other = if key = other then some value else dict.get? other := by
  induction dict with
  | nil => rw [insert, get?_cons]
  | cons entry rest ih =>
    obtain ⟨name, old⟩ := entry
    rw [insert]
    split
    next => rw [get?_cons]
    next =>
      split
      next equal =>
        subst equal
        rw [get?_cons, get?_cons]
        split <;> rfl
      next different =>
        rw [get?_cons, get?_cons, ih]
        by_cases found : name = other
        · subst found
          rw [if_pos rfl, if_pos rfl, if_neg different]
        · rw [if_neg found, if_neg found]

theorem mem_keys_insert (key other : String) (value : α) (dict : Dict α) :
    other ∈ (dict.insert key value).keys ↔ other = key ∨ other ∈ dict.keys := by
  induction dict with
  | nil => simp [insert, keys]
  | cons entry rest ih =>
    obtain ⟨name, old⟩ := entry
    simp only [keys] at ih ⊢
    rw [insert]
    split
    next => simp
    next =>
      split
      next equal => simp [equal]
      next =>
        simp only [List.map_cons, List.mem_cons, ih]
        tauto

theorem self_mem_keys_insert (key : String) (value : α) (dict : Dict α) :
    key ∈ (dict.insert key value).keys :=
  (mem_keys_insert ..).mpr (.inl rfl)

theorem keys_subset_insert (key : String) (value : α) (dict : Dict α) :
    dict.keys ⊆ (dict.insert key value).keys :=
  fun _ member => (mem_keys_insert ..).mpr (.inr member)

theorem get?_eq_none_iff {key : String} {dict : Dict α} :
    dict.get? key = none ↔ key ∉ dict.keys := by
  rw [get?, Option.map_eq_none_iff, List.find?_eq_none, keys, List.mem_map]
  constructor
  · rintro absent ⟨entry, member, same⟩
    exact absent entry member (beq_iff_eq.mpr same)
  · intro absent entry member same
    exact absent ⟨entry, member, beq_iff_eq.mp same⟩

/-! ### Several keys -/

/-- Stores values under keys, one after the other. -/
def insertAll (dict : Dict α) (entries : List (String × α)) : Dict α :=
  entries.foldl (fun dict entry => dict.insert entry.1 entry.2) dict

theorem insert_cons_of_lt {key name : String} (before : name < key) (value old : α)
    (rest : Dict α) :
    insert key value ((name, old) :: rest) = (name, old) :: rest.insert key value := by
  have after : ¬key < name := String.lt_asymm before
  have different : key ≠ name := by
    rintro rfl
    exact String.lt_irrefl _ before
  rw [insert, if_neg after, if_neg different]

theorem insert_cons_of_gt {key name : String} (before : key < name) (value old : α)
    (rest : Dict α) :
    insert key value ((name, old) :: rest) = (key, value) :: (name, old) :: rest := by
  rw [insert, if_pos before]

theorem insert_cons_self (key : String) (value old : α) (rest : Dict α) :
    insert key value ((key, old) :: rest) = (key, value) :: rest := by
  rw [insert, if_neg (String.lt_irrefl key), if_pos rfl]

-- The claim is symmetric in the keys, so the lower one may be the first.
private theorem insert_comm_of_lt {key other : String} (lower : key < other) (value value' : α)
    (dict : Dict α) :
    (dict.insert key value).insert other value' = (dict.insert other value').insert key value := by
  induction dict with
  | nil =>
    have first : insert key value [(other, value')] = [(key, value), (other, value')] :=
      insert_cons_of_gt lower ..
    exact (insert_cons_of_lt lower ..).trans first.symm
  | cons entry rest ih =>
    obtain ⟨name, old⟩ := entry
    rcases Std.lt_trichotomy key name with before | rfl | after
    · rw [insert_cons_of_gt before, insert_cons_of_lt lower]
      rcases Std.lt_trichotomy other name with before' | rfl | after'
      · rw [insert_cons_of_gt before', insert_cons_of_gt lower]
      · rw [insert_cons_self, insert_cons_of_gt lower]
      · rw [insert_cons_of_lt after', insert_cons_of_gt before]
    · rw [insert_cons_self, insert_cons_of_lt lower, insert_cons_of_lt lower, insert_cons_self]
    · have after' : name < other := String.lt_trans after lower
      rw [insert_cons_of_lt after, insert_cons_of_lt after', insert_cons_of_lt after',
        insert_cons_of_lt after, ih]

theorem insert_comm {key other : String} (different : key ≠ other) (value value' : α)
    (dict : Dict α) :
    (dict.insert key value).insert other value' = (dict.insert other value').insert key value := by
  rcases Std.lt_trichotomy key other with lower | same | higher
  · exact insert_comm_of_lt lower value value' dict
  · exact absurd same different
  · exact (insert_comm_of_lt higher value' value dict).symm

/-- Entries with different keys may be stored in any order. -/
theorem insertAll_of_perm {entries others : List (String × α)} (perm : entries.Perm others)
    (distinct : (entries.map Prod.fst).Nodup) (dict : Dict α) :
    dict.insertAll entries = dict.insertAll others := by
  refine perm.foldl_eq' ?_ dict
  intro entry member other member' between
  by_cases same : entry.1 = other.1
  · rw [List.inj_on_of_nodup_map distinct member member' same]
  · exact insert_comm same _ _ between

/-- What the last of the entries with a key holds. -/
def last? (key : String) (entries : List (String × α)) : Option α :=
  get? key entries.reverse

theorem last?_cons (key name : String) (value : α) (rest : List (String × α)) :
    last? key ((name, value) :: rest) =
      (last? key rest).or (if name = key then some value else none) := by
  rw [last?, List.reverse_cons, get?, List.find?_append, Option.map_or]
  exact congrArg _ (get?_cons key name value [])

theorem last?_eq_none_iff {key : String} {entries : List (String × α)} :
    last? key entries = none ↔ key ∉ entries.map Prod.fst := by
  rw [last?, get?_eq_none_iff, keys, List.map_reverse, List.mem_reverse]

theorem last?_append (key : String) (front back : List (String × α)) :
    last? key (front ++ back) = (last? key back).or (last? key front) := by
  rw [last?, List.reverse_append, get?, List.find?_append, Option.map_or]
  rfl

theorem mem_of_last? {key : String} {value : α} {entries : List (String × α)}
    (found : last? key entries = some value) : (key, value) ∈ entries := by
  obtain ⟨⟨name, _⟩, first, rfl⟩ := Option.map_eq_some_iff.mp found
  obtain rfl : name = key := beq_iff_eq.mp (List.find?_some first :)
  exact List.mem_reverse.mp (List.mem_of_find?_eq_some first)

/-- An entry whose key no other entry has is the last one with its key. -/
theorem last?_of_nodup {entries : List (String × α)} (distinct : (entries.map Prod.fst).Nodup)
    {entry : String × α} (member : entry ∈ entries) : last? entry.1 entries = some entry.2 := by
  induction entries with
  | nil => cases member
  | cons first rest ih =>
    obtain ⟨name, value⟩ := first
    obtain ⟨once, distinct⟩ := List.nodup_cons.mp distinct
    rw [last?_cons]
    rcases List.mem_cons.mp member with rfl | behind
    · rw [last?_eq_none_iff.mpr once, Option.none_or, if_pos rfl]
    · rw [ih distinct behind, Option.some_or]

/-- What was stored last is found, and otherwise what was there before. -/
theorem get?_insertAll (key : String) (entries : List (String × α)) (dict : Dict α) :
    (dict.insertAll entries).get? key = (last? key entries).or (dict.get? key) := by
  induction entries generalizing dict with
  | nil => rfl
  | cons entry rest ih =>
    obtain ⟨name, value⟩ := entry
    have step := ih (dict.insert name value)
    rw [get?_insert] at step
    refine step.trans ?_
    rw [last?_cons, Option.or_assoc]
    split <;> rfl

/-- What is not stored anew is still there. -/
theorem get?_insertAll_of_notMem {key : String} {entries : List (String × α)}
    (absent : key ∉ entries.map Prod.fst) (dict : Dict α) :
    (dict.insertAll entries).get? key = dict.get? key := by
  rw [get?_insertAll, last?_eq_none_iff.mpr absent, Option.none_or]

/-! ### Corresponding dictionaries -/

/-- Entries of two dictionaries under one key, with corresponding values. -/
def Beside (corresponds : α → β → Prop) (entry : String × α) (other : String × β) : Prop :=
  entry.1 = other.1 ∧ corresponds entry.2 other.2

variable {corresponds : α → β → Prop}

theorem forall₂_insert {dict : Dict α} {dict' : Dict β} {value : α} {value' : β} (key : String)
    (beside : List.Forall₂ (Beside corresponds) dict dict') (same : corresponds value value') :
    List.Forall₂ (Beside corresponds) (dict.insert key value) (dict'.insert key value') := by
  induction beside with
  | nil => exact .cons ⟨rfl, same⟩ .nil
  | @cons entry other rest rest' first behind ih =>
    obtain ⟨name, old⟩ := entry
    obtain ⟨name', old'⟩ := other
    obtain ⟨⟨⟩, corresponding⟩ := first
    rw [insert, insert]
    split
    next => exact .cons ⟨rfl, same⟩ (.cons ⟨rfl, corresponding⟩ behind)
    next =>
      split
      next => exact .cons ⟨rfl, same⟩ behind
      next => exact .cons ⟨rfl, corresponding⟩ ih

theorem forall₂_insertAll {entries : List (String × α)} {entries' : List (String × β)}
    (beside : List.Forall₂ (Beside corresponds) entries entries') {dict : Dict α} {dict' : Dict β}
    (start : List.Forall₂ (Beside corresponds) dict dict') :
    List.Forall₂ (Beside corresponds) (dict.insertAll entries) (dict'.insertAll entries') := by
  induction beside generalizing dict dict' with
  | nil => exact start
  | @cons entry other _ _ first _ ih =>
    rw [insertAll, insertAll, List.foldl_cons, List.foldl_cons, ← first.1]
    exact ih (forall₂_insert entry.1 start first.2)

theorem keys_eq_of_forall₂ {dict : Dict α} {dict' : Dict β}
    (beside : List.Forall₂ (Beside corresponds) dict dict') : dict.keys = dict'.keys := by
  induction beside with
  | nil => rfl
  | cons first _ ih =>
    rw [keys, List.map_cons, first.1]
    exact congrArg _ ih

theorem get?_of_forall₂ {dict : Dict α} {dict' : Dict β}
    (beside : List.Forall₂ (Beside corresponds) dict dict') {key : String} {value : α}
    (found : dict.get? key = some value) :
    ∃ value', dict'.get? key = some value' ∧ corresponds value value' := by
  induction beside with
  | nil => cases found
  | @cons entry other rest rest' first behind ih =>
    obtain ⟨name, old⟩ := entry
    obtain ⟨name', old'⟩ := other
    obtain ⟨⟨⟩, corresponding⟩ := first
    by_cases same : name = key
    · subst same
      simp only [get?, List.find?_cons, beq_self_eq_true, Option.map_some,
        Option.some.injEq] at found ⊢
      subst found
      exact ⟨old', rfl, corresponding⟩
    · simp only [get?, List.find?_cons, beq_eq_false_iff_ne.mpr same] at found ⊢
      exact ih found

theorem rel_last?_of_forall₂ {entries : List (String × α)} {entries' : List (String × β)}
    (beside : List.Forall₂ (Beside corresponds) entries entries') (key : String) :
    Option.Rel corresponds (last? key entries) (last? key entries') := by
  induction beside with
  | nil => exact .none
  | @cons entry other rest rest' first _ ih =>
    obtain ⟨name, value⟩ := entry
    obtain ⟨name', value'⟩ := other
    obtain ⟨⟨⟩, same⟩ := first
    rw [last?_cons, last?_cons]
    generalize last? key rest = behind at ih ⊢
    generalize last? key rest' = behind' at ih ⊢
    cases ih with
    | some later => exact .some later
    | none =>
      rw [Option.none_or, Option.none_or]
      split
      · exact .some same
      · exact .none

/-! ### Ascending keys -/

section Ascending

variable {dict : Dict α} {entries : List (String × α)} {entry : String × α} {key : String}
  {value : α}

/-- The keys ascend, as in everything that is filled from nothing. -/
def Ascending (dict : Dict α) : Prop :=
  dict.keys.Pairwise (· < ·)

theorem ascending_nil : Ascending ([] : Dict α) :=
  List.Pairwise.nil

theorem Ascending.distinct (ascending : dict.Ascending) : dict.keys.Nodup :=
  List.Pairwise.imp (fun before => Std.ne_of_lt before) ascending

theorem Ascending.insert (ascending : dict.Ascending) : (dict.insert key value).Ascending := by
  induction dict with
  | nil => exact List.pairwise_singleton ..
  | cons old rest ih =>
    obtain ⟨name, old⟩ := old
    obtain ⟨behind, others⟩ := List.pairwise_cons.mp ascending
    rcases Std.lt_trichotomy key name with before | rfl | after
    · rw [insert_cons_of_gt before]
      refine List.pairwise_cons.mpr ⟨List.forall_mem_cons.mpr ⟨before, ?_⟩, ascending⟩
      exact fun other member => String.lt_trans before (behind other member)
    · rw [insert_cons_self]
      exact List.pairwise_cons.mpr ⟨behind, others⟩
    · rw [insert_cons_of_lt after]
      refine List.pairwise_cons.mpr ⟨?_, ih others⟩
      intro other member
      rcases (mem_keys_insert ..).mp member with rfl | member
      · exact after
      · exact behind other member

theorem Ascending.insertAll (ascending : dict.Ascending) : (dict.insertAll entries).Ascending := by
  induction entries generalizing dict with
  | nil => exact ascending
  | cons first rest ih => exact ih ascending.insert

theorem ascending_ofList (entries : List (String × α)) : (ofList entries).Ascending :=
  ascending_nil.insertAll

theorem mem_of_mem_insert (member : entry ∈ dict.insert key value) :
    entry = (key, value) ∨ entry ∈ dict := by
  induction dict with
  | nil => exact .inl (List.mem_singleton.mp member)
  | cons old rest ih =>
    obtain ⟨name, old⟩ := old
    rcases Std.lt_trichotomy key name with before | rfl | after
    · rw [insert_cons_of_gt before] at member
      exact List.mem_cons.mp member
    · rw [insert_cons_self] at member
      exact (List.mem_cons.mp member).imp_right (List.mem_cons_of_mem _)
    · rw [insert_cons_of_lt after] at member
      rcases List.mem_cons.mp member with rfl | member
      · exact .inr List.mem_cons_self
      · exact (ih member).imp_right (List.mem_cons_of_mem _)

theorem mem_of_mem_insertAll (member : entry ∈ dict.insertAll entries) :
    entry ∈ dict ∨ entry ∈ entries := by
  induction entries generalizing dict with
  | nil => exact .inl member
  | cons first rest ih =>
    rcases ih member with stored | later
    · rcases mem_of_mem_insert stored with rfl | stored
      · exact .inr List.mem_cons_self
      · exact .inl stored
    · exact .inr (List.mem_cons_of_mem _ later)

theorem mem_of_mem_ofList (member : entry ∈ ofList entries) : entry ∈ entries :=
  (mem_of_mem_insertAll member).resolve_left List.not_mem_nil

theorem insert_perm (absent : key ∉ dict.keys) :
    (dict.insert key value).Perm ((key, value) :: dict) := by
  induction dict with
  | nil => exact .refl _
  | cons old rest ih =>
    obtain ⟨name, old⟩ := old
    obtain ⟨different, absent⟩ := not_or.mp (mt List.mem_cons.mpr absent)
    rcases Std.lt_trichotomy key name with before | same | after
    · rw [insert_cons_of_gt before]
    · exact absurd same different
    · rw [insert_cons_of_lt after]
      exact ((ih absent).cons _).trans (.swap ..)

theorem insertAll_perm (distinct : (entries.map Prod.fst).Nodup)
    (apart : ∀ name ∈ entries.map Prod.fst, name ∉ dict.keys) :
    (dict.insertAll entries).Perm (dict ++ entries) := by
  induction entries generalizing dict with
  | nil => rw [List.append_nil]; exact .refl _
  | cons first rest ih =>
    obtain ⟨once, distinct⟩ := List.nodup_cons.mp distinct
    obtain ⟨new, apart⟩ := List.forall_mem_cons.mp apart
    have apart' : ∀ name ∈ rest.map Prod.fst, name ∉ (dict.insert first.1 first.2).keys := by
      intro name member stored
      rcases (mem_keys_insert ..).mp stored with rfl | stored
      · exact once member
      · exact apart name member stored
    calc List.Perm ((dict.insert first.1 first.2).insertAll rest)
          (dict.insert first.1 first.2 ++ rest) := ih distinct apart'
      List.Perm _ (first :: dict ++ rest) := (insert_perm new).append_right rest
      List.Perm _ (dict ++ first :: rest) := List.perm_middle.symm

/-- Entries with different keys are kept, in the order of their keys. -/
theorem ofList_perm (distinct : (entries.map Prod.fst).Nodup) : (ofList entries).Perm entries :=
  insertAll_perm distinct fun _ _ => List.not_mem_nil

/-- Entries with ascending keys are a dictionary already. -/
theorem Ascending.ofList_eq (ascending : dict.Ascending) : ofList dict = dict := by
  have sorted : ∀ {entries : Dict α}, entries.Ascending →
      List.Pairwise (fun first second => first.1 < second.1) entries := List.pairwise_map.mp
  refine (ofList_perm ascending.distinct).eq_of_pairwise ?_ (sorted (ascending_ofList dict))
    (sorted ascending)
  exact fun first second _ _ before after => absurd after (String.lt_asymm before)

end Ascending

end Dict

/-- What corresponds to something can be put beside it. -/
theorem exists_forall₂ {α β : Type} {corresponds : α → β → Prop} {items : List α}
    (each : ∀ item ∈ items, ∃ other, corresponds item other) :
    ∃ others, List.Forall₂ corresponds items others := by
  induction items with
  | nil => exact ⟨[], .nil⟩
  | cons item rest ih =>
    obtain ⟨⟨other, first⟩, each⟩ := List.forall_mem_cons.mp each
    obtain ⟨others, behind⟩ := ih each
    exact ⟨other :: others, .cons first behind⟩

/-- If what each entry holds corresponds to something, entries with the same keys can be put beside
all of them. -/
theorem Dict.exists_beside {α β : Type} {corresponds : α → β → Prop} {entries : List (String × α)}
    (each : ∀ entry ∈ entries, ∃ value, corresponds entry.2 value) :
    ∃ others, List.Forall₂ (Beside corresponds) entries others := by
  refine exists_forall₂ fun entry member => ?_
  obtain ⟨value, found⟩ := each entry member
  exact ⟨(entry.1, value), rfl, found⟩

theorem exists_of_forall₂ {α β : Type} {corresponds : α → β → Prop} {items : List α}
    {others : List β} (beside : List.Forall₂ corresponds items others) :
    ∀ item ∈ items, ∃ other ∈ others, corresponds item other := by
  induction beside with
  | nil => exact List.forall_mem_nil _
  | cons first _ ih =>
    refine List.forall_mem_cons.mpr ⟨⟨_, List.mem_cons_self, first⟩, fun item member => ?_⟩
    obtain ⟨other, inside, found⟩ := ih item member
    exact ⟨other, List.mem_cons_of_mem _ inside, found⟩

theorem forall_of_forall₂ {α β : Type} {corresponds : α → β → Prop} {property : β → Prop}
    {items : List α} {others : List β} (beside : List.Forall₂ corresponds items others)
    (each : ∀ item ∈ items, ∀ other, corresponds item other → property other) :
    ∀ other ∈ others, property other := by
  induction beside with
  | nil => exact List.forall_mem_nil _
  | cons first _ ih =>
    obtain ⟨own, each⟩ := List.forall_mem_cons.mp each
    exact List.forall_mem_cons.mpr ⟨own _ first, ih each⟩

/-- Among items with different names, the item with a name does not depend on their order. -/
theorem find?_eq_of_perm {α : Type} {name : α → String} {items items' : List α}
    (perm : items.Perm items') (distinct : (items.map name).Nodup) (wanted : String) :
    items.find? (name · == wanted) = items'.find? (name · == wanted) := by
  cases found : items.find? (name · == wanted) with
  | none =>
    rw [List.find?_eq_none] at found
    refine (List.find?_eq_none.mpr ?_).symm
    exact fun item member => found item (perm.mem_iff.mpr member)
  | some item =>
    have member := perm.mem_iff.mp (List.mem_of_find?_eq_some found)
    have named := List.find?_some found
    cases found' : items'.find? (name · == wanted) with
    | none => exact absurd named (List.find?_eq_none.mp found' item member)
    | some item' =>
      have named' := List.find?_some found'
      have same : name item = name item' :=
        (beq_iff_eq.mp named).trans (beq_iff_eq.mp named').symm
      have distinct' := (perm.map name).nodup_iff.mp distinct
      rw [List.inj_on_of_nodup_map distinct' member (List.mem_of_find?_eq_some found') same]

/-- Where only the entry with one key gives anything, nothing else matters. -/
theorem flatMap_eq_of_entry {α β : Type} {entries : List (String × α)} {entry : String × α}
    {parts : String × α → List β} (distinct : (entries.map Prod.fst).Nodup)
    (member : entry ∈ entries)
    (others : ∀ other ∈ entries, other.1 ≠ entry.1 → parts other = []) :
    entries.flatMap parts = parts entry := by
  obtain ⟨front, back, rfl⟩ := List.append_of_mem member
  rw [List.map_append, List.map_cons, List.nodup_middle, List.nodup_cons, ← List.map_append]
    at distinct
  have silent : ∀ other ∈ front ++ back, parts other = [] := by
    intro other member'
    refine others other (List.perm_middle.mem_iff.mpr (List.mem_cons_of_mem _ member')) ?_
    intro same
    exact distinct.1 (same ▸ List.mem_map_of_mem member')
  obtain ⟨before, after⟩ := List.forall_mem_append.mp silent
  rw [List.flatMap_append, List.flatMap_cons, List.flatMap_eq_nil_iff.mpr before,
    List.flatMap_eq_nil_iff.mpr after, List.nil_append, List.append_nil]

end SelectionPlan
