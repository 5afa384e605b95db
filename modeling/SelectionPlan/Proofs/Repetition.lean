import Mathlib.Data.List.Nodup

/-!
# Lists without repetitions

What dropping the later occurrences of list items keeps, and when it may be done early. Two lists
that agree once their repetitions are dropped are interchangeable inside any longer list.
-/
namespace SelectionPlan

variable {α β : Type} [BEq α] [LawfulBEq α] [BEq β] [LawfulBEq β]

theorem nodup_eraseDups (items : List α) : items.eraseDups.Nodup := by
  match items with
  | [] => exact List.nodup_nil
  | item :: rest =>
    have distinct := nodup_eraseDups (rest.filter fun other => !other == item)
    rw [List.eraseDups_cons, List.nodup_cons]
    exact ⟨by simp, distinct⟩
termination_by items.length
decreasing_by exact Nat.lt_succ_of_le (List.length_filter_le _ _)

theorem eraseDups_eq_self {items : List α} (distinct : items.Nodup) : items.eraseDups = items := by
  induction items with
  | nil => rfl
  | cons item rest ih =>
    obtain ⟨fresh, distinct⟩ := List.nodup_cons.mp distinct
    have kept : rest.filter (fun other => !other == item) = rest := by
      rw [List.filter_eq_self]
      intro other member
      simpa using fun same : other = item => fresh (same ▸ member)
    rw [List.eraseDups_cons, kept, ih distinct]

@[simp] theorem eraseDups_eraseDups (items : List α) :
    items.eraseDups.eraseDups = items.eraseDups :=
  eraseDups_eq_self (nodup_eraseDups items)

theorem perm_eraseDups {items items' : List α} (perm : items.Perm items') :
    items.eraseDups.Perm items'.eraseDups := by
  rw [List.perm_ext_iff_of_nodup (nodup_eraseDups items) (nodup_eraseDups items')]
  intro item
  rw [List.mem_eraseDups, List.mem_eraseDups, perm.mem_iff]

theorem filter_eraseDups (keep : α → Bool) (items : List α) :
    items.eraseDups.filter keep = (items.filter keep).eraseDups := by
  match items with
  | [] => rfl
  | item :: rest =>
    have ih := filter_eraseDups keep (rest.filter fun other => !other == item)
    rw [List.filter_comm] at ih
    cases kept : keep item with
    | true => simp [List.eraseDups_cons, kept, ih]
    | false =>
      -- The first item is filtered out, and so are all that equal it.
      have absent : (rest.filter keep).filter (fun other => !other == item) = rest.filter keep := by
        rw [List.filter_eq_self]
        intro other member
        have keptOther := (List.mem_filter.mp member).2
        have different : other ≠ item := by
          rintro rfl
          simp [kept] at keptOther
        simpa using different
      rw [absent] at ih
      simp [List.eraseDups_cons, kept, ih]
termination_by items.length
decreasing_by exact Nat.lt_succ_of_le (List.length_filter_le _ _)

/-- Repetitions may be dropped in the parts before they are dropped in the whole. -/
theorem eraseDups_append_eraseDups (first second : List α) :
    (first.eraseDups ++ second.eraseDups).eraseDups = (first ++ second).eraseDups := by
  -- Of the second part only what is new against the first is kept, in either order of dropping.
  have same : second.eraseDups.removeAll first.eraseDups =
      (second.removeAll first).eraseDups := by
    have elem : ∀ item, first.eraseDups.elem item = first.elem item := by
      intro item
      rw [Bool.eq_iff_iff]
      simp
    simp only [List.removeAll, elem, filter_eraseDups]
  rw [List.eraseDups_append, List.eraseDups_append, same]
  simp

theorem eraseDups_append_congr {first first' second second' : List α}
    (front : first.eraseDups = first'.eraseDups) (back : second.eraseDups = second'.eraseDups) :
    (first ++ second).eraseDups = (first' ++ second').eraseDups := by
  rw [← eraseDups_append_eraseDups, front, back, eraseDups_append_eraseDups]

/-- However often one item occurs, it is kept once. -/
theorem eraseDups_filterMap_const {γ : Type} {items : List γ} (some : items ≠ [])
    (result : Option α) : (items.filterMap fun _ => result).eraseDups = result.toList := by
  cases result with
  | none => simp
  | some item =>
    obtain ⟨first, rest, rfl⟩ := List.exists_cons_of_ne_nil some
    simp [List.filterMap_eq_map', List.eraseDups_cons]

/-- Parts that hold one item each, however often, count for that item. -/
theorem eraseDups_flatMap {γ : Type} {items : List γ} {parts : γ → List α} {image : γ → α}
    (single : ∀ item ∈ items, (parts item).eraseDups = [image item]) :
    (items.flatMap parts).eraseDups = (items.map image).eraseDups := by
  induction items with
  | nil => rfl
  | cons item rest ih =>
    obtain ⟨first, behind⟩ := List.forall_mem_cons.mp single
    rw [List.flatMap_cons, List.map_cons, ← List.singleton_append]
    have once := eraseDups_eq_self (List.nodup_singleton (image item))
    exact eraseDups_append_congr (first.trans once.symm) (ih behind)

/-- What is kept of the items of a list stands in the order in which the list first leads to it. -/
theorem pairwise_findIdx_eraseDups {γ : Type} (f : γ → Option α) (items : List γ) :
    (items.filterMap f).eraseDups.Pairwise fun first second =>
      items.findIdx (f · == some first) < items.findIdx (f · == some second) := by
  induction items with
  | nil => exact List.Pairwise.nil
  | cons item rest ih =>
    -- An item that leads somewhere else moves the first place that leads to a value on by one.
    have moves : ∀ value, f item ≠ some value → (item :: rest).findIdx (f · == some value) =
        rest.findIdx (f · == some value) + 1 := by
      intro value elsewhere
      rw [List.findIdx_cons, beq_eq_false_iff_ne.mpr elsewhere, cond_false]
    cases found : f item with
    | none =>
      rw [List.filterMap_cons_none found]
      refine ih.imp fun {first second} before => ?_
      rw [moves first (by simp [found]), moves second (by simp [found])]
      exact Nat.succ_lt_succ before
    | some value =>
      have fresh : ∀ other ∈ (rest.filterMap f).eraseDups.filter (fun other => !other == value),
          f item ≠ some other := by
        intro other member same
        have different := (List.mem_filter.mp member).2
        rw [found, Option.some.injEq] at same
        simp [same] at different
      rw [List.filterMap_cons_some found, List.eraseDups_cons, ← filter_eraseDups,
        List.pairwise_cons]
      constructor
      · intro other member
        have first : (item :: rest).findIdx (f · == some value) = 0 := by
          rw [List.findIdx_cons, found, beq_self_eq_true, cond_true]
        rw [first, moves other (fresh other member)]
        exact Nat.succ_pos _
      · refine (ih.filter _).imp_of_mem fun {first second} member member' before => ?_
        rw [moves first (fresh first member), moves second (fresh second member')]
        exact Nat.succ_lt_succ before

theorem eraseDups_map {f : α → β} (injective : Function.Injective f) (items : List α) :
    (items.map f).eraseDups = items.eraseDups.map f := by
  match items with
  | [] => rfl
  | item :: rest =>
    have ih := eraseDups_map injective (rest.filter fun other => !other == item)
    have same : (rest.map f).filter (fun other => !other == f item) =
        (rest.filter fun other => !other == item).map f := by
      rw [List.filter_map]
      congr 1
      apply List.filter_congr
      intro other _
      rw [Bool.eq_iff_iff]
      simp [injective.eq_iff]
    rw [List.map_cons, List.eraseDups_cons, List.eraseDups_cons, same, ih, List.map_cons]
termination_by items.length
decreasing_by exact Nat.lt_succ_of_le (List.length_filter_le _ _)

end SelectionPlan
