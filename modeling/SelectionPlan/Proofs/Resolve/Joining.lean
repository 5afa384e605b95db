import SelectionPlan.Proofs.Resolve.Flattening
import SelectionPlan.Proofs.Selection.Joining

/-!
# Resolving texts joined by a comma

The fields of a body are resolved one after the other, and none of them knows of the others. Only
`...` knows the names beside it. A body without it may be cut into two anywhere: the plans of the
parts are merged, and the first part that fails decides on the error.
-/
namespace SelectionPlan.Resolver

/-! ### Results one after the other -/

theorem followedBy_empty (result : Except SelectError Plan) :
    followedBy (.ok .empty) result = result := by
  cases result with
  | error error => rfl
  | ok plan => exact congrArg Except.ok plan.empty_append

theorem followedBy_assoc (first second third : Except SelectError Plan) :
    followedBy (followedBy first second) third = followedBy first (followedBy second third) := by
  cases first with
  | error error => rfl
  | ok plan =>
    cases second with
    | error error => rfl
    | ok plan' =>
      cases third with
      | error error => rfl
      | ok plan'' => exact congrArg Except.ok (Plan.append_assoc plan plan' plan'')

/-! ### Bodies in two parts -/

variable (resolver : Resolver) (schema : Schema)

theorem fieldsAt_append (names : List String) (front back : List Field) :
    resolver.fieldsAt schema names (front ++ back) =
      followedBy (resolver.fieldsAt schema names front) (resolver.fieldsAt schema names back) := by
  induction front with
  | nil => rw [List.nil_append, fieldsAt_nil, followedBy_empty]
  | cons field rest ih =>
    obtain ⟨name, body⟩ := field
    rw [List.cons_append]
    cases body with
    | none => rw [fieldsAt_unit, fieldsAt_unit, ih, followedBy_assoc]
    | some body => rw [fieldsAt_expanded, fieldsAt_expanded, ih, followedBy_assoc]

theorem resolve_unspread {body : Selection} (unspread : body.all = false) :
    resolver.resolve schema body = (resolver.fieldsAt schema [] body.fields).map Plan.dedup := by
  obtain ⟨all, fields⟩ := body
  cases unspread
  rw [resolve_eq, bodyAt]
  cases resolver.fieldsAt schema [] fields with
  | error error => rfl
  | ok named => exact congrArg (Except.ok ∘ Plan.dedup) named.empty_append

/-- Repetitions are dropped in the parts already, and once more between them. -/
theorem resolve_append {first second : Selection} (unspread : first.all = false)
    (unspread' : second.all = false) :
    resolver.resolve schema (first ++ second) =
      (followedBy (resolver.resolve schema first) (resolver.resolve schema second)).map
        Plan.dedup := by
  have joined : (first ++ second).all = false := by
    change (first.all || second.all) = false
    rw [unspread, unspread', Bool.or_false]
  have fields : (first ++ second).fields = first.fields ++ second.fields := rfl
  rw [resolver.resolve_unspread schema joined, fields, fieldsAt_append,
    resolver.resolve_unspread schema unspread, resolver.resolve_unspread schema unspread',
    map_dedup_followedBy]

/-! ### Texts in two parts -/

theorem select_of_parse (model : String) {text : String} {selection : Selection}
    (parsed : Selection.parse text = .ok selection) :
    resolver.select model text =
      resolver.lookup model >>= fun schema => resolver.resolve schema selection := by
  simp only [select, Selection.not_blank_of_parse parsed, parsed, Bool.false_eq_true, if_false]

/-- Joining texts with a comma merges their plans. If the first text fails, so does the joined one,
and otherwise if the second text fails; else the joined text selects the paths of both, each once,
and populates the relations of both. Neither text may spread in its outermost body. -/
theorem select_joined (model : String) {text text' : String} {first second : Selection}
    (parsed : Selection.parse text = .ok first) (parsed' : Selection.parse text' = .ok second)
    (unspread : first.all = false) (unspread' : second.all = false) :
    resolver.select model (text ++ "," ++ text') = do
      let plan ← resolver.select model text
      let plan' ← resolver.select model text'
      return ⟨(plan.select ++ plan'.select).eraseDups, plan.populate ++ plan'.populate⟩ := by
  rw [resolver.select_of_parse model (Selection.parse_append parsed parsed'),
    resolver.select_of_parse model parsed, resolver.select_of_parse model parsed']
  cases resolver.lookup model with
  | error error => rfl
  | ok schema =>
    simp only [bind, Except.bind, resolver.resolve_append schema unspread unspread']
    cases resolver.resolve schema first with
    | error error => rfl
    | ok plan =>
      cases resolver.resolve schema second with
      | error error => rfl
      | ok plan' => rfl

theorem select_joined_post :
    let person : Schema := ⟨[("n", .scalar)], []⟩
    let post : Schema := ⟨[("t", .scalar), ("o", .reference "Person")], []⟩
    let resolver : Resolver := ⟨⟨[("Person", person), ("Post", post)]⟩, {}⟩
    let first : Selection := ⟨false, [⟨"t", none⟩, ⟨"o", some ⟨false, [⟨"n", none⟩]⟩⟩]⟩
    let second : Selection := ⟨false, [⟨"t", none⟩, ⟨"o", some .everything⟩]⟩
    Selection.parse "t,o{n}" = .ok first ∧ Selection.parse " t,o{}" = .ok second ∧
      resolver.select "Post" "t,o{n}, t,o{}" =
        .ok ⟨["t", "o"], [("o", ⟨["n"], []⟩), ("o", ⟨["n"], []⟩)]⟩ := by
  intro person post resolver first second
  have letter : Selection.IsName ['n'] := ⟨by decide, List.all_eq_true.mp (by decide +kernel)⟩
  have letter' : Selection.IsName ['o'] := ⟨by decide, List.all_eq_true.mp (by decide +kernel)⟩
  have letter'' : Selection.IsName ['t'] := ⟨by decide, List.all_eq_true.mp (by decide +kernel)⟩
  have gap := Selection.isGap_nil
  have space : Selection.IsGap [' '] := List.all_eq_true.mp (by decide)
  have inside : Selection.BodyText ['n'] ⟨false, [⟨"n", none⟩]⟩ :=
    .items (.last (.named gap (.whole letter) gap))
  have front : Selection.BodyText ['t', ',', 'o', '{', 'n', '}'] first :=
    .items (.more (.named gap (.whole letter'') gap)
      (.last (.named gap (.expanded letter' gap (.body inside)) gap)))
  have back : Selection.BodyText [' ', 't', ',', 'o', '{', '}'] second :=
    .items (.more (.named space (.whole letter'') gap)
      (.last (.named gap (.expanded letter' gap (.blank gap)) gap)))
  have parsed : Selection.parse "t,o{n}" = .ok first := by
    rw [Selection.parse, Selection.parseChars_eq_ok_iff, ← Selection.bodyText_iff]
    exact ⟨by decide +kernel, front⟩
  have parsed' : Selection.parse " t,o{}" = .ok second := by
    rw [Selection.parse, Selection.parseChars_eq_ok_iff, ← Selection.bodyText_iff]
    exact ⟨by decide +kernel, back⟩
  refine ⟨parsed, parsed', ?_⟩
  have joined := select_joined resolver "Post" parsed parsed' rfl rfl
  rw [select_of_parse resolver "Post" parsed, select_of_parse resolver "Post" parsed'] at joined
  exact joined

end SelectionPlan.Resolver
