import SelectionPlan.CommandLine
import SelectionPlan.Proofs.Json.Printing
import SelectionPlan.Proofs.Plan.Decoding
import Mathlib

/-!
# What the command leaves behind

The command succeeds if the configuration file gives models and the selection has a plan for them,
and then it prints a JSON text that reads as that plan. Otherwise it prints nothing but a reason.
Whether it resolves strictly is a word between white space, in any mix of cases.
-/
namespace SelectionPlan

/-! ### Words between white space -/

namespace Text

theorem trimEnd_append {word after : List Char} (solid : ∀ c ∈ word, isSpace c = false)
    (blank : ∀ c ∈ after, isSpace c = true) : trimEnd (word ++ after) = word := by
  have behind : ∀ c ∈ after.reverse, isSpace c = true := fun c member =>
    blank c (List.mem_reverse.mp member)
  have kept : word.reverse.dropWhile isSpace = word.reverse := by
    refine List.dropWhile_eq_self_iff.mpr fun inside => ?_
    rw [solid _ (List.mem_reverse.mp (List.getElem_mem inside))]
    exact Bool.false_ne_true
  rw [trimEnd, List.reverse_append, List.dropWhile_append_of_pos behind, kept, List.reverse_reverse]

theorem trim_around {before word after : List Char} (blank : ∀ c ∈ before, isSpace c = true)
    (solid : ∀ c ∈ word, isSpace c = false) (blank' : ∀ c ∈ after, isSpace c = true) :
    trim (before ++ (word ++ after)) = word := by
  rw [trim, List.dropWhile_append_of_pos blank]
  cases word with
  | nil =>
    rw [List.nil_append, List.dropWhile_eq_nil_iff.mpr blank']
    rfl
  | cons c rest =>
    have visible := (List.forall_mem_cons.mp solid).1
    rw [List.cons_append, List.dropWhile_cons_of_neg (by simp [visible]), ← List.cons_append]
    exact trimEnd_append solid blank'

theorem exists_around (text : List Char) : ∃ before after, text = before ++ (trim text ++ after) ∧
    (∀ c ∈ before, isSpace c = true) ∧ ∀ c ∈ after, isSpace c = true := by
  have back (text : List Char) :
      trimEnd text ++ (text.reverse.takeWhile isSpace).reverse = text := by
    rw [trimEnd, ← List.reverse_append, List.takeWhile_append_dropWhile, List.reverse_reverse]
  refine ⟨text.takeWhile isSpace, ((text.dropWhile isSpace).reverse.takeWhile isSpace).reverse,
    ?_, fun c => List.mem_takeWhile_imp, fun c member => ?_⟩
  · rw [trim, back, List.takeWhile_append_dropWhile]
  · exact List.mem_takeWhile_imp (List.mem_reverse.mp member)

/-- White space has no case. -/
theorem toLower_of_isSpace {c : Char} (space : isSpace c = true) : c.toLower = c := by
  obtain ⟨range, member, low, high⟩ := (inRanges_iff _ _).mp space
  -- No range of white space meets the capital letters.
  have apart : ∀ range ∈ spaceRanges, range.2 < 65 ∨ 90 < range.1 := by decide
  have unchanged : ¬ (65 ≤ c.toNat ∧ c.toNat ≤ 90) := by
    have := apart range member
    omega
  exact dif_neg unchanged

end Text

/-! ### Strictness -/

namespace Environment

/-- A flag is set by four words, in any mix of cases and with white space around them. -/
def Sets (flag : String) : Prop :=
  ∃ before word after, flag.toList = before ++ (word ++ after) ∧
    (∀ c ∈ before, Text.isSpace c = true) ∧ (∀ c ∈ after, Text.isSpace c = true) ∧
      String.ofList (word.map Char.toLower) ∈ ["1", "true", "yes", "on"]

theorem isOn_iff (flag : String) : isOn flag = true ↔ Sets flag := by
  rw [isOn, List.contains_iff_mem]
  constructor
  · intro on
    obtain ⟨before, after, same, blank, blank'⟩ := Text.exists_around flag.toList
    exact ⟨before, _, after, same, blank, blank', on⟩
  · rintro ⟨before, word, after, same, blank, blank', on⟩
    have visible : ["1", "true", "yes", "on"].all (·.toList.all (!Text.isSpace ·)) = true := by
      decide
    -- White space in the word would still be white space in lower case, and no such word has any.
    have solid : ∀ c ∈ word, Text.isSpace c = false := by
      intro c member
      by_contra space
      rw [Bool.not_eq_false] at space
      have lower : c.toLower ∈ (String.ofList (word.map Char.toLower)).toList := by
        rw [String.toList_ofList]
        exact List.mem_map_of_mem member
      have seen := List.all_eq_true.mp (List.all_eq_true.mp visible _ on) _ lower
      rw [Text.toLower_of_isSpace space, space] at seen
      cases seen
    rw [same, Text.trim_around blank solid blank']
    exact on

/-- Selections are to be resolved strictly. -/
def AsksStrict (env : Environment) : Prop :=
  ∃ flag, env.strict = some flag ∧ Sets flag

theorem options_strict_iff (env : Environment) : env.options.strict = true ↔ env.AsksStrict := by
  rw [options, Option.any_eq_true]
  exact exists_congr fun flag => and_congr_right fun _ => isOn_iff flag

end Environment

/-! ### What is printed -/

theorem Plan.numberFree_paths (paths : List String) :
    (Json.array (paths.map .string)).NumberFree :=
  .array (List.forall_mem_map.mpr fun path _ => .string path)

theorem Plan.numberFree_relations (plan : Plan) :
    (Json.array (relationsToJson plan.populate)).NumberFree := by
  induction plan using byRelations with
  | level select populate ih =>
    rw [relationsToJson_eq_map]
    refine .array (List.forall_mem_map.mpr fun entry member => .object ?_)
    simp [Json.NumberFree.string, numberFree_paths, ih entry member]

theorem Plan.numberFree_toJson (plan : Plan) : plan.toJson.NumberFree := by
  have relations := plan.numberFree_relations
  obtain ⟨select, populate⟩ := plan
  rw [toJson]
  refine .object ?_
  simp [numberFree_paths, relations]

/-- The configuration file gives models, and by them the selection has the plan, resolved strictly
exactly if that is asked for. -/
def Answers (read : String → Except ReadError String) (env : Environment) (model text : String)
    (plan : Plan) : Prop :=
  ∃ config models strict, Config.load read (env.models.getD "models.yaml") = .ok config ∧
    config.build = .ok models ∧ (strict = true ↔ env.AsksStrict) ∧
      (Resolver.mk models ⟨strict⟩).select model text = .ok plan

theorem Models.load_eq_ok_iff {read : String → Except ReadError String} {path : String}
    {models : Models} : load read path = .ok models ↔
      ∃ config, Config.load read path = .ok config ∧ config.build = .ok models := by
  rw [load, Json.bind_eq_ok]
  cases Config.load read path with
  | error => simp [Except.mapError]
  | ok config => cases built : config.build <;> simp [Except.mapError, built]

theorem answers_iff {read : String → Except ReadError String} {env : Environment}
    {model text : String} {plan : Plan} : Answers read env model text plan ↔
      ∃ models, Models.load read env.modelsPath = .ok models ∧
        (Resolver.mk models env.options).select model text = .ok plan := by
  have same (strict : Bool) : (strict = true ↔ env.AsksStrict) ↔ ⟨strict⟩ = env.options := by
    rw [← env.options_strict_iff, ← Bool.eq_iff_iff, ResolveOptions.mk.injEq]
  constructor
  · rintro ⟨config, models, strict, loaded, built, asked, found⟩
    rw [(same strict).mp asked] at found
    exact ⟨models, Models.load_eq_ok_iff.mpr ⟨config, loaded, built⟩, found⟩
  · rintro ⟨models, loaded, found⟩
    obtain ⟨config, loaded, built⟩ := Models.load_eq_ok_iff.mp loaded
    exact ⟨config, models, _, loaded, built, env.options_strict_iff, found⟩

theorem command_of_answers {read : String → Except ReadError String} {env : Environment}
    {model text : String} {plan : Plan} (answers : Answers read env model text plan)
    (rest : List String) :
    command read env (model :: text :: rest) = .success plan.toJson.pretty := by
  obtain ⟨models, loaded, found⟩ := answers_iff.mp answers
  simp only [command, loaded, found]

theorem command_of_not_answers {read : String → Except ReadError String} {env : Environment}
    {model text : String} (none : ¬ ∃ plan, Answers read env model text plan)
    (rest : List String) :
    ∃ reason, command read env (model :: text :: rest) = .failure reason := by
  simp only [answers_iff] at none
  rw [command]
  split
  · exact ⟨_, rfl⟩
  · next models loaded =>
    split
    · exact ⟨_, rfl⟩
    · next plan found => exact absurd ⟨plan, models, loaded, found⟩ none

/-- The command answers as the library does, and prints the plan so that it can be read back. -/
theorem command_agrees (read : String → Except ReadError String) (env : Environment) :
    (∀ arguments : List String, arguments.length < 2 → (command read env arguments).code = 2) ∧
      ∀ model text rest,
        ((command read env (model :: text :: rest)).code = 0 ↔
          ∃ plan, Answers read env model text plan) ∧
        (∀ plan, Answers read env model text plan →
          (command read env (model :: text :: rest)).stderr = "" ∧
          ∃ value, Json.parse (command read env (model :: text :: rest)).stdout = .ok value ∧
            Plan.ofJson value = .ok plan) ∧
        ((¬ ∃ plan, Answers read env model text plan) →
          (command read env (model :: text :: rest)).stdout = "" ∧
          (command read env (model :: text :: rest)).stderr ≠ "" ∧
          (command read env (model :: text :: rest)).code = 1) := by
  refine ⟨fun arguments few => ?_, fun model text rest => ⟨⟨?_, ?_⟩, ?_, ?_⟩⟩
  · obtain _ | ⟨model, _ | ⟨text, rest⟩⟩ := arguments
    · rfl
    · rfl
    · simp only [List.length_cons] at few
      omega
  · intro success
    by_contra none
    obtain ⟨reason, failed⟩ := command_of_not_answers none rest
    rw [failed] at success
    cases success
  · rintro ⟨plan, answers⟩
    rw [command_of_answers answers]
    rfl
  · intro plan answers
    rw [command_of_answers answers]
    have blank : ∀ c ∈ "\n".toList, Json.Draft.isGap c = true := List.forall_mem_singleton.mpr rfl
    exact ⟨rfl, _, plan.numberFree_toJson.parse_pretty blank, plan.ofJson_toJson⟩
  · intro none
    obtain ⟨reason, failed⟩ := command_of_not_answers none rest
    rw [failed]
    refine ⟨rfl, ?_, rfl⟩
    simp [Outcome.failure]

set_option maxRecDepth 4000 in
theorem command_agrees_post :
    let read : String → Except ReadError String := fun path =>
      if path = "models.json" then .ok "\x7b\"models\":[\x7b\"name\":\"Post\"\x7d]\x7d"
      else .error .notFound
    let env : Environment := ⟨some "models.json", some " Yes "⟩
    let printed : Outcome := command read env ["Post", "t"]
    let refused : Outcome := command read env ["Post", "m\x7b\x7d"]
    (["Post"].length < 2 ∧ (command read env ["Post"]).code = 2) ∧
      (Answers read env "Post" "t" (.unit "t") ∧ printed.code = 0 ∧ printed.stderr = "" ∧
        ∃ value, Json.parse printed.stdout = .ok value ∧
          Plan.ofJson value = .ok (.unit "t")) ∧
      (¬ ∃ plan, Answers read env "Post" "m\x7b\x7d" plan) ∧
        refused.stdout = "" ∧ refused.stderr ≠ "" ∧ refused.code = 1 := by
  intro read env printed refused
  have strict : env.options.strict = true := by decide
  have loaded : Config.load read "models.json" = .ok ⟨[⟨"Post", [], []⟩], [], {}⟩ := by cbv
  have parsed : Selection.parse "t" = .ok ⟨false, [⟨"t", none⟩]⟩ := by cbv
  have parsed' : Selection.parse "m\x7b\x7d" = .ok ⟨false, [⟨"m", some .everything⟩]⟩ := by cbv
  have answers : Answers read env "Post" "t" (.unit "t") := by
    refine ⟨_, _, true, loaded, rfl, iff_of_true rfl (env.options_strict_iff.mp strict), ?_⟩
    rw [Resolver.select, parsed]
    rfl
  have none : ¬ ∃ plan, Answers read env "Post" "m\x7b\x7d" plan := by
    rintro ⟨plan, answers⟩
    obtain ⟨models, found, selected⟩ := answers_iff.mp answers
    obtain ⟨config, loaded', built⟩ := Models.load_eq_ok_iff.mp found
    cases loaded.symm.trans loaded'
    cases built
    rw [Resolver.select, parsed'] at selected
    cases selected
  obtain ⟨few, enough⟩ := command_agrees read env
  obtain ⟨code, success, -⟩ := enough "Post" "t" []
  obtain ⟨-, -, failure⟩ := enough "Post" "m\x7b\x7d" []
  exact ⟨⟨by decide, few _ (by decide)⟩, ⟨answers, code.mpr ⟨_, answers⟩, success _ answers⟩,
    none, failure none⟩

end SelectionPlan
