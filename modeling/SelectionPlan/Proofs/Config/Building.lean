import SelectionPlan.Proofs.Config.Compiling

/-!
# Building models

Which configurations have models, and what is wrong with the others. Embeddings may refer to each
other in any way: compiling comes to an end, and tells circles from schemas that are only embedded
more than once.
-/
namespace SelectionPlan.Compile

open Config

theorem visits_model (config : Config) (decl : ModelDecl) :
    Visits config [] (Site.members "" decl.fields) (model config decl) := by
  have all : config.declarations = unopened config [] := by simp [unopened]
  have embeds : ∀ path name,
      Visits config [] [⟨path, .embed name⟩] (named config config.declarations name) :=
    fun path name => visits_named _ name [] path all
  exact (visits_fields embeds _ _ _ _).map _

theorem visits_register (config : Config) (models : Models) (decls : List ModelDecl) :
    Visits config [] (decls.flatMap fun decl => Site.members "" decl.fields)
      (register config models decls) := by
  induction decls generalizing models with
  | nil => exact .pure models
  | cons decl rest ih => exact (visits_model config decl).bind fun schema => ih _

/-- The end of a build: its models are all clean, or it fails with the first fault. -/
theorem build_outcome (config : Config) :
    ((∃ models, config.build = .ok models) ∧ ∀ root ∈ config.roots, config.Clean root) ∨
      ∃ error, config.build = .error error ∧ config.FirstFault [] config.roots error := by
  have outcome := visits_register config .empty config.models [] (ready_start config)
  have run : config.build = ((register config .empty config.models).run []).map Prod.fst := rfl
  cases result : (register config .empty config.models).run [] with
  | error error =>
    rw [result] at outcome run
    cases outcome with
    | failed first => exact .inr ⟨error, run, first⟩
  | ok compiled =>
    rw [result] at outcome run
    cases outcome with
    | done ready grows covers =>
      exact .inl ⟨⟨_, run⟩, fun root member => (covers root member).clean⟩

end SelectionPlan.Compile

namespace SelectionPlan.Config

theorem build_eq_error_iff (config : Config) (error : BuildError) :
    config.build = .error error ↔ config.FirstFault [] config.roots error := by
  rcases Compile.build_outcome config with ⟨⟨models, built⟩, clean⟩ | ⟨other, refused, first⟩
  · constructor
    · intro refused
      cases built.symm.trans refused
    · intro first
      exact absurd clean (first.not_clean (surround_start config _))
  · constructor
    · intro refused'
      cases refused.symm.trans refused'
      exact first
    · intro first'
      rw [first'.unique first (surround_start config _)]
      exact refused

/-- Models are built from a configuration if and only if nothing is wrong with what is visited.
Otherwise the error is the first fault of the visit, and it tells the truth about a declaration that
is visited. In particular, a schema is said to embed itself only if it does. -/
theorem build_exact (config : Config) :
    ((∃ models, config.build = .ok models) ↔
      ∀ site, config.Visited site → config.Admissible site.decl) ∧
    (∀ error, config.build = .error error ↔ config.FirstFault [] config.roots error) ∧
    ∀ error, config.build = .error error →
      ∃ site, config.Visited site ∧ config.Blames error site := by
  refine ⟨?_, build_eq_error_iff config, ?_⟩
  · rcases Compile.build_outcome config with ⟨built, clean⟩ | ⟨error, refused, first⟩
    · constructor
      · rintro - site ⟨root, member, reached⟩
        exact clean root member site reached
      · exact fun _ => built
    · constructor
      · rintro ⟨models, built⟩
        cases built.symm.trans refused
      · intro admissible
        have clean : ∀ root ∈ config.roots, config.Clean root :=
          fun root member site reached => admissible site ⟨root, member, reached⟩
        exact absurd clean (first.not_clean (surround_start config _))
  · intro error refused
    have first := (build_eq_error_iff config error).mp refused
    obtain ⟨root, member, site, reached, blames⟩ := first.blames (surround_start config _)
    exact ⟨site, ⟨root, member, reached⟩, blames⟩

theorem build_exact_circle :
    let post : ModelDecl := ⟨"Post", [("node", .embed "Node")], []⟩
    let node : ModelDecl := ⟨"Node", [("child", .array [.embed "Post"])], []⟩
    let config : Config := ⟨[post], [node], {}⟩
    config.build = .error (.embedsItself "Node") ∧ config.EmbedsItself "Node" := by
  intro post node config
  have first : config.FirstFault [] config.roots (.embedsItself "Node") :=
    .inside rfl (.inside rfl (.inside rfl (.here rfl)))
  have refused := ((build_exact config).2.1 _).mpr first
  obtain ⟨site, -, -, circle⟩ := (build_exact config).2.2 _ refused
  exact ⟨refused, circle⟩

end SelectionPlan.Config
