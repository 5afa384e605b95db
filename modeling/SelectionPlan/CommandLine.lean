import SelectionPlan.Config.Load
import SelectionPlan.Json.Printer
import SelectionPlan.Plan.Json
import SelectionPlan.Resolve

/-!
# The command

The command takes the name of a model and a selection text, and prints the plan for them as JSON.
The models come from a configuration file. The command line is looked at before anything is read,
and a failure prints nothing but its reason.
-/
namespace SelectionPlan

/-- What the command is told besides its arguments. -/
structure Environment where
  /-- The path of the configuration file. -/
  models : Option String
  /-- Whether to resolve strictly. -/
  strict : Option String

/-- What the command leaves behind. -/
structure Outcome where
  code : Nat
  stdout : String
  stderr : String
  deriving DecidableEq, Repr

namespace Environment

def modelsPath (env : Environment) : String :=
  env.models.getD "models.yaml"

/-- Whether a flag is set, in any mix of cases and between blanks. -/
def isOn (flag : String) : Bool :=
  let word := String.ofList ((Text.trim flag.toList).map Char.toLower)
  ["1", "true", "yes", "on"].contains word

def options (env : Environment) : ResolveOptions :=
  ⟨env.strict.any isOn⟩

end Environment

namespace Outcome

def success (text : String) : Outcome := ⟨0, text ++ "\n", ""⟩

def failure (reason : String) : Outcome := ⟨1, "", reason ++ "\n"⟩

def usage : Outcome := ⟨2, "", "usage: smart-select <model> <text>\n"⟩

end Outcome

namespace SelectError

def report (error : SelectError) : String :=
  match error.cause? with
  | some cause => error.message ++ ": " ++ cause
  | none => error.message

end SelectError

/-- The outcome of the command with the given arguments. Arguments behind the text are ignored. -/
def command (read : String → Except ReadError String) (env : Environment) :
    List String → Outcome
  | model :: text :: _ =>
    match Models.load read env.modelsPath with
    | .error error =>
      .failure ("failed to load models from " ++ env.modelsPath ++ ": " ++ error.message)
    | .ok models =>
      match (Resolver.mk models env.options).select model text with
      | .error error => .failure (model ++ ": " ++ error.report)
      | .ok plan => .success plan.toJson.pretty
  | _ => .usage

end SelectionPlan
