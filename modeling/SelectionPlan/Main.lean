import SelectionPlan.CommandLine

/-!
# The program

Reads the environment and the configuration file, and leaves everything else to `command`.
-/
namespace SelectionPlan

/-- What it means that a file cannot be read. Systems give the numbers of errors either sign. -/
def ReadError.ofSystem : IO.Error → ReadError
  | .noFileOrDirectory _ _ _ => .notFound
  | .inappropriateType _ code _ =>
    if code = 21 || code = -21 then .isADirectory else .notADirectory
  | .invalidArgument _ code details =>
    if code = 36 || code = -36 then .nameTooLong else .other details
  | .permissionDenied _ _ _ => .other "Permission denied (os error 13)"
  | error => .other (toString error)

def readText (path : String) : IO (Except ReadError String) := do
  match ← (IO.FS.readBinFile path).toBaseIO with
  | .error error => return .error (.ofSystem error)
  | .ok content =>
    match String.fromUTF8? content with
    | some text => return .ok text
    | none => return .error .notUtf8

end SelectionPlan

open SelectionPlan in
/-- The command: `smart-select <model> <text>`. -/
def main (args : List String) : IO UInt32 := do
  let env : Environment :=
    ⟨← IO.getEnv "SMART_SELECT_MODELS", ← IO.getEnv "SMART_SELECT_STRICT"⟩
  let content ← readText env.modelsPath
  let outcome := command (fun _ => content) env args
  IO.print outcome.stdout
  IO.eprint outcome.stderr
  return outcome.code.toUInt32
