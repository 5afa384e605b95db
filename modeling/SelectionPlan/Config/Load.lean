import SelectionPlan.Config.Compile
import SelectionPlan.Config.Yaml
import SelectionPlan.Folder
import SelectionPlan.Text.Excerpt

/-!
# Loading models

A configuration file is read first, and then its extension decides on its format. What reads files
is a parameter, so loading from a disk and from a folder of known files is the same thing.
-/
namespace SelectionPlan

/-- Why a file holds no configuration. -/
inductive LoadError where
  | unreadable (error : ReadError)
  /-- The extension of the file, if it has one, names no format. -/
  | unknownFormat (extension : Option String)
  /-- Something is wrong with a JSON text. -/
  | json (text : String) (fault : Json.Fault)
  | yaml

/-- Why a file gives no models. -/
inductive ModelsError where
  | load (error : LoadError)
  | build (error : BuildError)

namespace LoadError

def place (excerpt : Text.Excerpt) : String :=
  " at line " ++ toString excerpt.line ++ " column " ++ toString excerpt.column

def message : LoadError → String
  | .unreadable error => "io error: " ++ error.message
  | .unknownFormat extension =>
    "invalid model config: unsupported model file extension: " ++ extension.getD "<none>"
  | .json text (.mismatch reason rest) =>
    "json error: " ++ reason.message ++ place (Text.excerpt text.toList rest)
  | .json _ .truncated => "json error: the text ends too early"
  | .json _ .malformed => "json error: the text is malformed"
  | .yaml => "yaml error: the text describes no configuration"

end LoadError

namespace ModelsError

def message : ModelsError → String
  | .load error => error.message
  | .build error => error.message

end ModelsError

namespace Config

def ofJson (text : String) : Except LoadError Config :=
  (ofJsonText text).mapError (.json text)

def ofYaml (text : String) : Except LoadError Config :=
  match ofYamlText text with
  | some config => .ok config
  | none => .error .yaml

def load (read : String → Except ReadError String) (path : String) : Except LoadError Config := do
  let text ← (read path).mapError .unreadable
  match extension? path with
  | some "json" => ofJson text
  | some "yaml" => ofYaml text
  | some "yml" => ofYaml text
  | extension => throw (.unknownFormat extension)

end Config

/-- Loads the models that the configuration file at a path describes. -/
def Models.load (read : String → Except ReadError String) (path : String) :
    Except ModelsError Models := do
  let config ← (Config.load read path).mapError .load
  config.build.mapError .build

end SelectionPlan
