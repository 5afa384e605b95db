import SelectionPlan.Dict
import SelectionPlan.Text.Split

/-!
# Files

What comes back when a path is read, and a folder of plain files to read from. In a folder a path
is followed name by name. Going above the folder leads to directories in which nothing is known,
and so does a path that starts at the root of the file system.
-/
namespace SelectionPlan

/-- Why a file has no text. -/
inductive ReadError where
  | notFound
  | notADirectory
  | isADirectory
  | nameTooLong
  /-- The path holds a zero byte, which no name can. -/
  | zeroInName
  | notUtf8
  /-- Anything else that the system says. -/
  | other (details : String)
  deriving DecidableEq, Repr

namespace ReadError

def message : ReadError → String
  | .notFound => "No such file or directory (os error 2)"
  | .notADirectory => "Not a directory (os error 20)"
  | .isADirectory => "Is a directory (os error 21)"
  | .nameTooLong => "File name too long (os error 36)"
  | .zeroInName => "file name contained an unexpected NUL byte"
  | .notUtf8 => "stream did not contain valid UTF-8"
  | .other details => details

end ReadError

def fileName? (path : String) : Option String :=
  match ((Text.split '/' path).filter fun name => name ≠ "" && name ≠ ".").getLast? with
  | some ".." => none
  | name => name

/-- What follows the last dot of a file name. A dot at the front starts no extension. -/
def extension? (path : String) : Option String := do
  let name ← fileName? path
  match (Text.split '.' name).reverse with
  | [] => none
  | [_] => none
  | [_, ""] => none
  | last :: _ => some last

/-- Files by name. -/
structure Folder where
  files : List (String × ByteArray)

namespace Folder

/-- Where following a path has led. -/
inductive Place where
  /-- A directory, the given number of levels above the folder. -/
  | directory (above : Nat)
  | file (content : ByteArray)

/-- Bytes that a name may have. -/
def maxName : Nat := 255

/-- Bytes that a path may have. -/
def maxPath : Nat := 4095

def enter (folder : Folder) : Place → String → Except ReadError Place
  | .file _, _ => .error .notADirectory
  | .directory above, name =>
    if name = "" || name = "." then .ok (.directory above)
    else if name = ".." then .ok (.directory (above + 1))
    else if maxName < name.utf8ByteSize then .error .nameTooLong
    else
      match above, folder.files.lookup name with
      | 0, some content => .ok (.file content)
      | _, _ => .error .notFound

def read (folder : Folder) (path : String) : Except ReadError String := do
  if path.toList.contains '\x00' then throw .zeroInName
  if maxPath < path.utf8ByteSize then throw .nameTooLong
  if path = "" then throw .notFound
  let start := Place.directory (if path.startsWith "/" then 1 else 0)
  match ← (Text.split '/' path).foldlM folder.enter start with
  | .directory _ => throw .isADirectory
  | .file content =>
    match String.fromUTF8? content with
    | some text => return text
    | none => throw .notUtf8

end Folder

end SelectionPlan
