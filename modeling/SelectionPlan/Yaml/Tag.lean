/-!
# Tags

A tag says of what type a node is. It is a sequence of bytes, because an escape can write any byte,
also where the result is no UTF-8. A tag ends at its first zero byte, so it never holds one.

The core types have tags below one common root. A tag that starts with an exclamation mark is local:
it names a type of the application.
-/
namespace SelectionPlan.Yaml

/-- The bytes of a tag. -/
abbrev Tag := List UInt8

namespace Tag

def ofBytes (bytes : List UInt8) : Tag :=
  bytes.takeWhile (· != 0)

def ofString (text : String) : Tag :=
  ofBytes text.toUTF8.toList

/-- What a tag with the handle `!` starts with. -/
def localRoot : Tag := ofString "!"

/-- What a tag with the handle `!!` starts with. -/
def coreRoot : Tag := ofString "tag:yaml.org,2002:"

def core (name : String) : Tag :=
  coreRoot ++ ofString name

def localName? : Tag → Option (List UInt8)
  | 0x21 :: name => some name
  | _ => none

def isText (bytes : List UInt8) : Bool :=
  (String.fromUTF8? ⟨bytes.toArray⟩).isSome

def isLocal (tag : Tag) : Bool :=
  tag.localName?.any isText

/-- Whether a tag says nothing: it is local, but its name is no text. -/
def isVoid (tag : Tag) : Bool :=
  tag.localName?.any fun name => !isText name

end Tag

end SelectionPlan.Yaml
