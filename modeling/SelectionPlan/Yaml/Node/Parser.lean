import SelectionPlan.Yaml.Lexer
import SelectionPlan.Yaml.Node

/-!
# Reading YAML texts

The tokens of a text are put together into the tree of its document. Anchors are numbered by how
many names are known when they are set, so setting a name again takes the number after the last
one, and two nodes may come to have the same number.
-/
namespace SelectionPlan.Yaml.Node

/-- What is left to read, and what was declared before. -/
structure Source where
  tokens : List Token
  /-- Anchors with their numbers, the last ones first. -/
  anchors : List (String × Nat) := []
  /-- Tag handles with what they stand for. -/
  handles : List (String × Tag) := []

/-- A step of building nodes. -/
abbrev Build := StateT Source Option

def peek : Build (Option Token) := do
  return (← get).tokens.head?

def advance : Build Unit :=
  modify fun source => { source with tokens := source.tokens.tail }

/-- Passes the next token if it is the given one, and tells whether it was. -/
def passIf (token : Token) : Build Bool := do
  if (← peek) = some token then
    advance
    return true
  else return false

def nextIsAny (tokens : List Token) : Build Bool := do
  return (← peek).any tokens.contains

def setAnchor (name : String) : Build Nat := do
  let source ← get
  let number := source.anchors.length
  set { source with anchors := (name, number) :: source.anchors.filter (·.1 ≠ name) }
  return number

def expandTag (handle : String) (suffix : Tag) : Build Tag := do
  if handle = "" then return suffix
  match (← get).handles.lookup handle with
  | some root => return root ++ suffix
  | none =>
    if handle = "!" then return Tag.localRoot ++ suffix
    else if handle = "!!" then return Tag.coreRoot ++ suffix
    else failure

/-- Reads the anchor and the tag in front of a node, in either order. Tells whether there were
any. -/
def readProperties : Build (Properties × Bool) := do
  match ← peek with
  | some (.anchor name) =>
    advance
    match ← peek with
    | some (.tag handle suffix) =>
      advance
      let tag ← expandTag handle suffix
      return (⟨some (← setAnchor name), some tag⟩, true)
    | _ => return (⟨some (← setAnchor name), none⟩, true)
  | some (.tag handle suffix) =>
    advance
    match ← peek with
    | some (.anchor name) =>
      advance
      let tag ← expandTag handle suffix
      return (⟨some (← setAnchor name), some tag⟩, true)
    | _ => return (⟨none, some (← expandTag handle suffix)⟩, true)
  | _ => return ({}, false)

mutual

/-- Reads a node. Block collections are allowed where `block` says so; the entries of a sequence
that is not indented are allowed where `flush` says so. A token is passed at least in every third
round, so three times the number of tokens is fuel enough. -/
def build : Nat → Bool → Bool → Build Node
  | 0, _, _ => failure
  | fuel + 1, block, flush => do
    if let some (.link name) ← peek then
      advance
      match (← get).anchors.lookup name with
      | some number => return .link number
      | none => failure
    let (properties, found) ← readProperties
    match ← peek with
    | some (.scalar style text) =>
      advance
      return .scalar properties style text
    | some .flowSequenceStart =>
      advance
      return .sequence properties (← buildFlowItems fuel true)
    | some .flowMappingStart =>
      advance
      return .mapping properties (← buildFlowEntries fuel true)
    | some .blockEntry =>
      if flush then return .sequence properties (← buildFlushItems fuel)
      else if found then return .scalar properties .plain ""
      else failure
    | some .blockSequenceStart =>
      if block then
        advance
        return .sequence properties (← buildItems fuel)
      else if found then return .scalar properties .plain ""
      else failure
    | some .blockMappingStart =>
      if block then
        advance
        return .mapping properties (← buildEntries fuel)
      else if found then return .scalar properties .plain ""
      else failure
    | _ => if found then return .scalar properties .plain "" else failure

def buildUnless : Nat → Bool → Bool → List Token → Build Node
  | 0, _, _, _ => failure
  | fuel + 1, block, flush, ends => do
    if ← nextIsAny ends then return blank else build fuel block flush

def buildItems : Nat → Build (List Node)
  | 0 => failure
  | fuel + 1 => do
    if ← passIf .blockEntry then
      let item ← buildUnless fuel true false [.blockEntry, .blockEnd]
      return item :: (← buildItems fuel)
    else if ← passIf .blockEnd then return []
    else failure

/-- Reads the items of a block sequence that ends with the last dash. -/
def buildFlushItems : Nat → Build (List Node)
  | 0 => failure
  | fuel + 1 => do
    if ← passIf .blockEntry then
      let item ← buildUnless fuel true false [.blockEntry, .key, .value, .blockEnd]
      return item :: (← buildFlushItems fuel)
    else return []

def buildEntries : Nat → Build (List (Node × Node))
  | 0 => failure
  | fuel + 1 => do
    if ← passIf .key then
      let key ← buildUnless fuel true true [.key, .value, .blockEnd]
      let value ← if ← passIf .value then buildUnless fuel true true [.key, .value, .blockEnd]
        else pure blank
      return (key, value) :: (← buildEntries fuel)
    else if ← passIf .blockEnd then return []
    else failure

/-- Reads the items of a flow sequence and its end. An item with a colon is a mapping of one
entry. -/
def buildFlowItems : Nat → Bool → Build (List Node)
  | 0, _ => failure
  | fuel + 1, first => do
    if ← passIf .flowSequenceEnd then return []
    if !first then
      if !(← passIf .flowEntry) then failure
      if ← passIf .flowSequenceEnd then return []
    if ← passIf .key then
      let item ← buildPair fuel
      return item :: (← buildFlowItems fuel false)
    else
      let item ← build fuel false false
      return item :: (← buildFlowItems fuel false)

/-- Reads the only entry of a mapping inside a flow sequence. A colon without a key in front of it
is passed as if it were the key. -/
def buildPair : Nat → Build Node
  | 0 => failure
  | fuel + 1 => do
    let ends := [.flowEntry, .flowSequenceEnd]
    let key ← if ← nextIsAny (.value :: ends) then do advance; pure blank
      else build fuel false false
    let value ← if ← passIf .value then buildUnless fuel false false ends else pure blank
    return .mapping {} [(key, value)]

def buildFlowEntries : Nat → Bool → Build (List (Node × Node))
  | 0, _ => failure
  | fuel + 1, first => do
    if ← passIf .flowMappingEnd then return []
    if !first then
      if !(← passIf .flowEntry) then failure
      if ← passIf .flowMappingEnd then return []
    if ← passIf .key then
      let ends := [.flowEntry, .flowMappingEnd]
      let key ← buildUnless fuel false false (.value :: ends)
      let value ← if ← passIf .value then buildUnless fuel false false ends else pure blank
      return (key, value) :: (← buildFlowEntries fuel false)
    else
      let key ← build fuel false false
      return (key, blank) :: (← buildFlowEntries fuel false)

end

def directives : List Token → Bool → List (String × Tag) →
    Option (List Token × List (String × Tag))
  | .versionDirective major minor :: rest, seen, handles =>
    if seen || major ≠ 1 || !(minor = 1 || minor = 2) then none else directives rest true handles
  | .tagDirective handle root :: rest, seen, handles =>
    if (handles.lookup handle).isSome then none
    else directives rest seen ((handle, root) :: handles)
  | rest, _, handles => some (rest, handles)

def isDirective : Token → Bool
  | .versionDirective _ _ => true
  | .tagDirective _ _ => true
  | _ => false

def document (tokens : List Token) : Option (Node × Source) := do
  let fuel := 3 * tokens.length + 3
  if tokens.head?.any fun first => isDirective first || first = .documentStart then
    let (rest, handles) ← directives tokens false []
    match rest with
    | [.documentStart] => return (blank, { tokens := [], handles })
    | .documentStart :: body =>
      (buildUnless fuel true false [.documentStart, .documentEnd]).run { tokens := body, handles }
    | _ => none
  else (build fuel true false).run { tokens }

/-- The only document of a text: `none` inside if there is not even an empty one. -/
def ofText (text : String) : Option (Option Node) := do
  let tokens ← tokens text
  if tokens.isEmpty then return none
  let (node, rest) ← document tokens
  if rest.tokens.all (· = .documentEnd) then return some node else none

end SelectionPlan.Yaml.Node
