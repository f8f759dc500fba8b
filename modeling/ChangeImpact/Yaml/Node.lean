import ChangeImpact.Yaml.Lexer

/-!
# Nodes of a YAML document

The tree that tokens describe. An anchor gives a number to a node, by which aliases
refer to it.

## Main definitions

* `Node`, `Document`: nodes and documents.
* `Document.target`: the node that an alias stands for.
* `Document.ofText`: the document in a text.
-/

namespace ChangeImpact.Yaml

/-- What may stand before the content of a node. -/
structure Properties where
  /-- The number that the node's anchor was given. -/
  anchor? : Option Nat := none
  tag? : Option String := none
deriving DecidableEq, Inhabited

inductive Node where
  | alias (anchor : Nat)
  | scalar (properties : Properties) (style : ScalarStyle) (text : String)
  | sequence (properties : Properties) (items : List Node)
  | mapping (properties : Properties) (entries : List (Node × Node))
deriving Inhabited

namespace Node

/-- The scalar that nothing is written for. -/
def empty (properties : Properties) : Node := .scalar properties .plain ""

def anchor? : Node → Option Nat
  | .alias _ => none
  | .scalar properties _ _ => properties.anchor?
  | .sequence properties _ => properties.anchor?
  | .mapping properties _ => properties.anchor?

mutual

def all : Node → List Node
  | .alias a => [.alias a]
  | .scalar p s t => [.scalar p s t]
  | .sequence p items => .sequence p items :: allItems items
  | .mapping p entries => .mapping p entries :: allEntries entries

def allItems : List Node → List Node
  | [] => []
  | n :: rest => all n ++ allItems rest

def allEntries : List (Node × Node) → List Node
  | [] => []
  | (k, v) :: rest => all k ++ all v ++ allEntries rest

end

end Node

structure Document where
  root : Node

/-- The node that a node stands for: for an alias, the last node whose anchor has its number. -/
def Document.target (d : Document) : Node → Node
  | .alias a => (d.root.all.reverse.find? fun n => n.anchor? == some a).getD (.alias a)
  | n => n

/-! ## Reading nodes -/

structure Reading where
  tokens : List Token
  /-- The numbers of the anchors that have been named. -/
  anchors : List (String × Nat) := []
  /-- The shorthands for tags. -/
  shorthands : List (String × String) := []

abbrev Reader (α : Type) : Type := StateT Reading (Except Fault) α

namespace Reader

def peek? : Reader (Option Token) := do return (← get).tokens.head?

def skip : Reader Unit := modify fun r => { r with tokens := r.tokens.drop 1 }

def nextIn (ts : List Token) : Reader Bool := do return (← peek?).any ts.contains

def nextIs (t : Token) : Reader Bool := nextIn [t]

/-- Give a number to a new anchor: how many names there were before. -/
def nameAnchor (name : String) : Reader Nat := do
  let r ← get
  let number := r.anchors.length
  set { r with anchors := (name, number) :: r.anchors.filter (·.1 != name) }
  return number

def expandTag (handle suffix : String) : Reader String := do
  if handle = "" then return suffix
  else
    match (← get).shorthands.lookup handle with
    | some expansion => return expansion ++ suffix
    | none => throw .unknownTagHandle

def readAnchor : Reader (Option String) := do
  match ← peek? with
  | some (.anchor name) =>
    skip
    return some name
  | _ => return none

def readTag : Reader (Option (String × String)) := do
  match ← peek? with
  | some (.tag handle suffix) =>
    skip
    return some (handle, suffix)
  | _ => return none

structure Written where
  properties : Properties
  /-- Whether there were any. -/
  any : Bool

/-- Read the properties of a node, in any order. A lone exclamation mark is no tag. -/
def readProperties : Reader Written := do
  let early? ← readAnchor
  let tag? ← readTag
  let late? ← if early?.isSome then pure none else readAnchor
  let expanded? ← tag?.mapM fun (handle, suffix) => expandTag handle suffix
  let name? := early?.or late?
  let anchor? ← name?.mapM nameAnchor
  return ⟨⟨anchor?, expanded?.filter (· != "!")⟩, name?.isSome || tag?.isSome⟩

inductive Setting where
  /-- Between brackets, where no blocks are allowed. -/
  | flow
  /-- Where a block may begin. -/
  | block
  /-- In a block mapping, where a block sequence need not be indented. -/
  | mappingBlock
deriving DecidableEq

mutual

def readNode (fuel : Nat) (setting : Setting) : Reader Node :=
  match fuel with
  | 0 => throw .unexpectedToken
  | fuel + 1 => do
    if let some (.alias name) ← peek? then
      match (← get).anchors.lookup name with
      | some number =>
        skip
        return .alias number
      | none => throw .unknownAnchor
    let written ← readProperties
    let p := written.properties
    match ← peek? with
    | some .blockEntry =>
      if setting = .mappingBlock then return .sequence p (← readBareEntries fuel)
      else readEmpty written
    | some (.scalar style text) =>
      skip
      return .scalar p style text
    | some .flowSequenceStart =>
      skip
      return .sequence p (← readFlowItems fuel true)
    | some .flowMappingStart =>
      skip
      return .mapping p (← readFlowEntries fuel true)
    | some .blockSequenceStart =>
      if setting = .flow then readEmpty written
      else
        skip
        return .sequence p (← readBlockItems fuel)
    | some .blockMappingStart =>
      if setting = .flow then readEmpty written
      else
        skip
        return .mapping p (← readBlockEntries fuel)
    | _ => readEmpty written

/-- A node without content has properties at least. -/
def readEmpty (written : Written) : Reader Node :=
  if written.any then return Node.empty written.properties else throw .unexpectedToken

/-- Read a node, or nothing where one of some tokens is next. -/
def readUnless (fuel : Nat) (stops : List Token) (setting : Setting) : Reader Node :=
  match fuel with
  | 0 => throw .unexpectedToken
  | fuel + 1 => do
    if ← nextIn stops then return Node.empty {} else readNode fuel setting

def readBlockItems (fuel : Nat) : Reader (List Node) :=
  match fuel with
  | 0 => throw .unexpectedToken
  | fuel + 1 => do
    if ← nextIs .blockEntry then
      skip
      let item ← readUnless fuel [.blockEntry, .blockEnd] .block
      return item :: (← readBlockItems fuel)
    else if ← nextIs .blockEnd then
      skip
      return []
    else throw .unexpectedToken

/-- Read the items of a block sequence that is not indented. -/
def readBareEntries (fuel : Nat) : Reader (List Node) :=
  match fuel with
  | 0 => throw .unexpectedToken
  | fuel + 1 => do
    if ← nextIs .blockEntry then
      skip
      let item ← readUnless fuel [.blockEntry, .key, .value, .blockEnd] .block
      return item :: (← readBareEntries fuel)
    else return []

def readBlockEntries (fuel : Nat) : Reader (List (Node × Node)) :=
  match fuel with
  | 0 => throw .unexpectedToken
  | fuel + 1 => do
    if ← nextIs .key then
      skip
      let key ← readUnless fuel [.key, .value, .blockEnd] .mappingBlock
      let value ← readBlockValue fuel
      return (key, value) :: (← readBlockEntries fuel)
    else if ← nextIs .blockEnd then
      skip
      return []
    else throw .unexpectedToken

def readBlockValue (fuel : Nat) : Reader Node :=
  match fuel with
  | 0 => throw .unexpectedToken
  | fuel + 1 => do
    if ← nextIs .value then
      skip
      readUnless fuel [.key, .value, .blockEnd] .mappingBlock
    else return Node.empty {}

/-- Read the items of a sequence in brackets. A comma stands before every item but the first. -/
def readFlowItems (fuel : Nat) (first : Bool) : Reader (List Node) :=
  match fuel with
  | 0 => throw .unexpectedToken
  | fuel + 1 => do
    if ← nextIs .flowSequenceEnd then
      skip
      return []
    if !first then
      if ← nextIs .flowEntry then skip else throw .unexpectedToken
    if ← nextIs .key then
      skip
      let entry ← readFlowPair fuel
      return .mapping {} [entry] :: (← readFlowItems fuel false)
    else if ← nextIs .flowSequenceEnd then
      skip
      return []
    else
      let item ← readNode fuel .flow
      return item :: (← readFlowItems fuel false)

/-- Read a mapping of one entry that stands for an item of a sequence in brackets. -/
def readFlowPair (fuel : Nat) : Reader (Node × Node) :=
  match fuel with
  | 0 => throw .unexpectedToken
  | fuel + 1 => do
    let key ← if ← nextIn [.value, .flowEntry, .flowSequenceEnd] then do
        skip
        pure (Node.empty {})
      else readNode fuel .flow
    if ← nextIs .value then
      skip
      return (key, ← readUnless fuel [.flowEntry, .flowSequenceEnd] .flow)
    else return (key, Node.empty {})

/-- Read the entries of a mapping in braces. A comma stands before every entry but the first. -/
def readFlowEntries (fuel : Nat) (first : Bool) : Reader (List (Node × Node)) :=
  match fuel with
  | 0 => throw .unexpectedToken
  | fuel + 1 => do
    if ← nextIs .flowMappingEnd then
      skip
      return []
    if !first then
      if ← nextIs .flowEntry then skip else throw .unexpectedToken
    if ← nextIs .key then
      skip
      let key ← readUnless fuel [.value, .flowEntry, .flowMappingEnd] .flow
      let value ← readFlowValue fuel
      return (key, value) :: (← readFlowEntries fuel false)
    else if ← nextIs .flowMappingEnd then
      skip
      return []
    else
      let key ← readNode fuel .flow
      return (key, Node.empty {}) :: (← readFlowEntries fuel false)

def readFlowValue (fuel : Nat) : Reader Node :=
  match fuel with
  | 0 => throw .unexpectedToken
  | fuel + 1 => do
    if ← nextIs .value then
      skip
      readUnless fuel [.flowEntry, .flowMappingEnd] .flow
    else return Node.empty {}

end

/-! ## Reading documents -/

/-- The shorthands that need no directive. -/
def defaultShorthands : List (String × String) := [("!", "!"), ("!!", "tag:yaml.org,2002:")]

def isKnownVersion (major minor : Nat) : Bool := major == 1 && (minor == 1 || minor == 2)

/-- Read directives: at most one version, and shorthands of different names. -/
def readDirectives (fuel : Nat) (versioned : Bool) (shorthands : List (String × String)) :
    Reader (List (String × String)) :=
  match fuel with
  | 0 => return shorthands
  | fuel + 1 => do
    match ← peek? with
    | some (.version major minor) =>
      if versioned then throw .badDirective
      if !isKnownVersion major minor then throw .unknownVersion
      skip
      readDirectives fuel true shorthands
    | some (.tagShorthand handle expansion) =>
      if (shorthands.lookup handle).isSome then throw .badDirective
      skip
      readDirectives fuel versioned (shorthands ++ [(handle, expansion)])
    | _ => return shorthands

/-- Whether the content of a document is left out. -/
def endsDocument : Option Token → Bool
  | none => true
  | some (.version ..) | some (.tagShorthand ..) | some .documentStart | some .documentEnd => true
  | _ => false

def startsExplicitly : Option Token → Bool
  | some (.version ..) | some (.tagShorthand ..) | some .documentStart => true
  | _ => false

/-- Read a document; there is none if no token is left. -/
def readDocument (fuel : Nat) : Reader (Option Document) := do
  let next? ← peek?
  if next?.isNone then return none
  else if startsExplicitly next? then
    let given ← readDirectives fuel false []
    modify fun r => { r with shorthands := given ++ defaultShorthands }
    if ← nextIs .documentStart then skip else throw .unexpectedToken
    if endsDocument (← peek?) then return some ⟨Node.empty {}⟩
    else return some ⟨← readNode fuel .block⟩
  else
    modify fun r => { r with shorthands := defaultShorthands }
    return some ⟨← readNode fuel .block⟩

def skipDocumentEnds : Reader Unit :=
  modify fun r => { r with tokens := r.tokens.dropWhile (· == .documentEnd) }

def readOnlyDocument (fuel : Nat) : Reader (Option Document) := do
  let document? ← readDocument fuel
  skipDocumentEnds
  if (← peek?).isSome then throw .severalDocuments
  return document?

end Reader

/-- The document in a text, if there is one. Each token takes a few steps at most. -/
def Document.ofText (text : String) : Except Fault (Option Document) := do
  let tokens ← Token.ofText text
  let (document?, _) ← (Reader.readOnlyDocument (4 * tokens.length + 4)).run { tokens }
  return document?

end ChangeImpact.Yaml
