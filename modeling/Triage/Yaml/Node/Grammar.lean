import Triage.Yaml.Node
import Triage.Yaml.Token.Lexer

/-!
# From tokens to nodes

One document: directives, a node, and the end of the text. A part that is left
out is an empty plain scalar.
-/

namespace Triage.Yaml

structure Reading where
  tokens : List Token
  handles : List (String × String) := []
  /-- The numbers of the anchors' names. -/
  numbers : SortedMap String Nat := .empty
  /-- The nodes of the numbers, each given by its place among the anchored ones. -/
  targets : SortedMap Nat Nat := .empty
  anchored : SortedMap Nat Node := .empty
  begun : Nat := 0

abbrev ReadingM := StateT Reading Option

namespace Reading

def peek : ReadingM Token := do
  match (← get).tokens with
  | t :: _ => pure t
  | [] => failure

def skip : ReadingM Unit := modify fun s => { s with tokens := s.tokens.drop 1 }

def expect (t : Token) : ReadingM Unit := do
  if (← peek) = t then skip else failure

-- ---------------------------------------------------------------------------
-- Directives
-- ---------------------------------------------------------------------------

def defaultHandles : List (String × String) := [("!", "!"), ("!!", "tag:yaml.org,2002:")]

/-- The directives here: at most one version, which is 1.1 or 1.2, and no handle twice. -/
def directives : Nat → Bool → ReadingM Unit
  | 0, _ => failure
  | fuel + 1, versioned => do
    match ← peek with
    | .versionDirective major minor =>
      if versioned || major ≠ 1 || !(minor = 1 || minor = 2) then failure
      skip
      directives fuel true
    | .tagDirective handle uri =>
      if ((← get).handles.lookup handle).isSome then failure
      modify fun s => { s with handles := s.handles ++ [(handle, uri)] }
      skip
      directives fuel versioned
    | _ => modify fun s => { s with handles := s.handles ++ defaultHandles }

-- ---------------------------------------------------------------------------
-- Properties of nodes
-- ---------------------------------------------------------------------------

def anchor? : ReadingM (Option String) := do
  match ← peek with
  | .anchor name => skip; pure (some name)
  | _ => pure none

def tag? : ReadingM (Option String) := do
  match ← peek with
  | .tag handle suffix =>
    skip
    if handle.isEmpty then pure (some suffix)
    else
      match (← get).handles.lookup handle with
      | some uri => pure (some (uri ++ suffix))
      | none => failure
  | _ => pure none

def properties : ReadingM (Option String × Option String) := do
  match ← anchor? with
  | some name => pure (some name, ← tag?)
  | none =>
    match ← tag? with
    | some tag => pure (← anchor?, some tag)
    | none => pure (none, none)

/-- Begins an anchored node. Its number is the count of names so far; so a name
given again takes a number that the next new name takes over. -/
def begin (name : String) : ReadingM Nat := do
  let s ← get
  let number := s.numbers.size
  set { s with
    numbers := s.numbers.insert name number
    targets := s.targets.insert number s.begun
    begun := s.begun + 1 }
  pure s.begun

def complete (place : Nat) (n : Node) : ReadingM Unit :=
  modify fun s => { s with anchored := s.anchored.insert place n }

def anchoring (name : Option String) (read : ReadingM Node) : ReadingM Node := do
  match name with
  | none => read
  | some name =>
    let place ← begin name
    let n ← read
    complete place n
    pure n

-- ---------------------------------------------------------------------------
-- Nodes
-- ---------------------------------------------------------------------------

/-- Where a node stands: in a flow collection, in a block, or in a block where the
entries of a sequence may stand at the indentation of the mapping around it. -/
inductive Position where
  | flow
  | block
  | indentless
  deriving DecidableEq

def scalar (text : String) (style : Style) (tag : Option String) : Node :=
  .scalar text style (tag.filter (· ≠ "!"))

mutual
def node : Nat → Position → ReadingM Node
  | 0, _ => failure
  | fuel + 1, position => do
    match ← peek with
    | .reference name =>
      skip
      match (← get).numbers.get? name with
      | some number => pure (.reference number)
      | none => failure
    | _ =>
      let (name, tag) ← properties
      anchoring name (content fuel position (name.isSome || tag.isSome) tag)

/-- A node after its properties; where it has some, it may be left out. -/
def content : Nat → Position → Bool → Option String → ReadingM Node
  | 0, _, _, _ => failure
  | fuel + 1, position, hasProperties, tag => do
    match ← peek, position with
    | .blockEntry, .indentless => .sequence <$> indentlessItems fuel
    | .scalar text style, _ => skip; pure (scalar text style tag)
    | .flowSequenceStart, _ => skip; .sequence <$> flowItems fuel true
    | .flowMappingStart, _ => skip; .mapping <$> flowEntries fuel true
    | .blockSequenceStart, .block | .blockSequenceStart, .indentless =>
      skip; .sequence <$> blockItems fuel
    | .blockMappingStart, .block | .blockMappingStart, .indentless =>
      skip; .mapping <$> blockEntries fuel
    | _, _ => if hasProperties then pure (scalar "" .plain tag) else failure

def nodeUnless : Nat → Position → List Token → ReadingM Node
  | 0, _, _ => failure
  | fuel + 1, position, ends => do
    if ends.contains (← peek) then pure .empty else node fuel position

def valueUnless : Nat → Position → List Token → ReadingM Node
  | 0, _, _ => failure
  | fuel + 1, position, ends => do
    if (← peek) = .value then
      skip
      nodeUnless fuel position ends
    else pure .empty

def blockItems : Nat → ReadingM (List Node)
  | 0 => failure
  | fuel + 1 => do
    match ← peek with
    | .blockEntry =>
      skip
      let item ← nodeUnless fuel .block [.blockEntry, .blockEnd]
      return item :: (← blockItems fuel)
    | .blockEnd => skip; pure []
    | _ => failure

def indentlessItems : Nat → ReadingM (List Node)
  | 0 => failure
  | fuel + 1 => do
    match ← peek with
    | .blockEntry =>
      skip
      let item ← nodeUnless fuel .block [.blockEntry, .key, .value, .blockEnd]
      return item :: (← indentlessItems fuel)
    | _ => pure []

def blockEntries : Nat → ReadingM (List (Node × Node))
  | 0 => failure
  | fuel + 1 => do
    match ← peek with
    | .key =>
      skip
      let key ← nodeUnless fuel .indentless [.key, .value, .blockEnd]
      let value ← valueUnless fuel .indentless [.key, .value, .blockEnd]
      return (key, value) :: (← blockEntries fuel)
    | .blockEnd => skip; pure []
    | _ => failure

/-- The items of a flow sequence; a key among them makes a mapping of one entry. -/
def flowItems : Nat → Bool → ReadingM (List Node)
  | 0, _ => failure
  | fuel + 1, first => do
    if (← peek) = .flowSequenceEnd then
      skip
      return []
    if !first then expect .flowEntry
    match ← peek with
    | .flowSequenceEnd => skip; pure []
    | .key =>
      skip
      let entry ← singleEntry fuel
      return .mapping [entry] :: (← flowItems fuel false)
    | _ =>
      let item ← node fuel .flow
      return item :: (← flowItems fuel false)

/-- The entry after a key in a flow sequence. An empty key takes the token that ends it. -/
def singleEntry : Nat → ReadingM (Node × Node)
  | 0 => failure
  | fuel + 1 => do
    let empty := [Token.value, .flowEntry, .flowSequenceEnd].contains (← peek)
    let key ← if empty then (do skip; pure Node.empty) else node fuel .flow
    return (key, ← valueUnless fuel .flow [.flowEntry, .flowSequenceEnd])

def flowEntries : Nat → Bool → ReadingM (List (Node × Node))
  | 0, _ => failure
  | fuel + 1, first => do
    if (← peek) = .flowMappingEnd then
      skip
      return []
    if !first then expect .flowEntry
    match ← peek with
    | .flowMappingEnd => skip; pure []
    | .key =>
      skip
      let key ← nodeUnless fuel .flow [.value, .flowEntry, .flowMappingEnd]
      let value ← valueUnless fuel .flow [.flowEntry, .flowMappingEnd]
      return (key, value) :: (← flowEntries fuel false)
    | _ =>
      let key ← node fuel .flow
      return (key, .empty) :: (← flowEntries fuel false)
end

-- ---------------------------------------------------------------------------
-- Documents
-- ---------------------------------------------------------------------------

def skipEnds : ReadingM Unit :=
  modify fun s => { s with tokens := s.tokens.dropWhile (· = .documentEnd) }

def markedNode (fuel : Nat) : ReadingM Node := do
  expect .documentStart
  match ← peek with
  | .versionDirective .. | .tagDirective .. | .documentStart | .documentEnd | .streamEnd => pure .empty
  | _ => node fuel .block

def document (fuel : Nat) : ReadingM Node := do
  match ← peek with
  | .streamEnd => pure .empty
  | .versionDirective .. | .tagDirective .. | .documentStart =>
    directives fuel false
    markedNode fuel
  | _ =>
    directives fuel false
    node fuel .block

def stream (fuel : Nat) : ReadingM Node := do
  let root ← document fuel
  skipEnds
  if (← peek) = .streamEnd then pure root else failure

end Reading

def Tree.ofTokens? (tokens : List Token) : Option Tree := do
  let (root, s) ← (Reading.stream (4 * tokens.length + 4)).run { tokens := tokens }
  let anchors := s.targets.entries.filterMap fun (number, place) =>
    (s.anchored.get? place).map (number, ·)
  some { root := root, anchors := SortedMap.ofList anchors }

def Tree.ofText? (text : String) : Option Tree := (Token.ofText? text).bind ofTokens?

end Triage.Yaml
