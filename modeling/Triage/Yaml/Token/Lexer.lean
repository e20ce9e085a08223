import Triage.Yaml.Scalar
import Triage.Yaml.Token.Property

/-!
# From text to tokens

A key of a mapping is only known as one when the colon after it is reached. So
the lexer keeps, for the block and for every open flow collection, the last place
where a key may have begun, and puts the key's tokens in front of what has been
read since. A key of this kind ends on its line and within 1024 characters.
-/

namespace Triage.Yaml

structure KeyPlace where
  /-- The number of the token that would be the key's first. -/
  token : Nat
  line : Nat
  index : Nat
  column : Nat
  /-- Whether nothing but a key can stand there. -/
  required : Bool

structure Lexer where
  cursor : Cursor
  tokens : Array Token := #[]
  /-- The indentation of the innermost block collection, `-1` outside of all. -/
  indent : Int := -1
  outerIndents : List Int := []
  keyAllowed : Bool := true
  key : Option KeyPlace := none
  outerKeys : List (Option KeyPlace) := []

namespace Lexer

def inFlow (s : Lexer) : Bool := !s.outerKeys.isEmpty

def push (s : Lexer) (t : Token) : Lexer := { s with tokens := s.tokens.push t }

def take (s : Lexer) (t : Token) (n : Nat) : Lexer :=
  { s.push t with cursor := s.cursor.advance n }

def insertAt (s : Lexer) (place : Nat) (t : Token) : Lexer :=
  { s with tokens := s.tokens.insertIdxIfInBounds place t }

-- ---------------------------------------------------------------------------
-- Indentation
-- ---------------------------------------------------------------------------

/-- Opens a block collection where the column is right of the indentation. -/
def openBlock (s : Lexer) (column : Nat) (place : Nat) (t : Token) : Lexer :=
  if s.inFlow then s
  else if s.indent < column then
    { s.insertAt place t with indent := column, outerIndents := s.indent :: s.outerIndents }
  else s

/-- Closes the collections right of a column, innermost first; `outer` are the
indentations around the innermost one. -/
def closeFrom (column : Int) : Int → List Int → Array Token → Int × List Int × Array Token
  | indent, [], tokens => (indent, [], tokens)
  | indent, outer :: rest, tokens =>
    if column < indent then closeFrom column outer rest (tokens.push .blockEnd)
    else (indent, outer :: rest, tokens)

def closeBlocks (s : Lexer) (column : Int) : Lexer :=
  if s.inFlow then s
  else
    let (indent, outer, tokens) := closeFrom column s.indent s.outerIndents s.tokens
    { s with indent := indent, outerIndents := outer, tokens := tokens }

-- ---------------------------------------------------------------------------
-- Keys
-- ---------------------------------------------------------------------------

/-- Gives up the place of a key; `none` where one is required. -/
def dropKey? (s : Lexer) : Option Lexer :=
  if s.key.any (·.required) then none else some { s with key := none }

/-- Notes that a key may begin here. -/
def noteKey? (s : Lexer) : Option Lexer :=
  if s.keyAllowed then do
    let s ← s.dropKey?
    some { s with key := some {
      token := s.tokens.size
      line := s.cursor.line
      index := s.cursor.index
      column := s.cursor.column
      required := !s.inFlow && s.indent == s.cursor.column } }
  else some s

/-- A place that is still close enough; `none` where a required key was missed. -/
def freshKey? (c : Cursor) : Option KeyPlace → Option (Option KeyPlace)
  | none => some none
  | some k =>
    if k.line < c.line || k.index + 1024 < c.index then
      if k.required then none else some none
    else some (some k)

def dropStaleKeys? (s : Lexer) : Option Lexer := do
  let key ← freshKey? s.cursor s.key
  let outer ← s.outerKeys.mapM (freshKey? s.cursor)
  some { s with key := key, outerKeys := outer }

-- ---------------------------------------------------------------------------
-- Blanks, comments and line breaks
-- ---------------------------------------------------------------------------

/-- A byte order mark, which counts as a column. -/
def skipMark (c : Cursor) : Cursor :=
  if c.index = 0 && (c.peek 0).any (·.toNat = 0xfeff) then c.advance 1 else c

/-- The place of the next token. Tabs are blanks only where no key may begin. -/
def skipGap (inFlow : Bool) : Nat → Bool → Cursor → Bool × Cursor
  | 0, keyAllowed, c => (keyAllowed, c)
  | fuel + 1, keyAllowed, c =>
    let tabs := inFlow || !keyAllowed
    let c := ((skipMark c).takeWhile fun x => x = ' ' || (tabs && x = '\t')).2.skipComment
    if c.atBreak then skipGap inFlow fuel (keyAllowed || !inFlow) c.takeBreak.2
    else (keyAllowed, c)

def toNextToken (s : Lexer) : Lexer :=
  let (keyAllowed, c) := skipGap s.inFlow (s.cursor.rest.length + 1) s.keyAllowed s.cursor
  { s with keyAllowed := keyAllowed, cursor := c }

-- ---------------------------------------------------------------------------
-- The kinds of token
-- ---------------------------------------------------------------------------

def finish? (s : Lexer) : Option Lexer := do
  let s ← (s.closeBlocks (-1)).dropKey?
  some ({ s with keyAllowed := false }.push .streamEnd)

def readDirective? (s : Lexer) : Option Lexer := do
  let s ← (s.closeBlocks (-1)).dropKey?
  let (token, c) ← directive? s.cursor
  some { s.push token with keyAllowed := false, cursor := c }

def readMarker? (s : Lexer) (t : Token) : Option Lexer := do
  let s ← (s.closeBlocks (-1)).dropKey?
  some ({ s with keyAllowed := false }.take t 3)

def openFlow? (s : Lexer) (t : Token) : Option Lexer := do
  let s ← s.noteKey?
  some ({ s with keyAllowed := true, outerKeys := s.key :: s.outerKeys, key := none }.take t 1)

def closeFlow? (s : Lexer) (t : Token) : Option Lexer := do
  let s ← s.dropKey?
  let s := match s.outerKeys with
    | key :: outer => { s with key := key, outerKeys := outer }
    | [] => s
  some ({ s with keyAllowed := false }.take t 1)

def flowEntry? (s : Lexer) : Option Lexer := do
  let s ← s.dropKey?
  some ({ s with keyAllowed := true }.take .flowEntry 1)

def openingIndicator? (s : Lexer) (t : Token) : Option Lexer :=
  if s.inFlow then some s
  else if s.keyAllowed then some (s.openBlock s.cursor.column s.tokens.size t)
  else none

def blockEntry? (s : Lexer) : Option Lexer := do
  let s ← s.openingIndicator? .blockSequenceStart
  let s ← s.dropKey?
  some ({ s with keyAllowed := true }.take .blockEntry 1)

def explicitKey? (s : Lexer) : Option Lexer := do
  let s ← s.openingIndicator? .blockMappingStart
  let s ← s.dropKey?
  some ({ s with keyAllowed := !s.inFlow }.take .key 1)

def value? (s : Lexer) : Option Lexer :=
  match s.key with
  | some k =>
    let s := (s.insertAt k.token .key).openBlock k.column k.token .blockMappingStart
    some ({ s with key := none, keyAllowed := false }.take .value 1)
  | none => do
    let s ← s.openingIndicator? .blockMappingStart
    some ({ s with keyAllowed := !s.inFlow }.take .value 1)

/-- A token at which a key may begin but after which none may. -/
def property? (s : Lexer) (read : Cursor → Option (Token × Cursor)) : Option Lexer := do
  let s ← s.noteKey?
  let (token, c) ← read s.cursor
  some { s.push token with keyAllowed := false, cursor := c }

def readBlock? (s : Lexer) (literal : Bool) : Option Lexer := do
  let s ← s.dropKey?
  let (text, c) ← block? literal s.indent s.cursor
  let style := if literal then .literal else .folded
  some { s.push (.scalar text style) with keyAllowed := true, cursor := c }

def readPlain? (s : Lexer) : Option Lexer := do
  let s ← s.noteKey?
  let (text, broken, c) ← plain? s.inFlow s.indent s.cursor
  some { s.push (.scalar text .plain) with keyAllowed := broken, cursor := c }

def startsPlain (s : Lexer) : Bool :=
  match s.cursor.peek 0 with
  | none => false
  | some x =>
    !(isBlank x || isBreak x || "-?:,[]\x7b\x7d#&*!|>'\"%@\x60".toList.contains x)
      || (x = '-' && !(s.cursor.peek 1).any isBlank)
      || (!s.inFlow && (x = '?' || x = ':') && !s.cursor.gapAt 1)

def readToken? (s : Lexer) : Option Lexer :=
  let c := s.cursor
  match c.peek 0 with
  | none => s.finish?
  | some x =>
    if c.column = 0 && x = '%' then s.readDirective?
    else if c.atMarker '-' then s.readMarker? .documentStart
    else if c.atMarker '.' then s.readMarker? .documentEnd
    else if x = '[' then s.openFlow? .flowSequenceStart
    else if x = '\x7b' then s.openFlow? .flowMappingStart
    else if x = ']' then s.closeFlow? .flowSequenceEnd
    else if x = '\x7d' then s.closeFlow? .flowMappingEnd
    else if x = ',' then s.flowEntry?
    else if x = '-' && c.gapAt 1 then s.blockEntry?
    else if x = '?' && (s.inFlow || c.gapAt 1) then s.explicitKey?
    else if x = ':' && (s.inFlow || c.gapAt 1) then s.value?
    else if x = '*' then s.property? fun c => (name? c).map fun (name, c) => (.reference name, c)
    else if x = '&' then s.property? fun c => (name? c).map fun (name, c) => (.anchor name, c)
    else if x = '!' then s.property? (tag? s.inFlow)
    else if x = '|' && !s.inFlow then s.readBlock? true
    else if x = '>' && !s.inFlow then s.readBlock? false
    else if x = '\'' || x = '"' then
      s.property? fun c => (quoted? x c).map fun (text, c) => (.scalar text .quoted, c)
    else if s.startsPlain then s.readPlain?
    else none

def step? (s : Lexer) : Option Lexer := do
  let s ← s.toNextToken.dropStaleKeys?
  (s.closeBlocks s.cursor.column).readToken?

/-- Steps up to the end of the text; each takes at least one character. -/
def run? : Nat → Lexer → Option (List Token)
  | 0, _ => none
  | fuel + 1, s => do
    let s ← s.step?
    if s.tokens.back? == some .streamEnd then some s.tokens.toList else run? fuel s

end Lexer

/-- The tokens of a text, the last of which is the end; `none` where there is none for some part of it. -/
def Token.ofText? (text : String) : Option (List Token) :=
  let chars := text.toList
  if chars.all isAllowed then Lexer.run? (chars.length + 1) { cursor := { rest := chars } }
  else none

end Triage.Yaml
