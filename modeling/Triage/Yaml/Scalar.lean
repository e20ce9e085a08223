import Triage.Text.Digits
import Triage.Yaml.Cursor

/-!
# Scalar text

The text of a scalar, from the place where it begins. Lines are folded: a
single line break between lines of text becomes a space, and of several breaks
the first is dropped.
-/

namespace Triage.Yaml

-- ---------------------------------------------------------------------------
-- Gaps
-- ---------------------------------------------------------------------------

structure Gap where
  blanks : List Char := []
  broken : Bool := false
  firstBreak : List Char := []
  otherBreaks : List Char := []

/-- Line breaks folded; the breaks of other scripts are kept. -/
def foldBreaks (first others : List Char) : List Char :=
  if first.head? = some '\n' then if others.isEmpty then [' '] else others
  else first ++ others

def Gap.text (g : Gap) : List Char :=
  if g.broken then foldBreaks g.firstBreak g.otherBreaks else g.blanks

/-- The gap here. On a line of its own, a tab left of `indent` is refused. -/
def gap? (indent : Int) : Nat → Gap → Cursor → Option (Gap × Cursor)
  | 0, g, c => some (g, c)
  | fuel + 1, g, c =>
    if c.atBlank then
      if g.broken && (c.column : Int) < indent && c.sees '\t' 0 then none
      else if g.broken then gap? indent fuel g (c.advance 1)
      else gap? indent fuel { g with blanks := g.blanks ++ c.rest.take 1 } (c.advance 1)
    else if c.atBreak then
      let (taken, c) := c.takeBreak
      if g.broken then gap? indent fuel { g with otherBreaks := g.otherBreaks ++ taken } c
      else gap? indent fuel { g with blanks := [], broken := true, firstBreak := taken } c
    else some (g, c)

-- ---------------------------------------------------------------------------
-- Quoted scalars
-- ---------------------------------------------------------------------------

def unescape? (c : Char) : Option Char :=
  match c with
  | '0' => some '\x00'
  | 'a' => some '\x07'
  | 'b' => some '\x08'
  | 't' | '\t' => some '\t'
  | 'n' => some '\n'
  | 'v' => some '\x0b'
  | 'f' => some '\x0c'
  | 'r' => some '\r'
  | 'e' => some '\x1b'
  | ' ' => some ' '
  | '"' => some '"'
  | '/' => some '/'
  | '\\' => some '\\'
  | 'N' => some (Char.ofNat 0x85)
  | '_' => some (Char.ofNat 0xa0)
  | 'L' => some (Char.ofNat 0x2028)
  | 'P' => some (Char.ofNat 0x2029)
  | _ => none

def escapeDigits (c : Char) : Option Nat :=
  match c with
  | 'x' => some 2
  | 'u' => some 4
  | 'U' => some 8
  | _ => none

def codePoint? (digits : List Char) : Option Char := do
  let values ← digits.mapM Text.hexValue?
  let n := values.foldl (fun n d => 16 * n + d) 0
  if h : n.isValidChar then some (Char.ofNatAux n h) else none

/-- One character after a backslash, and the number of characters it takes. -/
def escape? (c : Cursor) : Option (Char × Nat) := do
  let letter ← c.peek 1
  match escapeDigits letter with
  | some n =>
    let digits := (c.rest.drop 2).take n
    if digits.length < n then none
    else (codePoint? digits).map (·, n + 2)
  | none => (unescape? letter).map (·, 2)

/-- A run of text in quotes without blanks, up to a blank, a break or the closing
quote, and whether it ends in an escaped line break. -/
def quotedRun? (quote : Char) : Nat → List Char → Cursor → Option (List Char × Bool × Cursor)
  | 0, acc, c => some (acc, false, c)
  | fuel + 1, acc, c =>
    match c.rest with
    | [] => some (acc, false, c)
    | x :: _ =>
      if isBlank x || isBreak x then some (acc, false, c)
      else if quote = '\'' && x = '\'' && c.sees '\'' 1 then
        quotedRun? quote fuel (acc ++ [x]) (c.advance 2)
      else if x = quote then some (acc, false, c)
      else if quote = '"' && x = '\\' then
        if (c.peek 1).any isBreak then some (acc, true, (c.advance 1).takeBreak.2)
        else do
          let (y, n) ← escape? c
          quotedRun? quote fuel (acc ++ [y]) (c.advance n)
      else quotedRun? quote fuel (acc ++ [x]) (c.advance 1)

def quotedText? (quote : Char) : Nat → List Char → Cursor → Option (List Char × Cursor)
  | 0, _, _ => none
  | fuel + 1, acc, c =>
    if c.atDocumentMarker || c.atEnd then none
    else do
      let (acc, escaped, c) ← quotedRun? quote c.rest.length acc c
      if c.sees quote 0 then some (acc, c.advance 1)
      else
        let (g, c) ← gap? 0 c.rest.length { broken := escaped } c
        quotedText? quote fuel (acc ++ g.text) c

def quoted? (quote : Char) (c : Cursor) : Option (String × Cursor) :=
  (quotedText? quote (c.rest.length + 1) [] (c.advance 1)).map fun (text, c) =>
    (String.ofList text, c)

-- ---------------------------------------------------------------------------
-- Plain scalars
-- ---------------------------------------------------------------------------

def isFlowIndicator (c : Char) : Bool :=
  c = ',' || c = '[' || c = ']' || c = '\x7b' || c = '\x7d'

/-- A run of plain text without blanks. It ends before a colon that ends a key,
and in a flow collection before an indicator; there a colon right before one is refused. -/
def plainRun? (flow : Bool) : List Char → Option (List Char × List Char)
  | [] => some ([], [])
  | x :: rest =>
    if isBlank x || isBreak x then some ([], x :: rest)
    else if flow && x = ':' && rest.head?.any (fun y => isFlowIndicator y || y = '?') then none
    else if x = ':' && rest.head?.all (fun y => isBlank y || isBreak y) then some ([], x :: rest)
    else if flow && isFlowIndicator x then some ([], x :: rest)
    else (plainRun? flow rest).map fun (run, rest) => (x :: run, rest)

def plainText? (flow : Bool) (indent : Int) :
    Nat → List Char → Gap → Cursor → Option (List Char × Gap × Cursor)
  | 0, acc, g, c => some (acc, g, c)
  | fuel + 1, acc, g, c =>
    if c.atDocumentMarker || c.sees '#' 0 then some (acc, g, c)
    else do
      let (run, _) ← plainRun? flow c.rest
      let c := c.advance run.length
      let acc := if run.isEmpty then acc else acc ++ g.text ++ run
      let g := if run.isEmpty then g else {}
      if !(c.atBlank || c.atBreak) then some (acc, g, c)
      else
        let (g, c) ← gap? indent c.rest.length {} c
        if !flow && (c.column : Int) < indent then some (acc, g, c)
        else plainText? flow indent fuel acc g c

/-- The plain scalar that begins here under a collection indented by `indent`,
and whether it is followed by the end of a line. -/
def plain? (flow : Bool) (indent : Int) (c : Cursor) : Option (String × Bool × Cursor) :=
  (plainText? flow (indent + 1) (c.rest.length + 1) [] {} c).map fun (text, g, c) =>
    (String.ofList text, g.broken, c)

-- ---------------------------------------------------------------------------
-- Block scalars
-- ---------------------------------------------------------------------------

inductive Chomping where
  | strip
  | clip
  | keep
  deriving DecidableEq

def chomping? (c : Cursor) : Option Chomping :=
  if c.sees '+' 0 then some .keep else if c.sees '-' 0 then some .strip else none

/-- A digit that gives the indentation; zero is refused. -/
def increment? (c : Cursor) : Option (Option Nat) :=
  match c.peek 0 with
  | some x => if x = '0' then none else if x.isDigit then some (some (Text.digitValue x)) else some none
  | none => some none

def blockHeader? (c : Cursor) : Option (Chomping × Option Nat × Cursor) :=
  match chomping? c with
  | some chomping => do
    let c := c.advance 1
    let increment ← increment? c
    some (chomping, increment, if increment.isSome then c.advance 1 else c)
  | none => do
    let increment ← increment? c
    if increment.isSome then
      let c := c.advance 1
      match chomping? c with
      | some chomping => some (chomping, increment, c.advance 1)
      | none => some (.clip, increment, c)
    else some (.clip, none, c)

/-- Blank lines and the indentation of the line after them: the breaks, the widest
indentation met, and the place. Without a given indentation all spaces count as one. -/
def blockBreaks? (indent : Option Nat) :
    Nat → List Char → Nat → Cursor → Option (List Char × Nat × Cursor)
  | 0, acc, widest, c => some (acc, widest, c)
  | fuel + 1, acc, widest, c =>
    let spaces := (c.rest.takeWhile (· = ' ')).length
    let c := c.advance (match indent with
      | some n => min spaces (n - c.column)
      | none => spaces)
    let widest := max widest c.column
    if (indent.all (c.column < ·)) && c.sees '\t' 0 then none
    else if c.atBreak then
      let (taken, c) := c.takeBreak
      blockBreaks? indent fuel (acc ++ taken) widest c
    else some (acc, widest, c)

/-- The lines of a block scalar: the text, the break after its last line, the
breaks after that, and the place. `first` is the break before the next line. -/
def blockLines? (literal : Bool) (indent : Nat) :
    Nat → List Char → List Char → List Char → Bool → Cursor →
      Option (List Char × List Char × List Char × Cursor)
  | 0, acc, first, others, _, c => some (acc, first, others, c)
  | fuel + 1, acc, first, others, wasBlank, c =>
    if c.column ≠ indent || c.atEnd then some (acc, first, others, c)
    else do
      let blank := c.atBlank
      let joint :=
        if !literal && first.head? = some '\n' && !wasBlank && !blank then
          if others.isEmpty then [' '] else []
        else first
      let (line, c) := c.takeWhile (!isBreak ·)
      let (first', c) := c.takeBreak
      let (others', _, c) ← blockBreaks? (some indent) (c.rest.length + 1) [] 0 c
      blockLines? literal indent fuel (acc ++ joint ++ others ++ line) first' others' blank c

def block? (literal : Bool) (indent : Int) (c : Cursor) : Option (String × Cursor) := do
  let (chomping, increment, c) ← blockHeader? (c.advance 1)
  let c := c.skipBlanks.skipComment
  if !c.atLineEnd then none
  let c := c.takeBreak.2
  let given := increment.map fun n => (if 0 ≤ indent then indent.toNat else 0) + n
  let (others, widest, c) ← blockBreaks? given (c.rest.length + 1) [] 0 c
  let own := given.getD (max widest (max (indent + 1).toNat 1))
  let (text, first, others, _, c) ←
    (blockLines? literal own (c.rest.length + 1) [] [] others false c).map fun (t, f, o, c) =>
      (t, f, o, (), c)
  let tail := match chomping with
    | .strip => []
    | .clip => first
    | .keep => first ++ others
  some (String.ofList (text ++ tail), c)

end Triage.Yaml
