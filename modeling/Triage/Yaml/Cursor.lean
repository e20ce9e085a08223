/-!
# Reading positions

A place in a YAML text: what is still to be read, and how far it is from the
start of the text and of its line. Line breaks are the line feed, the carriage
return alone or before a line feed, and three of other scripts; the first three
are all read as a line feed.
-/

namespace Triage.Yaml

def isBreak (c : Char) : Bool :=
  c = '\n' || c = '\r' || c.toNat = 0x85 || c.toNat = 0x2028 || c.toNat = 0x2029

def isBlank (c : Char) : Bool := c = ' ' || c = '\t'

def isWord (c : Char) : Bool := c.isAlphanum || c = '-' || c = '_'

def isAllowed (c : Char) : Bool :=
  let n := c.toNat
  n = 0x09 || n = 0x0a || n = 0x0d || (0x20 ≤ n && n ≤ 0x7e) || n = 0x85
    || (0xa0 ≤ n && n ≤ 0xd7ff) || (0xe000 ≤ n && n ≤ 0xfffd) || 0x10000 ≤ n

structure Cursor where
  rest : List Char
  index : Nat := 0
  line : Nat := 0
  column : Nat := 0

namespace Cursor

def peek (c : Cursor) (n : Nat) : Option Char := (c.rest.drop n).head?

def sees (c : Cursor) (x : Char) (n : Nat) : Bool := c.peek n == some x

def atEnd (c : Cursor) : Bool := c.rest.isEmpty

/-- Whether the text ends, the line ends or a blank stands `n` places ahead. -/
def gapAt (c : Cursor) (n : Nat) : Bool := (c.peek n).all fun x => isBlank x || isBreak x

def atBlank (c : Cursor) : Bool := (c.peek 0).any isBlank

def atBreak (c : Cursor) : Bool := (c.peek 0).any isBreak

def atLineEnd (c : Cursor) : Bool := (c.peek 0).all isBreak

def advance (c : Cursor) (n : Nat) : Cursor :=
  { c with rest := c.rest.drop n, index := c.index + n, column := c.column + n }

def takeWhile (c : Cursor) (p : Char → Bool) : List Char × Cursor :=
  let taken := c.rest.takeWhile p
  (taken, c.advance taken.length)

def nextLine (c : Cursor) (n : Nat) : Cursor :=
  { rest := c.rest.drop n, index := c.index + n, line := c.line + 1, column := 0 }

/-- The line break here as it is read, and the place after it; nothing where there is none. -/
def takeBreak (c : Cursor) : List Char × Cursor :=
  match c.rest with
  | '\r' :: '\n' :: _ => (['\n'], c.nextLine 2)
  | x :: _ =>
    if x.toNat = 0x2028 || x.toNat = 0x2029 then ([x], c.nextLine 1)
    else if isBreak x then (['\n'], c.nextLine 1)
    else ([], c)
  | [] => ([], c)

def skipBlanks (c : Cursor) : Cursor := (c.takeWhile isBlank).2

def skipComment (c : Cursor) : Cursor :=
  if c.sees '#' 0 then (c.takeWhile (!isBreak ·)).2 else c

/-- Whether a line begins here with three marks `x` and nothing right after them. -/
def atMarker (c : Cursor) (x : Char) : Bool :=
  c.column = 0 && c.sees x 0 && c.sees x 1 && c.sees x 2 && c.gapAt 3

def atDocumentMarker (c : Cursor) : Bool := c.atMarker '-' || c.atMarker '.'

end Cursor

end Triage.Yaml
