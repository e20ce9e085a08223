import Triage.Text.Digits
import Triage.Yaml.Cursor
import Triage.Yaml.Token

/-!
# Anchors, tags and directives

The tokens that name something: each function reads one from the place where its
indicator stands.
-/

namespace Triage.Yaml

-- ---------------------------------------------------------------------------
-- Anchors and aliases
-- ---------------------------------------------------------------------------

def endsName (c : Char) : Bool :=
  c = '?' || c = ':' || c = ',' || c = ']' || c = '\x7d' || c = '%' || c = '@' || c = '\x60'

def name? (c : Cursor) : Option (String × Cursor) :=
  let (name, c) := (c.advance 1).takeWhile isWord
  if name.isEmpty || !(c.gapAt 0 || (c.peek 0).any endsName) then none
  else some (String.ofList name, c)

-- ---------------------------------------------------------------------------
-- Addresses of tags
-- ---------------------------------------------------------------------------

/-- A character of the address of a tag; only a whole address may hold flow indicators. -/
def isUriChar (whole : Bool) (c : Char) : Bool :=
  isWord c || ";/?:@&=+$.%!~*'()".toList.contains c || (whole && ",[]".toList.contains c)

def octet? (c : Cursor) : Option Nat := do
  if !c.sees '%' 0 then none
  let high ← (c.peek 1).bind Text.hexValue?
  let low ← (c.peek 2).bind Text.hexValue?
  some (16 * high + low)

def octetCount? (octet : Nat) : Option Nat :=
  if octet < 0x80 then some 1
  else if octet / 0x20 = 0x06 then some 2
  else if octet / 0x10 = 0x0e then some 3
  else if octet / 0x08 = 0x1e then some 4
  else none

def trailingOctets? : Nat → Cursor → Option (List Nat × Cursor)
  | 0, c => some ([], c)
  | n + 1, c => do
    let octet ← octet? c
    if octet / 0x40 ≠ 0x02 then none
    let (rest, c) ← trailingOctets? n (c.advance 3)
    some (octet :: rest, c)

/-- An escaped character; each octet stands as the character of its number. -/
def escapedOctets? (c : Cursor) : Option (List Char × Cursor) := do
  let first ← octet? c
  let count ← octetCount? first
  let (rest, c) ← trailingOctets? (count - 1) (c.advance 3)
  some ((first :: rest).map Char.ofNat, c)

def uri? (whole : Bool) : Nat → Cursor → Option (List Char × Cursor)
  | 0, c => some ([], c)
  | fuel + 1, c =>
    match c.peek 0 with
    | none => some ([], c)
    | some x =>
      if !isUriChar whole x then some ([], c)
      else do
        let (taken, c) ← if x = '%' then escapedOctets? c else some ([x], c.advance 1)
        let (rest, c) ← uri? whole fuel c
        some (taken ++ rest, c)

def someUri? (whole : Bool) (c : Cursor) : Option (List Char × Cursor) :=
  (uri? whole c.rest.length c).filter fun (uri, _) => !uri.isEmpty

-- ---------------------------------------------------------------------------
-- Tags
-- ---------------------------------------------------------------------------

def handle? (c : Cursor) : Option (List Char × Cursor) :=
  if !c.sees '!' 0 then none
  else
    let (word, c) := (c.advance 1).takeWhile isWord
    if c.sees '!' 0 then some ('!' :: word ++ ['!'], c.advance 1) else some ('!' :: word, c)

def isNamedHandle (handle : List Char) : Bool :=
  2 ≤ handle.length && handle.getLast? == some '!'

/-- The parts of the tag here: a handle with a suffix, or the tag itself after an empty handle. -/
def tagParts? (c : Cursor) : Option (List Char × List Char × Cursor) :=
  if c.sees '<' 1 then do
    let (uri, c) ← someUri? true (c.advance 2)
    if c.sees '>' 0 then some ([], uri, c.advance 1) else none
  else do
    let (handle, after) ← handle? c
    if isNamedHandle handle then
      let (suffix, c) ← someUri? false after
      some (handle, suffix, c)
    else
      let (rest, c) ← uri? false after.rest.length after
      let suffix := handle.drop 1 ++ rest
      if suffix.isEmpty then some ([], ['!'], c) else some (['!'], suffix, c)

def tag? (flow : Bool) (c : Cursor) : Option (Token × Cursor) := do
  let (handle, suffix, c) ← tagParts? c
  if c.gapAt 0 || (flow && c.sees ',' 0) then
    some (.tag (String.ofList handle) (String.ofList suffix), c)
  else none

-- ---------------------------------------------------------------------------
-- Directives
-- ---------------------------------------------------------------------------

def versionNumber? (c : Cursor) : Option (Nat × Cursor) :=
  let (digits, c) := c.takeWhile Char.isDigit
  if digits.length ≤ 9 then (Text.natural? digits).map (·, c) else none

def versionDirective? (c : Cursor) : Option (Token × Cursor) := do
  let (major, c) ← versionNumber? c.skipBlanks
  if !c.sees '.' 0 then none
  let (minor, c) ← versionNumber? (c.advance 1)
  some (.versionDirective major minor, c)

def tagDirective? (c : Cursor) : Option (Token × Cursor) := do
  let (handle, c) ← handle? c.skipBlanks
  if !(isNamedHandle handle || handle = ['!']) then none
  if !c.atBlank then none
  let (uri, c) ← someUri? true c.skipBlanks
  if c.gapAt 0 then some (.tagDirective (String.ofList handle) (String.ofList uri), c) else none

def directive? (c : Cursor) : Option (Token × Cursor) := do
  let (name, c) := (c.advance 1).takeWhile isWord
  if !c.gapAt 0 then none
  let (token, c) ←
    if name = "YAML".toList then versionDirective? c
    else if name = "TAG".toList then tagDirective? c
    else none
  let c := c.skipBlanks.skipComment
  if c.atLineEnd then some (token, c.takeBreak.2) else none

end Triage.Yaml
