import Triage.Json.Number

/-!
# Reading JSON

A text holds exactly one value, with only blanks, tabs and line breaks around
its parts: no byte order mark, comment or trailing comma. `read?` is `none` for
any other text.

What is well formed but denotes nothing is read as `void`: a literal beyond the
greatest number, a string or key with half of a surrogate pair, and an array
or object under more than `deepest` others.
-/

namespace Triage.Json

def deepest : Nat := 127

def isBlank (c : Char) : Bool := c = ' ' || c = '\n' || c = '\t' || c = '\r'

def skipBlanks (text : List Char) : List Char := text.dropWhile isBlank

-- ---------------------------------------------------------------------------
-- Strings
-- ---------------------------------------------------------------------------

def unit? (a b c d : Char) : Option Nat := do
  let a ← Text.hexValue? a
  let b ← Text.hexValue? b
  let c ← Text.hexValue? c
  let d ← Text.hexValue? d
  some (((a * 16 + b) * 16 + c) * 16 + d)

def unescape? (c : Char) : Option Char :=
  if c = '"' then some '"'
  else if c = '\\' then some '\\'
  else if c = '/' then some '/'
  else if c = 'b' then some '\x08'
  else if c = 'f' then some '\x0c'
  else if c = 'n' then some '\n'
  else if c = 'r' then some '\r'
  else if c = 't' then some '\t'
  else none

/-- The code points up to the closing quote, surrogates as they are escaped,
and the text after it. -/
def scanString : List Char → Option (List Nat × List Char)
  | [] => none
  | '"' :: rest => some ([], rest)
  | '\\' :: 'u' :: a :: b :: c :: d :: rest => do
    let u ← unit? a b c d
    let (us, rest) ← scanString rest
    some (u :: us, rest)
  | '\\' :: c :: rest => do
    let c ← unescape? c
    let (us, rest) ← scanString rest
    some (c.toNat :: us, rest)
  | c :: rest =>
    if c.toNat < 32 || c = '\\' then none
    else do
      let (us, rest) ← scanString rest
      some (c.toNat :: us, rest)

def ofPair (high low : Nat) : Char :=
  Char.ofNat (0x10000 + (high - 0xd800) * 0x400 + (low - 0xdc00))

/-- The characters of code points, with pairs of surrogates joined; `none` for a lone one. -/
def ofUnits? : List Nat → Option (List Char)
  | [] => some []
  | u :: rest =>
    if 0xd800 ≤ u ∧ u < 0xdc00 then
      match rest with
      | v :: rest =>
        if 0xdc00 ≤ v ∧ v < 0xe000 then (ofUnits? rest).map (ofPair u v :: ·) else none
      | [] => none
    else if 0xdc00 ≤ u ∧ u < 0xe000 then none
    else (ofUnits? rest).map (Char.ofNat u :: ·)

def readString (text : List Char) : Option (Option String × List Char) :=
  (scanString text).map fun (units, rest) => ((ofUnits? units).map String.ofList, rest)

-- ---------------------------------------------------------------------------
-- Numbers
-- ---------------------------------------------------------------------------

def spanDigits (text : List Char) : List Char × List Char := text.span Char.isDigit

def readSign : List Char → Bool × List Char
  | '-' :: rest => (true, rest)
  | text => (false, text)

def readFraction : List Char → Option (Option (List Char) × List Char)
  | '.' :: rest =>
    let (digits, rest) := spanDigits rest
    if digits.isEmpty then none else some (some digits, rest)
  | text => some (none, text)

def readExponentSign : List Char → Bool × List Char
  | '+' :: rest => (false, rest)
  | '-' :: rest => (true, rest)
  | text => (false, text)

def readExponent (text : List Char) : Option (Option (Bool × List Char) × List Char) :=
  if text.head? == some 'e' || text.head? == some 'E' then
    let (down, rest) := readExponentSign (text.drop 1)
    let (digits, rest) := spanDigits rest
    if digits.isEmpty then none else some (some (down, digits), rest)
  else some (none, text)

/-- A sign, a whole part without leading zeros, a fraction and an exponent. -/
def readLiteral (text : List Char) : Option (Literal × List Char) := do
  let (negative, text) := readSign text
  let (whole, text) := spanDigits text
  if whole.isEmpty || (whole.head? == some '0' && 1 < whole.length) then none
  let (fraction, text) ← readFraction text
  let (exponent, text) ← readExponent text
  some (⟨negative, whole, fraction, exponent⟩, text)

def readNumber (text : List Char) : Option (Json × List Char) :=
  (readLiteral text).map fun (l, rest) =>
    (match l.number? with
      | some n => .number n
      | none => .void, rest)

-- ---------------------------------------------------------------------------
-- Values
-- ---------------------------------------------------------------------------

/-- An array or object that may be void: it is when nested too deep. -/
def nested (levels : Nat) (v : Json) : Json := if levels = 0 then .void else v

/-- An object of members whose keys may lack a text. -/
def ofMembers (members : List (Option String × Json)) : Json :=
  match members.mapM fun (key, v) => key.map (·, v) with
  | some members => .object members
  | none => .void

mutual
/-- One value, with `levels` left to open, and what follows it. -/
def readValue (levels : Nat) : Nat → List Char → Option (Json × List Char)
  | 0, _ => none
  | fuel + 1, text =>
    match skipBlanks text with
    | 'n' :: 'u' :: 'l' :: 'l' :: rest => some (.null, rest)
    | 't' :: 'r' :: 'u' :: 'e' :: rest => some (.bool true, rest)
    | 'f' :: 'a' :: 'l' :: 's' :: 'e' :: rest => some (.bool false, rest)
    | '"' :: rest => (readString rest).map fun (s, rest) => ((s.map .string).getD .void, rest)
    | '[' :: rest =>
      match skipBlanks rest with
      | ']' :: rest => some (nested levels (.array []), rest)
      | rest => (readItems (levels - 1) fuel rest).map fun (items, rest) =>
        (nested levels (.array items), rest)
    | '\x7b' :: rest =>
      match skipBlanks rest with
      | '\x7d' :: rest => some (nested levels (.object []), rest)
      | rest => (readMembers (levels - 1) fuel rest).map fun (members, rest) =>
        (nested levels (ofMembers members), rest)
    | rest => readNumber rest

def readItems (levels : Nat) : Nat → List Char → Option (List Json × List Char)
  | 0, _ => none
  | fuel + 1, text => do
    let (v, rest) ← readValue levels fuel text
    match skipBlanks rest with
    | ',' :: rest =>
      let (items, rest) ← readItems levels fuel rest
      some (v :: items, rest)
    | ']' :: rest => some ([v], rest)
    | _ => none

def readMembers (levels : Nat) : Nat → List Char → Option (List (Option String × Json) × List Char)
  | 0, _ => none
  | fuel + 1, text =>
    match skipBlanks text with
    | '"' :: rest => do
      let (key, rest) ← readString rest
      match skipBlanks rest with
      | ':' :: rest =>
        let (v, rest) ← readValue levels fuel rest
        match skipBlanks rest with
        | ',' :: rest =>
          let (members, rest) ← readMembers levels fuel rest
          some ((key, v) :: members, rest)
        | '\x7d' :: rest => some ([(key, v)], rest)
        | _ => none
      | _ => none
    | _ => none
end

/-- The value of a whole text. Every second step takes at least one character. -/
def read? (text : String) : Option Json :=
  let text := text.toList
  match readValue deepest (2 * text.length + 2) text with
  | some (v, rest) => if (skipBlanks rest).isEmpty then some v else none
  | none => none

-- ---------------------------------------------------------------------------
-- Texts that break off
-- ---------------------------------------------------------------------------

def startOfItems (levels : Nat) : Nat → List Char → List Json
  | 0, _ => []
  | fuel + 1, text =>
    match readValue levels fuel text with
    | some (v, rest) =>
      match skipBlanks rest with
      | ',' :: rest => v :: startOfItems levels fuel rest
      | _ => [v]
    | none => []

def startOfMembers (levels : Nat) : Nat → List Char → List (String × Json)
  | 0, _ => []
  | fuel + 1, text =>
    match skipBlanks text with
    | '"' :: rest =>
      match readString rest with
      | some (some key, rest) =>
        match skipBlanks rest with
        | ':' :: rest =>
          match readValue levels fuel rest with
          | some (v, rest) =>
            match skipBlanks rest with
            | ',' :: rest => (key, v) :: startOfMembers levels fuel rest
            | _ => [(key, v)]
          | none => []
        | _ => []
      | _ => []
    | _ => []

/-- The array or object with which a text starts, up to where it ends or breaks off: this
much has been looked at by a reader that takes the parts one by one. -/
def readStart? (text : String) : Option Json :=
  let text := text.toList
  match skipBlanks text with
  | '[' :: rest => some (.array (startOfItems (deepest - 1) (2 * text.length + 1) rest))
  | '\x7b' :: rest => some (.object (startOfMembers (deepest - 1) (2 * text.length + 1) rest))
  | _ => none

end Triage.Json
