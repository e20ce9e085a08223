import Triage.Json.Basic
import Triage.Text.Digits

/-!
# Printing JSON

Two layouts of one value: on one line without blanks (`compact`), and indented
by two blanks a level (`pretty`). Both are written in front of the text that
follows, so that what a value contributes is a prefix of the result.

Strings escape the quote, the backslash and the control characters below the
blank, the usual five by a letter and the others by four hexadecimal digits.
-/

namespace Triage.Json

def doubleLayout : Binary.Layout := ⟨-5, 15⟩

def singleLayout : Binary.Layout := ⟨-6, 12⟩

def writeInt (n : Int) : List Char :=
  if n < 0 then '-' :: Text.digits n.natAbs else Text.digits n.natAbs

def Number.write : Number → List Char
  | .integer n => writeInt n
  | .double x => ((x.text? doubleLayout).getD "null").toList
  | .single x => ((x.text? singleLayout).getD "null").toList

def escape (c : Char) : List Char :=
  if c = '"' then ['\\', '"']
  else if c = '\\' then ['\\', '\\']
  else if c = '\x08' then ['\\', 'b']
  else if c = '\x0c' then ['\\', 'f']
  else if c = '\n' then ['\\', 'n']
  else if c = '\r' then ['\\', 'r']
  else if c = '\t' then ['\\', 't']
  else if c.toNat < 32 then
    ['\\', 'u', '0', '0', Text.hexDigit (c.toNat / 16), Text.hexDigit (c.toNat % 16)]
  else [c]

def writeString (s : String) (k : List Char) : List Char :=
  '"' :: (s.toList.flatMap escape ++ '"' :: k)

mutual
def write : Json → List Char → List Char
  | .null, k => 'n' :: 'u' :: 'l' :: 'l' :: k
  | .bool true, k => 't' :: 'r' :: 'u' :: 'e' :: k
  | .bool false, k => 'f' :: 'a' :: 'l' :: 's' :: 'e' :: k
  | .number n, k => n.write ++ k
  | .string s, k => writeString s k
  | .array items, k => '[' :: writeItems items (']' :: k)
  | .object members, k => '\x7b' :: writeMembers members ('\x7d' :: k)
  | .void, k => 'n' :: 'u' :: 'l' :: 'l' :: k
termination_by structural v => v

def writeItems : List Json → List Char → List Char
  | [], k => k
  | v :: rest, k => v.write (if rest.isEmpty then k else ',' :: writeItems rest k)
termination_by structural l => l

def writeMembers : List (String × Json) → List Char → List Char
  | [], k => k
  | m :: rest, k => writeMember m (if rest.isEmpty then k else ',' :: writeMembers rest k)
termination_by structural l => l

def writeMember : String × Json → List Char → List Char
  | (key, v), k => writeString key (':' :: v.write k)
termination_by structural m => m
end

def compact (v : Json) : String := String.ofList (v.write [])

def newLine (level : Nat) (k : List Char) : List Char :=
  '\n' :: (List.replicate (2 * level) ' ' ++ k)

mutual
def writePretty (level : Nat) : Json → List Char → List Char
  | .array items, k =>
    if items.isEmpty then '[' :: ']' :: k
    else '[' :: writePrettyItems (level + 1) items (newLine level (']' :: k))
  | .object members, k =>
    if members.isEmpty then '\x7b' :: '\x7d' :: k
    else '\x7b' :: writePrettyMembers (level + 1) members (newLine level ('\x7d' :: k))
  | v, k => v.write k
termination_by structural v => v

def writePrettyItems (level : Nat) : List Json → List Char → List Char
  | [], k => k
  | v :: rest, k =>
    newLine level (writePretty level v
      (if rest.isEmpty then k else ',' :: writePrettyItems level rest k))
termination_by structural l => l

def writePrettyMembers (level : Nat) : List (String × Json) → List Char → List Char
  | [], k => k
  | m :: rest, k =>
    newLine level (writePrettyMember level m
      (if rest.isEmpty then k else ',' :: writePrettyMembers level rest k))
termination_by structural l => l

def writePrettyMember (level : Nat) : String × Json → List Char → List Char
  | (key, v), k => writeString key (':' :: ' ' :: writePretty level v k)
termination_by structural m => m
end

def pretty (v : Json) : String := String.ofList (v.writePretty 0 [])

end Triage.Json
