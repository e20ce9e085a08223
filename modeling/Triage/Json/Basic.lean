import Triage.Binary.Shortest

/-!
# JSON values

A value as it is written: the members of an object stand in the order in which
they are to be printed, and a key may occur more than once in a value that was
read. Reading also leaves `void` where a text is well formed but denotes
nothing; whoever looks at such a part fails, and whoever skips it does not.
-/

namespace Triage

/-- A JSON number: an integer literal within 64 bits, or a rounded one. A number
of the 32-bit format is only ever written. -/
inductive Json.Number where
  | integer (value : Int)
  | double (value : Binary64)
  | single (value : Binary32)
  deriving DecidableEq, Repr

inductive Json where
  | null
  | bool (value : Bool)
  | number (value : Json.Number)
  | string (value : String)
  | array (items : List Json)
  | object (members : List (String × Json))
  /-- Well-formed text without a value: a number beyond the greatest one, text
  with half of a surrogate pair, or nesting that is too deep. -/
  | void
  deriving BEq, Repr, Inhabited

namespace Json

def ofNat (n : Nat) : Json := .number (.integer n)

def ofInt (n : Int) : Json := .number (.integer n)

def ofSingle : Binary32 → Json
  | .finite s m e => .number (.single (.finite s m e))
  | _ => .null

def ofDouble : Binary64 → Json
  | .finite s m e => .number (.double (.finite s m e))
  | _ => .null

def ofStrings (xs : List String) : Json := .array (xs.map .string)

def member (key : String) (value : Json) : List (String × Json) := [(key, value)]

/-- A member of an object that is written only when `written` holds. -/
def memberIf (written : Bool) (key : String) (value : Json) : List (String × Json) :=
  if written then [(key, value)] else []

def ofOption (f : α → Json) : Option α → Json
  | some x => f x
  | none => .null

mutual
def sound : Json → Bool
  | .void => false
  | .array items => soundItems items
  | .object members => soundMembers members
  | _ => true
termination_by structural v => v

def soundItems : List Json → Bool
  | [] => true
  | v :: rest => v.sound && soundItems rest
termination_by structural l => l

def soundMembers : List (String × Json) → Bool
  | [] => true
  | m :: rest => soundMember m && soundMembers rest
termination_by structural l => l

def soundMember : String × Json → Bool
  | (_, v) => v.sound
termination_by structural m => m
end

/-- The members of an object sorted by key; of members with one key the last counts. -/
def sortMembers (members : List (String × Json)) : List (String × Json) :=
  let rec place (m : String × Json) : List (String × Json) → List (String × Json)
    | [] => [m]
    | x :: rest =>
      if m.1 < x.1 then m :: x :: rest
      else if x.1 < m.1 then x :: place m rest
      else m :: rest
  members.foldl (fun acc m => place m acc) []

mutual
/-- The value with the members of every object sorted by key, one to a key. -/
def sorted : Json → Json
  | .array items => .array (sortedItems items)
  | .object members => .object (sortMembers (sortedMembers members))
  | v => v
termination_by structural v => v

def sortedItems : List Json → List Json
  | [] => []
  | v :: rest => v.sorted :: sortedItems rest
termination_by structural l => l

def sortedMembers : List (String × Json) → List (String × Json)
  | [] => []
  | m :: rest => sortedMember m :: sortedMembers rest
termination_by structural l => l

def sortedMember : String × Json → String × Json
  | (k, v) => (k, v.sorted)
termination_by structural m => m
end

end Json

end Triage
