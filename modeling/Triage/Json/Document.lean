import Triage.Document
import Triage.Json.Number

/-!
# Records in JSON

How typed parts are read from a JSON value. A record is an object of its
fields, or an array of them in the order in which they are declared. Unsigned
numbers are integer literals only; a decimal may be any number.
-/

namespace Triage.Json

def text? : Json → Option String
  | .string s => some s
  | _ => none

def flag? : Json → Option Bool
  | .bool b => some b
  | _ => none

def natural? : Json → Option Nat
  | .number (.integer n) => if 0 ≤ n then some n.toNat else none
  | _ => none

def int64? : Json → Option Int
  | .number (.integer n) => if Word.fitsInt64 n then some n else none
  | _ => none

def single? : Json → Option Binary32
  | .number n => some n.toSingle
  | _ => none

def double? : Json → Option Binary64
  | .number n => some n.toDouble
  | _ => none

def items? : Json → Option (List Json)
  | .array items => some items
  | _ => none

def members? : Json → Option (List (String × Json))
  | .object members => some members
  | _ => none

def countKey (key : String) (members : List (String × Json)) : Nat :=
  members.countP (·.1 == key)

/-- The parts of a record: by name in an object, by position in an array. -/
def fields? (names : List String) : Json → Option (String → Option Json)
  | .object members =>
    if names.all fun n => countKey n members ≤ 1 then some fun n => members.lookup n else none
  | .array items =>
    if items.length ≤ names.length then some fun n => (names.zip items).lookup n else none
  | _ => none

def isNull : Json → Bool
  | .null => true
  | _ => false

instance : Document Json where
  text? := text?
  flag? := flag?
  natural? := natural?
  single? := single?
  items? := items?
  entries? := members?
  fields? := fields?
  isNull := isNull

/-- Any value with a meaning, its objects sorted by key; nothing for null. -/
def any? (v : Json) : Option (Option Json) :=
  match v with
  | .null => some none
  | v => if v.sound then some (some v.sorted) else none

/-- A field that may be left out of an object, but not out of an array. -/
def nullable? (record : Json) (fields : String → Option Json) (name : String)
    (read : Json → Option α) : Option (Option α) :=
  match fields name with
  | some v => Document.optional? read v
  | none =>
    match record with
    | .array _ => none
    | _ => some none

def ofMap (f : α → Json) (m : SortedMap String α) : Json :=
  .object (m.mapValues fun _ v => f v).entries

end Triage.Json
