import Triage.SortedMap
import Triage.Binary.Basic

/-!
# Structured documents

What a record needs of the format it is read from. A format says how to take
typed parts out of one of its documents (`Document`); a record says once which
parts it has, and is then read from every format.

Reading fails as a whole or not at all, without a reason: every function here
gives an `Option`.
-/

namespace Triage

/-- A format whose documents are the values of `δ`. Each function is `none` for a
document of another kind. -/
class Document (δ : Type) where
  text? : δ → Option String
  flag? : δ → Option Bool
  /-- An integer literal from zero up to the greatest unsigned 64-bit word. -/
  natural? : δ → Option Nat
  single? : δ → Option Binary32
  items? : δ → Option (List δ)
  /-- The keys and values of a map in the order of the text. -/
  entries? : δ → Option (List (String × δ))
  /-- The parts of a record with the given fields: what stands for each field
  that is present. A field that occurs twice is refused, an unknown one skipped. -/
  fields? : List String → δ → Option (String → Option δ)
  /-- Whether the document stands for nothing where something is optional. -/
  isNull : δ → Bool

namespace Document

variable {δ α : Type} [Document δ]

def list? (item : δ → Option α) (d : δ) : Option (List α) :=
  (items? d).bind fun items => items.mapM item

def strings? (d : δ) : Option (List String) := list? text? d

/-- A map, read value by value; of values under one key the last counts. -/
def map? (value : δ → Option α) (d : δ) : Option (SortedMap String α) := do
  let entries ← entries? d
  let entries ← entries.mapM fun (key, v) => (value v).map (key, ·)
  some (SortedMap.ofList entries)

def optional? (read : δ → Option α) (d : δ) : Option (Option α) :=
  if isNull d then some none else (read d).map some

def atMost? (bound : Nat) (d : δ) : Option Nat := (natural? d).filter (· ≤ bound)

def uint32? (d : δ) : Option UInt32 := (atMost? Word.greatest32 d).map UInt32.ofNat

def uint64? (d : δ) : Option UInt64 := (atMost? Word.greatest64 d).map UInt64.ofNat

def required? (fields : String → Option δ) (name : String) (read : δ → Option α) : Option α :=
  (fields name).bind read

/-- A field that has the given value when it is left out. -/
def defaulted? (fields : String → Option δ) (name : String) (default : α)
    (read : δ → Option α) : Option α :=
  match fields name with
  | some d => read d
  | none => some default

end Document

end Triage
