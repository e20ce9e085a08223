import Triage.Json.Basic
import Triage.Binary.Decimal
import Triage.Text.Digits

/-!
# The number of a JSON literal

A literal without fraction and exponent is an integer when it fits 64 bits,
except `-0`. Any other literal is rounded: its digits are gathered into one
unsigned 64-bit word, as many as fit, and the word is scaled by a power of ten
(`Binary.ofScaled`). A literal beyond the greatest number has no value.
-/

namespace Triage.Json

structure Literal where
  negative : Bool
  whole : List Char
  fraction : Option (List Char)
  exponent : Option (Bool × List Char)
  deriving DecidableEq, Repr

/-- Takes digits into a word while they fit; what does not fit is left. -/
def gather (word : Nat) : List Char → Nat × List Char
  | [] => (word, [])
  | c :: rest =>
    let next := 10 * word + Text.digitValue c
    if next ≤ Word.greatest64 then gather next rest else (word, c :: rest)

/-- The exponent of a literal; `none` when it is beyond 32 bits. -/
def exponent? (digits : List Char) : Option Nat :=
  (Text.natural? digits).filter (· < 0x80000000)

def Literal.number? (l : Literal) : Option Number :=
  let (word, left) := gather 0 l.whole
  match l.fraction, l.exponent with
  | none, none =>
    if left.isEmpty then
      if !l.negative then some (.integer word)
      else if 0 < word ∧ Word.leastInt64 ≤ -word then some (.integer (-word))
      else some (.double (Binary.ofNat Binary.double word).neg)
    else (Binary.ofScaled l.negative word left.length).map .double
  | fraction, exponent =>
    let digits := fraction.getD []
    let (word, rest) := gather word digits
    let scale : Int := left.length - (digits.length - rest.length : Nat)
    match exponent with
    | none => (Binary.ofScaled l.negative word scale).map .double
    | some (down, digits) =>
      match exponent? digits with
      | some e =>
        (Binary.ofScaled l.negative word (if down then scale - e else scale + e)).map .double
      | none =>
        if word ≠ 0 ∧ !down then none else some (.double (Binary.zero l.negative))

/-- The number as a 32-bit one: an integer is rounded once, anything else twice. -/
def Number.toSingle : Number → Binary32
  | .integer n => Binary.ofInt Binary.single n
  | .double x => x.convert Binary.single
  | .single x => x

def Number.toDouble : Number → Binary64
  | .integer n => Binary.ofInt Binary.double n
  | .double x => x
  | .single x => x.convert Binary.double

end Triage.Json
