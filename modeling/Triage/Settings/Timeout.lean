import Triage.Binary.Basic

/-!
# Spans of time

A span of time is counted in nanoseconds. One that is given in seconds as a
number is rounded to the nearest nanosecond, a half to the even one.
-/

namespace Triage

structure Timeout where
  nanoseconds : Nat
  deriving DecidableEq, Repr

namespace Timeout

def second : Nat := 1000000000

def ofSeconds (n : Nat) : Timeout := ⟨n * second⟩

def ofMilliseconds (n : Nat) : Timeout := ⟨n * 1000000⟩

/-- The span of a number of seconds, zero for a negative one; `none` from `2 ^ 64` seconds on. -/
def ofDouble? : Binary64 → Option Timeout
  | .finite true _ _ => some ⟨0⟩
  | .finite false m e =>
    let (num, den) := Binary.quotient m e
    if num < (Word.greatest64 + 1) * den then some ⟨Binary.divNearest (num * second) den⟩ else none
  | .infinity true => some ⟨0⟩
  | .infinity false => none
  | .nan => some ⟨0⟩

/-- The seconds as a number: the whole ones and the fraction are rounded apart. -/
def toDouble (t : Timeout) : Binary64 :=
  (Binary.ofNat Binary.double (t.nanoseconds / second)).add
    ((Binary.ofNat Binary.double (t.nanoseconds % second)).div (Binary.ofNat Binary.double second))

end Timeout

end Triage
