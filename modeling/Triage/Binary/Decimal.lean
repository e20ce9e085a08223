import Triage.Binary.Basic

/-!
# Reading decimals

Two rules for the number of a decimal `digits · 10 ^ scale`. `ofDecimal` rounds
the exact value once. `ofScaled` first rounds the digits to a number and then
multiplies or divides by a power of ten, rounding again; it is cheaper on
machine numbers, differs from the first in the last place now and then, and
refuses what is too large.
-/

namespace Triage.Binary

/-- The number nearest to `digits · 10 ^ scale`. A scale beyond the range of the
format is not expanded: nothing but zero survives far below it, and everything
but zero overflows far above it. -/
def ofDecimal (F : Format) (negative : Bool) (digits : Nat) (scale : Int) : Binary F :=
  if digits = 0 then zero negative
  else
    let magnitude : Int := (Nat.toDigits 10 digits).length + scale
    if magnitude < -400 then zero negative
    else if 400 < magnitude then .infinity negative
    else round F negative (digits * tenTo scale.toNat) (tenTo (-scale).toNat)

def greatestPower : Nat := 308

/-- `x · 10 ^ scale` for a number `x`, in steps of at most `10 ^ 308`; `none` on overflow. -/
def scaleByTen (x : Binary64) (scale : Int) : Nat → Option Binary64
  | 0 => some x
  | fuel + 1 =>
    if scale.natAbs ≤ greatestPower then
      let power := ofNat double (tenTo scale.natAbs)
      if 0 ≤ scale then
        match x.mul power with
        | .infinity _ => none
        | y => some y
      else some (x.div power)
    else if x.isZero then some x
    else if 0 ≤ scale then none
    else scaleByTen (x.div (ofNat double (tenTo greatestPower))) (scale + greatestPower) fuel

/-- The digits as a number, times the power of ten; `none` on overflow. Four
divisions by `10 ^ 308` make any number zero. -/
def ofScaled (negative : Bool) (digits : Nat) (scale : Int) : Option Binary64 :=
  (scaleByTen (ofNat double digits) scale 5).map fun x => if negative then x.neg else x

end Triage.Binary
