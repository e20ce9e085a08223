import Triage.Binary.Basic

/-!
# The shortest decimal text of a number

A finite number is written with the fewest significant digits that read back
as the same number; of several such decimals the nearest to it is taken, and
of two equally near ones the one with the even last digit (`shortest`).

The search is exact: the reals that read back as `m · 2 ^ e` form an interval
around it, and on the grid of multiples of `10 ^ k` only the two neighbours of
the number need be tried. Grids are tried from coarse to fine.

Where the point goes and when an exponent is written is a `Layout`.
-/

namespace Triage.Binary

structure Decimal where
  digits : Nat
  scale : Int
  deriving DecidableEq, Repr

/-- The reals that read back as one finite number, in quarter units: its value,
and the bounds on either side. The bounds count exactly when `closed`. -/
structure Interval where
  lower : Nat
  value : Nat
  upper : Nat
  closed : Bool
  unit : Int

def interval (F : Format) (m : Nat) (e : Int) : Interval where
  lower := if m = 1 <<< (F.precision - 1) ∧ F.minUnit < e then 4 * m - 1 else 4 * m - 2
  value := 4 * m
  upper := 4 * m + 2
  closed := m % 2 = 0
  unit := e - 2

def Interval.holds (lower point upper : Nat) (closed : Bool) : Bool :=
  if closed then lower ≤ point && point ≤ upper else lower < point && point < upper

/-- The multiple of `10 ^ k` in the interval that is nearest to its value, as a count. -/
def Interval.onGrid (i : Interval) (k : Int) : Option Nat :=
  let scaleValue (n : Nat) : Nat := (n <<< i.unit.toNat) * tenTo (-k).toNat
  let scaleGrid (c : Nat) : Nat := (c <<< (-i.unit).toNat) * tenTo k.toNat
  let lower := scaleValue i.lower
  let value := scaleValue i.value
  let upper := scaleValue i.upper
  let below := value / scaleGrid 1
  let above := below + 1
  let takesBelow := Interval.holds lower (scaleGrid below) upper i.closed
  let takesAbove := Interval.holds lower (scaleGrid above) upper i.closed
  match takesBelow, takesAbove with
  | false, false => none
  | true, false => some below
  | false, true => some above
  | true, true =>
    let down := value - scaleGrid below
    let up := scaleGrid above - value
    if down < up then some below
    else if up < down then some above
    else some (below + below % 2)

def Interval.coarsest (i : Interval) (k : Int) : Nat → Decimal
  | 0 => ⟨(i.onGrid k).getD 0, k⟩
  | fuel + 1 =>
    match i.onGrid k with
    | some c => ⟨c, k⟩
    | none => i.coarsest (k - 1) fuel

def Decimal.strip (d : Decimal) : Nat → Decimal
  | 0 => d
  | fuel + 1 =>
    if d.digits ≠ 0 ∧ d.digits % 10 = 0 then Decimal.strip ⟨d.digits / 10, d.scale + 1⟩ fuel else d

/-- The shortest decimal that reads back as `m · 2 ^ e`, the nearest of those.
The first grid is above the number, and twenty-five steps reach seventeen digits. -/
def shortest (F : Format) (m : Nat) (e : Int) : Decimal :=
  let magnitude : Int := m.log2 + e
  let start := magnitude * 30103 / 100000 + 2
  ((interval F m e).coarsest start 25).strip 25

/-- How decimals are laid out: the exponents of the first digit for which no
exponent is written. -/
structure Layout where
  leastPlain : Int
  greatestPlain : Int

def Decimal.render (layout : Layout) (d : Decimal) : String :=
  let digits := Nat.toDigits 10 d.digits
  let exponent : Int := d.scale + (digits.length - 1 : Nat)
  if layout.leastPlain ≤ exponent ∧ exponent ≤ layout.greatestPlain then
    if exponent < 0 then
      String.ofList ('0' :: '.' :: (List.replicate (-exponent - 1).toNat '0' ++ digits))
    else
      let whole := (exponent + 1).toNat
      let padded := digits ++ List.replicate (whole - digits.length) '0'
      let fraction := padded.drop whole
      String.ofList (padded.take whole ++ '.' :: (if fraction.isEmpty then ['0'] else fraction))
  else
    let rest := digits.drop 1
    let mantissa := digits.take 1 ++ (if rest.isEmpty then [] else '.' :: rest)
    let sign := if exponent < 0 then '-' else '+'
    String.ofList (mantissa ++ 'e' :: sign :: Nat.toDigits 10 exponent.natAbs)

def text? {F : Format} (layout : Layout) : Binary F → Option String
  | .finite s m e =>
    let body := if m = 0 then "0.0" else (shortest F m e).render layout
    some (if s then "-" ++ body else body)
  | _ => none

end Triage.Binary
