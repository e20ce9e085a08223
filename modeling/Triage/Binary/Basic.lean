import Triage.Word

/-!
# Binary floating point

Numbers of a binary interchange format, as sign, significand and unit: the
finite number `finite s m e` has magnitude `m · 2 ^ e`. Every operation is the
exact rational one, rounded once to the nearest number of the format, a tie
going to the even significand (`round`). Nothing here depends on the machine's
floats, so results can be evaluated in proofs.

Decimal text is elsewhere: `Triage.Binary.Shortest` writes it and
`Triage.Binary.Decimal` reads it.
-/

namespace Triage

/-- A binary format: bits of the significand, and the least and greatest
exponent of two that one unit of it may stand for. -/
structure Binary.Format where
  precision : Nat
  minUnit : Int
  maxUnit : Int

namespace Binary

def single : Format := ⟨24, -149, 104⟩

def double : Format := ⟨53, -1074, 971⟩

end Binary

/-- A number of the format `F`. Results of `Binary.round` are normal: the
significand has exactly `F.precision` bits unless the unit is the least one. -/
inductive Binary (F : Binary.Format) where
  | finite (negative : Bool) (significand : Nat) (unit : Int)
  | infinity (negative : Bool)
  | nan
  deriving DecidableEq, Repr

abbrev Binary32 := Binary Binary.single

abbrev Binary64 := Binary Binary.double

namespace Binary

variable {F G : Format}

def shift (n : Nat) : Int → Nat
  | .ofNat e => n <<< e
  | .negSucc e => n >>> (e + 1)

def tenTo (n : Nat) : Nat := Nat.pow 10 n

def divNearest (n d : Nat) : Nat :=
  let q := n / d
  let r := n % d
  if 2 * r < d then q
  else if d < 2 * r then q + 1
  else q + q % 2

def unitsNearest (num den : Nat) (unit : Int) : Nat :=
  divNearest (num <<< (-unit).toNat) (den <<< unit.toNat)

def exponent (num den : Nat) : Int :=
  let guess : Int := (num.log2 : Int) - den.log2
  if num <<< (-guess).toNat < den <<< guess.toNat then guess - 1 else guess

def zero (negative : Bool) : Binary F := .finite negative 0 F.minUnit

/-- The number of the format nearest to `num / den` with the given sign: an
infinity when that is beyond the greatest finite number. -/
def round (F : Format) (negative : Bool) (num den : Nat) : Binary F :=
  if num = 0 then zero negative
  else
    let unit := max F.minUnit (exponent num den - (F.precision - 1 : Nat))
    let m := unitsNearest num den unit
    let carried := m = 1 <<< F.precision
    let unit' := if carried then unit + 1 else unit
    let m' := if carried then 1 <<< (F.precision - 1) else m
    if F.maxUnit < unit' then .infinity negative else .finite negative m' unit'

def ofNat (F : Format) (n : Nat) : Binary F := round F false n 1

def ofInt (F : Format) (n : Int) : Binary F := round F (n < 0) n.natAbs 1

def quotient (m : Nat) (unit : Int) : Nat × Nat := (m <<< unit.toNat, 1 <<< (-unit).toNat)

def convert (G : Format) : Binary F → Binary G
  | .finite s m e => let (n, d) := quotient m e; round G s n d
  | .infinity s => .infinity s
  | .nan => .nan

def neg : Binary F → Binary F
  | .finite s m e => .finite (!s) m e
  | .infinity s => .infinity (!s)
  | .nan => .nan

def isZero : Binary F → Bool
  | .finite _ m _ => m == 0
  | _ => false

def mul : Binary F → Binary F → Binary F
  | .finite s m e, .finite s' m' e' =>
    let (n, d) := quotient (m * m') (e + e')
    round F (s != s') n d
  | .nan, _ => .nan
  | _, .nan => .nan
  | .infinity s, .infinity s' => .infinity (s != s')
  | .infinity s, .finite s' m _ => if m = 0 then .nan else .infinity (s != s')
  | .finite s m _, .infinity s' => if m = 0 then .nan else .infinity (s != s')

def div : Binary F → Binary F → Binary F
  | .finite s m e, .finite s' m' e' =>
    if m' = 0 then if m = 0 then .nan else .infinity (s != s')
    else
      let (n, d) := quotient m (e - e')
      round F (s != s') n (d * m')
  | .nan, _ => .nan
  | _, .nan => .nan
  | .infinity _, .infinity _ => .nan
  | .infinity s, .finite s' _ _ => .infinity (s != s')
  | .finite s _ _, .infinity s' => zero (s != s')

/-- The signed count of units of `2 ^ unit` in a finite number whose own unit is not below. -/
def units (s : Bool) (m : Nat) (e unit : Int) : Int :=
  let n : Int := m <<< (e - unit).toNat
  if s then -n else n

def add : Binary F → Binary F → Binary F
  | .finite s m e, .finite s' m' e' =>
    let unit := min e e'
    let sum := units s m e unit + units s' m' e' unit
    if sum = 0 then zero (s && s')
    else let (n, d) := quotient sum.natAbs unit; round F (sum < 0) n d
  | .nan, _ => .nan
  | _, .nan => .nan
  | .infinity s, .infinity s' => if s = s' then .infinity s else .nan
  | .infinity s, .finite .. => .infinity s
  | .finite .., .infinity s => .infinity s

def sub (x y : Binary F) : Binary F := x.add y.neg

def lt : Binary F → Binary F → Bool
  | .finite s m e, .finite s' m' e' =>
    let unit := min e e'
    units s m e unit < units s' m' e' unit
  | .nan, _ => false
  | _, .nan => false
  | .infinity s, .infinity s' => s && !s'
  | .infinity s, .finite .. => s
  | .finite .., .infinity s' => !s'

/-- The lesser of two numbers; a NaN gives way to the other. -/
def least (x y : Binary F) : Binary F :=
  match x, y with
  | .nan, y => y
  | x, .nan => x
  | x, y => if y.lt x then y else x

/-- The number without its fraction, held within signed 64 bits; zero for a NaN. -/
def truncate : Binary F → Int
  | .finite s m e => Word.clampInt64 (if s then -(shift m e : Int) else shift m e)
  | .infinity s => if s then Word.leastInt64 else Word.greatestInt64
  | .nan => 0

/-- The word of the 64-bit interchange encoding; every NaN has the same one. -/
def bits64 : Binary64 → Nat
  | .finite s m e =>
    let sign := if s then 1 <<< 63 else 0
    if m < 1 <<< 52 then sign + m
    else sign + ((e + 1075).toNat <<< 52) + (m - (1 <<< 52))
  | .infinity s => (if s then 1 <<< 63 else 0) + (0x7ff <<< 52)
  | .nan => 0x7ff8 <<< 48

end Binary

end Triage
