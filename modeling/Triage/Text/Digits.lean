import Triage.Word

/-!
# Decimal digits

Natural numbers as ASCII decimal digits, and integers read with a sign and a
bound. Nothing here accepts separators, blanks or digits of other scripts.
-/

namespace Triage.Text

def digitValue (c : Char) : Nat := c.toNat - '0'.toNat

def ofDigits (start : Nat) (digits : List Char) : Nat :=
  digits.foldl (fun n c => 10 * n + digitValue c) start

/-- One or more decimal digits as a number. -/
def natural? (digits : List Char) : Option Nat :=
  if digits.isEmpty || !digits.all Char.isDigit then none else some (ofDigits 0 digits)

/-- Decimal digits with at most one leading plus, as a number of at most `bound`. -/
def unsigned? (bound : Nat) (text : List Char) : Option Nat :=
  let digits := match text with
    | '+' :: rest => rest
    | _ => text
  (natural? digits).filter (· ≤ bound)

/-- Decimal digits with at most one leading sign, as an integer of the 64-bit range. -/
def int64? (text : List Char) : Option Int :=
  let (negative, digits) := match text with
    | '-' :: rest => (true, rest)
    | '+' :: rest => (false, rest)
    | _ => (false, text)
  ((natural? digits).map fun n => if negative then -(n : Int) else n).filter Word.fitsInt64

def digits (n : Nat) : List Char := Nat.toDigits 10 n

def hexValue? (c : Char) : Option Nat :=
  if c.isDigit then some (digitValue c)
  else if 'a' ≤ c ∧ c ≤ 'f' then some (c.toNat - 'a'.toNat + 10)
  else if 'A' ≤ c ∧ c ≤ 'F' then some (c.toNat - 'A'.toNat + 10)
  else none

def hexDigit (n : Nat) : Char := Nat.digitChar n

end Triage.Text
