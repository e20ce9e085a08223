import Triage.Binary.Decimal
import Triage.Text.Digits

/-!
# Numbers in YAML

Integers are decimal without leading zeros, or hexadecimal, octal or binary
behind `0x`, `0o` and `0b`. Decimals have a point or an exponent or neither, and
may be infinite or not a number. A plus may precede each.
-/

namespace Triage.Yaml

def baseDigit? (base : Nat) (c : Char) : Option Nat := (Text.hexValue? c).filter (· < base)

def ofBase? (base : Nat) (digits : List Char) : Option Nat := do
  if digits.isEmpty then none
  let values ← digits.mapM (baseDigit? base)
  some (values.foldl (fun n d => base * n + d) 0)

def dropPlus : List Char → List Char
  | '+' :: rest => rest
  | text => text

def natural? (text : String) : Option Nat :=
  let value? := match dropPlus text.toList with
    | '0' :: 'x' :: rest => ofBase? 16 rest
    | '0' :: 'o' :: rest => ofBase? 8 rest
    | '0' :: 'b' :: rest => ofBase? 2 rest
    | '0' :: _ :: _ => none
    | digits => ofBase? 10 digits
  value?.filter (· ≤ Word.greatest64)

def exponent? (text : List Char) : Option Int :=
  match text with
  | '-' :: digits => (Text.natural? digits).map fun n => -(n : Int)
  | '+' :: digits => (Text.natural? digits).map fun n => (n : Int)
  | digits => (Text.natural? digits).map fun n => (n : Int)

/-- A finite decimal after its sign, as digits and the power of ten they count. -/
def decimal? (text : List Char) : Option (Nat × Int) := do
  let whole := text.takeWhile Char.isDigit
  let rest := text.dropWhile Char.isDigit
  let (fraction, rest) := match rest with
    | '.' :: rest => (rest.takeWhile Char.isDigit, rest.dropWhile Char.isDigit)
    | _ => ([], rest)
  if whole.isEmpty && fraction.isEmpty then none
  let exponent ← match rest with
    | [] => some 0
    | e :: rest => if e = 'e' || e = 'E' then exponent? rest else none
  some (Text.ofDigits 0 (whole ++ fraction), exponent - fraction.length)

def finite? (text : List Char) : Option Binary64 := do
  let (negative, text) := match text with
    | '-' :: rest => (true, rest)
    | '+' :: rest => (false, rest)
    | _ => (false, text)
  let (digits, scale) ← decimal? text
  match Binary.ofDecimal Binary.double negative digits scale with
  | .infinity _ => none
  | x => some x

def double? (text : String) : Option Binary64 :=
  if [".inf", ".Inf", ".INF", "+.inf", "+.Inf", "+.INF"].contains text then some (.infinity false)
  else if ["-.inf", "-.Inf", "-.INF"].contains text then some (.infinity true)
  else if [".nan", ".NaN", ".NAN"].contains text then some .nan
  else finite? text.toList

end Triage.Yaml
