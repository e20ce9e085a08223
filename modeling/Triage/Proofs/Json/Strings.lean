import Triage.Json.Printer
import Triage.Json.Reader

/-!
# Strings read back

A printed string is read as itself, whatever follows it. Scanning gives the code
points one character at a time (`scanString_escape`), and no character is half
of a surrogate pair, so the code points are the characters of the string.
-/

namespace Triage.Json

theorem unit?_control : ∀ n < 32,
    unit? '0' '0' (Text.hexDigit (n / 16)) (Text.hexDigit (n % 16)) = some n := by
  decide

theorem bind_cons_eq_map (u : Nat) (scanned : Option (List Nat × List Char)) :
    (do let (us, rest) ← scanned; some (u :: us, rest)) =
      scanned.map fun p => (u :: p.1, p.2) := by
  cases scanned <;> rfl

theorem scanString_cons {c : Char} (hcontrol : ¬ c.toNat < 32) (hquote : c ≠ '"')
    (hback : c ≠ '\\') (text : List Char) :
    scanString (c :: text) = (scanString text).map fun p => (c.toNat :: p.1, p.2) := by
  rw [scanString.eq_def]
  split
  · rename_i he
    cases he
  · rename_i he
    exact absurd (List.cons.inj he).1 hquote
  · rename_i he
    exact absurd (List.cons.inj he).1 hback
  · rename_i he
    exact absurd (List.cons.inj he).1 hback
  · rename_i he
    cases he
    have hplain : ¬ (decide (c.toNat < 32) || decide (c = '\\')) = true := by
      rw [decide_eq_false hcontrol, decide_eq_false hback]
      exact Bool.false_ne_true
    rw [if_neg hplain, bind_cons_eq_map]

theorem scanString_escape (c : Char) (text : List Char) :
    scanString (escape c ++ text) = (scanString text).map fun p => (c.toNat :: p.1, p.2) := by
  unfold escape
  -- The seven characters with an escape of their own.
  iterate 7
    split
    · subst_vars
      simp [scanString, unescape?, bind_cons_eq_map]
  split
  · rename_i hc
    simp [scanString, unit?_control _ hc, bind_cons_eq_map]
  · rename_i hquote hback _ _ _ _ _ hcontrol
    exact scanString_cons hcontrol hquote hback text

theorem scanString_flatMap_escape (s k : List Char) :
    scanString (s.flatMap escape ++ '"' :: k) = some (s.map Char.toNat, k) := by
  induction s with
  | nil => simp [scanString]
  | cons c rest ih => simp [scanString_escape, ih]

theorem ofUnits?_map_toNat (s : List Char) : ofUnits? (s.map Char.toNat) = some s := by
  induction s with
  | nil => rfl
  | cons c rest ih =>
    have hvalid : c.toNat < 0xd800 ∨ 0xdfff < c.toNat ∧ c.toNat < 0x110000 := c.valid
    rw [List.map_cons, ofUnits?.eq_def]
    dsimp only
    rw [if_neg (by omega), if_neg (by omega), ih, Char.ofNat_toNat]
    rfl

theorem readString_writeString (s : String) (k : List Char) :
    readString (s.toList.flatMap escape ++ '"' :: k) = some (some s, k) := by
  simp [readString, scanString_flatMap_escape, ofUnits?_map_toNat]

end Triage.Json
