import Mathlib.Algebra.Order.Field.Power
import Mathlib.Algebra.Order.Ring.Rat
import Mathlib.Data.Nat.Cast.Order.Field
import Mathlib.Tactic.FieldSimp
import Mathlib.Tactic.Linarith
import Triage.Binary.Basic

/-!
# Numbers as rationals

What a finite number of a binary format denotes, and what the integer operations
under the arithmetic of such numbers mean for it.
-/

namespace Triage.Binary

variable {F : Format}

def value (negative : Bool) (m : Nat) (unit : Int) : ℚ :=
  (if negative then -(m : ℚ) else m) * 2 ^ unit

def AtLeast : Binary F → ℚ → Prop
  | .finite s m e, q => q ≤ value s m e
  | .infinity s, _ => s = false
  | .nan, _ => False

theorem value_nonpos (m : Nat) (unit : Int) : value true m unit ≤ 0 := by
  have hunit : (0 : ℚ) < 2 ^ unit := by positivity
  have hm : -(m : ℚ) ≤ 0 := neg_nonpos.mpr m.cast_nonneg
  exact mul_nonpos_of_nonpos_of_nonneg hm hunit.le

theorem value_nonneg (m : Nat) (unit : Int) : 0 ≤ value false m unit := by
  rw [value, if_neg Bool.false_ne_true]
  positivity

theorem quotient_snd_pos (m : Nat) (unit : Int) : 0 < (quotient m unit).2 := by
  rw [quotient, Nat.one_shiftLeft]
  positivity

theorem quotient_eq_value (m : Nat) (unit : Int) :
    ((quotient m unit).1 : ℚ) / (quotient m unit).2 = value false m unit := by
  rw [quotient, value, if_neg Bool.false_ne_true, Nat.one_shiftLeft, Nat.shiftLeft_eq]
  cases unit with
  | ofNat n => simp
  | negSucc n => simp [zpow_negSucc, Int.neg_negSucc, div_eq_mul_inv]

/-- Twice the rounded quotient is at most one divisor away from twice the dividend. -/
theorem divNearest_bounds (n : Nat) {d : Nat} (hd : 0 < d) :
    2 * n ≤ 2 * (divNearest n d * d) + d ∧ 2 * (divNearest n d * d) ≤ 2 * n + d := by
  have hdiv : n / d * d + n % d = n := Nat.div_add_mod' n d
  have hmod : n % d < d := Nat.mod_lt n hd
  have hnext : (n / d + 1) * d = n / d * d + d := Nat.succ_mul _ _
  rw [divNearest]
  split
  · omega
  · split
    · rw [hnext]
      omega
    · -- A tie: the even one of the two neighbours, each half a divisor away.
      obtain heven | hodd := Nat.mod_two_eq_zero_or_one (n / d)
      · rw [heven, Nat.add_zero]
        omega
      · rw [hodd, hnext]
        omega

theorem abs_divNearest_sub_le (n : Nat) {d : Nat} (hd : 0 < d) :
    |(divNearest n d : ℚ) - n / d| ≤ 1 / 2 := by
  obtain ⟨hlower, hupper⟩ := divNearest_bounds n hd
  have hd' : (0 : ℚ) < d := by exact_mod_cast hd
  have hlower' : 2 * (n : ℚ) ≤ 2 * (divNearest n d * d) + d := by exact_mod_cast hlower
  have hupper' : 2 * (divNearest n d * d : ℚ) ≤ 2 * n + d := by exact_mod_cast hupper
  have hn : (n : ℚ) / d * d = n := div_mul_cancel₀ _ hd'.ne'
  rw [abs_le]
  constructor
  · refine le_of_mul_le_mul_right ?_ hd'
    linarith
  · refine le_of_mul_le_mul_right ?_ hd'
    linarith

end Triage.Binary
