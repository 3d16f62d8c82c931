import Mathlib

/- The non-negative integers of double-precision arithmetic: exact below 2 ^ 53, rounded above, and
past the largest of them infinity, of which no zero fraction is a number. -/
namespace DoublePrecision

section Rounding

/-- The nearest number with a significand of 53 bits, ties to the even one. -/
def nearest (value : Nat) : Nat :=
  if value < 2 ^ 53 then value
  else
    let exponent := value.log2 - 52
    let quotient := value >>> exponent
    let remainder := value % 2 ^ exponent
    let half := 2 ^ (exponent - 1)
    if half < remainder ∨ (remainder = half ∧ quotient % 2 = 1) then (quotient + 1) <<< exponent
    else quotient <<< exponent

theorem nearest_exact {value : Nat} (small : value < 2 ^ 53) : nearest value = value := if_pos small

/-- A power of two is its own significand. -/
theorem nearest_two_pow (exponent : Nat) : nearest (2 ^ exponent) = 2 ^ exponent := by
  by_cases small : 2 ^ exponent < 2 ^ 53
  · exact nearest_exact small
  · have large : 53 ≤ exponent := by
      apply Nat.le_of_not_lt
      intro less
      exact small (Nat.pow_lt_pow_right (by omega) less)
    have split : 2 ^ exponent = 2 ^ 52 * 2 ^ (exponent - 52) := by
      rw [← Nat.pow_add]
      congr 1
      omega
    have none : 2 ^ exponent % 2 ^ (exponent - 52) = 0 := by
      rw [split]
      exact Nat.mul_mod_left _ _
    have half : 0 < 2 ^ (exponent - 52 - 1) := Nat.two_pow_pos _
    have low : ¬(2 ^ (exponent - 52 - 1) < 0 ∨
        0 = 2 ^ (exponent - 52 - 1) ∧ 2 ^ exponent >>> (exponent - 52) % 2 = 1) := by omega
    unfold nearest
    dsimp only
    rw [if_neg small, Nat.log2_two_pow, none, if_neg low, Nat.shiftRight_eq_div_pow,
      Nat.shiftLeft_eq]
    conv_lhs => rw [split]
    rw [Nat.mul_div_cancel _ (Nat.two_pow_pos _)]
    exact split.symm

end Rounding

section Arithmetic

inductive Number where
  | finite (value : Nat)
  | infinity
  | nan
deriving DecidableEq, Repr

/-- The exponent from which powers of two are infinite. -/
def infiniteFrom : Nat := 1024

/-- The result of an exact operation, rounded. -/
def Number.round (value : Nat) : Number :=
  if nearest value < 2 ^ infiniteFrom then .finite (nearest value) else .infinity

def Number.add : Number → Number → Number
  | .finite first, .finite second => .round (first + second)
  | .nan, _ => .nan
  | _, .nan => .nan
  | _, _ => .infinity

def Number.mul : Number → Number → Number
  | .finite first, .finite second => .round (first * second)
  | .nan, _ => .nan
  | _, .nan => .nan
  | .finite 0, .infinity => .nan
  | .infinity, .finite 0 => .nan
  | _, _ => .infinity

theorem round_exact {value : Nat} (small : value < 2 ^ 53) : Number.round value = .finite value := by
  have large : 2 ^ 53 < 2 ^ infiniteFrom := Nat.pow_lt_pow_right (by omega) (by decide)
  unfold Number.round
  rw [nearest_exact small, if_pos (Nat.lt_trans small large)]

theorem round_two_pow (exponent : Nat) : Number.round (2 ^ exponent) =
      if exponent < infiniteFrom then .finite (2 ^ exponent) else .infinity := by
  unfold Number.round
  rw [nearest_two_pow]
  by_cases small : exponent < infiniteFrom
  · rw [if_pos small, if_pos (Nat.pow_lt_pow_right (by omega) small)]
  · have large : ¬2 ^ exponent < 2 ^ infiniteFrom :=
      Nat.not_lt.mpr (Nat.pow_le_pow_right (by omega) (Nat.not_lt.mp small))
    rw [if_neg small, if_neg large]

theorem round_ne_nan (value : Nat) : Number.round value ≠ .nan := by
  unfold Number.round
  split <;> exact Number.noConfusion

/-- A sum is a number where its terms are. -/
theorem add_eq_nan_iff (first second : Number) :
    first.add second = .nan ↔ first = .nan ∨ second = .nan := by
  cases first with
  | finite first =>
    cases second with
    | finite second => simp [Number.add, round_ne_nan]
    | infinity => simp [Number.add]
    | nan => simp [Number.add]
  | infinity => cases second <;> simp [Number.add]
  | nan => cases second <;> simp [Number.add]

end Arithmetic

end DoublePrecision
