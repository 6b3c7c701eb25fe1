import Mathlib.Algebra.Order.Ring.Int
import Mathlib.Data.Rat.Defs
import Mathlib.Tactic.Common

/-! # Numbers as `f64`

The conversion of an integer to a binary floating-point number of 53 bits of precision: to the
nearest one, and of two at the same distance to the one with the even last place. Up to `2 ^ 53`
nothing is lost. And the conversion of a number of seconds to a duration. -/

namespace OutboxDispatcher.Lib.Floats

/-- A value of type `f64`, by the number it stands for; the two zeros are one. -/
inductive F64
  | nan
  | infinite (negative : Bool)
  | num (q : ℚ)
  deriving DecidableEq

/-- The multiple of `ulp` nearest to `n`. -/
def roundEven (n ulp : ℕ) : ℕ :=
  if 2 * (n % ulp) < ulp ∨ (2 * (n % ulp) = ulp ∧ n / ulp % 2 = 0) then n / ulp * ulp
  else (n / ulp + 1) * ulp

/-- To 53 bits: the last place is 52 bits below the first. -/
def roundTo53 (n : ℕ) : ℕ := roundEven n (2 ^ (n.log2 - 52))

/-- `as f64` on a signed integer. -/
def ofInt (n : ℤ) : F64 := .num ((n.sign * roundTo53 n.natAbs : ℤ) : ℚ)

/-- `Duration::from_secs_f64`, in nanoseconds: to the nearest one. It panics on what is negative,
not finite or too large. -/
def durationFromSecs : F64 → Option ℕ
  | .num q =>
    let nanos := roundEven (q * 10 ^ 9).num.natAbs (q * 10 ^ 9).den / (q * 10 ^ 9).den
    if q < 0 ∨ 2 ^ 64 ≤ nanos / 10 ^ 9 then none else some nanos
  | _ => none

/-- A multiple of the last place is not moved. -/
theorem roundEven_of_dvd {n ulp : ℕ} (hpos : 0 < ulp) (h : ulp ∣ n) : roundEven n ulp = n := by
  rw [roundEven, Nat.mod_eq_zero_of_dvd h, if_pos (.inl (by omega)), Nat.div_mul_cancel h]

theorem roundTo53_eq_self {n : ℕ} (h : n ≤ 2 ^ 53) : roundTo53 n = n := by
  refine roundEven_of_dvd (Nat.two_pow_pos _) ?_
  rcases Nat.lt_or_eq_of_le h with hlt | rfl
  · have hlog : n.log2 ≤ 52 := by
      by_cases h0 : n = 0
      · rw [h0]
        decide
      · exact Nat.le_of_lt_succ ((Nat.log2_lt h0).mpr hlt)
    rw [Nat.sub_eq_zero_of_le hlog]
    exact Nat.one_dvd n
  · rw [Nat.log2_two_pow]
    exact Nat.pow_dvd_pow 2 (by omega)

/-- **Up to `2 ^ 53` the conversion is exact.** -/
theorem ofInt_eq_num {n : ℤ} (h : n.natAbs ≤ 2 ^ 53) : ofInt n = .num n := by
  rw [ofInt, roundTo53_eq_self h, Int.sign_mul_natAbs]

/-- Above it is not. -/
example : roundTo53 (2 ^ 53 + 1) = 2 ^ 53 := by
  decide

end OutboxDispatcher.Lib.Floats
