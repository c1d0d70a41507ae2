import Mathlib.Algebra.Order.Floor.Ring
import Mathlib.Algebra.Order.Round
import Mathlib.Data.Int.Log
import Mathlib.Tactic.Positivity
import Mathlib.Tactic.Ring

namespace Rounding

section Even

variable {K : Type} [Field K] [LinearOrder K] [FloorRing K]

/-- The nearest integer, of two equally near ones the even one. -/
def roundHalfEven (x : K) : ℤ :=
  if Int.fract x < 1 / 2 ∨ Int.fract x = 1 / 2 ∧ ⌊x⌋ % 2 = 0 then ⌊x⌋ else ⌊x⌋ + 1

theorem le_roundHalfEven {n : ℤ} {x : K} (below : (n : K) ≤ x) : n ≤ roundHalfEven x := by
  have floored : n ≤ ⌊x⌋ := Int.le_floor.mpr below
  unfold roundHalfEven
  split <;> omega

/-- The step from one number of `precision` bits to the next one at `x`. -/
def ulp (precision : ℕ) (x : K) : K := 2 ^ (Int.log 2 |x| + 1 - precision)

/-- Rounding to a binary format of `precision` bits whose exponent is large enough. -/
def roundTo (precision : ℕ) (x : K) : K := roundHalfEven (x / ulp precision x) * ulp precision x

end Even

variable {K : Type} [Field K] [LinearOrder K] [IsStrictOrderedRing K] [FloorRing K]

theorem abs_roundHalfEven_sub_le (x : K) : |roundHalfEven x - x| ≤ 1 / 2 := by
  have parts : (⌊x⌋ : K) + Int.fract x = x := Int.floor_add_fract x
  have low := Int.fract_nonneg x
  have high := Int.fract_lt_one x
  unfold roundHalfEven
  rw [abs_le]
  split
  case isTrue down =>
    have small : Int.fract x ≤ 1 / 2 := down.elim le_of_lt fun half => half.1.le
    constructor <;> linarith
  case isFalse up =>
    have large : 1 / 2 ≤ Int.fract x := not_lt.mp fun small => up (.inl small)
    rw [Int.cast_add, Int.cast_one]
    constructor <;> linarith

theorem roundHalfEven_le {n : ℤ} {x : K} (above : x ≤ n) : roundHalfEven x ≤ n := by
  rcases above.eq_or_lt with whole | below
  · rw [whole, roundHalfEven, Int.floor_intCast, Int.fract_intCast, if_pos (.inl (by positivity))]
  · have floored : ⌊x⌋ < n := Int.floor_lt.mpr below
    unfold roundHalfEven
    split <;> omega

theorem ulp_pos (precision : ℕ) (x : K) : 0 < ulp precision x := zpow_pos two_pos _

theorem ulp_le (precision : ℕ) {x : K} (nonzero : x ≠ 0) : ulp precision x ≤ 2 * |x| / 2 ^ precision := by
  have leading : (2 : K) ^ Int.log 2 |x| ≤ |x| := by
    exact_mod_cast Int.zpow_log_le_self Nat.one_lt_two (abs_pos.mpr nonzero)
  rw [ulp, zpow_sub₀ two_ne_zero, zpow_add_one₀ two_ne_zero, zpow_natCast, mul_comm (2 : K)]
  gcongr

theorem abs_roundTo_sub_le (precision : ℕ) (x : K) : |roundTo precision x - x| ≤ |x| / 2 ^ precision := by
  rcases eq_or_ne x 0 with rfl | nonzero
  · simp [roundTo, roundHalfEven]
  · have positive := ulp_pos precision x
    have scaled : roundTo precision x - x =
        (roundHalfEven (x / ulp precision x) - x / ulp precision x) * ulp precision x := by
      rw [sub_mul, div_mul_cancel₀ _ positive.ne', roundTo]
    calc |roundTo precision x - x|
        = |(roundHalfEven (x / ulp precision x) : K) - x / ulp precision x| * ulp precision x := by
          rw [scaled, abs_mul, abs_of_pos positive]
      _ ≤ 1 / 2 * (2 * |x| / 2 ^ precision) :=
          mul_le_mul (abs_roundHalfEven_sub_le _) (ulp_le precision nonzero) positive.le (by positivity)
      _ = |x| / 2 ^ precision := by ring

theorem roundTo_nonneg (precision : ℕ) {x : K} (nonneg : 0 ≤ x) : 0 ≤ roundTo precision x := by
  have positive := ulp_pos precision x
  have scaled : ((0 : ℤ) : K) ≤ x / ulp precision x := by
    rw [Int.cast_zero]
    exact div_nonneg nonneg positive.le
  exact mul_nonneg (by exact_mod_cast le_roundHalfEven scaled) positive.le

theorem roundTo_le_mul (precision : ℕ) {x : K} (nonneg : 0 ≤ x) : roundTo precision x ≤ x * (1 + 1 / 2 ^ precision) := by
  have close := (abs_le.mp (abs_roundTo_sub_le precision x)).2
  rw [abs_of_nonneg nonneg] at close
  rw [mul_add, mul_one, mul_one_div]
  linarith

theorem mul_le_roundTo (precision : ℕ) {x : K} (nonneg : 0 ≤ x) : x * (1 - 1 / 2 ^ precision) ≤ roundTo precision x := by
  have close := (abs_le.mp (abs_roundTo_sub_le precision x)).1
  rw [abs_of_nonneg nonneg] at close
  rw [mul_sub, mul_one, mul_one_div]
  linarith

theorem roundTo_le_zpow {precision : ℕ} (bits : 0 < precision) {x : K} (nonneg : 0 ≤ x) {k : ℤ} (below : x ≤ 2 ^ k) :
    roundTo precision x ≤ 2 ^ k := by
  rcases nonneg.eq_or_lt with rfl | filled
  · simpa [roundTo, roundHalfEven] using below
  · have exponent : Int.log 2 x ≤ k := by
      have logs := Int.log_mono_right (b := 2) filled below
      have power : Int.log 2 ((2 : K) ^ k) = k := by exact_mod_cast Int.log_zpow (R := K) Nat.one_lt_two k
      rwa [power] at logs
    have positive := ulp_pos precision x
    obtain ⟨steps, stepsIs⟩ := Int.eq_ofNat_of_zero_le (by omega : 0 ≤ k - (Int.log 2 x + 1 - precision))
    have whole : ((2 ^ steps : ℤ) : K) * ulp precision x = 2 ^ k := by
      rw [ulp, abs_of_pos filled, Int.cast_pow, Int.cast_ofNat, ← zpow_natCast, ← zpow_add₀ two_ne_zero, ← stepsIs]
      congr 1
      omega
    have scaled : x / ulp precision x ≤ ((2 ^ steps : ℤ) : K) := by
      rw [div_le_iff₀ positive, whole]
      exact below
    calc roundTo precision x = roundHalfEven (x / ulp precision x) * ulp precision x := rfl
      _ ≤ ((2 ^ steps : ℤ) : K) * ulp precision x := by
          gcongr
          exact roundHalfEven_le scaled
      _ = 2 ^ k := whole

end Rounding
