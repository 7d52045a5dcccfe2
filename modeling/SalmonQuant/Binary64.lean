import Mathlib

/-!
# `double` arithmetic

Some of the program's arithmetic is in `double`: the strand-bias and disagreement ratios
of `summarizeLibraryTypeCounts`, the sample centres of `numSampledHits_`, and the mean
score of a pair in `getHitsForFragment`. An IEEE 754 operation in the default mode
returns its exact result rounded to the nearest binary64 value, ties to even. A `double`
is read here as the rational it stands for, and `roundDouble` rounds the exact rational
result of an operation: the binade `2 ^ e ≤ |x| < 2 ^ (e + 1)` holds the multiples of
`2 ^ (e - 52)`, and below `2 ^ -1022` the spacing stays `2 ^ -1074` (the subnormals). No
value these functions compute comes near `2 ^ 1024`, so overflow is not modelled.

A rounding moves a value by at most half a spacing, so by at most about `|x| / 2 ^ 53`
(`abs_roundDouble_sub_le`). An integer below `2 ^ 53`, as `static_cast<double>` makes of
the counts and positions here, is a `double` already (`roundDouble_intCast`).
-/

namespace SalmonQuant

/-- Round to the nearest integer, the even one at a midpoint. -/
def roundEven (x : ℚ) : ℤ :=
  let k := ⌊x⌋
  if x - k < 1 / 2 then k else if 1 / 2 < x - k then k + 1 else k + k % 2

/-- `std::round`: the nearest integer, away from zero at a midpoint. -/
def stdRound (x : ℚ) : ℤ :=
  if x < 0 then -⌊-x + 1 / 2⌋ else ⌊x + 1 / 2⌋

/-- The spacing of the `double`s around `x`. -/
def quantum (x : ℚ) : ℚ :=
  2 ^ (max (-1022) (Int.log 2 |x|) - 52)

/-- The `double` nearest `x`, ties to even. -/
def roundDouble (x : ℚ) : ℚ :=
  roundEven (x / quantum x) * quantum x

/-! ## Rounding to integers -/

theorem abs_roundEven_sub_le (x : ℚ) : |(roundEven x : ℚ) - x| ≤ 1 / 2 := by
  have lo := Int.floor_le x
  have hi := Int.lt_floor_add_one x
  unfold roundEven
  dsimp only
  split_ifs with below above
  · exact abs_sub_le_iff.2 ⟨(sub_nonpos.2 lo).trans (by norm_num), below.le⟩
  · push_cast
    exact abs_sub_le_iff.2 ⟨by linarith only [above], (sub_nonpos.2 hi.le).trans (by norm_num)⟩
  · -- a midpoint, where either neighbour is half away
    have mid : x - ⌊x⌋ = 1 / 2 := le_antisymm (not_lt.1 above) (not_lt.1 below)
    rcases Int.emod_two_eq_zero_or_one ⌊x⌋ with e | e <;> rw [e] <;> push_cast
    · rw [add_zero, abs_sub_comm, mid, abs_of_pos one_half_pos]
    · rw [show (⌊x⌋ : ℚ) + 1 - x = 1 - (x - ⌊x⌋) by ring, mid, abs_of_pos (by norm_num)]
      norm_num

@[simp] theorem roundEven_intCast (k : ℤ) : roundEven k = k := by
  simp [roundEven]

@[simp] theorem stdRound_intCast (k : ℤ) : stdRound k = k := by
  have half : ⌊(1 / 2 : ℚ)⌋ = 0 := Int.floor_eq_zero_iff.2 ⟨by norm_num, by norm_num⟩
  unfold stdRound
  split_ifs
  · rw [← Int.cast_neg, Int.floor_int_add, half, add_zero, neg_neg]
  · rw [Int.floor_int_add, half, add_zero]

theorem quantum_pos (x : ℚ) : 0 < quantum x :=
  zpow_pos two_pos _

@[simp] theorem roundDouble_zero : roundDouble 0 = 0 := by
  have : roundEven 0 = 0 := by simpa using roundEven_intCast 0
  simp [roundDouble, this]

/-- A rounding moves `x` by at most half the spacing around it. -/
theorem abs_roundDouble_sub_le_quantum (x : ℚ) : |roundDouble x - x| ≤ quantum x / 2 := by
  have q := quantum_pos x
  have scaled :
      roundDouble x - x = ((roundEven (x / quantum x) : ℚ) - x / quantum x) * quantum x := by
    rw [roundDouble, sub_mul, div_mul_cancel₀ _ q.ne']
  rw [scaled, abs_mul, abs_of_pos q]
  exact (mul_le_mul_of_nonneg_right (abs_roundEven_sub_le _) q.le).trans_eq
    (one_div_mul_eq_div 2 _)

/-- The spacing around a non-zero `x` is at most `|x| / 2 ^ 52`, or the subnormal one. -/
theorem quantum_le (x : ℚ) (hx : x ≠ 0) : quantum x ≤ |x| / 2 ^ 52 + 2 ^ (-1074 : ℤ) := by
  have pos : 0 < |x| := abs_pos.2 hx
  unfold quantum
  rcases le_total (-1022) (Int.log 2 |x|) with normal | subnormal
  · have binade : (2 : ℚ) ^ Int.log 2 |x| ≤ |x| := Int.zpow_log_le_self one_lt_two pos
    rw [max_eq_right normal, zpow_sub₀ two_ne_zero,
      show (2 : ℚ) ^ (52 : ℤ) = 2 ^ 52 by norm_num]
    exact le_add_of_le_of_nonneg (div_le_div_of_nonneg_right binade (by positivity))
      (zpow_pos two_pos _).le
  · rw [max_eq_left subnormal, show (-1022 : ℤ) - 52 = -1074 by norm_num]
    exact le_add_of_nonneg_left (by positivity)

/-- The rounding error of a value of magnitude at most `b`. -/
theorem abs_roundDouble_sub_le {x b : ℚ} (h : |x| ≤ b) :
    |roundDouble x - x| ≤ (b + 1) / 2 ^ 53 := by
  rcases eq_or_ne x 0 with rfl | hx
  · simp only [roundDouble_zero, sub_zero, abs_zero]
    have : 0 ≤ b := le_trans (abs_nonneg _) h
    positivity
  · have tiny : (2 : ℚ) ^ (-1074 : ℤ) ≤ 2 / 2 ^ 53 := by norm_num
    have spacing := quantum_le x hx
    have half := abs_roundDouble_sub_le_quantum x
    linarith only [h, tiny, spacing, half]

/-- `n * 2 ^ e` with `|n| < 2 ^ 53` and `e` at least the subnormal exponent is a `double`. -/
theorem roundDouble_mul_zpow (n e : ℤ) (h : |n| < 2 ^ 53) (he : -1074 ≤ e) :
    roundDouble (n * 2 ^ e) = n * 2 ^ e := by
  rcases eq_or_ne n 0 with rfl | hn
  · simp
  have two : (0 : ℚ) < 2 ^ e := zpow_pos two_pos e
  have pos : (0 : ℚ) < |(n : ℚ) * 2 ^ e| :=
    abs_pos.2 (mul_ne_zero (Int.cast_ne_zero.2 hn) two.ne')
  have bound : |(n : ℚ) * 2 ^ e| < 2 ^ (53 + e) := by
    rw [abs_mul, abs_of_pos two, zpow_add₀ two_ne_zero]
    exact mul_lt_mul_of_pos_right (by exact_mod_cast h) two
  have small : Int.log 2 |(n : ℚ) * 2 ^ e| < 53 + e :=
    (Int.lt_zpow_iff_log_lt one_lt_two pos).1 (by exact_mod_cast bound)
  obtain ⟨k, hk⟩ : ∃ k : ℕ, e - (max (-1022) (Int.log 2 |(n : ℚ) * 2 ^ e|) - 52) = k :=
    ⟨(e - (max (-1022) (Int.log 2 |(n : ℚ) * 2 ^ e|) - 52)).toNat, by omega⟩
  have exact : (n : ℚ) * 2 ^ e / quantum (n * 2 ^ e) = ((n * 2 ^ k : ℤ) : ℚ) := by
    rw [quantum, div_eq_mul_inv, ← zpow_neg, mul_assoc, ← zpow_add₀ two_ne_zero,
      ← sub_eq_add_neg, hk, zpow_natCast]
    push_cast
    rfl
  rw [roundDouble, exact, roundEven_intCast, ← exact, div_mul_cancel₀ _ (quantum_pos _).ne']

/-- An integer below `2 ^ 53` is a `double`. -/
theorem roundDouble_intCast (n : ℤ) (h : |n| < 2 ^ 53) : roundDouble n = n := by
  simpa using roundDouble_mul_zpow n 0 h (by norm_num)

theorem roundDouble_natCast (n : ℕ) (h : n < 2 ^ 53) : roundDouble n = n := by
  have := roundDouble_intCast n (by rw [Nat.abs_cast]; exact_mod_cast h)
  exact_mod_cast this

end SalmonQuant
