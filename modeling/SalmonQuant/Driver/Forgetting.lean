import Mathlib.Analysis.SpecialFunctions.Pow.Real

/-!
# The forgetting mass of the online E-step

Before each `processMiniBatch` call both workers (`SalmonQuantify.cpp:1392`, `:1484`)
take a batch number and grow the log forgetting mass:

    auto oldBatchNum = batchNum++;
    if (oldBatchNum > 1)
        logForgettingMass += forgettingFactor * std::log(double(oldBatchNum-1)) -
            std::log(std::pow(double(oldBatchNum), forgettingFactor) - 1);

`batchNum_` starts at `0` and is never reset, and `logForgettingMass` starts at
`std::log(1.0)` (`SalmonQuantify.cpp:1818`) and lives across rounds, so with one worker
thread the `k`-th mini-batch of the whole run is processed with the state after `k`
such steps. Its new mass enters at `logForgettingMass + hitMass` (`:453`), so its
weight is `exp(logForgettingMass)`.

The arithmetic is exact real arithmetic here. The recurrence makes batch `k + 1` weigh
`k ^ ff` times less than the batches `2 .. k + 1` together (`batchWeight_schedule`): the
schedule is shifted by one batch, because the increment only starts at
`oldBatchNum = 2` and batches 1 and 2 both get weight `1`.
-/

namespace SalmonQuant.Driver

open Finset

/-- `forgettingFactor` of both workers (`SalmonQuantify.cpp:1326`, `:1437`). -/
noncomputable def forgettingFactor : ℝ := 0.65

/-- The two variables the workers update before each mini-batch. -/
structure ForgettingState where
  batchNum : ℕ
  logForgettingMass : ℝ

/-- One `batchNum++` and the guarded `logForgettingMass` update. -/
noncomputable def nextBatch (ff : ℝ) (s : ForgettingState) : ForgettingState :=
  let oldBatchNum := s.batchNum
  ⟨oldBatchNum + 1,
    if oldBatchNum > 1 then
      s.logForgettingMass + ff * Real.log ((oldBatchNum - 1 : ℕ) : ℝ) -
        Real.log ((oldBatchNum : ℝ) ^ ff - 1)
    else s.logForgettingMass⟩

/-- The state the `k`-th mini-batch (from 1) is processed with: `k` steps from
`batchNum_ = 0` and `logForgettingMass = log(1.0)`. -/
noncomputable def afterBatches (ff : ℝ) (k : ℕ) : ForgettingState :=
  (nextBatch ff)^[k] ⟨0, Real.log 1⟩

/-- The weight `exp(logForgettingMass)` of the `k`-th mini-batch's mass. -/
noncomputable def batchWeight (ff : ℝ) (k : ℕ) : ℝ :=
  Real.exp (afterBatches ff k).logForgettingMass

theorem afterBatches_succ (ff : ℝ) (k : ℕ) :
    afterBatches ff (k + 1) = nextBatch ff (afterBatches ff k) :=
  Function.iterate_succ_apply' _ _ _

theorem afterBatches_batchNum (ff : ℝ) (k : ℕ) : (afterBatches ff k).batchNum = k := by
  induction k with
  | zero => rfl
  | succ k ih => rw [afterBatches_succ, nextBatch, ih]

/-- Batches 1 and 2 take `oldBatchNum` `0` and `1`: neither moves the mass. -/
theorem batchWeight_le_two (ff : ℝ) {k : ℕ} (hk : k ≤ 2) : batchWeight ff k = 1 := by
  have unmoved : ∀ j ≤ 2, (afterBatches ff j).logForgettingMass = Real.log 1 := by
    intro j hj
    induction j with
    | zero => rfl
    | succ j ih =>
      have hj' : ¬ (afterBatches ff j).batchNum > 1 := by rw [afterBatches_batchNum]; omega
      rw [afterBatches_succ, nextBatch]
      simpa [hj'] using ih (by omega)
  rw [batchWeight, unmoved k hk, Real.log_one, Real.exp_zero]

theorem batchWeight_pos (ff : ℝ) (k : ℕ) : 0 < batchWeight ff k := Real.exp_pos _

/-- From batch 3 on, each step multiplies the weight by `k ^ ff / ((k + 1) ^ ff - 1)`. -/
theorem batchWeight_succ {ff : ℝ} (hff : 0 < ff) {k : ℕ} (hk : 1 ≤ k) :
    batchWeight ff (k + 2) =
      batchWeight ff (k + 1) * (k : ℝ) ^ ff / (((k + 1 : ℕ) : ℝ) ^ ff - 1) := by
  have old : (afterBatches ff (k + 1)).batchNum = k + 1 := afterBatches_batchNum ff _
  have grows : 1 < (((k + 1 : ℕ) : ℝ)) ^ ff :=
    Real.one_lt_rpow (by norm_cast; omega) hff
  have kpos : (0 : ℝ) < k := by exact_mod_cast hk
  rw [batchWeight, afterBatches_succ, nextBatch, old, if_pos (by omega), Nat.add_sub_cancel,
    Real.exp_sub, Real.exp_add, Real.exp_log (by linarith), mul_comm ff,
    ← Real.rpow_def_of_pos kpos, batchWeight]

/-- Batches `2 .. k + 1` together weigh `k ^ ff` times batch `k + 1`. -/
theorem sum_batchWeight {ff : ℝ} (hff : 0 < ff) {k : ℕ} (hk : 1 ≤ k) :
    ∑ j ∈ range k, batchWeight ff (j + 2) = (k : ℝ) ^ ff * batchWeight ff (k + 1) := by
  induction k, hk using Nat.le_induction with
  | base => simp
  | succ k hk ih =>
    have grows : 1 < (((k + 1 : ℕ) : ℝ)) ^ ff := Real.one_lt_rpow (by norm_cast; omega) hff
    have gap : (((k + 1 : ℕ) : ℝ)) ^ ff - 1 ≠ 0 := by linarith
    rw [sum_range_succ, ih, batchWeight_succ hff hk]
    generalize (((k + 1 : ℕ) : ℝ)) ^ ff = q at gap ⊢
    generalize (k : ℝ) ^ ff = p
    generalize batchWeight ff (k + 1) = w
    have whole : w * p = w * p / (q - 1) * (q - 1) := (div_mul_cancel₀ _ gap).symm
    calc p * w + w * p / (q - 1) = w * p / (q - 1) * (q - 1) + w * p / (q - 1) := by
          rw [← whole, mul_comm]
      _ = q * (w * p / (q - 1)) := by ring

/-- The step-size schedule holds from the second batch on: batch `k + 1` carries the
share `k ^ (-ff)` of batches `2 .. k + 1`. -/
theorem batchWeight_schedule {ff : ℝ} (hff : 0 < ff) {k : ℕ} (hk : 1 ≤ k) :
    batchWeight ff (k + 1) / ∑ j ∈ range k, batchWeight ff (j + 2) = (k : ℝ) ^ (-ff) := by
  rw [sum_batchWeight hff hk, Real.rpow_neg (Nat.cast_nonneg k),
    div_mul_cancel_right₀ (batchWeight_pos ff _).ne']

theorem batchWeight_schedule_third_batch :
    (0 : ℝ) < forgettingFactor ∧ 1 ≤ 2 ∧
      batchWeight forgettingFactor 3 / ∑ j ∈ range 2, batchWeight forgettingFactor (j + 2) =
        (2 : ℝ) ^ (-forgettingFactor) :=
  have hff : (0 : ℝ) < forgettingFactor := by norm_num [forgettingFactor]
  ⟨hff, le_of_lt one_lt_two, batchWeight_schedule hff one_le_two⟩

/-- With `ff = 0.65` the second batch gets half the total weight, but the schedule asks
for `2 ^ (-0.65) > 1 / 2`. -/
theorem batchWeight_second_batch_half :
    batchWeight forgettingFactor 2 /
        (batchWeight forgettingFactor 1 + batchWeight forgettingFactor 2) = 1 / 2 ∧
      (2 : ℝ) ^ (-forgettingFactor) ≠ 1 / 2 := by
  refine ⟨by norm_num [batchWeight_le_two], ne_of_gt ?_⟩
  calc (1 / 2 : ℝ) = 2 ^ (-1 : ℝ) := by norm_num [Real.rpow_neg_one]
    _ < 2 ^ (-forgettingFactor) :=
      Real.rpow_lt_rpow_of_exponent_lt one_lt_two (by norm_num [forgettingFactor])

end SalmonQuant.Driver
