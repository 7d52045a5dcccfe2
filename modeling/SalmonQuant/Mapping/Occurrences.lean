import Mathlib

/-!
# Which occurrences of a seed `collectHitsForRead` visits

For each seed, `collectHitsForRead` (`SalmonQuantify.cpp:917`) samples its suffix-array
interval of `p->x[2]` occurrences:

    int step, count;
    int64_t k;
    step = p->x[2] > memOptions->max_occ ? p->x[2] / memOptions->max_occ : 1;
    for (k = count = 0; k < p->x[2] && count < memOptions->max_occ; k += step, ++count)

`p->x[2]` is BWA's `bwtint_t`, a `uint64_t`, and `max_occ` is the `int` of the `-m`
option. The comparison and the division convert `max_occ` to `uint64_t`; the quotient
is stored in the `int` `step`; `k < p->x[2]` compares the `int64_t` `k` as a `uint64_t`;
`k += step` sign-extends `step`. Every width is a `BitVec` here, and the division by a
zero `max_occ` is `none`.

With `max_occ = 0` and any non-empty interval the loop header divides by zero
(`sampleOccurrences_divides_by_zero`). Otherwise, as long as the quotient fits the `int`,
the loop visits `min(p->x[2], max_occ)` distinct indices inside the interval
(`sampleOccurrences_spec`).
-/

namespace SalmonQuant.Mapping

/-- `step`: the `uint64_t` quotient `p->x[2] / max_occ` kept in an `int`, or `1`; `none`
when the division is by zero. -/
def occurrenceStep (n : BitVec 64) (maxOcc : BitVec 32) : Option (BitVec 32) :=
  let m := maxOcc.signExtend 64
  if m < n then
    if m = 0 then none else some ((n / m).truncate 32)
  else some 1

/-- The indices `k` the `for` loop visits from `k` and `count`, with at most `fuel`
iterations. -/
def occurrenceIndices (n : BitVec 64) (maxOcc step : BitVec 32) :
    Nat → BitVec 64 → BitVec 32 → List (BitVec 64)
  | 0, _, _ => []
  | fuel + 1, k, count =>
    if k < n ∧ count.slt maxOcc = true then
      k :: occurrenceIndices n maxOcc step fuel (k + step.signExtend 64) (count + 1)
    else []

/-- The occurrence indices of one seed. `count` goes up by one per iteration from `0`, so
`max_occ` iterations are all the loop can run (`occurrenceIndices_eq` shows the guard,
not the fuel, ends it). -/
def sampleOccurrences (n : BitVec 64) (maxOcc : BitVec 32) : Option (List (BitVec 64)) :=
  (occurrenceStep n maxOcc).map fun step =>
    occurrenceIndices n maxOcc step maxOcc.toInt.toNat 0 0

/-! ## Machine words without overflow -/

theorem toInt_of_lt {w : Nat} {x : BitVec w} (h : 2 * x.toNat < 2 ^ w) :
    x.toInt = x.toNat := by
  simp [BitVec.toInt_eq_toNat_cond, h]

theorem toInt_lt_two_pow (x : BitVec 32) : x.toInt < 2 ^ 31 := by
  have := x.isLt
  rw [BitVec.toInt_eq_toNat_cond]
  split <;> omega

theorem toNat_signExtend_of_toInt {x : BitVec 32} {a : Nat} (h : x.toInt = a) :
    (x.signExtend 64).toNat = a := by
  have := toInt_lt_two_pow x
  simp only [BitVec.signExtend, BitVec.toNat_ofInt, h]
  omega

theorem ofNat_slt_iff {maxOcc : BitVec 32} {m j : Nat} (hm : maxOcc.toInt = m) (hj : j ≤ m) :
    (BitVec.ofNat 32 j).slt maxOcc = true ↔ j < m := by
  have := toInt_lt_two_pow maxOcc
  have small : 2 * (BitVec.ofNat 32 j).toNat < 2 ^ 32 := by rw [BitVec.toNat_ofNat]; omega
  rw [BitVec.slt, decide_eq_true_iff, toInt_of_lt small, hm, BitVec.toNat_ofNat]
  omega

/-! ## The loop -/

section Loop

variable {n : BitVec 64} {maxOcc step : BitVec 32} {m s : Nat}

/-- The loop from its `j`-th iteration, `k = j * step`, `count = j`: the multiples of
`step` below the interval's end, for the iterations `count` still allows. -/
theorem occurrenceIndices_eq (hm : maxOcc.toInt = m) (hs : step.toInt = s)
    (room : n.toNat + s < 2 ^ 64) :
    ∀ fuel j, j ≤ m → m ≤ j + fuel → j * s < 2 ^ 64 →
      occurrenceIndices n maxOcc step fuel (BitVec.ofNat 64 (j * s)) (BitVec.ofNat 32 j) =
        ((List.range' j (m - j)).filter fun i => i * s < n.toNat).map
          fun i => BitVec.ofNat 64 (i * s)
  | 0, j, hj, hfuel, _ => by
    rw [show m - j = 0 by omega]; rfl
  | fuel + 1, j, hj, hfuel, hk => by
    have hlt : BitVec.ofNat 64 (j * s) < n ↔ j * s < n.toNat := by
      rw [BitVec.lt_def, BitVec.toNat_ofNat, Nat.mod_eq_of_lt hk]
    unfold occurrenceIndices
    by_cases hjm : j < m
    · rw [show m - j = (m - (j + 1)) + 1 by omega, List.range'_succ, List.filter_cons]
      by_cases inside : j * s < n.toNat
      · have next : BitVec.ofNat 64 (j * s) + step.signExtend 64 =
            BitVec.ofNat 64 ((j + 1) * s) := by
          apply BitVec.eq_of_toNat_eq
          rw [BitVec.toNat_add, toNat_signExtend_of_toInt hs, BitVec.toNat_ofNat,
            BitVec.toNat_ofNat, Nat.mod_eq_of_lt hk, Nat.succ_mul]
        have count : BitVec.ofNat 32 j + 1 = BitVec.ofNat 32 (j + 1) :=
          BitVec.ofNat_add_ofNat j 1
        rw [if_pos ⟨hlt.2 inside, (ofNat_slt_iff hm hj).2 hjm⟩, next, count,
          occurrenceIndices_eq hm hs room fuel (j + 1) (by omega) (by omega)
            (by rw [Nat.succ_mul]; omega)]
        simp [inside]
      · have past : ∀ i ∈ List.range' (j + 1) (m - (j + 1)), ¬ decide (i * s < n.toNat) := by
          intro i hi
          have : j * s ≤ i * s := Nat.mul_le_mul_right s (by rw [List.mem_range'_1] at hi; omega)
          rw [decide_eq_true_eq]
          omega
        rw [if_neg (fun h => inside (hlt.1 h.1)), List.filter_eq_nil_iff.2 past]
        simp [inside]
    · have hjm' : m = j := by omega
      subst hjm'
      rw [if_neg (fun h => hjm ((ofNat_slt_iff hm hj).1 h.2)), Nat.sub_self]
      rfl

/-- On the shape `occurrenceIndices_eq` gives, the indices are distinct and inside the
interval. -/
theorem nodup_lt_of_eq {ks : List (BitVec 64)} (hs : 1 ≤ s)
    (h : ks = ((List.range' 0 m).filter fun i => i * s < n.toNat).map
      fun i => BitVec.ofNat 64 (i * s)) :
    ks.Nodup ∧ ∀ k ∈ ks, k < n := by
  have small : ∀ i ∈ (List.range' 0 m).filter (fun i => i * s < n.toNat),
      (BitVec.ofNat 64 (i * s)).toNat = i * s := fun i hi => by
    have := n.isLt
    simp only [List.mem_filter, decide_eq_true_eq] at hi
    rw [BitVec.toNat_ofNat, Nat.mod_eq_of_lt (by omega)]
  subst h
  refine ⟨((List.nodup_range' 0 m).filter _).map_on fun i hi j hj hij => ?_, ?_⟩
  · have := congrArg BitVec.toNat hij
    rw [small i hi, small j hj] at this
    exact Nat.eq_of_mul_eq_mul_right hs this
  · simp only [List.mem_map]
    rintro _ ⟨i, hi, rfl⟩
    rw [BitVec.lt_def, small i hi]
    simpa using (List.mem_filter.1 hi).2

/-- With `step = 1` the loop visits the first `min(n, max_occ)` indices. -/
theorem length_filter_step_one (N : Nat) :
    ∀ m, ((List.range' 0 m).filter fun i => i * 1 < N).length = min N m
  | 0 => by simp
  | m + 1 => by
    rw [List.range'_concat, List.filter_append, List.length_append, length_filter_step_one N m,
      zero_add, List.filter_singleton]
    simp only [Nat.one_mul, Nat.mul_one]
    by_cases h : m < N
    · rw [decide_eq_true h, cond_true, List.length_singleton]; omega
    · rw [decide_eq_false h, cond_false, List.length_nil]; omega

/-- With `step = n / max_occ` and `n > max_occ`, all `max_occ` multiples stay below `n`. -/
theorem length_filter_step_div {N m : Nat} (mpos : 0 < m) (hm : m < N) :
    ((List.range' 0 m).filter fun i => i * (N / m) < N).length = m := by
  have hq : m * (N / m) ≤ N := Nat.mul_div_le N m
  have q1 : 1 ≤ N / m := (Nat.le_div_iff_mul_le mpos).2 (by omega)
  rw [List.filter_eq_self.2, List.length_range']
  intro i hi
  have : i * (N / m) + N / m ≤ m * (N / m) := by
    rw [← Nat.succ_mul]; exact Nat.mul_le_mul_right _ (by simp at hi; omega)
  simpa using (by omega : i * (N / m) < N)

end Loop

/-! ## The sampled occurrences -/

theorem signExtend_eq_zero {x : BitVec 32} (h : x.signExtend 64 = 0) : x = 0 := by
  have h' := congrArg BitVec.toNat h
  simp only [BitVec.signExtend, BitVec.toNat_ofInt] at h'
  apply BitVec.eq_of_toNat_eq
  have := x.isLt
  rw [BitVec.toInt_eq_toNat_cond] at h'
  split at h' <;> simp at * <;> omega

/-- A positive `max_occ`: `step` is `1` when the interval is no longer than `max_occ` and
the quotient otherwise; either way `min(n, max_occ)` of its multiples lie below `n`. -/
theorem occurrenceStep_of_pos {n : BitVec 64} {maxOcc : BitVec 32} {m : Nat}
    (hm : maxOcc.toInt = m) (mpos : 0 < m) (fits : n.toNat / m < 2 ^ 31) :
    ∃ step, ∃ s : Nat, occurrenceStep n maxOcc = some step ∧ step.toInt = s ∧ 1 ≤ s ∧
      s < 2 ^ 31 ∧ ((List.range' 0 m).filter fun i => i * s < n.toNat).length = min n.toNat m := by
  have m64 : (maxOcc.signExtend 64).toNat = m := toNat_signExtend_of_toInt hm
  by_cases h : m < n.toNat
  · have q1 : 1 ≤ n.toNat / m := (Nat.le_div_iff_mul_le mpos).2 (by omega)
    have hn := n.isLt
    refine ⟨(n / maxOcc.signExtend 64).truncate 32, n.toNat / m, ?_, ?_, q1, fits, ?_⟩
    · have nonzero : maxOcc.signExtend 64 ≠ 0 := fun h0 => by
        rw [h0] at m64; exact absurd m64.symm (Nat.pos_iff_ne_zero.1 mpos)
      simp [occurrenceStep, BitVec.lt_def, m64, h]
      exact nonzero
    · rw [toInt_of_lt] <;> simp [BitVec.toNat_udiv, m64] <;> omega
    · rw [length_filter_step_div mpos h, min_eq_right h.le]
  · refine ⟨1, 1, ?_, rfl, le_rfl, by omega, length_filter_step_one _ _⟩
    simp [occurrenceStep, BitVec.lt_def, m64, h]

/-- With a non-zero `max_occ` whose quotient fits the `int`, the loop visits
`min(p->x[2], max(max_occ, 0))` distinct occurrence indices, all inside the interval. -/
theorem sampleOccurrences_spec (n : BitVec 64) (maxOcc : BitVec 32) (nonzero : maxOcc ≠ 0)
    (fits : n.toNat / maxOcc.toInt.toNat < 2 ^ 31) :
    ∃ ks, sampleOccurrences n maxOcc = some ks ∧ ks.length = min n.toNat maxOcc.toInt.toNat ∧
      ks.Nodup ∧ ∀ k ∈ ks, k < n := by
  rcases lt_or_le maxOcc.toInt 0 with neg | nonneg
  · -- a negative `max_occ`: `count < max_occ` fails at once
    have hm64 : maxOcc.signExtend 64 ≠ 0 := fun h => nonzero (signExtend_eq_zero h)
    obtain ⟨step, hstep⟩ : ∃ step, occurrenceStep n maxOcc = some step := by
      simp only [occurrenceStep]; split <;> simp [hm64]
    have none : maxOcc.toInt.toNat = 0 := by omega
    exact ⟨[], by simp [sampleOccurrences, hstep, none, occurrenceIndices], by simp [none],
      List.nodup_nil, by simp⟩
  · -- a positive `max_occ`: the loop runs `occurrenceIndices_eq` from `j = 0`
    obtain ⟨m, hm⟩ := Int.eq_ofNat_of_zero_le nonneg
    have mpos : 0 < m := Nat.pos_of_ne_zero fun h0 =>
      nonzero (BitVec.eq_of_toInt_eq (by rw [hm, h0]; rfl))
    have bound := toInt_lt_two_pow maxOcc
    rw [hm, Int.toNat_ofNat] at fits ⊢
    obtain ⟨step, s, hstep, hs, s1, small, hlen⟩ := occurrenceStep_of_pos hm mpos fits
    have room : n.toNat + s < 2 ^ 64 := by
      have below := Nat.lt_mul_div_succ n.toNat mpos
      have : m * (n.toNat / m + 1) ≤ 2 ^ 31 * 2 ^ 31 := Nat.mul_le_mul (by omega) (by omega)
      omega
    have loop := occurrenceIndices_eq hm hs room m 0 (Nat.zero_le _) (by omega) (by simp)
    simp only [Nat.zero_mul, Nat.sub_zero] at loop
    refine ⟨_, by simp [sampleOccurrences, hstep, hm, Nat.zero_mul] at loop ⊢; exact loop, ?_⟩
    rw [List.length_map, hlen]
    exact ⟨rfl, nodup_lt_of_eq s1 rfl⟩

/-- Ten occurrences with `max_occ = 3`: `step = 3`, indices `0, 3, 6`. -/
theorem sampleOccurrences_ten_by_three :
    (3 : BitVec 32) ≠ 0 ∧ (10 : BitVec 64).toNat / (3 : BitVec 32).toInt.toNat < 2 ^ 31 ∧
      ∃ ks, sampleOccurrences 10 3 = some ks ∧
        ks.length = min (10 : BitVec 64).toNat (3 : BitVec 32).toInt.toNat ∧
        ks.Nodup ∧ ∀ k ∈ ks, k < 10 :=
  have nonzero : (3 : BitVec 32) ≠ 0 := by decide
  have fits : (10 : BitVec 64).toNat / (3 : BitVec 32).toInt.toNat < 2 ^ 31 := by decide
  ⟨nonzero, fits, sampleOccurrences_spec 10 3 nonzero fits⟩

/-- `max_occ = 0` divides by zero exactly when the interval is non-empty. A quotient of
`2^31` or more wraps in the `int` `step`: `2^32` occurrences with `max_occ = 2` give
`step = -2^31`, and the loop stops after one index instead of two. -/
theorem sampleOccurrences_divides_by_zero :
    (∀ n : BitVec 64, sampleOccurrences n 0 = none ↔ n ≠ 0) ∧
      sampleOccurrences 0x100000000 2 = some [0] := by
  refine ⟨fun n => ?_, by decide⟩
  have zero : (0 : BitVec 32).signExtend 64 = 0 := by decide
  by_cases hn : n = 0
  · subst hn; decide
  · have pos : 0 < n := by
      rw [BitVec.lt_def]
      exact Nat.pos_of_ne_zero fun h => hn (BitVec.eq_of_toNat_eq h)
    have step : occurrenceStep n 0 = none := by
      rw [occurrenceStep, zero, if_pos pos, if_pos rfl]
    rw [sampleOccurrences, step, Option.map_none']
    exact ⟨fun _ => hn, fun _ => rfl⟩

end SalmonQuant.Mapping
