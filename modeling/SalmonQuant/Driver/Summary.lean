import SalmonQuant.Binary64
import SalmonQuant.Driver.Experiment

/-!
# `summarizeLibraryTypeCounts`: the library-format report

After the last round `salmonQuantify` writes `libFormatCounts.txt`
(`SalmonQuantify.cpp:2394`). For each read library it splits the format tally that
`processMiniBatch` built (`++libTypeCounts[aln.libFormat().formatID()]`) into
alignments consistent with the library's expected format and the rest:

* a stranded library agrees only with its own format id;
* an unstranded one agrees with both strands of its type and orientation (`S` and `A`
  for `SAME` and `NONE`, `AS` and `SA` for `AWAY` and `TOWARD`), and the report notes a
  strand bias when `numFmt1 / (numFmt1 + numFmt2)` is more than `0.01` from `0.5`;
* the report notes a disagreement when more than 5% of the tallied alignments disagree.

The ratios are `double`s: the counts are converted, divided and, for the strand test,
shifted by `0.5`, each operation rounded (`roundDouble`), and compared with the
`double`s nearest `0.01` and `0.05`. A `0 / 0` is NaN, read as `none`, and every
comparison with NaN is false. `counts.size()` and `LibraryFormat::formatID` are
parameters (`ReadLibrary.hpp` and `LibraryFormat.hpp` are not in this snapshot). The
text written to the file is not modelled, only the numbers in it and the notes logged.

The `uint64_t` counts and sums are read as `Nat`. Each tallied alignment below
`counts.size()` is reported exactly once, as consistent exactly when its id is one of
the expected ones (`summarizeLibrary_counts`); the two loops assign the expected cells
rather than add them, which is the same because each cell is visited once. For a tally
of at most `2 ^ 40` alignments the rounding errors are far below the gap between two
ratios of its counts, so the tests decide as the exact ones do, except the strand test
at an exact tie (`summarizeLibrary_notes`): the disagreement note is logged exactly when
more than a twentieth of the alignments disagree, and the strand-bias note when the two
strands differ by more than a fiftieth of their sum, never when they differ by less,
and never for two empty strands.
-/

namespace SalmonQuant.Driver

/-- What the report says about one library: the counts it writes, `numFmt1` and
`numFmt2` for an unstranded library, and whether it logs the strand-bias and the
disagreement notes. -/
structure LibrarySummary where
  numAgree : Nat
  numDisagree : Nat
  strandCounts : Option (Nat × Nat)
  strandBiasNote : Bool
  disagreeNote : Bool
  deriving DecidableEq, Repr

/-- The two strandednesses an unstranded library of this orientation agrees with. -/
def strandsOf : ReadOrientation → ReadStrandedness × ReadStrandedness
  | .SAME | .NONE => (.S, .A)
  | .AWAY | .TOWARD => (.AS, .SA)

/-- `fmt1` and `fmt2`: the expected format with each of the two strands. -/
def strandFormats (fmt : LibraryFormat) : LibraryFormat × LibraryFormat :=
  let strands := strandsOf fmt.orientation
  (⟨fmt.type, fmt.orientation, strands.1⟩, ⟨fmt.type, fmt.orientation, strands.2⟩)

/-- `static_cast<double>(a) / b` for `uint64_t` counts, `b` converted too: `none` is the
NaN of `0 / 0` (both calls divide by a sum that includes `a`). -/
def countRatio (a b : Nat) : Option ℚ :=
  if b = 0 then none else some (roundDouble (roundDouble a / roundDouble b))

/-- `ratio > threshold` on a `double` that may be NaN. -/
def exceeds : Option ℚ → ℚ → Bool
  | some r, t => decide (r > t)
  | none, _ => false

/-- `std::abs(ratio - 0.5) > 0.01` on a `ratio` that may be NaN. -/
def strandBiased (ratio : Option ℚ) : Bool :=
  (ratio.map fun x => |roundDouble (x - 1 / 2)|).elim false
    fun d => decide (d > roundDouble (1 / 100))

/-- The unstranded loop `for (i < counts.size())`: `numFmt1`, `numFmt2` and
`numDisagree`. -/
def unstrandedStep (counts : Nat → Nat) (id1 id2 : Nat) (acc : Nat × Nat × Nat) (i : Nat) :
    Nat × Nat × Nat :=
  if i = id1 then (counts i, acc.2.1, acc.2.2)
  else if i = id2 then (acc.1, counts i, acc.2.2)
  else (acc.1, acc.2.1, acc.2.2 + counts i)

/-- The stranded loop: `numAgree` and `numDisagree`. -/
def strandedStep (counts : Nat → Nat) (fid : Nat) (acc : Nat × Nat) (i : Nat) : Nat × Nat :=
  if i = fid then (counts i, acc.2) else (acc.1, acc.2 + counts i)

/-- The body of `for (auto& rl : readLibraries_)` for one library whose tally vector has
`numTypes` cells. -/
def summarizeLibrary (formatID : LibraryFormat → UInt8) (numTypes : Nat) (rl : ReadLibrary) :
    LibrarySummary :=
  let fmt := rl.format
  let counts := rl.libTypeCounts
  if fmt.strandedness = .U then
    let fmts := strandFormats fmt
    let r := (List.range numTypes).foldl
      (unstrandedStep counts (formatID fmts.1).toNat (formatID fmts.2).toNat) (0, 0, 0)
    let numAgree := r.1 + r.2.1
    let ratio := countRatio r.1 (r.1 + r.2.1)
    ⟨numAgree, r.2.2, some (r.1, r.2.1), strandBiased ratio,
      exceeds (countRatio r.2.2 (numAgree + r.2.2)) (roundDouble (1 / 20))⟩
  else
    let r := (List.range numTypes).foldl (strandedStep counts (formatID fmt).toNat) (0, 0)
    ⟨r.1, r.2, none, false, exceeds (countRatio r.2 (r.1 + r.2)) (roundDouble (1 / 20))⟩

/-- `summarizeLibraryTypeCounts`: one summary per library, in order. -/
def summarizeLibraryTypeCounts (formatID : LibraryFormat → UInt8) (numTypes : Nat)
    (e : ReadExperiment) : List LibrarySummary :=
  e.readLibraries_.map (summarizeLibrary formatID numTypes)

/-! ## The loops in closed form -/

/-- The sum of `counts` over the cells of `is` that `p` selects. -/
def cellSum (counts : Nat → Nat) (p : Nat → Prop) [DecidablePred p] (is : List Nat) : Nat :=
  ((is.filter fun i => p i).map counts).sum

@[simp] theorem cellSum_nil (counts : Nat → Nat) (p : Nat → Prop) [DecidablePred p] :
    cellSum counts p [] = 0 := rfl

theorem cellSum_append (counts : Nat → Nat) (p : Nat → Prop) [DecidablePred p]
    (is js : List Nat) :
    cellSum counts p (is ++ js) = cellSum counts p is + cellSum counts p js := by
  simp [cellSum, List.filter_append]

theorem cellSum_singleton (counts : Nat → Nat) (p : Nat → Prop) [DecidablePred p] (i : Nat) :
    cellSum counts p [i] = if p i then counts i else 0 := by
  by_cases h : p i <;> simp [cellSum, h]

/-- Over cells without repeats, the unstranded loop sets `numFmt1` and `numFmt2` from the
two expected cells (the second only when it is another cell) and sums the others. -/
theorem foldl_unstrandedStep (counts : Nat → Nat) (id1 id2 : Nat) (is : List Nat)
    (nodup : is.Nodup) (acc : Nat × Nat × Nat) :
    is.foldl (unstrandedStep counts id1 id2) acc =
      (if id1 ∈ is then counts id1 else acc.1,
        if id2 ∈ is ∧ id2 ≠ id1 then counts id2 else acc.2.1,
        acc.2.2 + cellSum counts (fun i => i ≠ id1 ∧ i ≠ id2) is) := by
  induction is using List.reverseRecOn generalizing acc with
  | nil => simp
  | append_singleton is i ih =>
    obtain ⟨nodup, fresh⟩ : is.Nodup ∧ i ∉ is := by
      simpa [List.nodup_append] using nodup
    rw [List.foldl_append, ih nodup, cellSum_append, cellSum_singleton]
    simp only [List.foldl_cons, List.foldl_nil, unstrandedStep, List.mem_append,
      List.mem_singleton]
    by_cases h1 : i = id1
    · subst h1
      by_cases e : id2 = i <;> simp [fresh, e]
    · by_cases h2 : i = id2
      · subst h2
        simp [fresh, h1, Ne.symm h1]
      · simp [h1, h2, Ne.symm h1, Ne.symm h2, Nat.add_assoc]

theorem foldl_strandedStep (counts : Nat → Nat) (fid : Nat) (is : List Nat) (nodup : is.Nodup)
    (acc : Nat × Nat) :
    is.foldl (strandedStep counts fid) acc =
      (if fid ∈ is then counts fid else acc.1, acc.2 + cellSum counts (· ≠ fid) is) := by
  induction is using List.reverseRecOn generalizing acc with
  | nil => simp
  | append_singleton is i ih =>
    obtain ⟨nodup, fresh⟩ : is.Nodup ∧ i ∉ is := by
      simpa [List.nodup_append] using nodup
    rw [List.foldl_append, ih nodup, cellSum_append, cellSum_singleton]
    simp only [List.foldl_cons, List.foldl_nil, strandedStep, List.mem_append,
      List.mem_singleton]
    by_cases h : i = fid
    · subst h
      simp [fresh]
    · simp [h, Ne.symm h, Nat.add_assoc]

theorem cellSum_congr (counts : Nat → Nat) {p q : Nat → Prop} [DecidablePred p]
    [DecidablePred q] {is : List Nat} (h : ∀ i ∈ is, p i ↔ q i) :
    cellSum counts p is = cellSum counts q is := by
  unfold cellSum
  rw [List.filter_congr fun i hi => decide_eq_decide.2 (h i hi)]

/-- Every cell `p` selects is selected with `q` or without it. -/
theorem cellSum_split (counts : Nat → Nat) (p q : Nat → Prop) [DecidablePred p]
    [DecidablePred q] (is : List Nat) :
    cellSum counts p is =
      cellSum counts (fun i => p i ∧ q i) is + cellSum counts (fun i => p i ∧ ¬ q i) is := by
  induction is with
  | nil => rfl
  | cons i is ih =>
    rw [← List.singleton_append, cellSum_append, cellSum_append, cellSum_append, ih,
      cellSum_singleton, cellSum_singleton, cellSum_singleton]
    by_cases hp : p i <;> by_cases hq : q i <;> simp [hp, hq] <;> omega

/-- A cell that occurs once is counted once. -/
theorem cellSum_eq (counts : Nat → Nat) (j : Nat) {is : List Nat} (nodup : is.Nodup) :
    cellSum counts (· = j) is = if j ∈ is then counts j else 0 := by
  induction is with
  | nil => simp
  | cons i is ih =>
    obtain ⟨fresh, nodup⟩ := List.nodup_cons.1 nodup
    rw [← List.singleton_append, cellSum_append, cellSum_singleton, ih nodup]
    by_cases h : i = j
    · subst h; simp [fresh]
    · simp [h, Ne.symm h]

theorem cellSum_of_forall_not (counts : Nat → Nat) {p : Nat → Prop} [DecidablePred p]
    {is : List Nat} (h : ∀ i ∈ is, ¬ p i) : cellSum counts p is = 0 := by
  rw [cellSum, List.filter_eq_nil_iff.2 fun i hi => by simpa using h i hi]
  rfl

theorem cellSum_add_not (counts : Nat → Nat) (p : Nat → Prop) [DecidablePred p]
    (is : List Nat) : cellSum counts p is + cellSum counts (¬ p ·) is = (is.map counts).sum := by
  induction is with
  | nil => rfl
  | cons i is ih =>
    rw [← List.singleton_append, cellSum_append, cellSum_append, cellSum_singleton,
      cellSum_singleton, List.map_append, List.sum_append, ← ih]
    by_cases h : p i <;> simp [h] <;> omega

/-- The two strands' cells, counted once each even when both formats have one id. -/
theorem cellSum_mem_pair (counts : Nat → Nat) (id1 id2 : Nat) {is : List Nat}
    (nodup : is.Nodup) :
    cellSum counts (· ∈ [id1, id2]) is =
      (if id1 ∈ is then counts id1 else 0) + (if id2 ∈ is ∧ id2 ≠ id1 then counts id2 else 0) := by
  rw [cellSum_split counts _ (· = id1),
    cellSum_congr counts (q := (· = id1)) fun i _ => ⟨And.right, fun h => ⟨by simp [h], h⟩⟩,
    cellSum_eq counts id1 nodup]
  by_cases e : id2 = id1
  · rw [cellSum_of_forall_not counts fun i _ h => h.2 (by simpa [e] using h.1)]
    simp [e]
  · rw [cellSum_congr counts (q := (· = id2)) (by aesop), cellSum_eq counts id2 nodup]
    simp [e]

/-! ## The report -/

/-- The format ids the report counts as consistent with a library of format `fmt`: both
strands' for an unstranded library, its own for a stranded one. -/
def expectedIDs (formatID : LibraryFormat → UInt8) (fmt : LibraryFormat) : List Nat :=
  if fmt.strandedness = .U then
    [(formatID (strandFormats fmt).1).toNat, (formatID (strandFormats fmt).2).toNat]
  else [(formatID fmt).toNat]

/-- The two loops in closed form: the expected cells, and all the others. -/
theorem summarizeLibrary_cells (formatID : LibraryFormat → UInt8) (numTypes : Nat)
    (rl : ReadLibrary) :
    (summarizeLibrary formatID numTypes rl).numAgree =
        cellSum rl.libTypeCounts (· ∈ expectedIDs formatID rl.format) (List.range numTypes) ∧
      (summarizeLibrary formatID numTypes rl).numDisagree =
        cellSum rl.libTypeCounts (· ∉ expectedIDs formatID rl.format) (List.range numTypes) := by
  have nodup := List.nodup_range numTypes
  by_cases hU : rl.format.strandedness = .U
  · simp only [summarizeLibrary, expectedIDs, hU, if_true, foldl_unstrandedStep _ _ _ _ nodup,
      cellSum_mem_pair _ _ _ nodup, Nat.zero_add]
    exact ⟨trivial, cellSum_congr _ fun i _ => by simp⟩
  · simp only [summarizeLibrary, expectedIDs, hU, if_false, foldl_strandedStep _ _ _ nodup,
      Nat.zero_add]
    refine ⟨?_, cellSum_congr _ fun i _ => by simp⟩
    rw [cellSum_congr _ (q := (· = (formatID rl.format).toNat)) (by simp), cellSum_eq _ _ nodup]

theorem summarizeLibrary_total (formatID : LibraryFormat → UInt8) (numTypes : Nat)
    (rl : ReadLibrary) :
    (summarizeLibrary formatID numTypes rl).numAgree +
        (summarizeLibrary formatID numTypes rl).numDisagree =
      ((List.range numTypes).map rl.libTypeCounts).sum := by
  obtain ⟨agree, disagree⟩ := summarizeLibrary_cells formatID numTypes rl
  rw [agree, disagree, cellSum_add_not]

/-- Every cell of a library's tally below `numTypes` is reported once: as consistent when
its id is one of the expected ones, as inconsistent otherwise. An expected id past the
tally and a second strand with the first one's id add nothing. -/
theorem summarizeLibrary_counts (formatID : LibraryFormat → UInt8) (numTypes : Nat)
    (rl : ReadLibrary) :
    let s := summarizeLibrary formatID numTypes rl
    let ids := expectedIDs formatID rl.format
    s.numAgree = cellSum rl.libTypeCounts (· ∈ ids) (List.range numTypes) ∧
      s.numDisagree = cellSum rl.libTypeCounts (· ∉ ids) (List.range numTypes) ∧
      s.numAgree + s.numDisagree = ((List.range numTypes).map rl.libTypeCounts).sum :=
  ⟨(summarizeLibrary_cells formatID numTypes rl).1, (summarizeLibrary_cells formatID numTypes rl).2,
    summarizeLibrary_total formatID numTypes rl⟩

/-! ## The `double` tests -/

/-- A ratio of counts below `2 ^ 53`: the conversions are exact, only the division
rounds. -/
theorem countRatio_eq {a b : Nat} (pos : 0 < b) (small : b < 2 ^ 53) (le : a ≤ b) :
    countRatio a b = some (roundDouble (a / b)) := by
  rw [countRatio, if_neg pos.ne', roundDouble_natCast a (by omega), roundDouble_natCast b small]

/-- A share `a / b` of counts lies in `[0, 1]`. -/
theorem abs_share_le_one {a b : Nat} (pos : 0 < b) (le : a ≤ b) : |(a : ℚ) / b| ≤ 1 := by
  have : (a : ℚ) ≤ b := by exact_mod_cast le
  rw [abs_of_nonneg (by positivity), div_le_one (by exact_mod_cast pos)]
  exact this

/-- The 5% test on a tally of at most `2 ^ 40` alignments: more than a twentieth of them
disagree. The rounding never decides, and a tally with nothing in it gives `0 / 0`,
which is never above the threshold. -/
theorem exceeds_disagreeRatio (numAgree numDisagree : Nat)
    (fits : numAgree + numDisagree ≤ 2 ^ 40) :
    exceeds (countRatio numDisagree (numAgree + numDisagree)) (roundDouble (1 / 20)) = true ↔
      numAgree + numDisagree < 20 * numDisagree := by
  have le : numDisagree ≤ numAgree + numDisagree := Nat.le_add_left _ _
  generalize numAgree + numDisagree = total at fits le ⊢
  rcases Nat.eq_zero_or_pos total with rfl | pos
  · simp only [countRatio, if_true, exceeds, Bool.false_eq_true, false_iff]
    omega
  rw [countRatio_eq pos (by omega) le, exceeds, decide_eq_true_iff, gt_iff_lt]
  have totalPos : (0 : ℚ) < total := by exact_mod_cast pos
  have totalLe : (total : ℚ) ≤ 2 ^ 40 := by exact_mod_cast fits
  have share := abs_le.1 (abs_roundDouble_sub_le (abs_share_le_one pos le))
  have threshold := abs_le.1 (abs_roundDouble_sub_le
    (show |(1 / 20 : ℚ)| ≤ 1 by rw [abs_le]; norm_num))
  rcases lt_trichotomy total (20 * numDisagree) with more | tie | less
  · have cast : (total : ℚ) + 1 ≤ 20 * numDisagree := by exact_mod_cast more
    have margin : 1 / 20 + 1 / (20 * 2 ^ 40) ≤ (numDisagree : ℚ) / total := by
      rw [le_div_iff₀ totalPos]
      linarith only [cast, totalLe]
    simp only [more, iff_true]
    linarith only [margin, share.1, threshold.2]
  · have : (numDisagree : ℚ) / total = 1 / 20 := by
      rw [div_eq_iff totalPos.ne']
      have : (total : ℚ) = 20 * numDisagree := by exact_mod_cast tie
      rw [this]
      ring
    rw [this, lt_self_iff_false, false_iff]
    omega
  · have cast : 20 * (numDisagree : ℚ) + 1 ≤ total := by exact_mod_cast less
    have margin : (numDisagree : ℚ) / total ≤ 1 / 20 - 1 / (20 * 2 ^ 40) := by
      rw [div_le_iff₀ totalPos]
      linarith only [cast, totalLe]
    simp only [Nat.not_lt.2 less.le, iff_false, not_lt]
    linarith only [margin, share.2, threshold.1]

/-- The strand test's computed deviation `|ratio - 0.5|` is within `4 / 2 ^ 53` of the
exact one, `|numFmt1 - numFmt2| / (2 (numFmt1 + numFmt2))`. -/
theorem strandDeviation_near (numFmt1 numFmt2 : Nat) (pos : 0 < numFmt1 + numFmt2) :
    |(|roundDouble (roundDouble ((numFmt1 : ℚ) / (numFmt1 + numFmt2 : Nat)) - 1 / 2)| -
      |(numFmt1 : ℚ) - numFmt2| / (2 * (numFmt1 + numFmt2 : Nat)))| ≤ 4 / 2 ^ 53 := by
  have sPos : (0 : ℚ) < (numFmt1 + numFmt2 : Nat) := by exact_mod_cast pos
  have centred : (numFmt1 : ℚ) / (numFmt1 + numFmt2 : Nat) - 1 / 2 =
      (numFmt1 - numFmt2) / (2 * (numFmt1 + numFmt2 : Nat)) := by
    rw [div_sub_div _ _ sPos.ne' two_ne_zero]
    push_cast
    ring
  have exact : |(numFmt1 : ℚ) - numFmt2| / (2 * (numFmt1 + numFmt2 : Nat)) =
      |(numFmt1 : ℚ) / (numFmt1 + numFmt2 : Nat) - 1 / 2| := by
    rw [centred, abs_div, abs_of_pos (by positivity : (0 : ℚ) < 2 * (numFmt1 + numFmt2 : Nat))]
  set r : ℚ := (numFmt1 : ℚ) / (numFmt1 + numFmt2 : Nat)
  have share := abs_share_le_one pos (Nat.le_add_right numFmt1 numFmt2)
  have half : |r - 1 / 2| ≤ 1 / 2 := abs_sub_le_iff.2
    ⟨sub_le_iff_le_add.2 ((abs_le.1 share).2.trans_eq (by norm_num)),
      sub_le_self _ (by positivity)⟩
  have ratio := abs_roundDouble_sub_le share
  have shifted := abs_roundDouble_sub_le (x := roundDouble r - 1 / 2) (b := 1) <| calc
    |roundDouble r - 1 / 2| ≤ |roundDouble r - r| + |r - 1 / 2| := abs_sub_le _ _ _
    _ ≤ (1 + 1) / 2 ^ 53 + 1 / 2 := add_le_add ratio half
    _ ≤ 1 := by norm_num
  rw [exact]
  calc |(|roundDouble (roundDouble r - 1 / 2)| - |r - 1 / 2|)|
      ≤ |roundDouble (roundDouble r - 1 / 2) - (r - 1 / 2)| := abs_abs_sub_abs_le_abs_sub _ _
    _ ≤ |roundDouble (roundDouble r - 1 / 2) - (roundDouble r - 1 / 2)| +
        |(roundDouble r - 1 / 2) - (r - 1 / 2)| := abs_sub_le _ _ _
    _ ≤ (1 + 1) / 2 ^ 53 + (1 + 1) / 2 ^ 53 := by
      rw [sub_sub_sub_cancel_right]
      exact add_le_add shifted ratio
    _ = 4 / 2 ^ 53 := by norm_num

/-- Two strands whose counts differ by more than a fiftieth of their sum, at most
`2 ^ 40` alignments in all, are noted as biased. -/
theorem strandBiased_of_lt (numFmt1 numFmt2 : Nat) (fits : numFmt1 + numFmt2 ≤ 2 ^ 40)
    (h : ((numFmt1 + numFmt2 : Nat) : ℤ) < 50 * |(numFmt1 : ℤ) - numFmt2|) :
    strandBiased (countRatio numFmt1 (numFmt1 + numFmt2)) = true := by
  have pos : 0 < numFmt1 + numFmt2 := by
    rcases Nat.eq_zero_or_pos (numFmt1 + numFmt2) with zero | pos
    · obtain ⟨rfl, rfl⟩ : numFmt1 = 0 ∧ numFmt2 = 0 := by omega
      simp at h
    · exact pos
  have sPos : (0 : ℚ) < (numFmt1 + numFmt2 : Nat) := by exact_mod_cast pos
  have sLe : ((numFmt1 + numFmt2 : Nat) : ℚ) ≤ 2 ^ 40 := by exact_mod_cast fits
  have cast : ((numFmt1 + numFmt2 : Nat) : ℚ) + 1 ≤ 50 * |(numFmt1 : ℚ) - numFmt2| := by
    have : ((numFmt1 + numFmt2 : Nat) : ℤ) + 1 ≤ 50 * |(numFmt1 : ℤ) - numFmt2| := h
    exact_mod_cast this
  have margin : 1 / 100 + 1 / (100 * 2 ^ 40) ≤
      |(numFmt1 : ℚ) - numFmt2| / (2 * (numFmt1 + numFmt2 : Nat)) := by
    rw [le_div_iff₀ (by positivity)]
    linarith only [cast, sLe]
  have near := abs_le.1 (strandDeviation_near numFmt1 numFmt2 pos)
  have threshold := abs_le.1 (abs_roundDouble_sub_le
    (show |(1 / 100 : ℚ)| ≤ 1 by rw [abs_le]; norm_num))
  rw [countRatio_eq pos (by omega) (Nat.le_add_right _ _), strandBiased, Option.map_some',
    Option.elim_some, decide_eq_true_iff, gt_iff_lt]
  linarith only [margin, near.1, threshold.2]

/-- A strand-bias note means two strands with something in them whose counts differ by
at least a fiftieth of their sum. -/
theorem le_of_strandBiased (numFmt1 numFmt2 : Nat) (fits : numFmt1 + numFmt2 ≤ 2 ^ 40)
    (h : strandBiased (countRatio numFmt1 (numFmt1 + numFmt2)) = true) :
    0 < numFmt1 + numFmt2 ∧ ((numFmt1 + numFmt2 : Nat) : ℤ) ≤ 50 * |(numFmt1 : ℤ) - numFmt2| := by
  have pos : 0 < numFmt1 + numFmt2 := by
    rcases Nat.eq_zero_or_pos (numFmt1 + numFmt2) with zero | pos
    · simp [countRatio, zero, strandBiased] at h
    · exact pos
  refine ⟨pos, Int.not_lt.1 fun less => ?_⟩
  have sPos : (0 : ℚ) < (numFmt1 + numFmt2 : Nat) := by exact_mod_cast pos
  have sLe : ((numFmt1 + numFmt2 : Nat) : ℚ) ≤ 2 ^ 40 := by exact_mod_cast fits
  have cast : 50 * |(numFmt1 : ℚ) - numFmt2| + 1 ≤ ((numFmt1 + numFmt2 : Nat) : ℚ) := by
    have : 50 * |(numFmt1 : ℤ) - numFmt2| + 1 ≤ ((numFmt1 + numFmt2 : Nat) : ℤ) := less
    exact_mod_cast this
  have margin : |(numFmt1 : ℚ) - numFmt2| / (2 * (numFmt1 + numFmt2 : Nat)) ≤
      1 / 100 - 1 / (100 * 2 ^ 40) := by
    rw [div_le_iff₀ (by positivity)]
    linarith only [cast, sLe]
  have near := abs_le.1 (strandDeviation_near numFmt1 numFmt2 pos)
  have threshold := abs_le.1 (abs_roundDouble_sub_le
    (show |(1 / 100 : ℚ)| ≤ 1 by rw [abs_le]; norm_num))
  rw [countRatio_eq pos (by omega) (Nat.le_add_right _ _), strandBiased, Option.map_some',
    Option.elim_some, decide_eq_true_iff, gt_iff_lt] at h
  linarith only [h, margin, near.2, threshold.1]

/-- The notes the report logs for a library whose tally holds at most `2 ^ 40`
alignments: the disagreement note exactly when more than a twentieth of them disagree;
the strand-bias note, for an unstranded library only, when its two strands' counts
differ by more than a fiftieth of their sum, and only when they differ by at least that
much and hold something. At an exact tie the `double` rounding decides. -/
theorem summarizeLibrary_notes (formatID : LibraryFormat → UInt8) (numTypes : Nat)
    (rl : ReadLibrary) (fits : ((List.range numTypes).map rl.libTypeCounts).sum ≤ 2 ^ 40) :
    let s := summarizeLibrary formatID numTypes rl
    (s.disagreeNote = true ↔ s.numAgree + s.numDisagree < 20 * s.numDisagree) ∧
      (s.strandBiasNote = true → ∃ numFmt1 numFmt2, s.strandCounts = some (numFmt1, numFmt2) ∧
        0 < numFmt1 + numFmt2 ∧ ((numFmt1 + numFmt2 : Nat) : ℤ) ≤ 50 * |(numFmt1 : ℤ) - numFmt2|) ∧
      ∀ numFmt1 numFmt2, s.strandCounts = some (numFmt1, numFmt2) →
        ((numFmt1 + numFmt2 : Nat) : ℤ) < 50 * |(numFmt1 : ℤ) - numFmt2| →
        s.strandBiasNote = true := by
  have total := (summarizeLibrary_total formatID numTypes rl).trans_le fits
  by_cases hU : rl.format.strandedness = .U
  · simp only [summarizeLibrary, hU, if_true] at total ⊢
    generalize (List.range numTypes).foldl (unstrandedStep rl.libTypeCounts
      (formatID (strandFormats rl.format).1).toNat (formatID (strandFormats rl.format).2).toNat)
      (0, 0, 0) = r at total ⊢
    obtain ⟨numFmt1, numFmt2, numDisagree⟩ := r
    refine ⟨exceeds_disagreeRatio _ _ total,
      fun h => ⟨_, _, rfl, le_of_strandBiased _ _ (by omega) h⟩, ?_⟩
    rintro _ _ ⟨⟩ h
    exact strandBiased_of_lt _ _ (by omega) h
  · simp only [summarizeLibrary, hU, if_false] at total ⊢
    generalize (List.range numTypes).foldl (strandedStep rl.libTypeCounts
      (formatID rl.format).toNat) (0, 0) = r at total ⊢
    refine ⟨exceeds_disagreeRatio _ _ total, ?_, ?_⟩ <;> simp

/-- An unstranded library with 51 and 49 alignments in its two strands' cells. -/
theorem summarizeLibrary_notes_two_strands :
    let rl : ReadLibrary := ⟨⟨.SINGLE_END, .NONE, .U⟩, fun i => if i = 0 then 51 else 49, true, 100⟩
    let formatID : LibraryFormat → UInt8 := fun f => if f.strandedness = .S then 0 else 1
    ((List.range 2).map rl.libTypeCounts).sum ≤ 2 ^ 40 ∧
      let s := summarizeLibrary formatID 2 rl
      (s.disagreeNote = true ↔ s.numAgree + s.numDisagree < 20 * s.numDisagree) ∧
        (s.strandBiasNote = true → ∃ numFmt1 numFmt2, s.strandCounts = some (numFmt1, numFmt2) ∧
          0 < numFmt1 + numFmt2 ∧
            ((numFmt1 + numFmt2 : Nat) : ℤ) ≤ 50 * |(numFmt1 : ℤ) - numFmt2|) ∧
        ∀ numFmt1 numFmt2, s.strandCounts = some (numFmt1, numFmt2) →
          ((numFmt1 + numFmt2 : Nat) : ℤ) < 50 * |(numFmt1 : ℤ) - numFmt2| →
          s.strandBiasNote = true :=
  ⟨by decide, summarizeLibrary_notes _ 2 _ (by decide)⟩

end SalmonQuant.Driver
