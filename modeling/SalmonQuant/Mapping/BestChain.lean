import SalmonQuant.Mapping.Chain
import Mathlib.Algebra.Order.Field.Rat
import Mathlib.Tactic.NormNum

/-!
# What `computeBestChain` reports

`computeBestChain` (`SalmonQuantify.cpp:864`) hands each vote list to `std::sort` with
`voteLess` and then to `computeBestLoc_`. `std::sort` is not stable and `voteLess`
only looks at `(votePos, readPos)`, so the order it leaves is any sorted permutation:
`SortOutcome`.

On a sorted list the sweep never reaches its `std::exit(1)`: `currClust` only takes
`votePos` values of votes already seen, so it stays at or left of every vote still to
come. What it reports is a strict running maximum over the coverage the current
cluster holds right after each vote (`clusterTrace`). That is not a maximum over
clusters: a `uint32_t` coverage that wraps past `2^32` drops below a value the sweep has
already recorded, and a cluster whose coverage stays `0` is never recorded at all
(`maxClusterCount < coverage` is strict).

`firstLargestEntry` states the result on the traces alone, and
`computeBestChain_eq_firstLargestEntry` proves the code computes it for every pair of
lists and every order `std::sort` may produce.
-/

namespace SalmonQuant.Mapping

/-- The orders `std::sort` may leave `vs` in under `voteLess`. -/
def SortOutcome (vs sorted : List KmerVote) : Prop :=
  sorted.Perm vs ∧ SortedVotes sorted

instance (vs sorted : List KmerVote) : Decidable (SortOutcome vs sorted) :=
  inferInstanceAs (Decidable (sorted.Perm vs ∧ sorted.Pairwise fun a b => voteLess b a = false))

/-- `voteLess` is a strict order: it never holds both ways. -/
theorem voteLess_asymm {a b : KmerVote} (h : voteLess a b = true) : voteLess b a = false := by
  unfold voteLess at h ⊢
  by_cases heq : a.votePos = b.votePos
  · simp only [heq, ↓reduceIte, decide_eq_true_eq, decide_eq_false_iff_not] at h ⊢
    exact BitVec.lt_asymm h
  · simp only [heq, Ne.symm heq, ↓reduceIte, BitVec.slt, decide_eq_true_eq,
      decide_eq_false_iff_not, not_lt] at h ⊢
    exact h.le

/-- Two votes that `voteLess` orders strictly have one sort outcome. -/
theorem sortOutcome_pair {a b : KmerVote} {sorted : List KmerVote} (lt : voteLess a b = true)
    (h : SortOutcome [a, b] sorted) : sorted = [a, b] := by
  refine h.1.eq_of_sorted (fun x y hx hy hxy hyx => ?_) h.2 (by simp [voteLess_asymm lt])
  have hx' : x = a ∨ x = b := by simpa using h.1.subset hx
  simp only [List.mem_cons, List.mem_singleton, List.not_mem_nil, or_false] at hy
  rcases hx' with rfl | rfl <;> rcases hy with rfl | rfl <;> simp_all

/-- A sorted list never puts a vote left of an earlier one, as a signed position. -/
theorem votePos_le_of_not_voteLess {a b : KmerVote} (h : voteLess b a = false) :
    a.votePos.toInt ≤ b.votePos.toInt := by
  unfold voteLess at h
  split at h
  · rename_i heq; rw [heq]
  · simpa [BitVec.slt] using h

/-! ## The trace of one sweep -/

/-- The cluster and its `hitMap` coverage right after each vote of a sweep from `s`, up
to an abort: what the loop compares with `maxClusterCount`. -/
def clusterTrace (readLen : Nat) : SweepState → List KmerVote → List (BitVec 32 × BitVec 32)
  | _, [] => []
  | s, v :: vs =>
    match sweepVote readLen s v with
    | some s' => (s'.currClust, (s'.hitMap s'.currClust).coverage) :: clusterTrace readLen s' vs
    | none => []

/-- The trace of `computeBestLoc_` on a list, from an empty `hitMap`. -/
def votesTrace (readLen : Nat) : List KmerVote → List (BitVec 32 × BitVec 32)
  | [] => []
  | v :: vs => clusterTrace readLen (sweepStart v ⟨0, 0, 0⟩) (v :: vs)

/-- The largest coverage in a trace, `0` for none. -/
def traceMax (t : List (BitVec 32 × BitVec 32)) : Nat :=
  t.foldr (fun e m => max e.2.toNat m) 0

/-- The cluster of the first entry whose coverage is `c`. -/
def firstWith (t : List (BitVec 32 × BitVec 32)) (c : Nat) : Option (BitVec 32) :=
  (t.find? fun e => e.2.toNat = c).map Prod.fst

/-- The maximum after a trace, carried in as `(maxClusterPos, maxClusterCount)`: the
trace's first largest entry when it beats the carried count, the carried pair otherwise. -/
def carryMax (b : BitVec 32 × Nat) (t : List (BitVec 32 × BitVec 32)) : BitVec 32 × Nat :=
  if b.2 < traceMax t then ((firstWith t (traceMax t)).getD 0, traceMax t) else b

/-- The result `computeBestChain` should give on the two traces: the first entry, forward
entries first, that holds the largest coverage, when that coverage is positive; the
reverse-complement side wins only with a strictly larger coverage. -/
def firstLargestEntry (readLen : Nat) (fwd rc : List (BitVec 32 × BitVec 32)) :
    BitVec 32 × BitVec 32 × ℚ × Bool :=
  let m := traceMax (fwd ++ rc)
  (if m = 0 then 0 else (firstWith (fwd ++ rc) m).getD 0, BitVec.ofNat 32 m,
    roundDouble ((m : ℚ) / readLen), decide (traceMax rc ≤ traceMax fwd))

@[simp] theorem traceMax_nil : traceMax [] = 0 := rfl

@[simp] theorem traceMax_cons (e : BitVec 32 × BitVec 32) (t : List (BitVec 32 × BitVec 32)) :
    traceMax (e :: t) = max e.2.toNat (traceMax t) := rfl

theorem traceMax_lt (t : List (BitVec 32 × BitVec 32)) : traceMax t < 2 ^ 32 := by
  induction t with
  | nil => simp
  | cons e t ih => simpa using ⟨e.2.isLt, ih⟩

@[simp] theorem firstWith_cons (e : BitVec 32 × BitVec 32) (t : List (BitVec 32 × BitVec 32))
    (c : Nat) : firstWith (e :: t) c = if e.2.toNat = c then some e.1 else firstWith t c := by
  unfold firstWith
  by_cases h : e.2.toNat = c <;> simp [List.find?_cons, h]

@[simp] theorem carryMax_nil (b : BitVec 32 × Nat) : carryMax b [] = b := by
  simp [carryMax]

theorem carryMax_singleton (p : BitVec 32) (n : Nat) (e : BitVec 32 × BitVec 32) :
    carryMax (p, n) [e] = if n < e.2.toNat then (e.1, e.2.toNat) else (p, n) := by
  simp [carryMax]

/-- One entry at a time: the step the sweep takes per vote. -/
theorem carryMax_cons (b : BitVec 32 × Nat) (e : BitVec 32 × BitVec 32)
    (t : List (BitVec 32 × BitVec 32)) : carryMax b (e :: t) = carryMax (carryMax b [e]) t := by
  obtain ⟨p, n⟩ := b
  rw [carryMax_singleton]
  by_cases hn : n < e.2.toNat
  · by_cases hm : e.2.toNat < traceMax t
    · simp [carryMax, hn, hm, hm.ne, max_eq_right hm.le, lt_trans hn hm]
    · simp [carryMax, hn, hm, max_eq_left (not_lt.1 hm), lt_of_lt_of_le hn (le_max_left _ _)]
  · by_cases hm : n < traceMax t
    · have hne : e.2.toNat ≠ traceMax t := by omega
      simp [carryMax, hn, hm, hne, max_eq_right (by omega : e.2.toNat ≤ traceMax t)]
    · simp [carryMax, hn, hm]

/-- From the zero maximum `computeBestChain` starts with, a trace reports its largest
entry, at the first entry reaching it when it is positive. -/
theorem carryMax_zero (t : List (BitVec 32 × BitVec 32)) :
    carryMax (0, 0) t =
      (if traceMax t = 0 then 0 else (firstWith t (traceMax t)).getD 0, traceMax t) := by
  unfold carryMax
  by_cases h : traceMax t = 0 <;> simp [h, Nat.pos_iff_ne_zero]

theorem carryMax_append (b : BitVec 32 × Nat) (t₁ t₂ : List (BitVec 32 × BitVec 32)) :
    carryMax b (t₁ ++ t₂) = carryMax (carryMax b t₁) t₂ := by
  induction t₁ generalizing b with
  | nil => simp
  | cons e t ih => rw [List.cons_append, carryMax_cons, ih, ← carryMax_cons]

/-! ## The sweep on a sorted list -/

theorem nextClust_toInt_le {currClust votePos : BitVec 32} {bound : Int}
    (hc : currClust.toInt ≤ bound) (hv : votePos.toInt ≤ bound) :
    (nextClust currClust votePos).toInt ≤ bound := by
  unfold nextClust
  split <;> assumption

/-- One vote at or right of `currClust`: the sweep goes on, and its maximum takes the
step `carryMax` takes on the vote's trace entry. -/
theorem sweepVote_carry {readLen : Nat} {s : SweepState} {v : KmerVote}
    (h : s.currClust.toInt ≤ v.votePos.toInt) :
    ∃ s', sweepVote readLen s v = some s' ∧
      (s'.best.maxClusterPos, s'.best.maxClusterCount.toNat) =
        carryMax (s.best.maxClusterPos, s.best.maxClusterCount.toNat)
          [(s'.currClust, (s'.hitMap s'.currClust).coverage)] ∧
      s'.updatedMaxScore = (s.updatedMaxScore ||
        decide (s.best.maxClusterCount.toNat < (s'.hitMap s'.currClust).coverage.toNat)) := by
  have hsle : s.currClust.sle v.votePos = true := by simpa [BitVec.sle] using h
  unfold sweepVote
  simp only [hsle, ↓reduceIte]
  split
  · rename_i grew
    refine ⟨_, rfl, ?_, ?_⟩ <;>
      simp only [Function.update_same, carryMax_singleton, BitVec.lt_def.1 grew, ↓reduceIte,
        decide_True, Bool.or_true]
  · rename_i kept
    refine ⟨_, rfl, ?_, ?_⟩ <;>
      simp only [Function.update_same, carryMax_singleton, mt BitVec.lt_def.2 kept, ↓reduceIte,
        decide_False, Bool.or_false]

/-- The sweep over a sorted list from a `currClust` left of all its votes never aborts,
and ends with the running maximum `carryMax` gives on its trace. -/
theorem foldlM_sweepVote_carry (readLen : Nat) :
    ∀ (vs : List KmerVote) (s : SweepState), SortedVotes vs →
      (∀ w ∈ vs, s.currClust.toInt ≤ w.votePos.toInt) →
      ∃ s', vs.foldlM (sweepVote readLen) s = some s' ∧
        (s'.best.maxClusterPos, s'.best.maxClusterCount.toNat) =
          carryMax (s.best.maxClusterPos, s.best.maxClusterCount.toNat)
            (clusterTrace readLen s vs) ∧
        s'.updatedMaxScore = (s.updatedMaxScore ||
          decide (s.best.maxClusterCount.toNat < traceMax (clusterTrace readLen s vs)))
  | [], s, _, _ => ⟨s, rfl, by simp [clusterTrace], by simp [clusterTrace]⟩
  | v :: vs, s, sorted, left => by
    obtain ⟨later, sorted⟩ := List.sorted_cons.1 sorted
    obtain ⟨s₁, step, best₁, flag₁⟩ := @sweepVote_carry readLen _ _ (left v (by simp))
    have left₁ : ∀ w ∈ vs, s₁.currClust.toInt ≤ w.votePos.toInt := fun w hw => by
      rw [(sweepVote_hitMap step).1]
      exact nextClust_toInt_le (left w (by simp [hw]))
        (votePos_le_of_not_voteLess (later w hw))
    obtain ⟨s', run, best', flag'⟩ := foldlM_sweepVote_carry readLen vs s₁ sorted left₁
    refine ⟨s', by simp [step, run], ?_, ?_⟩
    · simp only [clusterTrace, step]
      rw [carryMax_cons, ← best₁, best']
    · simp only [clusterTrace, step, traceMax_cons, flag', flag₁]
      have count₁ := congrArg Prod.snd best₁
      simp only [carryMax_singleton] at count₁
      split at count₁ <;> rename_i grew <;> simp [count₁, grew, lt_max_iff]

theorem sweepVote_isSome (readLen : Nat) (s : SweepState) (v : KmerVote) :
    (sweepVote readLen s v).isSome = s.currClust.sle v.votePos := by
  unfold sweepVote
  split
  · dsimp only
    split <;> simp [*]
  · simp [*]

/-- The trace reads only `hitMap` and `currClust`, not the maximum carried in. -/
theorem clusterTrace_congr (readLen : Nat) :
    ∀ (vs : List KmerVote) {s t : SweepState}, s.hitMap = t.hitMap →
      s.currClust = t.currClust →
      clusterTrace readLen s vs = clusterTrace readLen t vs
  | [], _, _, _, _ => rfl
  | v :: vs, s, t, hm, hc => by
    have same := sweepVote_isSome readLen s v
    rw [hc, ← sweepVote_isSome readLen t v] at same
    cases hs : sweepVote readLen s v <;> cases ht : sweepVote readLen t v <;>
      simp only [hs, ht, Option.isSome_none, Option.isSome_some, Bool.false_eq_true,
        Bool.true_eq_false] at same
    · simp only [clusterTrace, hs, ht]
    · rename_i s' t'
      obtain ⟨c₁, m₁⟩ := sweepVote_hitMap hs
      obtain ⟨c₂, m₂⟩ := sweepVote_hitMap ht
      have hc' : s'.currClust = t'.currClust := by rw [c₁, c₂, hc]
      have hm' : s'.hitMap = t'.hitMap := by rw [m₁, m₂, hm, hc']
      simp only [clusterTrace, hs, ht, hc', hm', clusterTrace_congr readLen vs hm' hc']

/-- `computeBestLoc_` on a sorted list, from any carried-in maximum: no abort, the
maximum `carryMax` gives on the list's trace, and `updatedMaxScore` exactly when the
trace beats the carried count. -/
theorem computeBestLoc_carry (readLen : Nat) (sVotes : List KmerVote) (best : MaxCluster)
    (sorted : SortedVotes sVotes) :
    ∃ u best', computeBestLoc_ sVotes readLen best = some (u, best') ∧
      (best'.maxClusterPos, best'.maxClusterCount.toNat) =
        carryMax (best.maxClusterPos, best.maxClusterCount.toNat) (votesTrace readLen sVotes) ∧
      u = decide (best.maxClusterCount.toNat < traceMax (votesTrace readLen sVotes)) := by
  cases sVotes with
  | nil => exact ⟨false, best, rfl, by simp [votesTrace], by simp [votesTrace]⟩
  | cons v vs =>
    have left : ∀ w ∈ v :: vs, (sweepStart v best).currClust.toInt ≤ w.votePos.toInt := by
      intro w hw
      rcases List.mem_cons.1 hw with rfl | hw
      · exact le_rfl
      · exact votePos_le_of_not_voteLess (List.rel_of_sorted_cons sorted w hw)
    obtain ⟨s', run, best', flag'⟩ := foldlM_sweepVote_carry readLen _ _ sorted left
    have trace :
        clusterTrace readLen (sweepStart v best) (v :: vs) = votesTrace readLen (v :: vs) :=
      clusterTrace_congr readLen _ rfl rfl
    rw [trace] at best' flag'
    exact ⟨s'.updatedMaxScore, s'.best, by simp [computeBestLoc_, sweep, run], best',
      by simpa [sweepStart] using flag'⟩

/-- The zero maximum `computeBestChain` starts with has score `0 / readLen`. -/
theorem scoreMatches_zero {readLen : Nat} : ScoreMatches readLen ⟨0, 0, 0⟩ := by
  simp [ScoreMatches]

theorem computeBestChain_eq_firstLargestEntry (votes rcVotes sv srv : List KmerVote)
    (readLen : Nat) (hv : SortOutcome votes sv) (hr : SortOutcome rcVotes srv) :
    computeBestChain sv srv readLen =
      some (firstLargestEntry readLen (votesTrace readLen sv) (votesTrace readLen srv)) := by
  obtain ⟨_u₁, b₁, h₁, best₁, -⟩ := computeBestLoc_carry readLen sv ⟨0, 0, 0⟩ hv.2
  obtain ⟨u₂, b₂, h₂, best₂, flag₂⟩ := computeBestLoc_carry readLen srv b₁ hr.2
  change _ = carryMax (0, 0) _ at best₁
  have score : ScoreMatches readLen b₂ :=
    computeBestLoc_scoreMatches h₂ (computeBestLoc_scoreMatches h₁ scoreMatches_zero)
  have whole := (carryMax_append (0, 0) (votesTrace readLen sv) (votesTrace readLen srv)).trans
    (by rw [← best₁, ← best₂])
  have fwd : b₁.maxClusterCount.toNat = traceMax (votesTrace readLen sv) := by
    simpa only [carryMax_zero] using congrArg Prod.snd best₁
  rw [carryMax_zero, eq_comm, Prod.mk.injEq] at whole
  have count : b₂.maxClusterCount = BitVec.ofNat 32 (traceMax (votesTrace readLen sv ++
      votesTrace readLen srv)) := by
    apply BitVec.eq_of_toNat_eq
    rw [whole.2, BitVec.toNat_ofNat, Nat.mod_eq_of_lt (traceMax_lt _)]
  rw [ScoreMatches, whole.2] at score
  simp only [computeBestChain, h₁, h₂, bind, Option.bind, pure, firstLargestEntry, whole.1,
    count, score, flag₂, fwd, Option.some.injEq, Prod.mk.injEq, true_and]
  rw [← decide_not]
  exact decide_eq_decide.2 Nat.not_lt

/-- Two forward votes and one reverse-complement vote, each list already in order. -/
theorem computeBestChain_firstLargestEntry_both_strands :
    SortOutcome [⟨0, 0, 40⟩, ⟨0, 10, 20⟩] [⟨0, 0, 40⟩, ⟨0, 10, 20⟩] ∧
      SortOutcome [⟨5, 0, 30⟩] [⟨5, 0, 30⟩] ∧
      computeBestChain [⟨0, 0, 40⟩, ⟨0, 10, 20⟩] [⟨5, 0, 30⟩] 40 =
        some (firstLargestEntry 40 (votesTrace 40 [⟨0, 0, 40⟩, ⟨0, 10, 20⟩])
          (votesTrace 40 [⟨5, 0, 30⟩])) :=
  have fwd : SortOutcome [⟨0, 0, 40⟩, ⟨0, 10, 20⟩] [⟨0, 0, 40⟩, ⟨0, 10, 20⟩] := by
    decide
  have rc : SortOutcome [⟨5, 0, 30⟩] [⟨5, 0, 30⟩] := by decide
  ⟨fwd, rc, computeBestChain_eq_firstLargestEntry _ _ _ _ 40 fwd rc⟩

/-! ## Fixed inputs -/

/-- `bestHitScore` is the `double` `bestHitCount / readLen` whenever `computeBestChain`
returns. -/
theorem computeBestChain_score {sv srv : List KmerVote} {readLen : Nat}
    {r : BitVec 32 × BitVec 32 × ℚ × Bool} (h : computeBestChain sv srv readLen = some r) :
    r.2.2.1 = roundDouble ((r.2.1.toNat : ℚ) / readLen) := by
  simp only [computeBestChain, Option.bind_eq_bind, Option.bind_eq_some, Option.pure_def,
    Option.some.injEq] at h
  obtain ⟨⟨_, fwd⟩, h₁, ⟨_, rc⟩, h₂, rfl⟩ := h
  exact computeBestLoc_scoreMatches h₂ (computeBestLoc_scoreMatches h₁ scoreMatches_zero)

/-- The three fields other than the score fix `computeBestChain`'s result. -/
theorem computeBestChain_of_fields {sv srv : List KmerVote} {readLen : Nat} {p c : BitVec 32}
    {f : Bool} (h : (computeBestChain sv srv readLen).map (fun r => (r.1, r.2.1, r.2.2.2)) =
      some (p, c, f)) :
    computeBestChain sv srv readLen = some (p, c, roundDouble ((c.toNat : ℚ) / readLen), f) := by
  obtain ⟨⟨p', c', sc, f'⟩, hr, fields⟩ := Option.map_eq_some'.1 h
  cases fields
  have score := computeBestChain_score hr
  dsimp only at score
  rw [hr, score]

/-- Two votes at one `votePos` in a 40-base read: lengthening the second from 20 to 30
bases moves its end from base 30, left of the cluster's rightmost base 40, onto it. The
`uint32_t` difference then stops wrapping, the vote adds 0 bases instead of 20, and
`bestHitScore` drops from `3 / 2` to `1`. -/
theorem computeBestChain_longer_vote_lowers_score :
    (∀ sv, SortOutcome [⟨0, 0, 40⟩, ⟨0, 10, 20⟩] sv →
      computeBestChain sv [] 40 = some (0, 60, 3 / 2, true)) ∧
    (∀ sv, SortOutcome [⟨0, 0, 40⟩, ⟨0, 10, 30⟩] sv →
      computeBestChain sv [] 40 = some (0, 40, 1, true)) := by
  refine ⟨fun sv h => ?_, fun sv h => ?_⟩ <;> rw [sortOutcome_pair (by decide) h]
  · rw [computeBestChain_of_fields (p := 0) (c := 60) (f := true) (by decide),
      show (60 : BitVec 32).toNat = 60 from rfl,
      show ((60 : ℕ) : ℚ) / (40 : ℕ) = (3 : ℤ) * 2 ^ (-1 : ℤ) by norm_num,
      roundDouble_mul_zpow 3 (-1) (by norm_num) (by norm_num)]
    norm_num
  · rw [computeBestChain_of_fields (p := 0) (c := 40) (f := true) (by decide),
      show (40 : BitVec 32).toNat = 40 from rfl,
      show ((40 : ℕ) : ℚ) / (40 : ℕ) = (1 : ℤ) by norm_num, roundDouble_intCast 1 (by norm_num)]
    norm_num

/-- A 20-base vote at `votePos = -20` ends at base `0`: its cluster keeps coverage `0`,
which the strict comparison never records, so `bestHitPos` stays `0` instead of the
cluster at `-20`. A vote of `2^32 - 1` bases followed by a 5-base one wraps the cluster's
coverage to `4`, below the `2^32 - 1` already reported as `bestHitCount`. -/
theorem computeBestChain_misses_cluster_coverage :
    computeBestChain [⟨0xFFFFFFEC, 0, 20⟩] [] 40 = some (0, 0, 0, true) ∧
    ((sweep 40 ⟨0xFFFFFFEC, 0, 20⟩ [] ⟨0, 0, 0⟩).map fun s =>
      (s.currClust, (s.hitMap s.currClust).coverage)) = some (0xFFFFFFEC, 0) ∧
    (∀ sv, SortOutcome [⟨0, 0, 0xFFFFFFFF⟩, ⟨0, 1, 5⟩] sv →
      computeBestChain sv [] 40 = some (0, 0xFFFFFFFF, 0xFFFFFFFF / 40, true)) ∧
    ((sweep 40 ⟨0, 0, 0xFFFFFFFF⟩ [⟨0, 1, 5⟩] ⟨0, 0, 0⟩).map fun s =>
      (s.hitMap 0).coverage) = some 4 := by
  refine ⟨by decide, by decide, fun sv h => ?_, by decide⟩
  rw [sortOutcome_pair (by decide) h,
    computeBestChain_of_fields (p := 0) (c := 0xFFFFFFFF) (f := true) (by decide),
    show (0xFFFFFFFF : BitVec 32).toNat = 0xFFFFFFFF from rfl,
    show ((0xFFFFFFFF : ℕ) : ℚ) / (40 : ℕ) = (858993459 : ℤ) * 2 ^ (-3 : ℤ) by norm_num,
    roundDouble_mul_zpow 858993459 (-3) (by norm_num) (by norm_num)]
  norm_num

end SalmonQuant.Mapping
