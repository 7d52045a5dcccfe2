import SalmonQuant.Binary64

/-!
# The greedy coverage chainer

`TranscriptHitList::computeBestLoc_` (`SalmonQuantify.cpp:534`) sweeps one sorted
vote list of a (read, transcript) pair. It keeps a cluster position `currClust`,
moves it to a vote's `votePos` when the vote lies more than 10 bases to its right,
and accumulates each cluster's coverage in `hitMap`:

    hmEntry.coverage += std::min(voteLen, (votePos + readPos + voteLen) - hmEntry.rightmostBase);
    hmEntry.rightmostBase = votePos + readPos + voteLen;

`votePos` is an `int32_t` and the other two are `uint32_t`, so the sum and the
difference are taken in `uint32_t`: every 32-bit quantity is a `BitVec 32` here,
with `votePos`, `currClust` and `rightmostBase` compared as signed values and the
rest as unsigned ones. The gap test `votePos - currClust > 10` is read on the
integers (the `int32_t` subtraction is undefined when it overflows). A vote to the
left of `currClust` takes the `std::exit(1)` branch, which is `none`.
`maxClusterScore` is the `double` quotient `maxClusterCount / readLen`, the exact
quotient rounded (`roundDouble`).

`computeBestChain` (`SalmonQuantify.cpp:864`) sorts both lists with one comparator
and runs the sweep on the forward votes, then on the reverse-complement votes with
the running maximum carried over.
-/

namespace SalmonQuant.Mapping

/-- `KmerVote`: `votePos` is the `int32_t` bit pattern. -/
structure KmerVote where
  votePos : BitVec 32
  readPos : BitVec 32
  voteLen : BitVec 32
  deriving DecidableEq, Repr

/-- `VoteInfo`, the value type of `hitMap`; both fields start at `0`. -/
structure VoteInfo where
  coverage : BitVec 32
  rightmostBase : BitVec 32
  deriving DecidableEq, Repr

/-- `std::min` on `uint32_t`: the second argument only when it is smaller. -/
def minU32 (a b : BitVec 32) : BitVec 32 := if b < a then b else a

/-- The three reference arguments `computeBestLoc_` updates. -/
structure MaxCluster where
  maxClusterPos : BitVec 32
  maxClusterCount : BitVec 32
  maxClusterScore : ℚ
  deriving DecidableEq, Repr

/-- The sweep's variables: `hitMap` (a `flat_map` keyed by `currClust` as `uint32_t`,
whose `operator[]` yields a zero `VoteInfo` on a new key), `currClust`, the running
maximum and `updatedMaxScore`. -/
structure SweepState where
  hitMap : BitVec 32 → VoteInfo
  currClust : BitVec 32
  best : MaxCluster
  updatedMaxScore : Bool

/-- `votePos + readPos + voteLen`, in `uint32_t`. -/
def KmerVote.rightEnd (v : KmerVote) : BitVec 32 := v.votePos + v.readPos + v.voteLen

/-- What one vote adds to the coverage of an entry whose rightmost base is `rb`. -/
def coverageGain (v : KmerVote) (rb : BitVec 32) : BitVec 32 :=
  minU32 v.voteLen (v.rightEnd - rb)

/-- The cluster a vote is counted under: `currClust` moves to `votePos` when the gap
exceeds 10. -/
def nextClust (currClust votePos : BitVec 32) : BitVec 32 :=
  if votePos.toInt - currClust.toInt > 10 then votePos else currClust

/-- One iteration of `computeBestLoc_`'s loop. -/
def sweepVote (readLen : Nat) (s : SweepState) (v : KmerVote) : Option SweepState :=
  if s.currClust.sle v.votePos then
    let c := nextClust s.currClust v.votePos
    let e := s.hitMap c
    let e' : VoteInfo := ⟨e.coverage + coverageGain v e.rightmostBase, v.rightEnd⟩
    let hitMap := Function.update s.hitMap c e'
    if s.best.maxClusterCount < e'.coverage then
      some ⟨hitMap, c, ⟨c, e'.coverage, roundDouble ((e'.coverage.toNat : ℚ) / readLen)⟩, true⟩
    else
      some ⟨hitMap, c, s.best, s.updatedMaxScore⟩
  else
    none

/-- The state before the loop: an empty `hitMap` and `currClust` at the first vote. -/
def sweepStart (first : KmerVote) (best : MaxCluster) : SweepState :=
  ⟨fun _ => ⟨0, 0⟩, first.votePos, best, false⟩

/-- The loop of `computeBestLoc_` over a non-empty list. -/
def sweep (readLen : Nat) (first : KmerVote) (rest : List KmerVote) (best : MaxCluster) :
    Option SweepState :=
  (first :: rest).foldlM (sweepVote readLen) (sweepStart first best)

/-- `computeBestLoc_`: whether the maximum moved, and the maximum after the list. -/
def computeBestLoc_ (sVotes : List KmerVote) (readLen : Nat) (best : MaxCluster) :
    Option (Bool × MaxCluster) :=
  match sVotes with
  | [] => some (false, best)
  | v :: vs => (sweep readLen v vs best).map fun s => (s.updatedMaxScore, s.best)

/-- The comparator of both `std::sort` calls in `computeBestChain`. -/
def voteLess (v1 v2 : KmerVote) : Bool :=
  if v1.votePos = v2.votePos then v1.readPos < v2.readPos else v1.votePos.slt v2.votePos

/-- `std::sort`'s postcondition for `voteLess`: no later vote is less than an earlier
one. Votes equal in both keys may come in either order. -/
def SortedVotes (vs : List KmerVote) : Prop :=
  vs.Sorted fun a b => voteLess b a = false

/-- The four fields `computeBestChain` sets, `bestHitPos`, `bestHitCount`,
`bestHitScore` and `isForward_`, from the two lists as `std::sort` left them. -/
def computeBestChain (votes rcVotes : List KmerVote) (readLen : Nat) :
    Option (BitVec 32 × BitVec 32 × ℚ × Bool) := do
  let (_, best) ← computeBestLoc_ votes readLen ⟨0, 0, 0⟩
  let (revIsBest, best) ← computeBestLoc_ rcVotes readLen best
  pure (best.maxClusterPos, best.maxClusterCount, best.maxClusterScore, !revIsBest)

/-! ## The coverage update -/

theorem minU32_of_le {a b : BitVec 32} (h : a ≤ b) : minU32 a b = a := by
  simp only [minU32, ite_eq_right_iff]
  intro hlt
  exact absurd h (by simpa [BitVec.le_def, BitVec.lt_def] using hlt)

/-- A vote ending strictly left of the entry's rightmost base, both read as the `int32_t`
positions they are, wraps the `uint32_t` difference, so `std::min` keeps the whole
`voteLen` as long as it fits in what is left of `2 ^ 32`: bases the cluster already
covers are counted again. -/
theorem coverageGain_of_nested (v : KmerVote) (rb : BitVec 32)
    (inside : v.rightEnd.toInt < rb.toInt)
    (short : v.voteLen.toNat + (rb.toInt - v.rightEnd.toInt).toNat ≤ 2 ^ 32) :
    coverageGain v rb = v.voteLen := by
  have := v.rightEnd.isLt
  have := rb.isLt
  apply minU32_of_le
  rw [BitVec.le_def, BitVec.toNat_sub]
  rw [BitVec.toInt_eq_toNat_cond, BitVec.toInt_eq_toNat_cond] at inside short
  split_ifs at inside short <;> omega

/-- Reverse-complement votes `(-20, 0, 25)` and then `(-20, 2, 15)`: the first leaves the
entry's rightmost base at `5`, the second ends at `-3`, and its 15 bases are added
again. -/
theorem coverageGain_nested_vote :
    (⟨0xFFFFFFEC, 0, 25⟩ : KmerVote).rightEnd = 5 ∧
      (⟨0xFFFFFFEC, 2, 15⟩ : KmerVote).rightEnd.toInt = -3 ∧
      coverageGain ⟨0xFFFFFFEC, 2, 15⟩ 5 = 15 :=
  ⟨by decide, by decide, coverageGain_of_nested _ _ (by decide) (by decide)⟩

/-- Within one sweep step the cluster coverage grows by exactly `coverageGain`. -/
theorem sweepVote_hitMap {readLen : Nat} {s s' : SweepState} {v : KmerVote}
    (h : sweepVote readLen s v = some s') :
    s'.currClust = nextClust s.currClust v.votePos ∧
      s'.hitMap = Function.update s.hitMap s'.currClust
        ⟨(s.hitMap s'.currClust).coverage +
          coverageGain v (s.hitMap s'.currClust).rightmostBase, v.rightEnd⟩ := by
  unfold sweepVote at h
  dsimp only at h
  split at h
  · split at h <;> (cases h; exact ⟨rfl, rfl⟩)
  · cases h

/-- `maxClusterScore` is always `maxClusterCount / readLen`: the sweep sets the two
together. -/
def ScoreMatches (readLen : Nat) (b : MaxCluster) : Prop :=
  b.maxClusterScore = roundDouble ((b.maxClusterCount.toNat : ℚ) / readLen)

theorem sweepVote_scoreMatches {readLen : Nat} {s s' : SweepState} {v : KmerVote}
    (h : sweepVote readLen s v = some s') (hs : ScoreMatches readLen s.best) :
    ScoreMatches readLen s'.best := by
  unfold sweepVote at h
  dsimp only at h
  split at h
  · split at h <;> (cases h; first | exact hs | rfl)
  · cases h

theorem foldlM_scoreMatches {readLen : Nat} (vs : List KmerVote) {s s' : SweepState}
    (h : vs.foldlM (sweepVote readLen) s = some s') (hs : ScoreMatches readLen s.best) :
    ScoreMatches readLen s'.best := by
  induction vs generalizing s with
  | nil => cases h; exact hs
  | cons v vs ih =>
    obtain ⟨t, ht, hrest⟩ := Option.bind_eq_some.1 h
    exact ih hrest (sweepVote_scoreMatches ht hs)

theorem computeBestLoc_scoreMatches {sVotes : List KmerVote} {readLen : Nat}
    {best best' : MaxCluster} {u : Bool} (h : computeBestLoc_ sVotes readLen best = some (u, best'))
    (hs : ScoreMatches readLen best) : ScoreMatches readLen best' := by
  cases sVotes with
  | nil => cases h; exact hs
  | cons v vs =>
    obtain ⟨s, hsweep, hs'⟩ := Option.map_eq_some'.1 h
    cases hs'
    exact foldlM_scoreMatches _ hsweep hs

/-- A re-seeded sub-MEM at the same `votePos` as its SMEM (`SalmonQuantify.cpp:172`):
votes `(0, 0, 40)` and `(0, 10, 20)` of a 40-base read cover the 40 positions of
`[0, 40) ∪ [10, 30)`, but the sweep credits cluster `0` with 60 bases, which becomes
`bestHitCount`, so `bestHitScore = 3 / 2` by `computeBestLoc_scoreMatches`. -/
theorem computeBestLoc_counts_nested_vote_twice :
    ((sweep 40 ⟨0, 0, 40⟩ [⟨0, 10, 20⟩] ⟨0, 0, 0⟩).map fun s =>
        ((s.hitMap 0).coverage, s.best.maxClusterCount)) = some (60, 60) ∧
      (Finset.Ico (0 : ℤ) 40 ∪ Finset.Ico 10 30).card = 40 := by
  refine ⟨by decide, ?_⟩
  rw [Finset.union_eq_left.2 (Finset.Ico_subset_Ico (by decide) (by decide)), Int.card_Ico]
  rfl

end SalmonQuant.Mapping
