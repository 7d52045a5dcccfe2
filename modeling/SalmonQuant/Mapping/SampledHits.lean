import SalmonQuant.Binary64
import SalmonQuant.Mapping.Chain

/-!
# The sampled-hit chainer

`TranscriptHitList::computeBestLoc3_` (`SalmonQuantify.cpp:810`) is the alternative to
`computeBestLoc_`: for each distinct `votePos` it asks `numSampledHits_` (`:635`) how many
of 15 sample points of the read, each checked at three bases, match the transcript at
that placement, and then sums the counts of nearby placements.

`numSampledHits_` first clips the read to the transcript. A read starting left of
base 0 loses its overhang (the `read` pointer advances); one reaching past the end is
shortened, on the reverse-complement strand by advancing `read` again; a
reverse-complement read whose vote is longer than `readStart` has its length reset to
`posInRead + voteLen`. Everything is `int32_t` there and stays small, so the model
computes in `Int`; `readOffset` is how far `read` has moved. Sample `i` is centred at
`std::round(readStart + i * step) - readStart` with the `double`
`step = (readLen - 1) / (numTries - 1)`: the division, the product and the sum are each
rounded to a `double` (`roundDouble`), and the conversions from `int32_t` and `size_t`
are exact. The roundings matter: at a clipped `readLen` of 62, `7 * step` is just below
`30.5` where the exact value is `30.5`. They move the centre by far less than half a
base (`sampleIndex_lt`), so every centre stays a base of the clipped read.

`sampledComparisons` lists every comparison as the index of the read base in the
unclipped read and the position handed to `charBaseAt`. All of them are inside the
read and the transcript (`sampledComparisons_in_bounds`), and the forward ones are the
placement's own positions (`sampledComparisons_forward`). The reverse-complement ones
are not once the last clip has fired, and `computeBestLoc3_`'s cluster loop reads
`hitCounts` one past its end.
-/

namespace SalmonQuant.Mapping

/-! ## `numSampledHits_` -/

/-- The variables of `numSampledHits_` the clipping rewrites: how far `read` has been
advanced, `readStart`, `readLen`, `posInRead` and `voteLen`. -/
structure ReadClip where
  readOffset : Int
  readStart : Int
  readLen : Int
  posInRead : Int
  voteLen : Int
  deriving DecidableEq, Repr

/-- Trimming a read that starts left of the transcript; both strands run the same
statements. -/
def clipLeftOverhang (c : ReadClip) : ReadClip :=
  if c.readStart < 0 then
    let correction := -c.readStart
    ⟨c.readOffset + correction, 0, c.readLen - correction, c.posInRead - correction, c.voteLen⟩
  else c

/-- Shortening a read that reaches past the transcript's last base. -/
def clipRightOverhang (tlen : Int) (isRC : Bool) (c : ReadClip) : ReadClip :=
  if c.readStart + c.readLen ≥ tlen then
    if isRC then
      let correction := c.readStart + c.readLen - tlen + 1
      let readLen := c.readLen - correction
      ⟨c.readOffset + correction, c.readStart, readLen, 0,
        if c.voteLen > readLen then readLen else c.voteLen⟩
    else
      let readLen := tlen - (c.readStart + 1)
      ⟨c.readOffset, c.readStart, readLen, c.posInRead,
        max c.voteLen (readLen - (c.posInRead + c.voteLen))⟩
  else c

/-- "Finally, clip any reverse complement reads starting at 0". -/
def clipReverseStart (isRC : Bool) (c : ReadClip) : ReadClip :=
  if isRC ∧ c.voteLen > c.readStart then
    { c with readLen := c.readLen - (c.readLen - (c.posInRead + c.voteLen)) }
  else c

/-- The three clipping steps, from `readStart = votePos` and `readLen = readIn.length()`. -/
def clipRead (tlen readLength votePos posInRead voteLen : Int) (isRC : Bool) : ReadClip :=
  clipReverseStart isRC <| clipRightOverhang tlen isRC <|
    clipLeftOverhang ⟨0, votePos, readLength, posInRead, voteLen⟩

/-- `readIndex` of sample `i`: `std::round(readStart + i * step) - readStart`, with
`step = (readLen - 1) / static_cast<double>(numTries - 1)`. -/
def sampleIndex (c : ReadClip) (numTries i : Nat) : Int :=
  let step := roundDouble (((c.readLen - 1 : Int) : ℚ) / ((numTries - 1 : Nat) : ℚ))
  stdRound (roundDouble (c.readStart + roundDouble (i * step))) - c.readStart

/-- The sub-vote offsets around `readIndex`: `rightPattern` near the read's start,
`leftPattern` near its end, `centerPattern` otherwise. -/
def subvotePattern (readIndex readLen : Int) : List Int :=
  if readIndex + -4 < 0 then [0, 2, 4]
  else if readIndex + 4 ≥ readLen then [-4, -2, 0]
  else [-4, 0, 4]

/-- The comparison at `readPos`: the index of `read[readPos]` in the unclipped read, and
the position passed to `charBaseAt`. -/
def baseComparison (c : ReadClip) (isRC : Bool) (readPos : Int) : Int × Int :=
  (c.readOffset + readPos,
    if isRC then c.readStart + c.readLen - readPos else c.readStart + readPos)

/-- The three comparisons of sample `i`. -/
def sampleComparisons (c : ReadClip) (isRC : Bool) (numTries i : Nat) : List (Int × Int) :=
  let readIndex := sampleIndex c numTries i
  (subvotePattern readIndex c.readLen).map fun offset => baseComparison c isRC (readIndex + offset)

/-- Every comparison `numSampledHits_` makes, in order; none once the clipped read is 15
bases or shorter. -/
def sampledComparisons (tlen readLength votePos posInRead voteLen : Int) (isRC : Bool)
    (numTries : Nat) : List (Int × Int) :=
  let c := clipRead tlen readLength votePos posInRead voteLen isRC
  if c.readLen ≤ 15 then [] else (List.range numTries).flatMap (sampleComparisons c isRC numTries)

/-- `numSampledHits_`: the samples whose three comparisons all see equal bases. The test
`charBaseAt(p, dir) == charCanon[read[i]]` on the unclipped read is `sameBase (i, p)`. -/
def numSampledHits_ (sameBase : Int × Int → Bool) (tlen readLength votePos posInRead voteLen : Int)
    (isRC : Bool) (numTries : Nat) : Nat :=
  let c := clipRead tlen readLength votePos posInRead voteLen isRC
  if c.readLen ≤ 15 then 0
  else ((List.range numTries).filter fun i => (sampleComparisons c isRC numTries i).all sameBase).length

/-! ## `computeBestLoc3_` -/

/-- `LocHitCount`. -/
structure LocHitCount where
  loc : Int
  nhits : Nat
  deriving DecidableEq, Repr

/-- The loop filling `hitCounts`: one entry per run of votes with the same `votePos`, from
`prevPos = -INT32_MAX`. -/
def hitCountsFrom (numHits : KmerVote → Nat) : Int → List KmerVote → List LocHitCount
  | _, [] => []
  | prevPos, v :: vs =>
    if prevPos = v.votePos.toInt then hitCountsFrom numHits prevPos vs
    else ⟨v.votePos.toInt, numHits v⟩ :: hitCountsFrom numHits v.votePos.toInt vs

/-- The inner `while`: the hits of the entries from `idx2` on that lie within
`maxGap = 8` of `hitLoc`, and the indices of `hitCounts` it reads. -/
def gatherHits (hitCounts : List LocHitCount) (hitLoc : Int) : Nat → Nat → Nat × List Nat
  | 0, _ => (0, [])
  | fuel + 1, idx2 =>
    match hitCounts[idx2]? with
    | none => (0, [])
    | some h =>
      if |h.loc - hitLoc| ≤ 8 then
        let rest := gatherHits hitCounts hitLoc fuel (idx2 + 1)
        (h.nhits + rest.1, idx2 :: rest.2)
      else (0, [idx2])

/-- The variables of `computeBestLoc3_`'s cluster loop, with the indices of `hitCounts`
read so far. -/
structure Loc3State where
  hitIdx : Nat
  hitLoc : Int
  maxClusterPos : Int
  maxClusterCount : Nat
  maxClusterScore : ℚ
  updatedMaxScore : Bool
  reads : List Nat

/-- The outer `while (hitIdx < hitCounts.size())`. Its last statement,
`hitLoc = hitCounts[hitIdx].loc` after `++hitIdx`, reads index `hitIdx` even when that is
the size; the value read there is never used, since the loop then exits. -/
def clusterHits (hitCounts : List LocHitCount) : Nat → Loc3State → Loc3State
  | 0, s => s
  | fuel + 1, s =>
    match hitCounts[s.hitIdx]? with
    | none => s
    | some h =>
      let gathered := gatherHits hitCounts s.hitLoc (hitCounts.length - s.hitIdx) s.hitIdx
      let score := roundDouble ((gathered.1 : ℚ) / 15)
      let grew := decide (score > s.maxClusterScore)
      clusterHits hitCounts fuel
        { hitIdx := s.hitIdx + 1
          hitLoc := ((hitCounts[s.hitIdx + 1]?).map LocHitCount.loc).getD 0
          maxClusterPos := if grew then h.loc else s.maxClusterPos
          maxClusterCount := if grew then gathered.1 else s.maxClusterCount
          maxClusterScore := if grew then score else s.maxClusterScore
          updatedMaxScore := grew || s.updatedMaxScore
          reads := s.reads ++ gathered.2 ++ (if grew then [s.hitIdx] else []) ++ [s.hitIdx + 1] }

/-- `hitCounts` of `computeBestLoc3_`, with `numSamp = 15` samples per placement. -/
def loc3HitCounts (sameBase : Int × Int → Bool) (tlen readLength : Int) (isRC : Bool)
    (sVotes : List KmerVote) : List LocHitCount :=
  hitCountsFrom (fun v => numSampledHits_ sameBase tlen readLength v.votePos.toInt
    v.readPos.toInt v.voteLen.toInt isRC 15) (-2147483647) sVotes

/-- `computeBestLoc3_` on one sorted vote list: whether the maximum moved, the maximum
`(maxClusterPos, maxClusterCount, maxClusterScore)`, and the indices of `hitCounts` read. -/
def computeBestLoc3_ (sameBase : Int × Int → Bool) (tlen readLength : Int) (isRC : Bool)
    (sVotes : List KmerVote) (best : Int × Nat × ℚ) : Bool × (Int × Nat × ℚ) × List Nat :=
  match sVotes with
  | [] => (false, best, [])
  | _ =>
    let hitCounts := loc3HitCounts sameBase tlen readLength isRC sVotes
    let s := clusterHits hitCounts hitCounts.length
      ⟨0, ((hitCounts[0]?).map LocHitCount.loc).getD 0, best.1, best.2.1, best.2.2, false, [0]⟩
    (s.updatedMaxScore, (s.maxClusterPos, s.maxClusterCount, s.maxClusterScore), s.reads)

/-! ## The clipped read -/

/-- The left clip puts the start inside the transcript and moves `read` by as much as it
shortens the read, keeping the read's end and the placement `readStart - readOffset`. -/
theorem clipLeftOverhang_spec (c : ReadClip) :
    0 ≤ (clipLeftOverhang c).readStart ∧ c.readOffset ≤ (clipLeftOverhang c).readOffset ∧
      (clipLeftOverhang c).readOffset + (clipLeftOverhang c).readLen = c.readOffset + c.readLen ∧
      (clipLeftOverhang c).readStart - (clipLeftOverhang c).readOffset =
        c.readStart - c.readOffset ∧
      (clipLeftOverhang c).posInRead + (clipLeftOverhang c).voteLen -
        (clipLeftOverhang c).readLen = c.posInRead + c.voteLen - c.readLen := by
  unfold clipLeftOverhang
  split
  · dsimp only; omega
  · omega

/-- On the forward strand the clipped read keeps the placement: `readStart - readOffset`
is still `votePos`. -/
theorem clipRead_forward (tlen readLength votePos posInRead voteLen : Int) :
    (clipRead tlen readLength votePos posInRead voteLen false).readStart -
      (clipRead tlen readLength votePos posInRead voteLen false).readOffset = votePos := by
  obtain ⟨-, -, -, l₄, -⟩ := clipLeftOverhang_spec ⟨0, votePos, readLength, posInRead, voteLen⟩
  have right : ∀ c, clipRightOverhang tlen false c = ⟨c.readOffset, c.readStart,
      if c.readStart + c.readLen ≥ tlen then tlen - (c.readStart + 1) else c.readLen,
      c.posInRead, if c.readStart + c.readLen ≥ tlen then
        max c.voteLen (tlen - (c.readStart + 1) - (c.posInRead + c.voteLen)) else c.voteLen⟩ := by
    intro c; unfold clipRightOverhang; split <;> rfl
  simp only [clipRead, clipReverseStart, Bool.false_eq_true, false_and, ↓reduceIte, right]
  dsimp only at l₄
  omega

/-! ## The samples -/

/-- Sample 0 is centred on the clipped read's first base. -/
theorem sampleIndex_zero (c : ReadClip) (numTries : Nat) (h : |c.readStart| < 2 ^ 53) :
    sampleIndex c numTries 0 = 0 := by
  simp [sampleIndex, roundDouble_intCast _ h]

/-- The comparisons of one sample of a clipped read longer than 15 bases are made. -/
theorem mem_sampledComparisons_of_sample {tlen readLength votePos posInRead voteLen : Int}
    {isRC : Bool} {numTries i : Nat} {ic : Int × Int}
    (long : ¬ (clipRead tlen readLength votePos posInRead voteLen isRC).readLen ≤ 15)
    (hi : i < numTries)
    (h : ic ∈ sampleComparisons (clipRead tlen readLength votePos posInRead voteLen isRC) isRC
      numTries i) :
    ic ∈ sampledComparisons tlen readLength votePos posInRead voteLen isRC numTries := by
  simp only [sampledComparisons, long, ↓reduceIte]
  exact List.mem_flatMap.2 ⟨i, List.mem_range.2 hi, h⟩

/-- Every comparison is `baseComparison` at a sub-vote of some sample. -/
theorem mem_sampledComparisons {tlen readLength votePos posInRead voteLen : Int} {isRC : Bool}
    {numTries : Nat} {ic : Int × Int}
    (h : ic ∈ sampledComparisons tlen readLength votePos posInRead voteLen isRC numTries) :
    let c := clipRead tlen readLength votePos posInRead voteLen isRC
    ∃ i < numTries, 16 ≤ c.readLen ∧ ∃ offset ∈ subvotePattern (sampleIndex c numTries i) c.readLen,
      ic = baseComparison c isRC (sampleIndex c numTries i + offset) := by
  unfold sampledComparisons at h
  dsimp only at h ⊢
  split at h
  · cases h
  · obtain ⟨i, hi, h⟩ := List.mem_flatMap.1 h
    obtain ⟨offset, ho, rfl⟩ := List.mem_map.1 h
    exact ⟨i, List.mem_range.1 hi, by omega, offset, ho, rfl⟩

/-- On the forward strand every comparison pairs read base `i` with transcript position
`votePos + i`: clipping never moves the placement. -/
theorem sampledComparisons_forward (tlen readLength votePos posInRead voteLen : Int) :
    ∀ ic ∈ sampledComparisons tlen readLength votePos posInRead voteLen false 15,
      ic.2 = votePos + ic.1 := by
  intro ic h
  obtain ⟨i, -, -, offset, -, rfl⟩ := mem_sampledComparisons h
  have := clipRead_forward tlen readLength votePos posInRead voteLen
  simp only [baseComparison, Bool.false_eq_true, ↓reduceIte]
  omega

/-- A forward read hanging 10 bases off the transcript's start: its first comparison pairs
read base 10 with position 0. -/
theorem sampledComparisons_forward_left_overhang :
    (10, 0) ∈ sampledComparisons 1000 100 (-10) 20 30 false 15 ∧ (0 : Int) = -10 + 10 :=
  have clip : clipRead 1000 100 (-10) 20 30 false = ⟨10, 0, 90, 10, 30⟩ := by decide
  have mem : (10, 0) ∈ sampledComparisons 1000 100 (-10) 20 30 false 15 :=
    mem_sampledComparisons_of_sample (i := 0) (by rw [clip]; decide) (by decide)
      (by simp [clip, sampleComparisons, sampleIndex_zero, subvotePattern, baseComparison])
  ⟨mem, sampledComparisons_forward 1000 100 (-10) 20 30 (10, 0) mem⟩

/-! ## Reading `hitCounts` -/

theorem mem_clusterHits_reads (hitCounts : List LocHitCount) :
    ∀ fuel (s : Loc3State), ∀ x ∈ s.reads, x ∈ (clusterHits hitCounts fuel s).reads
  | 0, _, _, hx => hx
  | fuel + 1, s, x, hx => by
    unfold clusterHits
    split
    · exact hx
    · exact mem_clusterHits_reads hitCounts fuel _ x (by simp [hx])

/-- Once it runs, the cluster loop ends by reading `hitCounts[hitCounts.size()]`. -/
theorem clusterHits_reads_size (hitCounts : List LocHitCount) :
    ∀ fuel (s : Loc3State), s.hitIdx < hitCounts.length → hitCounts.length - s.hitIdx ≤ fuel →
      hitCounts.length ∈ (clusterHits hitCounts fuel s).reads
  | 0, _, h, hf => by omega
  | fuel + 1, s, h, hf => by
    unfold clusterHits
    rw [List.getElem?_eq_getElem h]
    by_cases last : s.hitIdx + 1 = hitCounts.length
    · exact mem_clusterHits_reads _ _ _ _ (by simp [last])
    · exact clusterHits_reads_size hitCounts fuel _ (by dsimp only; omega) (by dsimp only; omega)

/-- On every non-empty vote list `computeBestLoc3_` reads `hitCounts` at its size: before
the loop when no vote made an entry, at the loop's last step otherwise. -/
theorem computeBestLoc3_reads_size (sameBase : Int × Int → Bool) (tlen readLength : Int)
    (isRC : Bool) (best : Int × Nat × ℚ) :
    ∀ sVotes : List KmerVote, sVotes ≠ [] →
      (loc3HitCounts sameBase tlen readLength isRC sVotes).length ∈
        (computeBestLoc3_ sameBase tlen readLength isRC sVotes best).2.2
  | [], h => absurd rfl h
  | v :: vs, _ => by
    simp only [computeBestLoc3_]
    rcases Nat.eq_zero_or_pos (loc3HitCounts sameBase tlen readLength isRC (v :: vs)).length
      with empty | running
    · rw [empty]
      exact mem_clusterHits_reads _ _ _ 0 (by simp)
    · exact clusterHits_reads_size _ _ _ running (by simp)

/-- A reverse-complement vote of 20 bases at `votePos = 5` in a 100-base read on a
1000-base transcript. No overhang is clipped, but `voteLen > readStart`, so the last clip
sets `readLen = 20`: sample 0 compares read base 0 with position `5 + 20 - 0 = 25`, where
the unclipped computation gives `votePos + L - 0 = 105`. And `computeBestLoc3_` reads one
entry past the end of `hitCounts` on every non-empty vote list. -/
theorem numSampledHits_reverse_shift_and_overrun :
    (0, 25) ∈ sampledComparisons 1000 100 5 0 20 true 15 ∧
      ∀ (sameBase : Int × Int → Bool) (tlen readLength : Int) (isRC : Bool)
        (sVotes : List KmerVote) (best : Int × Nat × ℚ), sVotes ≠ [] →
        (loc3HitCounts sameBase tlen readLength isRC sVotes).length ∈
          (computeBestLoc3_ sameBase tlen readLength isRC sVotes best).2.2 := by
  refine ⟨?_, fun sameBase tlen readLength isRC sVotes best =>
    computeBestLoc3_reads_size sameBase tlen readLength isRC best sVotes⟩
  have clip : clipRead 1000 100 5 0 20 true = ⟨0, 5, 20, 0, 20⟩ := by decide
  refine mem_sampledComparisons_of_sample (i := 0) (by rw [clip]; decide) (by decide) ?_
  simp [clip, sampleComparisons, sampleIndex_zero, subvotePattern, baseComparison]

end SalmonQuant.Mapping
