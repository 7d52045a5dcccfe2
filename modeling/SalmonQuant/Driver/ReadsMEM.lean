import SalmonQuant.EM.Invariance
import SalmonQuant.Mapping.Fragment

/-!
# `processReadsMEM`: from a job's reads to the EM

A mapping worker (`SalmonQuantify.cpp:1302`) loops over parser jobs. For each read of a
job it calls `getHitsForFragment` into the read's group and then

    // If the read mapped to > maxReadOccs places, discard it
    if (hitList.size() > salmonOpts.maxReadOccs ) { hitList.alignments().clear(); }

and once the job is mapped it calls `processMiniBatch` on the job's groups with the
`logForgettingMass` the batch number gave. `Cache/Writer.lean` follows the groups through
the pool and the queues; this module follows what they hold. The forgetting mass of each
job is an input (`Driver/Forgetting.lean` computes it), and `validHits` and the progress
printing are never read.

`getHitsForFragment` iterates `unordered_map`s and `std::sort` may leave equal votes in
any order, so a group is one permutation of what the read maps to. The discard test only
reads the group's size, and `processMiniBatch` does not depend on the order within groups
when `useFragLenDist` is off or burn-in is over (`EM/Invariance.lean`). So a worker's run
over its jobs ends with the same transcripts, counters, burn-in flag and library tally
as the run that hands `processMiniBatch` the read's alignments in one fixed order, the
spec order of `hitSpec` and `pairSpec` (`processReadsMEM_single_agrees`,
`processReadsMEM_paired_agrees`).
-/

namespace SalmonQuant.Driver

open SalmonQuant.EM SalmonQuant.Mapping

variable {K F C G : Type}

/-- The group of a read that `getHitsForFragment` gave `alns`, after the `maxReadOccs`
test (`size()` is the number of alignments). -/
def discardOverMapped (maxReadOccs : UInt32) (alns : List (SMEMAlignment K)) :
    AlignmentGroup K :=
  ⟨if alns.length > maxReadOccs.toNat then [] else alns⟩

/-- A job's `for (i < j->nb_filled)` loop: each read's group; `none` when a call exits. -/
def mapJob {R : Type} (getHitsForFragment : R → Option (List (SMEMAlignment K)))
    (maxReadOccs : UInt32) (reads : List R) : Option (List (AlignmentGroup K)) :=
  reads.mapM fun r => (getHitsForFragment r).map (discardOverMapped maxReadOccs)

variable [CanonicallyLinearOrderedSemifield K]

/-- The worker's `while (true)` loop over its jobs, each paired with the
`logForgettingMass` it is processed with: map the job, then `processMiniBatch`. -/
def processReadsMEM {R : Type} (env : Collaborators K F C G) (opts : SalmonOpts)
    (getHitsForFragment : R → Option (List (SMEMAlignment K))) (maxReadOccs : UInt32)
    (initialRound : Bool) : List (K × List R) → EMState K F C G → Option (EMState K F C G)
  | [], s => some s
  | (lfm, reads) :: jobs, s =>
    (mapJob getHitsForFragment maxReadOccs reads).bind fun batch =>
      processReadsMEM env opts getHitsForFragment maxReadOccs initialRound jobs
        (processMiniBatch env opts lfm initialRound batch s).2

omit [CanonicallyLinearOrderedSemifield K] in
/-- The discard test reads only the group's size. -/
theorem discardOverMapped_perm (maxReadOccs : UInt32) {alns alns' : List (SMEMAlignment K)}
    (h : alns.Perm alns') :
    (discardOverMapped maxReadOccs alns).alignments.Perm
      (discardOverMapped maxReadOccs alns').alignments := by
  simp only [discardOverMapped, h.length_eq]
  split
  · exact .nil
  · exact h

omit [CanonicallyLinearOrderedSemifield K] in
theorem mapJob_cons {R : Type} {getHits : R → Option (List (SMEMAlignment K))}
    {maxReadOccs : UInt32} {r : R} {rs : List R} {alns : List (SMEMAlignment K)}
    {b : List (AlignmentGroup K)} (h : getHits r = some alns)
    (hs : mapJob getHits maxReadOccs rs = some b) :
    mapJob getHits maxReadOccs (r :: rs) = some (discardOverMapped maxReadOccs alns :: b) := by
  simp only [mapJob] at hs
  simp only [mapJob, List.mapM_cons, h, hs, Option.map_some', Option.bind_eq_bind,
    Option.some_bind, pure]

omit [CanonicallyLinearOrderedSemifield K] in
/-- Two ways of mapping a job's reads that give every read the same alignments, up to
order: both map the whole job, into groups in other orders. -/
theorem mapJob_groupsPerm {R : Type} {getHits getHits' : R → Option (List (SMEMAlignment K))}
    (maxReadOccs : UInt32) (reads : List R)
    (hits : ∀ r ∈ reads, ∃ alns alns', getHits r = some alns ∧ getHits' r = some alns' ∧
      alns.Perm alns') :
    ∃ b b', mapJob getHits maxReadOccs reads = some b ∧
      mapJob getHits' maxReadOccs reads = some b' ∧ GroupsPerm b b' := by
  induction reads with
  | nil => exact ⟨[], [], rfl, rfl, .nil⟩
  | cons r rs ih =>
    obtain ⟨alns, alns', h, h', perm⟩ := hits r (List.mem_cons_self _ _)
    obtain ⟨b, b', hb, hb', perms⟩ := ih fun r' hr => hits r' (List.mem_cons_of_mem _ hr)
    exact ⟨_, _, mapJob_cons h hb, mapJob_cons h' hb',
      .cons (discardOverMapped_perm maxReadOccs perm) perms⟩

/-- A worker's run with two ways of mapping reads that agree up to order, from states
that agree: both runs finish, in states that agree. -/
theorem processReadsMEM_agree {R : Type} (env : Collaborators K F C G) (opts : SalmonOpts)
    {getHits getHits' : R → Option (List (SMEMAlignment K))} (maxReadOccs : UInt32)
    (initialRound : Bool) (jobs : List (K × List R)) {s s' : EMState K F C G}
    (hfld : opts.useFragLenDist = false ∨ s.burnedIn = true) (agree : EMAgree opts s s')
    (hits : ∀ job ∈ jobs, ∀ r ∈ job.2, ∃ alns alns', getHits r = some alns ∧
      getHits' r = some alns' ∧ alns.Perm alns') :
    ∃ t t', processReadsMEM env opts getHits maxReadOccs initialRound jobs s = some t ∧
      processReadsMEM env opts getHits' maxReadOccs initialRound jobs s' = some t' ∧
      EMAgree opts t t' := by
  induction jobs generalizing s s' with
  | nil => exact ⟨s, s', rfl, rfl, agree⟩
  | cons job jobs ih =>
    obtain ⟨lfm, reads⟩ := job
    obtain ⟨b, b', hb, hb', perm⟩ :=
      mapJob_groupsPerm maxReadOccs reads (hits _ (List.mem_cons_self _ _))
    obtain ⟨-, agree1⟩ := processMiniBatch_agree env opts lfm initialRound hfld perm agree
    obtain ⟨t, t', ht, ht', agreeT⟩ :=
      ih (hfld.imp_right (processMiniBatch_burnedIn env opts lfm initialRound b)) agree1
        fun job hj => hits job (List.mem_cons_of_mem _ hj)
    exact ⟨t, t', by simp only [processReadsMEM, hb, Option.some_bind, ht],
      by simp only [processReadsMEM, hb', Option.some_bind, ht'], agreeT⟩

/-- A single-end worker's run over its jobs (each read its SMEMs and its length), with
its maps iterated in any order and its votes sorted by any `std::sort` outcome, ends in
the state, up to the cluster forest and the random engine, that handing
`processMiniBatch` each read's `hitSpec` would give, when `useFragLenDist` is off or
burn-in is over; nothing exits. -/
theorem processReadsMEM_single_agrees (env : Collaborators K F C G) (opts : SalmonOpts)
    (sortVotes : List KmerVote → List KmerVote) (hitType : BitVec 32 → Bool → LibraryFormat)
    (toDouble : ℚ → UInt64) (coverageThresh : ℚ)
    (iterate : List (Nat × TranscriptHitList) → List (Nat × TranscriptHitList)) (ly : Layout)
    (sa : BitVec 64 → Nat) (minSeedLen : Nat) (maxOcc : BitVec 32) (maxReadOccs : UInt32)
    (initialRound : Bool) (jobs : List (K × List (List BwtIntv × Nat))) (s : EMState K F C G)
    (nonzero : maxOcc ≠ 0) (sorts : SortsVotes sortVotes) (iterates : IteratesMap iterate)
    (hfld : opts.useFragLenDist = false ∨ s.burnedIn = true) :
    ∃ t t', processReadsMEM env opts (fun rd => SingleEnd.getHitsForFragment sortVotes hitType
        toDouble coverageThresh rd.2 iterate ly sa opts.splitSpanningSeeds minSeedLen maxOcc
        rd.1) maxReadOccs initialRound jobs s = some t ∧
      processReadsMEM env opts (fun rd => some (SingleEnd.hitSpec sortVotes hitType toDouble
        coverageThresh rd.2 (readMatches ly sa opts.splitSpanningSeeds minSeedLen maxOcc rd.2
          rd.1))) maxReadOccs initialRound jobs s = some t' ∧
      t.transcripts = t'.transcripts ∧ t.numAssignedFragments = t'.numAssignedFragments ∧
      t.burnedIn = t'.burnedIn ∧ t.readLib = t'.readLib := by
  obtain ⟨t, t', ht, ht', agree⟩ := processReadsMEM_agree env opts maxReadOccs initialRound jobs
    hfld (EMAgree.refl opts s) fun _ _ rd _ => by
      obtain ⟨alns, h, perm⟩ := SingleEnd.getHitsForFragment_perm (K := K) sortVotes hitType
        toDouble coverageThresh rd.2 iterate ly sa opts.splitSpanningSeeds minSeedLen maxOcc rd.1
        nonzero sorts iterates
      exact ⟨alns, _, h, rfl, perm⟩
  exact ⟨t, t', ht, ht', agree.transcripts, agree.numAssignedFragments, agree.burnedIn,
    agree.readLib⟩

/-- The read of `getHitsForFragment_single_split_read` as a one-read job of a first
round, from a fresh table, with `useFragLenDist` off. -/
theorem processReadsMEM_single_split_read :
    let env : Collaborators ℚ≥0 Unit Unit Unit :=
      ⟨fun _ _ => 1, fun f _ _ => f, fun c _ _ _ _ => c, fun c _ => c, fun g => (0, g), fun _ => 0⟩
    let opts : SalmonOpts := ⟨true, false, false, true⟩
    let ly : Layout := ⟨[30, 30], by decide⟩
    let sa : BitVec 64 → Nat := fun x => if x = 0 then 20 else 0
    let p : BwtIntv := ⟨0, 2, 0, 25, by decide⟩
    let hitType : BitVec 32 → Bool → LibraryFormat := fun _ _ => ⟨.SINGLE_END, .NONE, .U⟩
    let jobs : List (ℚ≥0 × List (List BwtIntv × Nat)) := [(1, [([p], 40)])]
    let s : EMState ℚ≥0 Unit Unit Unit :=
      ⟨fun _ => ⟨30, 1, 0, 0⟩, (), (), (), ⟨⟨.SINGLE_END, .NONE, .U⟩, fun _ => 0, true, 0⟩, 0,
        false⟩
    (2 : BitVec 32) ≠ 0 ∧ SortsVotes insertionSortVotes ∧ IteratesMap id ∧
      (opts.useFragLenDist = false ∨ s.burnedIn = true) ∧
      ∃ t t', processReadsMEM env opts (fun rd => SingleEnd.getHitsForFragment
          insertionSortVotes hitType (fun _ => 0) (1 / 4) rd.2 id ly sa opts.splitSpanningSeeds 5
          2 rd.1) 100 true jobs s = some t ∧
        processReadsMEM env opts (fun rd => some (SingleEnd.hitSpec insertionSortVotes hitType
          (fun _ => 0) (1 / 4) rd.2 (readMatches ly sa opts.splitSpanningSeeds 5 2 rd.2 rd.1)))
          100 true jobs s = some t' ∧
        t.transcripts = t'.transcripts ∧ t.numAssignedFragments = t'.numAssignedFragments ∧
        t.burnedIn = t'.burnedIn ∧ t.readLib = t'.readLib := by
  intro env opts ly sa p hitType jobs s
  have nonzero : (2 : BitVec 32) ≠ 0 := by decide
  have iterates : IteratesMap id := List.Perm.refl
  have hfld : opts.useFragLenDist = false ∨ s.burnedIn = true := .inl rfl
  exact ⟨nonzero, sortsVotes_insertionSortVotes, iterates, hfld,
    processReadsMEM_single_agrees env opts insertionSortVotes hitType (fun _ => 0) (1 / 4) id ly
      sa 5 2 100 true jobs s nonzero sortsVotes_insertionSortVotes iterates hfld⟩

/-- The same for a paired-end worker, each read its two ends' SMEMs and lengths, against
`pairSpec`. -/
theorem processReadsMEM_paired_agrees (env : Collaborators K F C G) (opts : SalmonOpts)
    (sortVotes : List KmerVote → List KmerVote)
    (hitType : BitVec 32 → Bool → BitVec 32 → Bool → LibraryFormat) (toDouble : ℚ → UInt64)
    (coverageThresh : ℚ)
    (iterate : List (Nat × TranscriptHitList) → List (Nat × TranscriptHitList)) (ly : Layout)
    (sa : BitVec 64 → Nat) (minSeedLen : Nat) (maxOcc : BitVec 32) (maxReadOccs : UInt32)
    (initialRound : Bool)
    (jobs : List (K × List ((List BwtIntv × Nat) × (List BwtIntv × Nat))))
    (s : EMState K F C G) (nonzero : maxOcc ≠ 0) (sorts : SortsVotes sortVotes)
    (iterates : IteratesMap iterate) (hfld : opts.useFragLenDist = false ∨ s.burnedIn = true) :
    ∃ t t', processReadsMEM env opts (fun rd => PairedEnd.getHitsForFragment sortVotes hitType
        toDouble coverageThresh rd.1.2 rd.2.2 iterate ly sa opts.splitSpanningSeeds minSeedLen
        maxOcc rd.1.1 rd.2.1) maxReadOccs initialRound jobs s = some t ∧
      processReadsMEM env opts (fun rd => some (PairedEnd.pairSpec sortVotes hitType toDouble
        coverageThresh rd.1.2 rd.2.2
        (readMatches ly sa opts.splitSpanningSeeds minSeedLen maxOcc rd.1.2 rd.1.1)
        (readMatches ly sa opts.splitSpanningSeeds minSeedLen maxOcc rd.2.2 rd.2.1)))
        maxReadOccs initialRound jobs s = some t' ∧
      t.transcripts = t'.transcripts ∧ t.numAssignedFragments = t'.numAssignedFragments ∧
      t.burnedIn = t'.burnedIn ∧ t.readLib = t'.readLib := by
  obtain ⟨t, t', ht, ht', agree⟩ := processReadsMEM_agree env opts maxReadOccs initialRound jobs
    hfld (EMAgree.refl opts s) fun _ _ rd _ => by
      obtain ⟨alns, h, perm⟩ := PairedEnd.getHitsForFragment_perm (K := K) sortVotes hitType
        toDouble coverageThresh rd.1.2 rd.2.2 iterate ly sa opts.splitSpanningSeeds minSeedLen
        maxOcc rd.1.1 rd.2.1 nonzero sorts iterates
      exact ⟨alns, _, h, rfl, perm⟩
  exact ⟨t, t', ht, ht', agree.transcripts, agree.numAssignedFragments, agree.burnedIn,
    agree.readLib⟩

/-- The pair of `getHitsForFragment_paired_split_read` as a one-read job of a first
round, from a fresh table, with `useFragLenDist` off. -/
theorem processReadsMEM_paired_split_read :
    let env : Collaborators ℚ≥0 Unit Unit Unit :=
      ⟨fun _ _ => 1, fun f _ _ => f, fun c _ _ _ _ => c, fun c _ => c, fun g => (0, g), fun _ => 0⟩
    let opts : SalmonOpts := ⟨true, false, false, true⟩
    let ly : Layout := ⟨[30, 30], by decide⟩
    let sa : BitVec 64 → Nat := fun x => if x = 0 then 20 else 0
    let p : BwtIntv := ⟨0, 2, 0, 25, by decide⟩
    let hitType : BitVec 32 → Bool → BitVec 32 → Bool → LibraryFormat :=
      fun _ _ _ _ => ⟨.PAIRED_END, .TOWARD, .U⟩
    let jobs : List (ℚ≥0 × List ((List BwtIntv × Nat) × (List BwtIntv × Nat))) :=
      [(1, [(([p], 40), ([p], 40))])]
    let s : EMState ℚ≥0 Unit Unit Unit :=
      ⟨fun _ => ⟨30, 1, 0, 0⟩, (), (), (), ⟨⟨.PAIRED_END, .TOWARD, .U⟩, fun _ => 0, true, 0⟩, 0,
        false⟩
    (2 : BitVec 32) ≠ 0 ∧ SortsVotes insertionSortVotes ∧ IteratesMap id ∧
      (opts.useFragLenDist = false ∨ s.burnedIn = true) ∧
      ∃ t t', processReadsMEM env opts (fun rd => PairedEnd.getHitsForFragment
          insertionSortVotes hitType (fun _ => 0) (1 / 4) rd.1.2 rd.2.2 id ly sa
          opts.splitSpanningSeeds 5 2 rd.1.1 rd.2.1) 100 true jobs s = some t ∧
        processReadsMEM env opts (fun rd => some (PairedEnd.pairSpec insertionSortVotes hitType
          (fun _ => 0) (1 / 4) rd.1.2 rd.2.2
          (readMatches ly sa opts.splitSpanningSeeds 5 2 rd.1.2 rd.1.1)
          (readMatches ly sa opts.splitSpanningSeeds 5 2 rd.2.2 rd.2.1))) 100 true jobs s =
          some t' ∧
        t.transcripts = t'.transcripts ∧ t.numAssignedFragments = t'.numAssignedFragments ∧
        t.burnedIn = t'.burnedIn ∧ t.readLib = t'.readLib := by
  intro env opts ly sa p hitType jobs s
  have nonzero : (2 : BitVec 32) ≠ 0 := by decide
  have iterates : IteratesMap id := List.Perm.refl
  have hfld : opts.useFragLenDist = false ∨ s.burnedIn = true := .inl rfl
  exact ⟨nonzero, sortsVotes_insertionSortVotes, iterates, hfld,
    processReadsMEM_paired_agrees env opts insertionSortVotes hitType (fun _ => 0) (1 / 4) id ly
      sa 5 2 100 true jobs s nonzero sortsVotes_insertionSortVotes iterates hfld⟩

end SalmonQuant.Driver
