import SalmonQuant.Basic
import Mathlib

/-!
# `processMiniBatch`: one online EM step

`processMiniBatch` (`SalmonQuantify.cpp:289`) takes a batch of alignment groups and

1. builds `hitsForTranscript`, a `btree_map` from each transcript id to pointers to
   the batch's alignments naming it;
2. runs the E-step group by group: every alignment of a transcript with mass `LOG_0`
   gets `logProb = LOG_0`, every other one
   `(transcriptLogCount - logRefLength) + logFragProb + logAlignCompatProb`, summed
   into `sumOfAlignProbs` with `logAdd`; a group whose sum is `LOG_0` is skipped,
   any other is counted as assigned, normalised (`logProb -= sumOfAlignProbs`) while
   sampling fragment-length updates, and credited to one transcript's
   `uniqueCount` and cluster or to a merged cluster;
3. runs the M-step: for every key of `hitsForTranscript`, `updateMass =
   logForgettingMass + logAdd`-sum of the pointed-to `logProb`s, added to the
   transcript's mass;
4. adds the assigned count to `numAssignedFragments` and sets `burnedIn` once that
   reaches 5,000,000.

The log-domain doubles are read exactly, as the real numbers they stand for: a value
`x` is kept as `e^x` in a canonically ordered semifield `K` (the non-negative reals,
say). So `LOG_0` is `0`, `logAdd` is `+`, adding two log values multiplies and
subtracting divides; `std::log(refLength)` is `refLength`. Every value of `K` is
non-negative, as every `e^x` is.

`FragmentLengthDistribution`, `ClusterForest`, the random engine and
`LibraryFormat::formatID` are outside this snapshot and are parameters
(`Collaborators`). So is `Transcript`, whose update methods are modelled from the spec.
-/

namespace SalmonQuant.EM

variable {K F C G : Type}

/-- The members of `Transcript` `processMiniBatch` reads and writes; `mass` is
`mass()` read exactly. -/
structure Transcript (K : Type) where
  RefLength : Nat
  mass : K
  totalCount : Nat
  uniqueCount : Nat

/-- Modelled from the spec (`totalCount` is an integer count): `addTotalCount`. -/
def Transcript.addTotalCount (t : Transcript K) (n : Nat) : Transcript K :=
  { t with totalCount := t.totalCount + n }

/-- Modelled from the spec (`uniqueCount` is an integer count): `addUniqueCount`. -/
def Transcript.addUniqueCount (t : Transcript K) (n : Nat) : Transcript K :=
  { t with uniqueCount := t.uniqueCount + n }

/-- `T'` differs from `T` at most by larger `totalCount`s. -/
def CountsOnly (T T' : TranscriptID → Transcript K) : Prop :=
  ∀ t, (T' t).mass = (T t).mass ∧ (T' t).RefLength = (T t).RefLength ∧
    (T' t).uniqueCount = (T t).uniqueCount ∧ (T t).totalCount ≤ (T' t).totalCount

theorem CountsOnly.refl (T : TranscriptID → Transcript K) : CountsOnly T T :=
  fun _ => ⟨rfl, rfl, rfl, le_rfl⟩

theorem CountsOnly.trans {T T' T'' : TranscriptID → Transcript K} (h : CountsOnly T T')
    (h' : CountsOnly T' T'') : CountsOnly T T'' := fun t =>
  ⟨(h' t).1.trans (h t).1, (h' t).2.1.trans (h t).2.1, (h' t).2.2.1.trans (h t).2.2.1,
    (h t).2.2.2.trans (h' t).2.2.2⟩

theorem CountsOnly.addTotalCount (T : TranscriptID → Transcript K) (t : TranscriptID) :
    CountsOnly T (Function.update T t ((T t).addTotalCount 1)) := by
  intro u
  by_cases h : u = t
  · subst h; simp [Transcript.addTotalCount]
  · simp [h]

/-- `totalCount ≥ uniqueCount` for every transcript. -/
def UniqueLeTotal (T : TranscriptID → Transcript K) : Prop :=
  ∀ t, (T t).uniqueCount ≤ (T t).totalCount

variable [CanonicallyLinearOrderedSemifield K]

/-- `sailfish::math::LOG_0`, read exactly. -/
def LOG_0 : K := 0

/-- `sailfish::math::LOG_1`. -/
def LOG_1 : K := 1

/-- `sailfish::math::LOG_ONEHALF`. -/
def LOG_ONEHALF : K := 2⁻¹

/-- `sailfish::math::logAdd`, read exactly: `log (e^a + e^b)`. -/
def logAdd (a b : K) : K := a + b

@[simp] theorem LOG_0_eq : (LOG_0 : K) = 0 := rfl
@[simp] theorem LOG_1_eq : (LOG_1 : K) = 1 := rfl
@[simp] theorem logAdd_eq (a b : K) : logAdd a b = a + b := rfl

/-- `constexpr uint64_t numBurninFrags = 5000000`. -/
def numBurninFrags : Nat := 5000000

/-- Modelled from the spec ("accumulate `updateMass` into `t.mass` via log-add"):
`Transcript::addMass`. -/
def Transcript.addMass (t : Transcript K) (m : K) : Transcript K :=
  { t with mass := logAdd t.mass m }

/-- The calls into code outside this snapshot: the fragment-length distribution's
`pmf` and `addVal`, the cluster forest's `updateCluster` and `mergeClusters`, the
draw `uni(randEng)`, and `LibraryFormat::formatID`. -/
structure Collaborators (K F C G : Type) where
  pmf : F → Nat → K
  addVal : F → Nat → K → F
  updateCluster : C → TranscriptID → Nat → K → Bool → C
  mergeClusters : C → List TranscriptID → C
  uni : G → K × G
  formatID : LibraryFormat → UInt8

/-- `logAlignFormatProb` (`SalmonQuantify.cpp:268`). -/
def logAlignFormatProb (observed expected : LibraryFormat) : K :=
  if observed.type ≠ expected.type ∨ observed.orientation ≠ expected.orientation then LOG_0
  else if expected.strandedness = .U then LOG_ONEHALF
  else if expected.strandedness = observed.strandedness then LOG_1
  else LOG_0

/-- `++counts[i]`. -/
def bump (counts : Nat → Nat) (i : Nat) : Nat → Nat :=
  Function.update counts i (counts i + 1)

/-- The variables of the E-step's loop over one group's alignments. -/
structure AlnScan (K : Type) where
  sumOfAlignProbs : K
  transcriptUnique : Bool
  observedTranscripts : List TranscriptID
  transcripts : TranscriptID → Transcript K
  libTypeCounts : Nat → Nat

section Step

variable (env : Collaborators K F C G) (opts : SalmonOpts) (expected : LibraryFormat)
  (fld : F) (updateCounts : Bool) (firstTranscriptID : TranscriptID)

/-- The `logProb` the E-step gives an alignment of a transcript of non-zero mass:
`(transcriptLogCount - logRefLength) + logFragProb + logAlignCompatProb`. -/
def alignLogProb (t : Transcript K) (aln : SMEMAlignment K) : K :=
  let refLength : K := if t.RefLength > 0 then (t.RefLength : K) else 1
  let logFragProb : K :=
    if opts.useFragLenDist then
      (if aln.fragLength > 0 then env.pmf fld aln.fragLength.toNat else LOG_1)
    else LOG_1
  let logAlignCompatProb : K :=
    if opts.useReadCompat then logAlignFormatProb aln.format expected else LOG_1
  t.mass / refLength * logFragProb * logAlignCompatProb

/-- One iteration of the E-step's loop over `alnGroup->alignments()`. -/
def scanAlignment (st : AlnScan K) (aln : SMEMAlignment K) : SMEMAlignment K × AlnScan K :=
  let transcriptID := aln.transcriptID
  let transcript := st.transcripts transcriptID
  let transcriptUnique := st.transcriptUnique && transcriptID == firstTranscriptID
  if transcript.mass ≠ LOG_0 then
    let logProb := alignLogProb env opts expected fld transcript aln
    let seen := st.observedTranscripts.contains transcriptID
    ({ aln with logProb },
     { sumOfAlignProbs := logAdd st.sumOfAlignProbs logProb,
       transcriptUnique,
       observedTranscripts :=
         if seen then st.observedTranscripts else transcriptID :: st.observedTranscripts,
       transcripts :=
         if !seen && updateCounts then
           Function.update st.transcripts transcriptID (transcript.addTotalCount 1)
         else st.transcripts,
       libTypeCounts := bump st.libTypeCounts (env.formatID aln.format).toNat })
  else
    ({ aln with logProb := LOG_0 }, { st with transcriptUnique })

/-- The E-step's loop over one group's alignments. -/
def scanAlignments : AlnScan K → List (SMEMAlignment K) → List (SMEMAlignment K) × AlnScan K
  | st, [] => ([], st)
  | st, aln :: alns =>
    let r := scanAlignment env opts expected fld updateCounts firstTranscriptID st aln
    let rs := scanAlignments r.2 alns
    (r.1 :: rs.1, rs.2)

end Step

/-- The normalising loop: `logProb -= sumOfAlignProbs`, one draw `r` per alignment, and
`fragLengthDist.addVal` before burn-in when `r < exp(logProb)` and the fragment length
is known. -/
def normalizeAlignments (env : Collaborators K F C G) (logForgettingMass : K) (burnedIn : Bool)
    (sumOfAlignProbs : K) : F × G → List (SMEMAlignment K) → List (SMEMAlignment K) × (F × G)
  | fg, [] => ([], fg)
  | (fld, eng), aln :: alns =>
    let aln := { aln with logProb := aln.logProb / sumOfAlignProbs }
    let (r, eng) := env.uni eng
    let fld := if !burnedIn && r < aln.logProb && aln.fragLength > 0 then
      env.addVal fld aln.fragLength.toNat logForgettingMass else fld
    let rs := normalizeAlignments env logForgettingMass burnedIn sumOfAlignProbs (fld, eng) alns
    (aln :: rs.1, rs.2)

/-- What the E-step changes besides the batch. `libTypeCounts` is the batch's own
tally, `localNumAssignedFragments` its count of assigned groups. -/
structure EStepVars (K F C G : Type) where
  transcripts : TranscriptID → Transcript K
  clusterForest : C
  fragLengthDist : F
  randEng : G
  libTypeCounts : Nat → Nat
  localNumAssignedFragments : Nat

section Group

variable (env : Collaborators K F C G) (opts : SalmonOpts) (expected : LibraryFormat)
  (logForgettingMass : K) (updateCounts burnedIn : Bool)

/-- The E-step on one group (the body of `for (auto& alnGroup : batchHits)`). -/
def eStepGroup (v : EStepVars K F C G) (g : AlignmentGroup K) : AlignmentGroup K × EStepVars K F C G :=
  match g.alignments with
  | [] => (g, v)
  | first :: _ =>
    let r := scanAlignments env opts expected v.fragLengthDist updateCounts first.transcriptID
      ⟨LOG_0, true, [], v.transcripts, v.libTypeCounts⟩ g.alignments
    let v := { v with transcripts := r.2.transcripts, libTypeCounts := r.2.libTypeCounts }
    if r.2.sumOfAlignProbs = LOG_0 then (⟨r.1⟩, v)
    else
      let n := normalizeAlignments env logForgettingMass burnedIn r.2.sumOfAlignProbs
        (v.fragLengthDist, v.randEng) r.1
      let v := { v with fragLengthDist := n.2.1, randEng := n.2.2,
                        localNumAssignedFragments := v.localNumAssignedFragments + 1 }
      if r.2.transcriptUnique then
        (⟨n.1⟩, { v with
          transcripts := if updateCounts then
              Function.update v.transcripts first.transcriptID
                ((v.transcripts first.transcriptID).addUniqueCount 1)
            else v.transcripts,
          clusterForest := env.updateCluster v.clusterForest first.transcriptID 1
            logForgettingMass updateCounts })
      else
        (⟨n.1⟩, { v with
          clusterForest := env.updateCluster
            (env.mergeClusters v.clusterForest (n.1.map SMEMAlignment.transcriptID))
            first.transcriptID 1 logForgettingMass updateCounts })

/-- The E-step over the batch, group by group. -/
def eStep : EStepVars K F C G → List (AlignmentGroup K) → List (AlignmentGroup K) × EStepVars K F C G
  | v, [] => ([], v)
  | v, g :: gs =>
    let r := eStepGroup env opts expected logForgettingMass updateCounts burnedIn v g
    let rs := eStep r.2 gs
    (r.1 :: rs.1, rs.2)

end Group

/-- The batch's alignments in order, each tagged with its transcript id and its index:
the pointers `hitsForTranscript` stores. -/
def hitPointers (batch : List (AlignmentGroup K)) : List (TranscriptID × Nat) :=
  ((batch.flatMap AlignmentGroup.alignments).enum).map fun p => (p.2.transcriptID, p.1)

/-- `hitsForTranscript[tid].push_back(&aln)` on a map kept sorted by key. -/
def insertHit (tid : TranscriptID) (p : Nat) :
    List (TranscriptID × List Nat) → List (TranscriptID × List Nat)
  | [] => [(tid, [p])]
  | (k, ps) :: rest =>
    if tid = k then (k, ps ++ [p]) :: rest
    else if tid < k then (tid, [p]) :: (k, ps) :: rest
    else (k, ps) :: insertHit tid p rest

/-- `hitsForTranscript`, built from the batch before the E-step. -/
def hitsForTranscript (batch : List (AlignmentGroup K)) : List (TranscriptID × List Nat) :=
  (hitPointers batch).foldl (fun m h => insertHit h.1 h.2 m) []

/-- `aln->logProb` through a pointer, read after the E-step. -/
def logProbAt (batch : List (AlignmentGroup K)) (p : Nat) : K :=
  ((batch.flatMap AlignmentGroup.alignments)[p]?.map SMEMAlignment.logProb).getD LOG_0

/-- The M-step's `updateMass` for every key: `logForgettingMass + hitMass`, with
`hitMass` the `logAdd` of the pointed-to `logProb`s. -/
def updateMasses (logForgettingMass : K) (batch : List (AlignmentGroup K))
    (hits : List (TranscriptID × List Nat)) : List (TranscriptID × K) :=
  hits.map fun h =>
    (h.1, logForgettingMass * h.2.foldl (fun hitMass p => logAdd hitMass (logProbAt batch p)) LOG_0)

/-- The M-step's `transcript.addMass(updateMass)` for every key, in key order. -/
def mStep (transcripts : TranscriptID → Transcript K) (updates : List (TranscriptID × K)) :
    TranscriptID → Transcript K :=
  updates.foldl (fun ts u => Function.update ts u.1 ((ts u.1).addMass u.2)) transcripts

/-- What survives a call: the transcripts, the cluster forest, the fragment-length
distribution, the worker's random engine, the read library, `numAssignedFragments`
and `burnedIn`. -/
structure EMState (K F C G : Type) where
  transcripts : TranscriptID → Transcript K
  clusterForest : C
  fragLengthDist : F
  randEng : G
  readLib : ReadLibrary
  numAssignedFragments : Nat
  burnedIn : Bool

/-- `processMiniBatch(logForgettingMass, readLib, salmonOpts, batchHits, …, initialRound,
burnedIn)`: the batch with its new `logProb`s, and the state after the call. -/
def processMiniBatch (env : Collaborators K F C G) (opts : SalmonOpts) (logForgettingMass : K)
    (initialRound : Bool) (batchHits : List (AlignmentGroup K)) (s : EMState K F C G) :
    List (AlignmentGroup K) × EMState K F C G :=
  let updateCounts := initialRound
  let hits := hitsForTranscript batchHits
  let e := eStep env opts s.readLib.format logForgettingMass updateCounts s.burnedIn
    ⟨s.transcripts, s.clusterForest, s.fragLengthDist, s.randEng, fun _ => 0, 0⟩ batchHits
  let transcripts := mStep e.2.transcripts (updateMasses logForgettingMass e.1 hits)
  let numAssignedFragments := s.numAssignedFragments + e.2.localNumAssignedFragments
  (e.1,
   { transcripts, clusterForest := e.2.clusterForest, fragLengthDist := e.2.fragLengthDist,
     randEng := e.2.randEng, readLib := s.readLib.updateLibTypeCounts e.2.libTypeCounts,
     numAssignedFragments,
     burnedIn := if numAssignedFragments ≥ numBurninFrags && !s.burnedIn then true
       else s.burnedIn })

/-! ## The E-step's loops -/

section Step

variable (env : Collaborators K F C G) (opts : SalmonOpts) (expected : LibraryFormat)
  (fld : F) (updateCounts : Bool) (first : TranscriptID)

/-- One iteration of the alignment loop: only `logProb` changes, to `LOG_0` for a
transcript of mass `LOG_0`; the sum grows by the new `logProb`; only `totalCount`s
grow; the uniqueness flag tracks the first transcript id. -/
theorem scanAlignment_spec (st : AlnScan K) (aln : SMEMAlignment K) :
    let r := scanAlignment env opts expected fld updateCounts first st aln
    r.1 = { aln with logProb := r.1.logProb } ∧
    r.2.sumOfAlignProbs = st.sumOfAlignProbs + r.1.logProb ∧
    ((st.transcripts aln.transcriptID).mass = 0 → r.1.logProb = 0) ∧
    CountsOnly st.transcripts r.2.transcripts ∧
    r.2.transcriptUnique = (st.transcriptUnique && aln.transcriptID == first) := by
  unfold scanAlignment
  dsimp only
  split
  · rename_i hm
    refine ⟨rfl, rfl, fun h => absurd h hm, ?_, rfl⟩
    dsimp only
    split
    · exact CountsOnly.addTotalCount _ _
    · exact CountsOnly.refl _
  · exact ⟨rfl, by simp, fun _ => rfl, CountsOnly.refl _, rfl⟩

/-- The first time a transcript of non-zero mass is seen in a group of the first
round, its `totalCount` goes up by one. -/
theorem scanAlignment_totalCount (st : AlnScan K) (aln : SMEMAlignment K)
    (mass : (st.transcripts aln.transcriptID).mass ≠ 0) (count : updateCounts = true)
    (fresh : aln.transcriptID ∉ st.observedTranscripts) :
    ((scanAlignment env opts expected fld updateCounts first st aln).2.transcripts
        aln.transcriptID).totalCount =
      (st.transcripts aln.transcriptID).totalCount + 1 := by
  simp [scanAlignment, mass, fresh, count, Transcript.addTotalCount]

theorem scanAlignments_spec (st : AlnScan K) (alns : List (SMEMAlignment K)) :
    let r := scanAlignments env opts expected fld updateCounts first st alns
    r.1.map (fun a => { a with logProb := (LOG_0 : K) }) =
      alns.map (fun a => { a with logProb := (LOG_0 : K) }) ∧
    r.2.sumOfAlignProbs = st.sumOfAlignProbs + (r.1.map SMEMAlignment.logProb).sum ∧
    CountsOnly st.transcripts r.2.transcripts ∧
    r.2.transcriptUnique = (st.transcriptUnique && alns.all (·.transcriptID == first)) := by
  induction alns generalizing st with
  | nil => exact ⟨rfl, by simp [scanAlignments], CountsOnly.refl _, by simp [scanAlignments]⟩
  | cons aln alns ih =>
    obtain ⟨hform, hsum, -, hcount, huniq⟩ :=
      scanAlignment_spec env opts expected fld updateCounts first st aln
    obtain ⟨iform, isum, icount, iuniq⟩ := ih (scanAlignment env opts expected fld updateCounts
      first st aln).2
    refine ⟨?_, ?_, hcount.trans icount, ?_⟩
    · simp only [scanAlignments, List.map_cons, iform, List.cons.injEq, and_true]
      rw [hform]
    · simp only [scanAlignments, List.map_cons, List.sum_cons, isum, hsum, add_assoc]
    · simp only [scanAlignments, iuniq, huniq, List.all_cons, Bool.and_assoc]

/-- If every alignment's transcript has mass `LOG_0`, the loop leaves the sum alone. -/
theorem scanAlignments_sum_of_massless (st : AlnScan K) (alns : List (SMEMAlignment K))
    (massless : ∀ a ∈ alns, (st.transcripts a.transcriptID).mass = 0) :
    (scanAlignments env opts expected fld updateCounts first st alns).2.sumOfAlignProbs =
      st.sumOfAlignProbs := by
  induction alns generalizing st with
  | nil => rfl
  | cons aln alns ih =>
    obtain ⟨-, hsum, hzero, hcount, -⟩ :=
      scanAlignment_spec env opts expected fld updateCounts first st aln
    simp only [scanAlignments]
    rw [ih _ (fun a ha => ((hcount a.transcriptID).1).trans
      (massless a (List.mem_cons_of_mem _ ha))), hsum,
      hzero (massless aln (List.mem_cons_self _ _)), add_zero]

end Step

theorem normalizeAlignments_fst (env : Collaborators K F C G) (lfm : K) (burnedIn : Bool)
    (S : K) (fg : F × G) (alns : List (SMEMAlignment K)) :
    (normalizeAlignments env lfm burnedIn S fg alns).1 =
      alns.map fun a => { a with logProb := a.logProb / S } := by
  induction alns generalizing fg with
  | nil => rfl
  | cons aln alns ih => obtain ⟨fld, eng⟩ := fg; simp [normalizeAlignments, ih]

/-! ## One group -/

/-- An assigned group: its `logProb`s sum to `LOG_1`. -/
def Assigned (g : AlignmentGroup K) : Prop :=
  (g.alignments.map SMEMAlignment.logProb).sum = 1

instance : DecidablePred (Assigned (K := K)) := fun g =>
  inferInstanceAs (Decidable ((g.alignments.map SMEMAlignment.logProb).sum = 1))

omit [CanonicallyLinearOrderedSemifield K] in
/-- Every alignment of the group names transcript `t`. -/
def NamesOnly (t : TranscriptID) (g : AlignmentGroup K) : Prop :=
  ∀ a ∈ g.alignments, a.transcriptID = t

omit [CanonicallyLinearOrderedSemifield K] in
instance (t : TranscriptID) : DecidablePred (NamesOnly (K := K) t) := fun g =>
  inferInstanceAs (Decidable (∀ a ∈ g.alignments, a.transcriptID = t))

theorem not_assigned_of_zero {g : AlignmentGroup K} (h : ∀ a ∈ g.alignments, a.logProb = 0) :
    ¬ Assigned g := by
  have zero : (g.alignments.map SMEMAlignment.logProb).sum = 0 :=
    List.sum_eq_zero_iff.2 fun x hx => by obtain ⟨a, ha, rfl⟩ := List.mem_map.1 hx; exact h a ha
  simp [Assigned, zero]

section Group

variable (env : Collaborators K F C G) (opts : SalmonOpts) (expected : LibraryFormat)
  (lfm : K) (updateCounts burnedIn : Bool)

/-- The alignment loop as `eStepGroup` runs it on a group `a0 :: rest`. -/
def groupScan (env : Collaborators K F C G) (opts : SalmonOpts) (expected : LibraryFormat)
    (updateCounts : Bool) (v : EStepVars K F C G) (a0 : SMEMAlignment K)
    (rest : List (SMEMAlignment K)) : List (SMEMAlignment K) × AlnScan K :=
  scanAlignments env opts expected v.fragLengthDist updateCounts a0.transcriptID
    ⟨LOG_0, true, [], v.transcripts, v.libTypeCounts⟩ (a0 :: rest)

/-- `scanAlignments_spec` for the group's loop: the sum starts at `LOG_0`, and the
group is unique when every alignment names `a0`'s transcript. -/
theorem groupScan_spec (v : EStepVars K F C G) (a0 : SMEMAlignment K)
    (rest : List (SMEMAlignment K)) :
    let sc := groupScan env opts expected updateCounts v a0 rest
    sc.1.map (fun a => { a with logProb := (LOG_0 : K) }) =
      (a0 :: rest).map (fun a => { a with logProb := (LOG_0 : K) }) ∧
    sc.2.sumOfAlignProbs = (sc.1.map SMEMAlignment.logProb).sum ∧
    CountsOnly v.transcripts sc.2.transcripts ∧
    (sc.2.transcriptUnique = true ↔ ∀ a ∈ rest, a.transcriptID = a0.transcriptID) := by
  obtain ⟨hshape, hsum, hcount, huniq⟩ := scanAlignments_spec env opts expected v.fragLengthDist
      updateCounts a0.transcriptID ⟨LOG_0, true, [], v.transcripts, v.libTypeCounts⟩ (a0 :: rest)
  refine ⟨hshape, hsum.trans (zero_add _), hcount, ?_⟩
  unfold groupScan
  rw [huniq]
  simp only [Bool.true_and, List.all_cons, beq_self_eq_true, List.all_eq_true, beq_iff_eq]

/-- An assigned group whose alignments all name its first transcript has had that
transcript's `totalCount` raised while it was scanned: a transcript of mass `LOG_0`
contributes nothing to the sum. -/
theorem groupScan_first_counted (v : EStepVars K F C G) (a0 : SMEMAlignment K)
    (rest : List (SMEMAlignment K)) (count : updateCounts = true)
    (assigned : (groupScan env opts expected updateCounts v a0 rest).2.sumOfAlignProbs ≠ 0)
    (named : ∀ a ∈ rest, a.transcriptID = a0.transcriptID) :
    (v.transcripts a0.transcriptID).totalCount + 1 ≤
      ((groupScan env opts expected updateCounts v a0 rest).2.transcripts
        a0.transcriptID).totalCount := by
  obtain ⟨-, hsum, hzero, hcount, -⟩ := scanAlignment_spec env opts expected v.fragLengthDist
      updateCounts a0.transcriptID ⟨LOG_0, true, [], v.transcripts, v.libTypeCounts⟩ a0
  simp only [groupScan, scanAlignments] at assigned ⊢
  by_cases hm : (v.transcripts a0.transcriptID).mass = 0
  · refine absurd ?_ assigned
    rw [scanAlignments_sum_of_massless, hsum, hzero hm]
    · simp
    · intro a ha
      rw [named a ha, (hcount a0.transcriptID).1]
      exact hm
  · have step := scanAlignment_totalCount env opts expected v.fragLengthDist _ a0.transcriptID
      ⟨LOG_0, true, [], v.transcripts, v.libTypeCounts⟩ a0 hm count (List.not_mem_nil _)
    obtain ⟨-, -, later, -⟩ := scanAlignments_spec env opts expected v.fragLengthDist updateCounts
        a0.transcriptID (scanAlignment env opts expected v.fragLengthDist
        updateCounts a0.transcriptID ⟨LOG_0, true, [], v.transcripts, v.libTypeCounts⟩ a0).2 rest
    exact step.symm.le.trans (later a0.transcriptID).2.2.2

/-- The E-step on a non-empty group in terms of its alignment loop: the group is
skipped when the sum is `LOG_0`, else normalised and counted, and a unique group of a
round that updates counts credits its transcript's `uniqueCount`. -/
theorem eStepGroup_of_cons (v : EStepVars K F C G) {g : AlignmentGroup K}
    {a0 : SMEMAlignment K} {rest : List (SMEMAlignment K)} (hg : g.alignments = a0 :: rest) :
    let sc := groupScan env opts expected updateCounts v a0 rest
    let r := eStepGroup env opts expected lfm updateCounts burnedIn v g
    r.1.alignments = (if sc.2.sumOfAlignProbs = 0 then sc.1
      else sc.1.map fun a => { a with logProb := a.logProb / sc.2.sumOfAlignProbs }) ∧
    r.2.localNumAssignedFragments =
      v.localNumAssignedFragments + (if sc.2.sumOfAlignProbs = 0 then 0 else 1) ∧
    r.2.transcripts = (if sc.2.sumOfAlignProbs ≠ 0 ∧ sc.2.transcriptUnique ∧ updateCounts then
      Function.update sc.2.transcripts a0.transcriptID
        ((sc.2.transcripts a0.transcriptID).addUniqueCount 1)
      else sc.2.transcripts) := by
  unfold eStepGroup groupScan
  rw [hg]
  dsimp only
  generalize scanAlignments env opts expected v.fragLengthDist updateCounts a0.transcriptID
    ⟨LOG_0, true, [], v.transcripts, v.libTypeCounts⟩ (a0 :: rest) = sc
  by_cases h0 : sc.2.sumOfAlignProbs = 0
  · simp [h0]
  · by_cases hu : sc.2.transcriptUnique = true <;>
    cases updateCounts <;> simp [h0, hu, normalizeAlignments_fst]

/-- The E-step rewrites only `logProb`s: each alignment keeps its transcript id. -/
theorem eStepGroup_transcriptIDs (v : EStepVars K F C G) (g : AlignmentGroup K) :
    (eStepGroup env opts expected lfm updateCounts burnedIn v g).1.alignments.map
      SMEMAlignment.transcriptID = g.alignments.map SMEMAlignment.transcriptID := by
  cases hg : g.alignments with
  | nil => simp [eStepGroup, hg]
  | cons a0 rest =>
    have tids := congrArg (List.map SMEMAlignment.transcriptID)
      (groupScan_spec env opts expected updateCounts v a0 rest).1
    simp only [List.map_map, Function.comp_def] at tids
    rw [(eStepGroup_of_cons _ _ _ lfm _ burnedIn v hg).1]
    split <;> simpa [List.map_map, Function.comp_def] using tids

theorem eStepGroup_namesOnly_iff (v : EStepVars K F C G) (g : AlignmentGroup K)
    (t : TranscriptID) :
    NamesOnly t (eStepGroup env opts expected lfm updateCounts burnedIn v g).1 ↔
      NamesOnly t g := by
  simp only [NamesOnly]
  rw [← List.forall_mem_map (f := SMEMAlignment.transcriptID) (P := (· = t)),
    eStepGroup_transcriptIDs, List.forall_mem_map]

/-- The group's `logProb`s after the E-step sum to `LOG_0` when it is skipped and to
`LOG_1` when it is normalised. -/
theorem eStepGroup_sum (v : EStepVars K F C G) {g : AlignmentGroup K}
    {a0 : SMEMAlignment K} {rest : List (SMEMAlignment K)} (hg : g.alignments = a0 :: rest) :
    ((eStepGroup env opts expected lfm updateCounts burnedIn v g).1.alignments.map
        SMEMAlignment.logProb).sum =
      if (groupScan env opts expected updateCounts v a0 rest).2.sumOfAlignProbs = 0
      then 0 else 1 := by
  have hsum := (groupScan_spec env opts expected updateCounts v a0 rest).2.1
  rw [(eStepGroup_of_cons _ _ _ lfm _ burnedIn v hg).1]
  split
  · rename_i h0; rw [← hsum, h0]
  · rename_i h0
    simp only [List.map_map, Function.comp_def, div_eq_mul_inv, List.sum_map_mul_right]
    rw [← hsum, mul_inv_cancel₀ h0]

theorem eStepGroup_assigned_iff (v : EStepVars K F C G) {g : AlignmentGroup K}
    {a0 : SMEMAlignment K} {rest : List (SMEMAlignment K)} (hg : g.alignments = a0 :: rest) :
    Assigned (eStepGroup env opts expected lfm updateCounts burnedIn v g).1 ↔
      (groupScan env opts expected updateCounts v a0 rest).2.sumOfAlignProbs ≠ 0 := by
  rw [Assigned, eStepGroup_sum env opts expected lfm updateCounts burnedIn v hg]
  split <;> simp [*]

/-- The E-step on one group either assigns it, normalising its `logProb`s to sum
`LOG_1`, and counts it, or leaves every `logProb` at `LOG_0` and the count alone. -/
theorem eStepGroup_assigned_or_skipped (v : EStepVars K F C G) (g : AlignmentGroup K) :
    let r := eStepGroup env opts expected lfm updateCounts burnedIn v g
    (Assigned r.1 ∧ r.2.localNumAssignedFragments = v.localNumAssignedFragments + 1) ∨
      ((∀ a ∈ r.1.alignments, a.logProb = 0) ∧
        r.2.localNumAssignedFragments = v.localNumAssignedFragments) := by
  cases hg : g.alignments with
  | nil => exact .inr ⟨by simp [eStepGroup, hg], by simp [eStepGroup, hg]⟩
  | cons a0 rest =>
    have hsum := eStepGroup_sum env opts expected lfm updateCounts burnedIn v hg
    have hlocal := (eStepGroup_of_cons env opts expected lfm updateCounts burnedIn v hg).2.1
    dsimp only at hlocal ⊢
    split at hsum
    · rename_i h0
      rw [if_pos h0] at hlocal
      exact .inr ⟨fun a ha => List.sum_eq_zero_iff.1 hsum _ (List.mem_map_of_mem _ ha), hlocal⟩
    · rename_i h0
      rw [if_neg h0] at hlocal
      exact .inl ⟨hsum, hlocal⟩

/-- What one group does to transcript `t`'s counts: `uniqueCount` goes up by one
exactly when the group is assigned in a round that updates counts and names `t`
alone, and then `totalCount` goes up by at least as much. -/
theorem eStepGroup_counts (v : EStepVars K F C G) (g : AlignmentGroup K) (t : TranscriptID) :
    let r := eStepGroup env opts expected lfm updateCounts burnedIn v g
    let credit := if updateCounts ∧ Assigned r.1 ∧ NamesOnly t r.1 then 1 else 0
    (r.2.transcripts t).uniqueCount = (v.transcripts t).uniqueCount + credit ∧
      (v.transcripts t).totalCount + credit ≤ (r.2.transcripts t).totalCount := by
  cases hg : g.alignments with
  | nil => simp [eStepGroup, hg, Assigned]
  | cons a0 rest =>
    obtain ⟨-, -, hcount, huniq⟩ := groupScan_spec env opts expected updateCounts v a0 rest
    have counted := groupScan_first_counted env opts expected updateCounts v a0 rest
    have hT := (eStepGroup_of_cons env opts expected lfm updateCounts burnedIn v hg).2.2
    have named : NamesOnly t g ↔ a0.transcriptID = t ∧ ∀ a ∈ rest, a.transcriptID = t := by
      simp only [NamesOnly, hg, List.mem_cons, forall_eq_or_imp]
    dsimp only at hT ⊢
    simp only [eStepGroup_assigned_iff env opts expected lfm updateCounts burnedIn v hg,
      eStepGroup_namesOnly_iff, named, hT]
    generalize groupScan env opts expected updateCounts v a0 rest = sc at hcount huniq counted
    obtain ⟨-, -, same, grows⟩ := hcount t
    by_cases credited : updateCounts = true ∧ sc.2.sumOfAlignProbs ≠ 0 ∧
        a0.transcriptID = t ∧ ∀ a ∈ rest, a.transcriptID = t
    · obtain ⟨count, assigned, rfl, named⟩ := credited
      have := counted count assigned named
      rw [if_pos ⟨assigned, huniq.2 named, count⟩, if_pos ⟨count, assigned, rfl, named⟩,
        Function.update_same]
      simp only [Transcript.addUniqueCount]
      omega
    · have unchanged : (if sc.2.sumOfAlignProbs ≠ 0 ∧ sc.2.transcriptUnique = true ∧
          updateCounts = true then Function.update sc.2.transcripts a0.transcriptID
            ((sc.2.transcripts a0.transcriptID).addUniqueCount 1)
          else sc.2.transcripts) t = sc.2.transcripts t := by
        split
        · rename_i scanned
          refine Function.update_noteq (fun e => credited ⟨scanned.2.2, scanned.1, e.symm,
            fun a ha => (huniq.1 scanned.2.1 a ha).trans e.symm⟩) _ _
        · rfl
      rw [if_neg credited, unchanged]
      omega

end Group

/-! ## The batch -/

section Batch

variable (env : Collaborators K F C G) (opts : SalmonOpts) (expected : LibraryFormat)
  (lfm : K) (updateCounts burnedIn : Bool)

theorem eStep_transcriptIDs (v : EStepVars K F C G) (batch : List (AlignmentGroup K)) :
    (eStep env opts expected lfm updateCounts burnedIn v batch).1.map
        (fun g => g.alignments.map SMEMAlignment.transcriptID) =
      batch.map fun g => g.alignments.map SMEMAlignment.transcriptID := by
  induction batch generalizing v with
  | nil => rfl
  | cons g gs ih => simp only [eStep, List.map_cons, ih, eStepGroup_transcriptIDs]

/-- After the E-step every group is assigned or all `LOG_0`, and the local counter
has gone up by the number of assigned groups. -/
theorem eStep_assigned_or_skipped (v : EStepVars K F C G) (batch : List (AlignmentGroup K)) :
    let r := eStep env opts expected lfm updateCounts burnedIn v batch
    (∀ g ∈ r.1, Assigned g ∨ ∀ a ∈ g.alignments, a.logProb = 0) ∧
      r.2.localNumAssignedFragments = v.localNumAssignedFragments + r.1.countP (Assigned ·) := by
  induction batch generalizing v with
  | nil => exact ⟨by simp [eStep], rfl⟩
  | cons g gs ih =>
    obtain ⟨hall, hlocal⟩ := ih (eStepGroup env opts expected lfm updateCounts burnedIn v g).2
    simp only [eStep, List.mem_cons, forall_eq_or_imp, List.countP_cons, hlocal]
    rcases eStepGroup_assigned_or_skipped env opts expected lfm updateCounts burnedIn v g with
      ⟨assigned, hv⟩ | ⟨zero, hv⟩
    · exact ⟨⟨.inl assigned, hall⟩, by rw [hv, decide_eq_true assigned, if_pos rfl]; omega⟩
    · exact ⟨⟨.inr zero, hall⟩, by rw [hv, decide_eq_false (not_assigned_of_zero zero)]; rfl⟩

/-- The E-step's effect on transcript `t`'s counts over a batch. -/
theorem eStep_counts (v : EStepVars K F C G) (batch : List (AlignmentGroup K))
    (t : TranscriptID) :
    let r := eStep env opts expected lfm updateCounts burnedIn v batch
    let credit := if updateCounts then r.1.countP (fun g => Assigned g ∧ NamesOnly t g) else 0
    (r.2.transcripts t).uniqueCount = (v.transcripts t).uniqueCount + credit ∧
      (v.transcripts t).totalCount + credit ≤ (r.2.transcripts t).totalCount := by
  induction batch generalizing v with
  | nil => cases updateCounts <;> simp [eStep]
  | cons g gs ih =>
    obtain ⟨hu, ht⟩ := eStepGroup_counts env opts expected lfm updateCounts burnedIn v g t
    obtain ⟨iu, it⟩ := ih (eStepGroup env opts expected lfm updateCounts burnedIn v g).2
    simp only [eStep, List.countP_cons, decide_eq_true_eq] at iu it hu ht ⊢
    cases updateCounts
    · simp only [Bool.false_eq_true, false_and, if_false, add_zero] at *
      omega
    · simp only [true_and, if_true] at *
      split_ifs at * <;> omega

end Batch

/-! ## The M-step -/

/-- The M-step touches only masses. -/
theorem mStep_counts (T : TranscriptID → Transcript K) (updates : List (TranscriptID × K))
    (t : TranscriptID) :
    (mStep T updates t).uniqueCount = (T t).uniqueCount ∧
      (mStep T updates t).totalCount = (T t).totalCount := by
  induction updates generalizing T with
  | nil => exact ⟨rfl, rfl⟩
  | cons u us ih =>
    obtain ⟨hu, ht⟩ := ih (Function.update T u.1 ((T u.1).addMass u.2))
    by_cases h : t = u.1
    · subst h; simpa [Transcript.addMass] using And.intro hu ht
    · simpa [h] using And.intro hu ht

/-- `hitMass`, the `logAdd` fold from `LOG_0`, is the sum of the pointed-to values. -/
theorem hitMass_eq_sum (f : Nat → K) (ps : List Nat) (m : K) :
    ps.foldl (fun hitMass p => logAdd hitMass (f p)) m = m + (ps.map f).sum := by
  induction ps generalizing m with
  | nil => simp
  | cons p ps ih => rw [List.foldl_cons, ih, List.map_cons, List.sum_cons, logAdd_eq, add_assoc]

/-- Inserting a pointer into `hitsForTranscript` adds its one term to the total over
all buckets. -/
theorem sum_insertHit (f : Nat → K) (tid : TranscriptID) (p : Nat)
    (m : List (TranscriptID × List Nat)) :
    ((insertHit tid p m).map fun h => (h.2.map f).sum).sum =
      (m.map fun h => (h.2.map f).sum).sum + f p := by
  induction m with
  | nil => simp [insertHit]
  | cons h m ih =>
    simp only [insertHit]
    split_ifs
    · simp only [List.map_cons, List.sum_cons, List.map_append, List.sum_append,
        List.map_nil, List.sum_nil, add_zero, add_right_comm]
    · simp only [List.map_cons, List.sum_cons, List.map_nil, List.sum_nil, add_zero, add_comm]
    · simp only [List.map_cons, List.sum_cons, ih, add_assoc]

/-- Every alignment of the batch sits in exactly one bucket of `hitsForTranscript`:
summing any function of the pointers over all buckets sums it over all indices. -/
theorem sum_hitsForTranscript (f : Nat → K) (batch : List (AlignmentGroup K)) :
    ((hitsForTranscript batch).map fun h => (h.2.map f).sum).sum =
      ((List.range (batch.flatMap AlignmentGroup.alignments).length).map f).sum := by
  have fold : ∀ (pts : List (TranscriptID × Nat)) (m : List (TranscriptID × List Nat)),
      ((pts.foldl (fun m h => insertHit h.1 h.2 m) m).map fun h => (h.2.map f).sum).sum =
        (m.map fun h => (h.2.map f).sum).sum + (pts.map fun h => f h.2).sum := by
    intro pts
    induction pts with
    | nil => simp
    | cons h pts ih => intro m; simp [ih, sum_insertHit, add_assoc]
  rw [hitsForTranscript, fold, hitPointers, ← List.enum_map_fst]
  simp only [List.map_map, Function.comp_def, List.map_nil, List.sum_nil, zero_add]

/-- Reading every index of the batch through `logProbAt` reads every alignment once. -/
theorem sum_logProbAt (batch : List (AlignmentGroup K)) :
    ((List.range (batch.flatMap AlignmentGroup.alignments).length).map (logProbAt batch)).sum =
      ((batch.flatMap AlignmentGroup.alignments).map SMEMAlignment.logProb).sum := by
  unfold logProbAt
  generalize batch.flatMap AlignmentGroup.alignments = l
  induction l with
  | nil => rfl
  | cons a l ih =>
    simp only [List.length_cons, List.range_succ_eq_map, List.map_cons, List.map_map,
      Function.comp_def, List.getElem?_cons_zero, List.getElem?_cons_succ, Option.map_some',
      Option.getD_some, List.sum_cons, ih]

/-- The M-step's `updateMass`es, over all keys, add up to `logForgettingMass` times the
total `logProb` of the batch. -/
theorem sum_updateMasses (lfm : K) (batch : List (AlignmentGroup K))
    (hits : List (AlignmentGroup K))
    (lengths : (hits.flatMap AlignmentGroup.alignments).length =
      (batch.flatMap AlignmentGroup.alignments).length) :
    ((updateMasses lfm batch (hitsForTranscript hits)).map Prod.snd).sum =
      lfm * (batch.map fun g => (g.alignments.map SMEMAlignment.logProb).sum).sum := by
  have flat : ∀ gs : List (AlignmentGroup K),
      ((gs.flatMap AlignmentGroup.alignments).map SMEMAlignment.logProb).sum =
        (gs.map fun g => (g.alignments.map SMEMAlignment.logProb).sum).sum := by
    intro gs; induction gs with
    | nil => rfl
    | cons g gs ih => simp [ih]
  simp only [updateMasses, List.map_map, Function.comp_def, hitMass_eq_sum, LOG_0_eq, zero_add,
    List.sum_map_mul_left]
  rw [sum_hitsForTranscript, lengths, sum_logProbAt, flat]

theorem sum_logProb_of_settled (gs : List (AlignmentGroup K))
    (h : ∀ g ∈ gs, Assigned g ∨ ∀ a ∈ g.alignments, a.logProb = 0) :
    (gs.map fun g => (g.alignments.map SMEMAlignment.logProb).sum).sum = gs.countP (Assigned ·) := by
  induction gs with
  | nil => simp
  | cons g gs ih =>
    rw [List.forall_mem_cons] at h
    rcases h.1 with assigned | zero
    · simp [ih h.2, assigned, show (g.alignments.map SMEMAlignment.logProb).sum = 1 from assigned,
        add_comm]
    · have : (g.alignments.map SMEMAlignment.logProb).sum = 0 :=
        List.sum_eq_zero_iff.2 fun x hx => by
          obtain ⟨a, ha, rfl⟩ := List.mem_map.1 hx; exact zero a ha
      simp [ih h.2, not_assigned_of_zero zero, this]

theorem transcriptID_lt_of_not_lt {a b : TranscriptID} (h : ¬ a < b) (ne : a ≠ b) : b < a :=
  UInt32.lt_def.2 (BitVec.lt_of_le_ne (UInt32.not_lt.1 h)
    fun e => ne (UInt32.eq_of_toBitVec_eq e.symm))

theorem keys_insertHit (tid : TranscriptID) (p : Nat) (m : List (TranscriptID × List Nat)) :
    ∀ k ∈ (insertHit tid p m).map Prod.fst, k = tid ∨ k ∈ m.map Prod.fst := by
  induction m with
  | nil => simp [insertHit]
  | cons kp m ih =>
    intro k hk
    simp only [insertHit] at hk
    split_ifs at hk
    · exact .inr hk
    · exact List.mem_cons.1 hk
    · rcases List.mem_cons.1 hk with rfl | hk
      · exact .inr (List.mem_cons_self _ _)
      · exact (ih k hk).imp id (List.mem_cons_of_mem _)

/-- `hitsForTranscript` stays sorted by key, so each transcript has one bucket. -/
theorem insertHit_sorted (tid : TranscriptID) (p : Nat) (m : List (TranscriptID × List Nat))
    (h : (m.map Prod.fst).Pairwise (· < ·)) :
    ((insertHit tid p m).map Prod.fst).Pairwise (· < ·) := by
  induction m with
  | nil => simp [insertHit]
  | cons kp m ih =>
    obtain ⟨k, ps⟩ := kp
    rw [List.map_cons, List.pairwise_cons] at h
    simp only [insertHit]
    split_ifs with heq hlt
    · exact List.pairwise_cons.2 h
    · refine List.pairwise_cons.2 ⟨fun b hb => ?_, List.pairwise_cons.2 h⟩
      rcases List.mem_cons.1 hb with rfl | hb
      · exact hlt
      · exact UInt32.lt_trans hlt (h.1 b hb)
    · simp only [List.map_cons, List.pairwise_cons]
      refine ⟨fun b hb => ?_, ih h.2⟩
      rcases keys_insertHit tid p m b hb with rfl | hb
      · exact transcriptID_lt_of_not_lt hlt heq
      · exact h.1 b hb

omit [CanonicallyLinearOrderedSemifield K] in
theorem hitsForTranscript_nodup (batch : List (AlignmentGroup K)) :
    ((hitsForTranscript batch).map Prod.fst).Nodup := by
  have fold : ∀ (pts : List (TranscriptID × Nat)) (m : List (TranscriptID × List Nat)),
      (m.map Prod.fst).Pairwise (· < ·) →
      ((pts.foldl (fun m h => insertHit h.1 h.2 m) m).map Prod.fst).Pairwise (· < ·) := by
    intro pts
    induction pts with
    | nil => exact fun _ h => h
    | cons h pts ih => exact fun m hm => ih _ (insertHit_sorted _ _ _ hm)
  exact (fold _ [] List.Pairwise.nil).imp UInt32.ne_of_lt

/-! ## `processMiniBatch` -/

/-- Every group of a processed batch is assigned, with `exp(logProb)`s summing to one,
or unassigned with every `logProb` at `LOG_0`; the batch keeps its shape;
`numAssignedFragments` grows by the number of assigned groups; and the M-step's
`updateMass`es, one per distinct transcript, add up to `exp(logForgettingMass)` times
that number. -/
theorem processMiniBatch_normalizes (env : Collaborators K F C G) (opts : SalmonOpts)
    (lfm : K) (initialRound : Bool) (batchHits : List (AlignmentGroup K))
    (s : EMState K F C G) :
    let r := processMiniBatch env opts lfm initialRound batchHits s
    r.1.map (fun g => g.alignments.map SMEMAlignment.transcriptID) =
        batchHits.map (fun g => g.alignments.map SMEMAlignment.transcriptID) ∧
      (∀ g ∈ r.1, Assigned g ∨ ∀ a ∈ g.alignments, a.logProb = LOG_0) ∧
      r.2.numAssignedFragments = s.numAssignedFragments + r.1.countP (Assigned ·) ∧
      ((hitsForTranscript batchHits).map Prod.fst).Nodup ∧
      ((updateMasses lfm r.1 (hitsForTranscript batchHits)).map Prod.snd).sum =
        lfm * r.1.countP (Assigned ·) := by
  obtain ⟨hall, hlocal⟩ := eStep_assigned_or_skipped env opts s.readLib.format lfm initialRound
      s.burnedIn ⟨s.transcripts, s.clusterForest, s.fragLengthDist, s.randEng,
      fun _ => 0, 0⟩ batchHits
  have tids := eStep_transcriptIDs env opts s.readLib.format lfm initialRound s.burnedIn
      ⟨s.transcripts, s.clusterForest, s.fragLengthDist, s.randEng,
      fun _ => 0, 0⟩ batchHits
  have lengths := congrArg (fun gs => (gs.map List.length).sum) tids
  simp only [List.map_map, Function.comp_def, List.length_map] at lengths
  dsimp only [processMiniBatch]
  refine ⟨tids, hall, by rw [hlocal, Nat.zero_add], hitsForTranscript_nodup batchHits, ?_⟩
  rw [sum_updateMasses, sum_logProb_of_settled _ hall]
  simp only [List.length_flatMap, Function.comp_def, lengths]

/-- What a call does to transcript `t`'s counts: `uniqueCount` rises by the number of
assigned groups naming `t` alone when `initialRound` is set, and `totalCount` by at
least as much. -/
theorem processMiniBatch_counts (env : Collaborators K F C G) (opts : SalmonOpts) (lfm : K)
    (initialRound : Bool) (batchHits : List (AlignmentGroup K)) (s : EMState K F C G)
    (t : TranscriptID) :
    let r := processMiniBatch env opts lfm initialRound batchHits s
    let credit := if initialRound then r.1.countP (fun g => Assigned g ∧ NamesOnly t g) else 0
    (r.2.transcripts t).uniqueCount = (s.transcripts t).uniqueCount + credit ∧
      (s.transcripts t).totalCount + credit ≤ (r.2.transcripts t).totalCount := by
  have e := eStep_counts env opts s.readLib.format lfm initialRound s.burnedIn
    ⟨s.transcripts, s.clusterForest, s.fragLengthDist, s.randEng, fun _ => 0, 0⟩ batchHits t
  dsimp only [processMiniBatch]
  rw [(mStep_counts _ _ t).1, (mStep_counts _ _ t).2]
  exact e

/-- A worker's calls one after another, each with its own `logForgettingMass`,
`initialRound` flag and batch: the processed batches and the state after the last. -/
def processMiniBatches (env : Collaborators K F C G) (opts : SalmonOpts) :
    List (K × Bool × List (AlignmentGroup K)) → EMState K F C G →
      List (List (AlignmentGroup K)) × EMState K F C G
  | [], s => ([], s)
  | (lfm, initialRound, batch) :: calls, s =>
    let r := processMiniBatch env opts lfm initialRound batch s
    let rs := processMiniBatches env opts calls r.2
    (r.1 :: rs.1, rs.2)

/-- Over any sequence of calls, each processed batch raises `uniqueCount` of `t` by its
assigned groups naming `t` alone (in a call with `initialRound`), and `totalCount` of `t`
by at least as much. -/
theorem processMiniBatches_counts (env : Collaborators K F C G) (opts : SalmonOpts)
    (calls : List (K × Bool × List (AlignmentGroup K))) (s : EMState K F C G)
    (t : TranscriptID) :
    let r := processMiniBatches env opts calls s
    let credit := (List.zipWith (fun c out => if c.2.1 then
        out.countP (fun g => Assigned g ∧ NamesOnly t g) else 0) calls r.1).sum
    (r.2.transcripts t).uniqueCount = (s.transcripts t).uniqueCount + credit ∧
      (s.transcripts t).totalCount + credit ≤ (r.2.transcripts t).totalCount := by
  induction calls generalizing s with
  | nil => simp [processMiniBatches]
  | cons c calls ih =>
    obtain ⟨lfm, initialRound, batch⟩ := c
    obtain ⟨hu, ht⟩ := processMiniBatch_counts env opts lfm initialRound batch s t
    obtain ⟨iu, it⟩ := ih (processMiniBatch env opts lfm initialRound batch s).2
    simp only [processMiniBatches, List.zipWith_cons_cons, List.sum_cons] at iu it hu ht ⊢
    omega

/-- Over any sequence of calls, `uniqueCount ≤ totalCount` is kept, together with the
counts of `processMiniBatches_counts`. -/
theorem processMiniBatches_uniqueCount_le_totalCount (env : Collaborators K F C G)
    (opts : SalmonOpts) (calls : List (K × Bool × List (AlignmentGroup K)))
    (s : EMState K F C G) (h : UniqueLeTotal s.transcripts) :
    let r := processMiniBatches env opts calls s
    UniqueLeTotal r.2.transcripts ∧
      ∀ t, let credit := (List.zipWith (fun c out => if c.2.1 then
          out.countP (fun g => Assigned g ∧ NamesOnly t g) else 0) calls r.1).sum
        (r.2.transcripts t).uniqueCount = (s.transcripts t).uniqueCount + credit ∧
          (s.transcripts t).totalCount + credit ≤ (r.2.transcripts t).totalCount := by
  refine ⟨fun t => ?_, processMiniBatches_counts env opts calls s⟩
  obtain ⟨hu, ht⟩ := processMiniBatches_counts env opts calls s t
  have := h t
  omega

/-- A fresh table, all counts zero, and one first-round call on a one-alignment group. -/
theorem processMiniBatches_fresh_table :
    let env : Collaborators ℚ≥0 Unit Unit Unit :=
      ⟨fun _ _ => 1, fun f _ _ => f, fun c _ _ _ _ => c, fun c _ => c, fun g => (0, g), fun _ => 0⟩
    let opts : SalmonOpts := ⟨true, true, false, false⟩
    let calls : List (ℚ≥0 × Bool × List (AlignmentGroup ℚ≥0)) :=
      [(1, true, [⟨[⟨7, ⟨.SINGLE_END, .NONE, .U⟩, 0, 250, 0⟩]⟩])]
    let s : EMState ℚ≥0 Unit Unit Unit :=
      ⟨fun _ => ⟨100, 1, 0, 0⟩, (), (), (), ⟨⟨.SINGLE_END, .NONE, .U⟩, fun _ => 0, true, 0⟩, 0,
        false⟩
    UniqueLeTotal s.transcripts ∧
      let r := processMiniBatches env opts calls s
      UniqueLeTotal r.2.transcripts ∧
        ∀ t, let credit := (List.zipWith (fun c out => if c.2.1 then
            out.countP (fun g => Assigned g ∧ NamesOnly t g) else 0) calls r.1).sum
          (r.2.transcripts t).uniqueCount = (s.transcripts t).uniqueCount + credit ∧
            (s.transcripts t).totalCount + credit ≤ (r.2.transcripts t).totalCount :=
  ⟨fun _ => le_rfl, processMiniBatches_uniqueCount_le_totalCount _ _ _ _ fun _ => le_rfl⟩

end SalmonQuant.EM
