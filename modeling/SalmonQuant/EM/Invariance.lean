import SalmonQuant.EM.MiniBatch

/-!
# What `processMiniBatch` does not read

Two things a batch carries that the quantification should not depend on.

## The `logProb`s the alignments carry in

The E-step overwrites every alignment's `logProb` before anything reads it, with a value
computed from its transcript, format and fragment length. So two batches whose
alignments agree on the four fields the mapping cache saves (`SMEMAlignment::save`) give
the same call, whatever `logProb`s the pooled groups held (`processMiniBatch_record`, and
over a worker's calls `processMiniBatches_records`).

## The order of a group's alignments

`getHitsForFragment` fills each group by iterating an `unordered_map`, so the order of a
group's alignments is unspecified (`Mapping/Fragment.lean` proves each group a
permutation of one list). `processMiniBatch` reads that order in three places:

* `firstTranscriptID` is the front's transcript: the uniqueness test compares every
  alignment with it, and the merged-cluster branch updates the front's cluster;
* the normalising loop draws `uni(randEng)` once per alignment, in order, and the draw
  decides whether that alignment's fragment length goes to `fragLengthDist.addVal`;
* `hitsForTranscript` stores its pointers in batch order.

The unique-count credit reads the front only when every alignment names the same
transcript, and every sum is a sum in `K`. So the transcripts' masses and counts,
`numAssignedFragments`, `burnedIn` and the library's format tally do not depend on the
order, as long as `logFragProb` does not read a distribution the draws changed:
`useFragLenDist` is off, or burn-in is over and no draw reaches `addVal`
(`processMiniBatch_agree`, and over a worker's calls `processMiniBatches_groupsPerm`).
The cluster forest can differ, and so can the distribution when `useFragLenDist` is off.

On the way, the M-step in closed form (`processMiniBatch_mass`): each transcript's mass
grows by `logForgettingMass` times the sum of the normalised `logProb`s of the
processed batch's alignments that name it.
-/

namespace SalmonQuant.EM

variable {K F C G : Type}

/-- Two batches whose groups hold alignments with the same saved fields, group by group
and in order: what the mapping cache keeps of a batch. -/
def SameRecords (b b' : List (AlignmentGroup K)) : Prop :=
  b.map (fun g => g.alignments.map SMEMAlignment.record) =
    b'.map fun g => g.alignments.map SMEMAlignment.record

/-- The saved fields fix an alignment up to its `logProb`. -/
theorem SMEMAlignment.eq_of_record {a a' : SMEMAlignment K} (h : a.record = a'.record) :
    a' = { a with logProb := a'.logProb } := by
  obtain ⟨_, _, _, _, _⟩ := a
  obtain ⟨_, _, _, _, _⟩ := a'
  simp only [SMEMAlignment.record, Prod.mk.injEq] at h
  obtain ⟨rfl, rfl, rfl, rfl⟩ := h
  rfl

/-- Two batches whose groups hold the same alignments, each group in its own order. -/
def GroupsPerm (b b' : List (AlignmentGroup K)) : Prop :=
  List.Forall₂ (fun g g' => g.alignments.Perm g'.alignments) b b'

theorem GroupsPerm.flatMap {b b' : List (AlignmentGroup K)} (h : GroupsPerm b b') :
    (b.flatMap AlignmentGroup.alignments).Perm (b'.flatMap AlignmentGroup.alignments) := by
  induction h with
  | nil => exact .nil
  | cons hg _ ih => exact hg.append ih

/-- The uniqueness test passes for one order exactly when it passes for another, and
then both fronts name the same transcript. -/
theorem allSame_of_perm {a0 a0' : SMEMAlignment K} {rest rest' : List (SMEMAlignment K)}
    (h : (a0 :: rest).Perm (a0' :: rest'))
    (same : ∀ a ∈ rest, a.transcriptID = a0.transcriptID) :
    a0'.transcriptID = a0.transcriptID ∧ ∀ a ∈ rest', a.transcriptID = a0'.transcriptID := by
  have all : ∀ a ∈ a0 :: rest, a.transcriptID = a0.transcriptID :=
    List.forall_mem_cons.2 ⟨rfl, same⟩
  have front := all a0' (h.mem_iff.2 (List.mem_cons_self _ _))
  exact ⟨front, fun a ha => (all a (h.mem_iff.2 (List.mem_cons_of_mem _ ha))).trans front.symm⟩

/-- What two E-step runs over groups in other orders keep equal: everything but the
cluster forest, the random engine and, where `useFragLenDist` does not read it, the
fragment-length distribution. -/
structure EStepAgree (opts : SalmonOpts) (v v' : EStepVars K F C G) : Prop where
  transcripts : v.transcripts = v'.transcripts
  libTypeCounts : v.libTypeCounts = v'.libTypeCounts
  assigned : v.localNumAssignedFragments = v'.localNumAssignedFragments
  fragLengthDist : opts.useFragLenDist = true → v.fragLengthDist = v'.fragLengthDist

variable [CanonicallyLinearOrderedSemifield K]

@[simp] theorem Transcript.addMass_mass (t : Transcript K) (m : K) :
    (t.addMass m).mass = t.mass + m := rfl

theorem Transcript.addMass_addMass (t : Transcript K) (m m' : K) :
    (t.addMass m).addMass m' = t.addMass (m + m') := by
  simp [Transcript.addMass, add_assoc]

@[simp] theorem Transcript.addMass_zero (t : Transcript K) : t.addMass 0 = t := by
  simp [Transcript.addMass]

/-! ## The alignment loop in closed form -/

/-- The `logProb` the alignment loop gives `aln` while the transcripts are `T`. -/
def scanLogProb (env : Collaborators K F C G) (opts : SalmonOpts) (expected : LibraryFormat)
    (fld : F) (T : TranscriptID → Transcript K) (aln : SMEMAlignment K) : K :=
  if (T aln.transcriptID).mass ≠ LOG_0 then
    alignLogProb env opts expected fld (T aln.transcriptID) aln
  else LOG_0

/-- Without `useFragLenDist` the distribution is never read. -/
theorem scanLogProb_fld (env : Collaborators K F C G) {opts : SalmonOpts}
    (off : opts.useFragLenDist = false) (expected : LibraryFormat) (fld fld' : F)
    (T : TranscriptID → Transcript K) :
    scanLogProb env opts expected fld T = scanLogProb env opts expected fld' T := by
  funext aln
  simp [scanLogProb, alignLogProb, off]

/-- Only masses and lengths are read, and the loop changes neither. -/
theorem scanLogProb_of_countsOnly (env : Collaborators K F C G) (opts : SalmonOpts)
    (expected : LibraryFormat) (fld : F) {T T' : TranscriptID → Transcript K}
    (h : CountsOnly T T') :
    scanLogProb env opts expected fld T = scanLogProb env opts expected fld T' := by
  funext aln
  simp only [scanLogProb, alignLogProb, (h _).1, (h _).2.1]

section Step

variable (env : Collaborators K F C G) (opts : SalmonOpts) (expected : LibraryFormat)
  (fld : F) (updateCounts : Bool) (first : TranscriptID)

theorem scanAlignment_fst (st : AlnScan K) (aln : SMEMAlignment K) :
    (scanAlignment env opts expected fld updateCounts first st aln).1 =
      { aln with logProb := scanLogProb env opts expected fld st.transcripts aln } := by
  unfold scanAlignment scanLogProb
  dsimp only
  split_ifs <;> rfl

theorem scanAlignment_libTypeCounts (st : AlnScan K) (aln : SMEMAlignment K) (i : Nat) :
    (scanAlignment env opts expected fld updateCounts first st aln).2.libTypeCounts i =
      st.libTypeCounts i + if (st.transcripts aln.transcriptID).mass ≠ 0 ∧
        (env.formatID aln.format).toNat = i then 1 else 0 := by
  unfold scanAlignment
  by_cases hm : (st.transcripts aln.transcriptID).mass = 0
  · simp [hm]
  · by_cases hi : (env.formatID aln.format).toNat = i
    · subst hi; simp [hm, bump]
    · simp [hm, hi, bump, Function.update_noteq (Ne.symm hi)]

/-- A transcript's `totalCount` goes up the first time an alignment of non-zero mass
names it. -/
theorem scanAlignment_transcripts (st : AlnScan K) (aln : SMEMAlignment K) (t : TranscriptID) :
    (scanAlignment env opts expected fld updateCounts first st aln).2.transcripts t =
      if updateCounts ∧ (st.transcripts t).mass ≠ 0 ∧ t = aln.transcriptID ∧
        t ∉ st.observedTranscripts then (st.transcripts t).addTotalCount 1
      else st.transcripts t := by
  unfold scanAlignment
  by_cases ht : t = aln.transcriptID
  · subst ht
    by_cases hm : (st.transcripts aln.transcriptID).mass = 0 <;>
      by_cases seen : aln.transcriptID ∈ st.observedTranscripts <;>
      cases updateCounts <;> simp [hm, seen]
  · by_cases hm : (st.transcripts aln.transcriptID).mass = 0
    · simp [hm, ht]
    · simp only [LOG_0_eq, ne_eq, hm, not_false_eq_true, if_true, ht, false_and, and_false,
        if_false]
      split
      · exact Function.update_noteq ht _ _
      · rfl

theorem scanAlignment_observed (st : AlnScan K) (aln : SMEMAlignment K) (t : TranscriptID) :
    t ∈ (scanAlignment env opts expected fld updateCounts first st aln).2.observedTranscripts ↔
      t ∈ st.observedTranscripts ∨
        (t = aln.transcriptID ∧ (st.transcripts aln.transcriptID).mass ≠ 0) := by
  unfold scanAlignment
  by_cases hm : (st.transcripts aln.transcriptID).mass = 0
  · simp [hm]
  · by_cases seen : aln.transcriptID ∈ st.observedTranscripts
    · simp only [LOG_0_eq, ne_eq, hm, not_false_eq_true, if_true, List.elem_eq_mem, seen,
        decide_True, and_true]
      exact ⟨.inl, fun h => h.elim id fun e => e ▸ seen⟩
    · simp [hm, seen, or_comm]

theorem scanAlignments_fst (st : AlnScan K) (alns : List (SMEMAlignment K)) :
    (scanAlignments env opts expected fld updateCounts first st alns).1 =
      alns.map fun a =>
        { a with logProb := scanLogProb env opts expected fld st.transcripts a } := by
  induction alns generalizing st with
  | nil => rfl
  | cons aln alns ih =>
    have counts := (scanAlignment_spec env opts expected fld updateCounts first st aln).2.2.2.1
    simp only [scanAlignments, List.map_cons, ih, scanAlignment_fst,
      scanLogProb_of_countsOnly env opts expected fld counts]

theorem scanAlignments_sum (st : AlnScan K) (alns : List (SMEMAlignment K)) :
    (scanAlignments env opts expected fld updateCounts first st alns).2.sumOfAlignProbs =
      st.sumOfAlignProbs + (alns.map (scanLogProb env opts expected fld st.transcripts)).sum := by
  rw [(scanAlignments_spec env opts expected fld updateCounts first st alns).2.1,
    scanAlignments_fst, List.map_map]
  rfl

/-- `++libTypeCounts[formatID]` for every alignment of non-zero mass. -/
theorem scanAlignments_libTypeCounts (st : AlnScan K) (alns : List (SMEMAlignment K)) :
    (scanAlignments env opts expected fld updateCounts first st alns).2.libTypeCounts =
      fun i => st.libTypeCounts i + alns.countP fun a =>
        (st.transcripts a.transcriptID).mass ≠ 0 ∧ (env.formatID a.format).toNat = i := by
  induction alns generalizing st with
  | nil => rfl
  | cons aln alns ih =>
    have counts := (scanAlignment_spec env opts expected fld updateCounts first st aln).2.2.2.1
    funext i
    simp only [scanAlignments, ih, scanAlignment_libTypeCounts, List.countP_cons,
      (counts _).1, decide_eq_true_eq]
    omega

/-- Each transcript of non-zero mass that the loop meets and had not seen before gets
one `totalCount`, whatever the order. -/
theorem scanAlignments_transcripts (st : AlnScan K) (alns : List (SMEMAlignment K))
    (t : TranscriptID) :
    (scanAlignments env opts expected fld updateCounts first st alns).2.transcripts t =
      if updateCounts ∧ (st.transcripts t).mass ≠ 0 ∧ t ∈ alns.map SMEMAlignment.transcriptID ∧
        t ∉ st.observedTranscripts then (st.transcripts t).addTotalCount 1
      else st.transcripts t := by
  induction alns generalizing st with
  | nil => simp [scanAlignments]
  | cons aln alns ih =>
    have counts := (scanAlignment_spec env opts expected fld updateCounts first st aln).2.2.2.1
    simp only [scanAlignments]
    rw [ih, (counts t).1]
    simp only [scanAlignment_transcripts, scanAlignment_observed, List.map_cons, List.mem_cons]
    by_cases ht : t = aln.transcriptID
    · subst ht
      by_cases seen : aln.transcriptID ∈ st.observedTranscripts <;>
        by_cases hm : (st.transcripts aln.transcriptID).mass = 0 <;> simp [seen, hm]
    · simp [ht]

end Step

/-! ## One group, two orders -/

theorem normalizeAlignments_fld_of_burnedIn (env : Collaborators K F C G) (lfm S : K)
    (fg : F × G) (alns : List (SMEMAlignment K)) :
    (normalizeAlignments env lfm true S fg alns).2.1 = fg.1 := by
  induction alns generalizing fg with
  | nil => rfl
  | cons aln alns ih => obtain ⟨fld, eng⟩ := fg; simp [normalizeAlignments, ih]

section Group

variable (env : Collaborators K F C G) (opts : SalmonOpts) (expected : LibraryFormat)
  (lfm : K) (updateCounts burnedIn : Bool)

/-- The two scans of one group in two orders: the same alignments with the same
`logProb`s, the same sum, transcripts and tally, and the same uniqueness verdict. -/
theorem groupScan_agree {v v' : EStepVars K F C G} (agree : EStepAgree opts v v')
    {a0 a0' : SMEMAlignment K} {rest rest' : List (SMEMAlignment K)}
    (h : (a0 :: rest).Perm (a0' :: rest')) :
    let sc := groupScan env opts expected updateCounts v a0 rest
    let sc' := groupScan env opts expected updateCounts v' a0' rest'
    sc.1.Perm sc'.1 ∧ sc.2.sumOfAlignProbs = sc'.2.sumOfAlignProbs ∧
      sc.2.transcripts = sc'.2.transcripts ∧ sc.2.libTypeCounts = sc'.2.libTypeCounts ∧
      sc.2.transcriptUnique = sc'.2.transcriptUnique ∧
      (sc.2.transcriptUnique = true → a0'.transcriptID = a0.transcriptID) := by
  have lp : scanLogProb env opts expected v.fragLengthDist v.transcripts =
      scanLogProb env opts expected v'.fragLengthDist v'.transcripts := by
    rw [agree.transcripts]
    cases use : opts.useFragLenDist
    · exact scanLogProb_fld env use expected _ _ _
    · rw [agree.fragLengthDist use]
  have uniq := (groupScan_spec env opts expected updateCounts v a0 rest).2.2.2
  have uniq' := (groupScan_spec env opts expected updateCounts v' a0' rest').2.2.2
  dsimp only [groupScan] at uniq uniq' ⊢
  refine ⟨?_, ?_, ?_, ?_, ?_, fun u => (allSame_of_perm h (uniq.1 u)).1⟩
  · rw [scanAlignments_fst, scanAlignments_fst, lp]
    exact h.map _
  · rw [scanAlignments_sum, scanAlignments_sum, lp, (h.map _).sum_eq]
  · funext t
    simp only [scanAlignments_transcripts, agree.transcripts,
      (h.map SMEMAlignment.transcriptID).mem_iff]
  · rw [scanAlignments_libTypeCounts, scanAlignments_libTypeCounts, agree.libTypeCounts,
      agree.transcripts]
    funext i
    rw [h.countP_eq]
  · rw [Bool.eq_iff_iff, uniq, uniq']
    exact ⟨fun same => (allSame_of_perm h same).2,
      fun same => (allSame_of_perm h.symm same).2⟩

theorem eStepGroup_libTypeCounts (v : EStepVars K F C G) {g : AlignmentGroup K}
    {a0 : SMEMAlignment K} {rest : List (SMEMAlignment K)} (hg : g.alignments = a0 :: rest) :
    (eStepGroup env opts expected lfm updateCounts burnedIn v g).2.libTypeCounts =
      (groupScan env opts expected updateCounts v a0 rest).2.libTypeCounts := by
  unfold eStepGroup groupScan
  rw [hg]
  dsimp only
  split_ifs <;> rfl

/-- After burn-in no draw reaches `addVal`. -/
theorem eStepGroup_fragLengthDist (v : EStepVars K F C G) (g : AlignmentGroup K) :
    (eStepGroup env opts expected lfm updateCounts true v g).2.fragLengthDist =
      v.fragLengthDist := by
  unfold eStepGroup
  split
  · rfl
  · dsimp only
    split_ifs
    · rfl
    all_goals exact normalizeAlignments_fld_of_burnedIn env lfm _ _ _

/-- The E-step changes no mass. -/
theorem eStepGroup_mass (v : EStepVars K F C G) (g : AlignmentGroup K) (t : TranscriptID) :
    ((eStepGroup env opts expected lfm updateCounts burnedIn v g).2.transcripts t).mass =
      (v.transcripts t).mass := by
  cases hg : g.alignments with
  | nil => simp [eStepGroup, hg]
  | cons a0 rest =>
    have counts := (groupScan_spec env opts expected updateCounts v a0 rest).2.2.1
    rw [(eStepGroup_of_cons env opts expected lfm updateCounts burnedIn v hg).2.2]
    split
    · by_cases ht : t = a0.transcriptID
      · subst ht; simp [Transcript.addUniqueCount, (counts _).1]
      · rw [Function.update_noteq ht]; exact (counts t).1
    · exact (counts t).1

/-- One group in two orders: the processed group holds the same alignments, and the
E-step's variables still agree. -/
theorem eStepGroup_agree (hfld : opts.useFragLenDist = false ∨ burnedIn = true)
    {v v' : EStepVars K F C G} {g g' : AlignmentGroup K} (hg : g.alignments.Perm g'.alignments)
    (agree : EStepAgree opts v v') :
    (eStepGroup env opts expected lfm updateCounts burnedIn v g).1.alignments.Perm
        (eStepGroup env opts expected lfm updateCounts burnedIn v' g').1.alignments ∧
      EStepAgree opts (eStepGroup env opts expected lfm updateCounts burnedIn v g).2
        (eStepGroup env opts expected lfm updateCounts burnedIn v' g').2 := by
  have fld : opts.useFragLenDist = true →
      (eStepGroup env opts expected lfm updateCounts burnedIn v g).2.fragLengthDist =
        (eStepGroup env opts expected lfm updateCounts burnedIn v' g').2.fragLengthDist := by
    intro use
    obtain rfl : burnedIn = true := hfld.resolve_left (by simp [use])
    rw [eStepGroup_fragLengthDist, eStepGroup_fragLengthDist, agree.fragLengthDist use]
  cases h : g.alignments with
  | nil =>
    have h' : g'.alignments = [] := List.perm_nil.1 (h ▸ hg).symm
    simp only [eStepGroup, h, h'] at fld ⊢
    exact ⟨.nil, agree⟩
  | cons a0 rest =>
    obtain ⟨a0', rest', h'⟩ : ∃ a0' rest', g'.alignments = a0' :: rest' :=
      List.exists_cons_of_ne_nil fun e => by simp [h, e] at hg
    rw [h, h'] at hg
    obtain ⟨perm, sum, T, lib, uniq, front⟩ :=
      groupScan_agree env opts expected updateCounts agree hg
    obtain ⟨r1, local1, T1⟩ := eStepGroup_of_cons env opts expected lfm updateCounts burnedIn v h
    obtain ⟨r1', local1', T1'⟩ :=
      eStepGroup_of_cons env opts expected lfm updateCounts burnedIn v' h'
    refine ⟨?_, ⟨?_, ?_, ?_, fld⟩⟩
    · rw [r1, r1', sum]
      split
      · exact perm
      · exact perm.map _
    · rw [T1, T1', sum, T, uniq]
      split_ifs with credited
      · rw [front (uniq.trans credited.2.1)]
      · rfl
    · rw [eStepGroup_libTypeCounts env opts expected lfm updateCounts burnedIn v h,
        eStepGroup_libTypeCounts env opts expected lfm updateCounts burnedIn v' h', lib]
    · rw [local1, local1', agree.assigned, sum]

end Group

section Batch

variable (env : Collaborators K F C G) (opts : SalmonOpts) (expected : LibraryFormat)
  (lfm : K) (updateCounts burnedIn : Bool)

/-- The E-step over two batches whose groups are in other orders. -/
theorem eStep_agree (hfld : opts.useFragLenDist = false ∨ burnedIn = true)
    {v v' : EStepVars K F C G} {b b' : List (AlignmentGroup K)} (hb : GroupsPerm b b')
    (agree : EStepAgree opts v v') :
    GroupsPerm (eStep env opts expected lfm updateCounts burnedIn v b).1
        (eStep env opts expected lfm updateCounts burnedIn v' b').1 ∧
      EStepAgree opts (eStep env opts expected lfm updateCounts burnedIn v b).2
        (eStep env opts expected lfm updateCounts burnedIn v' b').2 := by
  induction hb generalizing v v' with
  | nil => exact ⟨.nil, agree⟩
  | cons hg _ ih =>
    obtain ⟨perm, agree1⟩ :=
      eStepGroup_agree env opts expected lfm updateCounts burnedIn hfld hg agree
    obtain ⟨perms, agree2⟩ := ih agree1
    exact ⟨.cons perm perms, agree2⟩

theorem eStep_fragLengthDist (v : EStepVars K F C G) (b : List (AlignmentGroup K)) :
    (eStep env opts expected lfm updateCounts true v b).2.fragLengthDist = v.fragLengthDist := by
  induction b generalizing v with
  | nil => rfl
  | cons g gs ih =>
    exact (ih _).trans (eStepGroup_fragLengthDist env opts expected lfm updateCounts v g)

theorem eStep_mass (v : EStepVars K F C G) (b : List (AlignmentGroup K)) (t : TranscriptID) :
    ((eStep env opts expected lfm updateCounts burnedIn v b).2.transcripts t).mass =
      (v.transcripts t).mass := by
  induction b generalizing v with
  | nil => rfl
  | cons g gs ih =>
    exact (ih _).trans (eStepGroup_mass env opts expected lfm updateCounts burnedIn v g t)

end Batch

/-! ## The M-step in closed form -/

/-- `transcript.addMass(updateMass)` for every key: each transcript gains the updates
that name it. -/
theorem mStep_apply (T : TranscriptID → Transcript K) (updates : List (TranscriptID × K))
    (t : TranscriptID) :
    mStep T updates t = (T t).addMass ((updates.filter (·.1 = t)).map Prod.snd).sum := by
  induction updates generalizing T with
  | nil => simp [mStep]
  | cons u us ih =>
    show mStep (Function.update T u.1 ((T u.1).addMass u.2)) us t = _
    rw [ih]
    by_cases h : u.1 = t
    · subst h; simp [Transcript.addMass_addMass]
    · simp [h, Function.update_noteq (Ne.symm h)]

theorem updateMasses_key (lfm : K) (batch : List (AlignmentGroup K))
    (hits : List (TranscriptID × List Nat)) (t : TranscriptID) :
    (((updateMasses lfm batch hits).filter (·.1 = t)).map Prod.snd).sum =
      lfm * ((hits.filter (·.1 = t)).map fun h => (h.2.map (logProbAt batch)).sum).sum := by
  simp only [updateMasses, List.filter_map, List.map_map, Function.comp_def, hitMass_eq_sum,
    LOG_0_eq, zero_add, List.sum_map_mul_left]

/-- Inserting a pointer adds its term to its own transcript's buckets only. -/
theorem sum_insertHit_key (f : Nat → K) (tid t : TranscriptID) (p : Nat)
    (m : List (TranscriptID × List Nat)) :
    (((insertHit tid p m).filter (·.1 = t)).map fun h => (h.2.map f).sum).sum =
      ((m.filter (·.1 = t)).map fun h => (h.2.map f).sum).sum + if tid = t then f p else 0 := by
  induction m with
  | nil => by_cases h : tid = t <;> simp [insertHit, h]
  | cons h m ih =>
    obtain ⟨k, ps⟩ := h
    by_cases e : tid = k
    · subst e
      by_cases kt : tid = t <;> simp [insertHit, List.filter_cons, kt, add_right_comm]
    · by_cases lt : tid < k
      · by_cases kt : tid = t
        · subst kt; simp [insertHit, e, lt, List.filter_cons, Ne.symm e, add_comm]
        · by_cases k' : k = t
          · subst k'; simp [insertHit, e, lt, List.filter_cons, kt]
          · simp [insertHit, e, lt, List.filter_cons, kt, k']
      · by_cases k' : k = t
        · subst k'; simp [insertHit, e, lt, List.filter_cons, ih, add_assoc]
        · simp [insertHit, e, lt, List.filter_cons, k', ih]

/-- The buckets of a transcript hold exactly the pointers to its alignments. -/
theorem sum_hitsForTranscript_key (f : Nat → K) (batch : List (AlignmentGroup K))
    (t : TranscriptID) :
    (((hitsForTranscript batch).filter (·.1 = t)).map fun h => (h.2.map f).sum).sum =
      (((hitPointers batch).filter (·.1 = t)).map fun h => f h.2).sum := by
  have fold : ∀ (pts : List (TranscriptID × Nat)) (m : List (TranscriptID × List Nat)),
      (((pts.foldl (fun m h => insertHit h.1 h.2 m) m).filter (·.1 = t)).map
          fun h => (h.2.map f).sum).sum =
        ((m.filter (·.1 = t)).map fun h => (h.2.map f).sum).sum +
          ((pts.filter (·.1 = t)).map fun h => f h.2).sum := by
    intro pts
    induction pts with
    | nil => simp
    | cons h pts ih =>
      intro m
      by_cases ht : h.1 = t <;> simp [ih, sum_insertHit_key, ht, List.filter_cons, add_assoc]
  rw [hitsForTranscript, fold]
  simp

omit [CanonicallyLinearOrderedSemifield K] in
/-- `hitsForTranscript` reads only the batch's transcript ids. -/
theorem hitPointers_eq_of_transcriptIDs {b e : List (AlignmentGroup K)}
    (tids : (b.flatMap AlignmentGroup.alignments).map SMEMAlignment.transcriptID =
      (e.flatMap AlignmentGroup.alignments).map SMEMAlignment.transcriptID) :
    hitPointers b = hitPointers e := by
  have enum : ∀ l : List (SMEMAlignment K),
      l.enum.map (fun p => (p.2.transcriptID, p.1)) =
        (l.map SMEMAlignment.transcriptID).enum.map fun p => (p.2, p.1) := by
    intro l
    rw [List.enum_map, List.map_map]
    rfl
  simp only [hitPointers, enum, tids]

/-- Following a transcript's pointers reads the `logProb`s of its alignments. -/
theorem sum_logProbAt_key (batch : List (AlignmentGroup K)) (t : TranscriptID) :
    (((hitPointers batch).filter (·.1 = t)).map fun h => logProbAt batch h.2).sum =
      (((batch.flatMap AlignmentGroup.alignments).filter (·.transcriptID = t)).map
        SMEMAlignment.logProb).sum := by
  unfold hitPointers logProbAt
  generalize batch.flatMap AlignmentGroup.alignments = l
  have read : ∀ p ∈ l.enum.filter (fun p => p.2.transcriptID = t),
      ((l[p.1]?.map SMEMAlignment.logProb).getD LOG_0) = p.2.logProb := fun p hp => by
    rw [List.mem_enum_iff_getElem?.1 (List.mem_filter.1 hp).1]
    rfl
  rw [List.filter_map, List.map_map]
  simp only [Function.comp_def]
  rw [List.map_congr_left read]
  conv_rhs => rw [← List.enum_map_snd l, List.filter_map, List.map_map]
  rfl

/-- The M-step in closed form: over the batch `e` the E-step left, with `e`'s pointers
taken from the batch `b` it came from, each transcript gains `logForgettingMass` times
the `logProb`s of its alignments. -/
theorem mStep_hitsForTranscript (T : TranscriptID → Transcript K) (lfm : K)
    {b e : List (AlignmentGroup K)}
    (tids : (b.flatMap AlignmentGroup.alignments).map SMEMAlignment.transcriptID =
      (e.flatMap AlignmentGroup.alignments).map SMEMAlignment.transcriptID)
    (t : TranscriptID) :
    mStep T (updateMasses lfm e (hitsForTranscript b)) t =
      (T t).addMass (lfm * (((e.flatMap AlignmentGroup.alignments).filter
        (·.transcriptID = t)).map SMEMAlignment.logProb).sum) := by
  rw [mStep_apply, updateMasses_key, sum_hitsForTranscript_key,
    hitPointers_eq_of_transcriptIDs tids, sum_logProbAt_key]

/-! ## The incoming `logProb`s -/

section Records

variable (env : Collaborators K F C G) (opts : SalmonOpts) (expected : LibraryFormat)
  (lfm : K) (updateCounts burnedIn : Bool)

theorem scanAlignment_record (fld : F) (first : TranscriptID) (st : AlnScan K)
    {aln aln' : SMEMAlignment K} (h : aln.record = aln'.record) :
    scanAlignment env opts expected fld updateCounts first st aln' =
      scanAlignment env opts expected fld updateCounts first st aln := by
  rw [SMEMAlignment.eq_of_record h]
  rfl

theorem scanAlignments_record (fld : F) (first : TranscriptID) (st : AlnScan K)
    {alns alns' : List (SMEMAlignment K)}
    (h : alns.map SMEMAlignment.record = alns'.map SMEMAlignment.record) :
    scanAlignments env opts expected fld updateCounts first st alns' =
      scanAlignments env opts expected fld updateCounts first st alns := by
  induction alns generalizing st alns' with
  | nil => cases alns' with
    | nil => rfl
    | cons => cases h
  | cons aln alns ih => cases alns' with
    | nil => cases h
    | cons aln' alns' =>
      simp only [List.map_cons, List.cons.injEq] at h
      simp only [scanAlignments, scanAlignment_record env opts expected updateCounts fld first st h.1,
        ih _ h.2]

theorem eStepGroup_record (v : EStepVars K F C G) {g g' : AlignmentGroup K}
    (h : g.alignments.map SMEMAlignment.record = g'.alignments.map SMEMAlignment.record) :
    eStepGroup env opts expected lfm updateCounts burnedIn v g' =
      eStepGroup env opts expected lfm updateCounts burnedIn v g := by
  obtain ⟨alns⟩ := g
  obtain ⟨alns'⟩ := g'
  cases alns with
  | nil => cases alns' with
    | nil => rfl
    | cons => cases h
  | cons a0 rest => cases alns' with
    | nil => cases h
    | cons a0' rest' =>
      have front : a0'.transcriptID = a0.transcriptID := by
        rw [SMEMAlignment.eq_of_record (List.cons.inj h).1]
      simp only [eStepGroup, front, scanAlignments_record env opts expected updateCounts _ _ _ h]

theorem eStep_record (v : EStepVars K F C G) {b b' : List (AlignmentGroup K)}
    (h : SameRecords b b') :
    eStep env opts expected lfm updateCounts burnedIn v b' =
      eStep env opts expected lfm updateCounts burnedIn v b := by
  induction b generalizing b' v with
  | nil => cases b' with
    | nil => rfl
    | cons => cases h
  | cons g gs ih => cases b' with
    | nil => cases h
    | cons g' gs' =>
      obtain ⟨hg, hgs⟩ := List.cons.inj h
      simp only [eStep, eStepGroup_record env opts expected lfm updateCounts burnedIn v hg,
        ih _ hgs]

end Records

omit [CanonicallyLinearOrderedSemifield K] in
theorem SameRecords.transcriptIDs {b b' : List (AlignmentGroup K)} (h : SameRecords b b') :
    (b.flatMap AlignmentGroup.alignments).map SMEMAlignment.transcriptID =
      (b'.flatMap AlignmentGroup.alignments).map SMEMAlignment.transcriptID := by
  have tid : ∀ l : List (AlignmentGroup K),
      (l.flatMap AlignmentGroup.alignments).map SMEMAlignment.transcriptID =
        ((l.map fun g => g.alignments.map SMEMAlignment.record).map
          fun rs => rs.map Prod.fst).flatten := by
    intro l
    simp [List.map_flatMap, List.flatMap_def, List.map_map, Function.comp_def,
      SMEMAlignment.record]
  rw [tid, tid, h]

/-- A call never reads the `logProb`s the batch carries in: batches with the same saved
fields give the same processed batch and the same state. -/
theorem processMiniBatch_record (env : Collaborators K F C G) (opts : SalmonOpts) (lfm : K)
    (initialRound : Bool) {b b' : List (AlignmentGroup K)} (h : SameRecords b b')
    (s : EMState K F C G) :
    processMiniBatch env opts lfm initialRound b' s =
      processMiniBatch env opts lfm initialRound b s := by
  simp only [processMiniBatch, eStep_record env opts _ lfm _ _ _ h,
    hitsForTranscript, hitPointers_eq_of_transcriptIDs h.transcriptIDs.symm]

/-- A worker's calls on batches that agree, call by call, on the saved fields of their
alignments (whatever `logProb`s they carry in) end in the same state with the same
processed batches. -/
theorem processMiniBatches_records (env : Collaborators K F C G) (opts : SalmonOpts)
    {calls calls' : List (K × Bool × List (AlignmentGroup K))}
    (same : List.Forall₂ (fun c c' => c.1 = c'.1 ∧ c.2.1 = c'.2.1 ∧ SameRecords c.2.2 c'.2.2)
      calls calls')
    (s : EMState K F C G) :
    processMiniBatches env opts calls' s = processMiniBatches env opts calls s := by
  induction same generalizing s with
  | nil => rfl
  | @cons c c' _ _ hc _ ih =>
    obtain ⟨lfm, initialRound, batch⟩ := c
    obtain ⟨lfm', initialRound', batch'⟩ := c'
    obtain ⟨rfl, rfl, hb⟩ := hc
    simp only [processMiniBatches, processMiniBatch_record env opts lfm initialRound hb, ih]

/-- One call on a group whose alignment carries in a stale `logProb`. -/
theorem processMiniBatches_stale_logProb :
    let env : Collaborators ℚ≥0 Unit Unit Unit :=
      ⟨fun _ _ => 1, fun f _ _ => f, fun c _ _ _ _ => c, fun c _ => c, fun g => (0, g), fun _ => 0⟩
    let opts : SalmonOpts := ⟨true, true, false, false⟩
    let calls : List (ℚ≥0 × Bool × List (AlignmentGroup ℚ≥0)) :=
      [(1, true, [⟨[⟨7, ⟨.SINGLE_END, .NONE, .U⟩, 0, 250, 0⟩]⟩])]
    let calls' : List (ℚ≥0 × Bool × List (AlignmentGroup ℚ≥0)) :=
      [(1, true, [⟨[⟨7, ⟨.SINGLE_END, .NONE, .U⟩, 0, 250, 5⟩]⟩])]
    let s : EMState ℚ≥0 Unit Unit Unit :=
      ⟨fun _ => ⟨100, 1, 0, 0⟩, (), (), (), ⟨⟨.SINGLE_END, .NONE, .U⟩, fun _ => 0, true, 0⟩, 0,
        false⟩
    List.Forall₂ (fun c c' => c.1 = c'.1 ∧ c.2.1 = c'.2.1 ∧ SameRecords c.2.2 c'.2.2)
        calls calls' ∧
      processMiniBatches env opts calls' s = processMiniBatches env opts calls s := by
  intro env opts calls calls' s
  have same : List.Forall₂ (fun c c' => c.1 = c'.1 ∧ c.2.1 = c'.2.1 ∧
      SameRecords c.2.2 c'.2.2) calls calls' := .cons ⟨rfl, rfl, rfl⟩ .nil
  exact ⟨same, processMiniBatches_records env opts same s⟩

/-! ## `processMiniBatch` -/

omit [CanonicallyLinearOrderedSemifield K] in
/-- The batch's transcript ids, read in order, as `hitsForTranscript` reads them. -/
theorem transcriptIDs_flatMap (b : List (AlignmentGroup K)) :
    (b.flatMap AlignmentGroup.alignments).map SMEMAlignment.transcriptID =
      (b.map fun g => g.alignments.map SMEMAlignment.transcriptID).flatten := by
  rw [List.map_flatMap, List.flatMap_def]

/-- A call's transcripts: the E-step's counts, and the M-step's mass for each
transcript from the processed batch. -/
theorem processMiniBatch_transcripts (env : Collaborators K F C G) (opts : SalmonOpts)
    (lfm : K) (initialRound : Bool) (batchHits : List (AlignmentGroup K))
    (s : EMState K F C G) (t : TranscriptID) :
    (processMiniBatch env opts lfm initialRound batchHits s).2.transcripts t =
      ((eStep env opts s.readLib.format lfm initialRound s.burnedIn
          ⟨s.transcripts, s.clusterForest, s.fragLengthDist, s.randEng, fun _ => 0, 0⟩
          batchHits).2.transcripts t).addMass
        (lfm * ((((processMiniBatch env opts lfm initialRound batchHits s).1.flatMap
          AlignmentGroup.alignments).filter (·.transcriptID = t)).map
            SMEMAlignment.logProb).sum) := by
  have tids := eStep_transcriptIDs env opts s.readLib.format lfm initialRound s.burnedIn
    ⟨s.transcripts, s.clusterForest, s.fragLengthDist, s.randEng, fun _ => 0, 0⟩ batchHits
  exact mStep_hitsForTranscript _ lfm (by rw [transcriptIDs_flatMap, transcriptIDs_flatMap, tids]) t

/-- The M-step of a call: every transcript's mass grows by `logForgettingMass` times
the sum of the `logProb`s the E-step left on the batch's alignments naming it, and a
transcript no alignment names keeps its mass. -/
theorem processMiniBatch_mass (env : Collaborators K F C G) (opts : SalmonOpts) (lfm : K)
    (initialRound : Bool) (batchHits : List (AlignmentGroup K)) (s : EMState K F C G)
    (t : TranscriptID) :
    let r := processMiniBatch env opts lfm initialRound batchHits s
    (r.2.transcripts t).mass = (s.transcripts t).mass +
      lfm * (((r.1.flatMap AlignmentGroup.alignments).filter (·.transcriptID = t)).map
        SMEMAlignment.logProb).sum := by
  dsimp only
  rw [processMiniBatch_transcripts, Transcript.addMass_mass, eStep_mass]

/-- What two runs of `processMiniBatch` over batches in other orders keep equal: all but
the cluster forest and the random engine, and the fragment-length distribution where
`useFragLenDist` reads it. -/
structure EMAgree (opts : SalmonOpts) (s s' : EMState K F C G) : Prop where
  transcripts : s.transcripts = s'.transcripts
  readLib : s.readLib = s'.readLib
  numAssignedFragments : s.numAssignedFragments = s'.numAssignedFragments
  burnedIn : s.burnedIn = s'.burnedIn
  fragLengthDist : opts.useFragLenDist = true → s.fragLengthDist = s'.fragLengthDist

omit [CanonicallyLinearOrderedSemifield K] in
theorem EMAgree.refl (opts : SalmonOpts) (s : EMState K F C G) : EMAgree opts s s :=
  ⟨rfl, rfl, rfl, rfl, fun _ => rfl⟩

/-- `burnedIn` is never cleared. -/
theorem processMiniBatch_burnedIn (env : Collaborators K F C G) (opts : SalmonOpts) (lfm : K)
    (initialRound : Bool) (batchHits : List (AlignmentGroup K)) {s : EMState K F C G}
    (h : s.burnedIn = true) :
    (processMiniBatch env opts lfm initialRound batchHits s).2.burnedIn = true := by
  simp [processMiniBatch, h]

/-- One call on two batches whose groups are in other orders, from states that agree:
the processed groups hold the same alignments and the states still agree. -/
theorem processMiniBatch_agree (env : Collaborators K F C G) (opts : SalmonOpts) (lfm : K)
    (initialRound : Bool) {b b' : List (AlignmentGroup K)} {s s' : EMState K F C G}
    (hfld : opts.useFragLenDist = false ∨ s.burnedIn = true) (order : GroupsPerm b b')
    (agree : EMAgree opts s s') :
    GroupsPerm (processMiniBatch env opts lfm initialRound b s).1
        (processMiniBatch env opts lfm initialRound b' s').1 ∧
      EMAgree opts (processMiniBatch env opts lfm initialRound b s).2
        (processMiniBatch env opts lfm initialRound b' s').2 := by
  obtain ⟨T', cf', fld', eng', rl', n', bi'⟩ := s'
  obtain ⟨rfl, rfl, rfl, rfl, sameFld⟩ := agree
  have start : EStepAgree opts
      ⟨s.transcripts, s.clusterForest, s.fragLengthDist, s.randEng, fun _ => 0, 0⟩
      ⟨s.transcripts, cf', fld', eng', fun _ => 0, 0⟩ := ⟨rfl, rfl, rfl, sameFld⟩
  obtain ⟨perm, eAgree⟩ :=
    eStep_agree env opts s.readLib.format lfm initialRound s.burnedIn hfld order start
  refine ⟨perm, ⟨?_, ?_, ?_, ?_, ?_⟩⟩
  · funext t
    rw [processMiniBatch_transcripts, processMiniBatch_transcripts, eAgree.transcripts]
    exact congrArg _ (congrArg (lfm * ·) ((perm.flatMap.filter _).map _).sum_eq)
  · simp only [processMiniBatch, eAgree.libTypeCounts]
  · simp only [processMiniBatch, eAgree.assigned]
  · simp only [processMiniBatch, eAgree.assigned]
  · intro use
    obtain bi : s.burnedIn = true := hfld.resolve_left (by simp [use])
    simp only [processMiniBatch, bi, eStep_fragLengthDist]
    exact sameFld use

/-- A worker's calls, each on a batch whose groups may be in any order: from the same
state, with `useFragLenDist` off or burn-in over, the transcripts (masses and counts),
`numAssignedFragments`, `burnedIn` and the library's format tally at the end do not
depend on the orders, and each processed batch holds the same alignments. -/
theorem processMiniBatches_groupsPerm (env : Collaborators K F C G) (opts : SalmonOpts)
    {calls calls' : List (K × Bool × List (AlignmentGroup K))} {s s' : EMState K F C G}
    (hfld : opts.useFragLenDist = false ∨ s.burnedIn = true)
    (order : List.Forall₂ (fun c c' => c.1 = c'.1 ∧ c.2.1 = c'.2.1 ∧ GroupsPerm c.2.2 c'.2.2)
      calls calls')
    (agree : EMAgree opts s s') :
    List.Forall₂ GroupsPerm (processMiniBatches env opts calls s).1
        (processMiniBatches env opts calls' s').1 ∧
      EMAgree opts (processMiniBatches env opts calls s).2
        (processMiniBatches env opts calls' s').2 := by
  induction order generalizing s s' with
  | nil => exact ⟨.nil, agree⟩
  | @cons c c' _ _ same _ ih =>
    obtain ⟨lfm, initialRound, batch⟩ := c
    obtain ⟨lfm', initialRound', batch'⟩ := c'
    obtain ⟨rfl, rfl, order⟩ := same
    obtain ⟨perm, agree1⟩ := processMiniBatch_agree env opts lfm initialRound hfld order agree
    obtain ⟨perms, agree2⟩ := ih (hfld.imp_right (processMiniBatch_burnedIn env opts lfm
      initialRound batch)) agree1
    exact ⟨.cons perm perms, agree2⟩

/-- One group of two alignments in both orders, from a fresh table, with
`useFragLenDist` off. -/
theorem processMiniBatches_swapped_group :
    let env : Collaborators ℚ≥0 Unit Unit Unit :=
      ⟨fun _ _ => 1, fun f _ _ => f, fun c _ _ _ _ => c, fun c _ => c, fun g => (0, g), fun _ => 0⟩
    let opts : SalmonOpts := ⟨true, false, false, false⟩
    let a : SMEMAlignment ℚ≥0 := ⟨7, ⟨.SINGLE_END, .NONE, .U⟩, 0, 250, 0⟩
    let b : SMEMAlignment ℚ≥0 := ⟨8, ⟨.SINGLE_END, .NONE, .U⟩, 0, 250, 0⟩
    let calls : List (ℚ≥0 × Bool × List (AlignmentGroup ℚ≥0)) := [(1, true, [⟨[a, b]⟩])]
    let calls' : List (ℚ≥0 × Bool × List (AlignmentGroup ℚ≥0)) := [(1, true, [⟨[b, a]⟩])]
    let s : EMState ℚ≥0 Unit Unit Unit :=
      ⟨fun _ => ⟨100, 1, 0, 0⟩, (), (), (), ⟨⟨.SINGLE_END, .NONE, .U⟩, fun _ => 0, true, 0⟩, 0,
        false⟩
    (opts.useFragLenDist = false ∨ s.burnedIn = true) ∧
      List.Forall₂ (fun c c' => c.1 = c'.1 ∧ c.2.1 = c'.2.1 ∧ GroupsPerm c.2.2 c'.2.2)
        calls calls' ∧ EMAgree opts s s ∧
      List.Forall₂ GroupsPerm (processMiniBatches env opts calls s).1
        (processMiniBatches env opts calls' s).1 ∧
      EMAgree opts (processMiniBatches env opts calls s).2
        (processMiniBatches env opts calls' s).2 := by
  intro env opts a b calls calls' s
  have hfld : opts.useFragLenDist = false ∨ s.burnedIn = true := .inl rfl
  have order : List.Forall₂ (fun c c' => c.1 = c'.1 ∧ c.2.1 = c'.2.1 ∧
      GroupsPerm c.2.2 c'.2.2) calls calls' :=
    .cons ⟨rfl, rfl, List.Forall₂.cons (List.Perm.swap b a []) List.Forall₂.nil⟩ .nil
  exact ⟨hfld, order, EMAgree.refl opts s,
    processMiniBatches_groupsPerm env opts hfld order (EMAgree.refl opts s)⟩

end SalmonQuant.EM
