import SalmonQuant.Mapping.Chain
import SalmonQuant.Mapping.Hits
import SalmonQuant.Mapping.Occurrences

/-!
# `collectHitsForRead`: from SMEMs to per-transcript vote lists

`collectHitsForRead` (`SalmonQuantify.cpp:901`) runs over the SMEMs
`mem_collect_intv` found in the read, samples each one's occurrences
(`sampleOccurrences`) and hands each occurrence to the `for k` body
(`collectOccurrence`), which ends in

    if (isRev) { hits[refID].addFragMatchRC(hitLoc, queryStart, slen, rlen); }
    else       { hits[refID].addFragMatch(hitLoc, queryStart, slen); }

`hits` is a `std::unordered_map<uint64_t, TranscriptHitList>`: a list of distinct keys
here, a new key going last (`operator[]` inserts an empty entry). The calls never feed
back into the loop, so `collectMem` lists them and `recordMatch` makes them.

The seed length is declared with the loop variables of the SMEM, not of the occurrence:

    int step, count, slen = (qend - qstart); // seed length

and the split branches assign `slen = len1` or `slen = len2`. An occurrence after a split
vote of the same SMEM is therefore read with the shortened length: `collectMem` carries
`slen` from one occurrence to the next. Every vote is non-empty and no longer than the
length it was read with (`collectOccurrence_voteLen`), so `slen` stays positive and is the
shortest of the seed and all votes so far (`collectMem_carried`). Without
`splitSpanningSeeds` it never moves (`collectMem_of_not_split`); with it, an occurrence
lying wholly inside one transcript gets its right `votePos` but the carried length
(`collectMem_inside_vote`).

`mem_collect_intv` and `bwt_sa` are BWA's: the SMEMs and the suffix array are
parameters.
-/

namespace SalmonQuant.Mapping

/-- `bwtintv_t` for one SMEM of `auxHits->mem`: its suffix-array interval of `x[2]`
entries from `x[0]`, and the query interval `[qstart, qend)` packed in `info`, which BWA
only reports non-empty. -/
structure BwtIntv where
  x0 : BitVec 64
  x2 : BitVec 64
  qstart : Nat
  qend : Nat
  seed : qstart < qend

/-- `TranscriptHitList` as `collectHitsForRead` fills it: its two vote lists.
`computeBestChain` sets the other fields from these. -/
structure TranscriptHitList where
  votes : List KmerVote
  rcVotes : List KmerVote
  deriving DecidableEq, Repr

/-- `addFragMatch`: `static_cast<int32_t>(tpos) - readPos` is taken in `uint32_t`. -/
def TranscriptHitList.addFragMatch (h : TranscriptHitList) (tpos readPos voteLen : BitVec 32) :
    TranscriptHitList :=
  { h with votes := h.votes ++ [⟨tpos - readPos, readPos, voteLen⟩] }

/-- `addFragMatchRC`: the vote sits `readLen - readPos` bases left of `tpos`. -/
def TranscriptHitList.addFragMatchRC (h : TranscriptHitList)
    (tpos readPos voteLen readLen : BitVec 32) : TranscriptHitList :=
  { h with rcVotes := h.rcVotes ++ [⟨tpos - (readLen - readPos), readPos, voteLen⟩] }

/-- `hits[t]`, then `f` on the entry: a key not yet in the map gets an empty
`TranscriptHitList`, placed last. -/
def updateHit (f : TranscriptHitList → TranscriptHitList) (t : Nat) :
    List (Nat × TranscriptHitList) → List (Nat × TranscriptHitList)
  | [] => [(t, f ⟨[], []⟩)]
  | (u, h) :: rest => if u = t then (u, f h) :: rest else (u, h) :: updateHit f t rest

/-- The call an occurrence ends with; the `uint32_t` parameters take the arguments
modulo `2^32`. -/
def recordMatch (hits : List (Nat × TranscriptHitList)) (m : FragMatch) :
    List (Nat × TranscriptHitList) :=
  updateHit (fun h => if m.isRev then
      h.addFragMatchRC (.ofInt 32 m.tpos) (.ofInt 32 m.readPos) (.ofInt 32 m.voteLen)
        (.ofInt 32 m.readLen)
    else h.addFragMatch (.ofInt 32 m.tpos) (.ofInt 32 m.readPos) (.ofInt 32 m.voteLen))
    m.refID hits

/-- One iteration of the `for k` loop: the occurrence at `bwt_sa(x[0] + k)`, read with
the `slen` the previous iteration left. A vote's length is the new `slen`: the split
branches assign it, and the others vote with `slen` itself. -/
def collectStep (ly : Layout) (sa : BitVec 64 → Nat) (splitSpanningSeeds : Bool)
    (minSeedLen readLen : Nat) (p : BwtIntv) (st : Nat × List FragMatch) (k : BitVec 64) :
    Nat × List FragMatch :=
  match collectOccurrence ly splitSpanningSeeds minSeedLen readLen p.qstart (p.qstart + st.1)
      (sa (p.x0 + k)) with
  | some m => (m.voteLen.toNat, st.2 ++ [m])
  | none => st

/-- The `for k` loop of one SMEM over the occurrence indices it samples: the final `slen`
and the calls made, in order. -/
def collectMem (ly : Layout) (sa : BitVec 64 → Nat) (splitSpanningSeeds : Bool)
    (minSeedLen readLen : Nat) (p : BwtIntv) (ks : List (BitVec 64)) : Nat × List FragMatch :=
  ks.foldl (collectStep ly sa splitSpanningSeeds minSeedLen readLen p) (p.qend - p.qstart, [])

/-- `collectHitsForRead` over the SMEMs `mems`; `none` when an occurrence loop divides by
zero. -/
def collectHitsForRead (ly : Layout) (sa : BitVec 64 → Nat) (splitSpanningSeeds : Bool)
    (minSeedLen : Nat) (maxOcc : BitVec 32) (readLen : Nat) (mems : List BwtIntv)
    (hits : List (Nat × TranscriptHitList)) : Option (List (Nat × TranscriptHitList)) :=
  mems.foldlM (fun hits p => (sampleOccurrences p.x2 maxOcc).map fun ks =>
    (collectMem ly sa splitSpanningSeeds minSeedLen readLen p ks).2.foldl recordMatch hits) hits

/-! ## The layout, read back -/

theorem Layout.offset_mono (ly : Layout) : Monotone ly.offset :=
  monotone_nat_of_le_succ fun t => ly.offset_succ t ▸ Nat.le_add_right _ _

theorem ridOf_mono (lens : List Nat) {p q : Nat} (h : p ≤ q) : ridOf lens p ≤ ridOf lens q := by
  induction lens generalizing p q with
  | nil => exact le_rfl
  | cons l ls ih =>
    simp only [ridOf]
    split_ifs with hp hq hq
    · exact le_rfl
    · exact Nat.zero_le _
    · omega
    · exact Nat.succ_le_succ (ih (Nat.sub_le_sub_right h l))

/-- The segment `ridOf` names holds the position. -/
theorem ridOf_mem (lens : List Nat) {p : Nat} (h : p < lens.sum) :
    (lens.take (ridOf lens p)).sum ≤ p ∧
      p < (lens.take (ridOf lens p)).sum + lens.getD (ridOf lens p) 0 := by
  induction lens generalizing p with
  | nil => simp at h
  | cons l ls ih =>
    simp only [ridOf]
    split_ifs with hp
    · simpa using hp
    · simp only [List.sum_cons] at h
      have := ih (p := p - l) (by omega)
      simp only [List.take_succ_cons, List.sum_cons, List.getD_cons_succ]
      omega

theorem bnsPos2rid_of_lt {ly : Layout} {p : Nat} (h : p < ly.lPac) :
    bnsPos2rid ly p = ridOf ly.lens p := by
  simp [bnsPos2rid, Nat.not_le.2 h]

/-- Forward position `p` lies in the transcript `bns_pos2rid` reports. -/
theorem offset_le_of_lt {ly : Layout} {p : Nat} (h : p < ly.lPac) :
    ly.offset (ridOf ly.lens p) ≤ p ∧ p < ly.offset (ridOf ly.lens p) + ly.len (ridOf ly.lens p) :=
  ridOf_mem ly.lens h

/-- Two positions in different transcripts: the later one is past the end of the first's
transcript. -/
theorem offset_le_of_ridOf_ne (ly : Layout) {p q : Nat} (h : p ≤ q) :
    ridOf ly.lens p = ridOf ly.lens q ∨
      ly.offset (ridOf ly.lens p) + ly.len (ridOf ly.lens p) ≤ ly.offset (ridOf ly.lens q) := by
  rcases (ridOf_mono ly.lens h).eq_or_lt with eq | lt
  · exact .inl eq
  · exact .inr (ly.offset_succ _ ▸ ly.offset_mono lt)

/-! ## Vote lengths -/

/-- Every vote is non-empty and no longer than the seed it is read from: the forward
split's `len1 = tlen - hitLoc` and `len2 = slen - len1` are both parts of the seed, and
on the reverse strand `len2 = endPos - offset` is at most `slen - 2`. -/
theorem collectOccurrence_voteLen (ly : Layout) (splitSpanningSeeds : Bool)
    (minSeedLen readLen qstart qend refStart : Nat) (seed : qstart < qend) {m : FragMatch}
    (h : collectOccurrence ly splitSpanningSeeds minSeedLen readLen qstart qend refStart =
      some m) :
    0 < m.voteLen ∧ m.voteLen ≤ (qend : Int) - qstart := by
  have span : 0 < qend - qstart := Nat.sub_pos_of_lt seed
  have nonneg : ∀ n : Nat, ¬ (n : Int) < 0 := fun n => Int.not_lt.2 (Int.ofNat_nonneg n)
  by_cases rev : ly.lPac ≤ refStart
  · have lastRev : ly.lPac ≤ refStart + (qend - qstart) - 1 := by omega
    simp only [collectOccurrence, bnsDepos_reverse rev, bnsDepos_reverse lastRev, ne_eq,
      not_true_eq_false, if_false, if_true] at h
    generalize hS : 2 * ly.lPac - 1 - (refStart + (qend - qstart) - 1) = startPos at h
    generalize hE : 2 * ly.lPac - 1 - refStart = endPos at h
    by_cases hs : startPos < ly.lPac
    · have he : endPos < ly.lPac := by omega
      have order : startPos ≤ endPos := by omega
      have close : endPos + 1 ≤ startPos + (qend - qstart) := by omega
      clear hS hE rev lastRev
      have A1 := offset_le_of_lt hs
      have A2 := offset_le_of_lt he
      have B := offset_le_of_ridOf_ne ly order
      cases splitSpanningSeeds <;>
        simp only [bnsPos2rid_of_lt hs, bnsPos2rid_of_lt he, Int.toNat_ofNat, nonneg,
          Nat.cast_inj, Bool.not_true, Bool.not_false, Bool.false_eq_true, if_false, if_true]
          at h <;>
        repeat' split at h
      all_goals cases h <;> dsimp only <;> omega
    · simp only [bnsPos2rid, Nat.le_of_not_lt hs, if_true, Int.reduceNeg, Int.reduceLT] at h
      cases h
  · by_cases lastRev : ly.lPac ≤ refStart + (qend - qstart) - 1
    · simp only [collectOccurrence, bnsDepos_forward (Nat.not_le.1 rev), bnsDepos_reverse lastRev,
        ne_eq, Bool.false_eq_true, not_false_eq_true, if_true] at h
      cases h
    · have hs := Nat.not_le.1 rev
      have he := Nat.not_le.1 lastRev
      simp only [collectOccurrence, bnsDepos_forward hs, bnsDepos_forward he, ne_eq,
        not_true_eq_false, if_false, Bool.false_eq_true, bnsPos2rid_of_lt hs,
        bnsPos2rid_of_lt he, Int.toNat_ofNat, nonneg, Nat.cast_inj] at h
      have A1 := offset_le_of_lt hs
      have A2 := offset_le_of_lt he
      have B := offset_le_of_ridOf_ne ly
        (Nat.le_sub_one_of_lt (Nat.lt_add_of_pos_right (n := refStart) span))
      generalize hE : refStart + (qend - qstart) - 1 = endPos at h A2 B
      have close : endPos + 1 = refStart + (qend - qstart) := by omega
      clear hE rev lastRev he
      cases splitSpanningSeeds <;>
        simp only [Bool.not_true, Bool.not_false, Bool.false_eq_true, if_false, if_true] at h <;>
        repeat' split at h
      all_goals cases h <;> dsimp only <;> omega

/-- Without `splitSpanningSeeds` every vote is the whole seed. -/
theorem collectOccurrence_voteLen_of_not_split (ly : Layout)
    (minSeedLen readLen qstart qend refStart : Nat) {m : FragMatch}
    (h : collectOccurrence ly false minSeedLen readLen qstart qend refStart = some m) :
    m.voteLen = (qend : Int) - qstart := by
  simp only [collectOccurrence, Bool.not_false, if_true] at h
  split_ifs at h <;> cases h <;> rfl

/-- A read base between two bases matched inside transcript `t` is matched inside it
too. -/
theorem MatchedIn.between {ly : Layout} {qstart refStart i j l t : Nat}
    (hi : MatchedIn ly qstart refStart i t) (hj : MatchedIn ly qstart refStart j t)
    (il : i ≤ l) (lj : l ≤ j) : MatchedIn ly qstart refStart l t := by
  have il' : i - qstart ≤ l - qstart := Nat.sub_le_sub_right il _
  have lj' : l - qstart ≤ j - qstart := Nat.sub_le_sub_right lj _
  unfold MatchedIn matchedPos at *
  generalize i - qstart = a, l - qstart = b, j - qstart = c at *
  split_ifs at * <;> omega

/-! ## The carried seed length -/

/-- The shortest of the seed and of every vote so far. -/
def carriedLen (seedLen : Nat) (ms : List FragMatch) : Nat :=
  (ms.map fun m => m.voteLen.toNat).foldl min seedLen

theorem carriedLen_le (seedLen : Nat) (ms : List FragMatch) : carriedLen seedLen ms ≤ seedLen := by
  induction ms generalizing seedLen with
  | nil => exact le_rfl
  | cons m ms ih => exact (ih _).trans (min_le_left _ _)

theorem carriedLen_append_singleton (seedLen : Nat) (ms : List FragMatch) (m : FragMatch) :
    carriedLen seedLen (ms ++ [m]) = min (carriedLen seedLen ms) m.voteLen.toNat := by
  simp only [carriedLen, List.map_append, List.foldl_append, List.map_cons, List.map_nil,
    List.foldl_cons, List.foldl_nil]

section Loop

variable (ly : Layout) (sa : BitVec 64 → Nat) (splitSpanningSeeds : Bool)
  (minSeedLen readLen : Nat) (p : BwtIntv)

/-- One occurrence keeps `slen` positive and equal to the shortest length so far. -/
theorem collectStep_carried {seedLen : Nat} (st : Nat × List FragMatch) (k : BitVec 64)
    (pos : 0 < st.1) (carried : st.1 = carriedLen seedLen st.2) :
    0 < (collectStep ly sa splitSpanningSeeds minSeedLen readLen p st k).1 ∧
      (collectStep ly sa splitSpanningSeeds minSeedLen readLen p st k).1 =
        carriedLen seedLen (collectStep ly sa splitSpanningSeeds minSeedLen readLen p st k).2 := by
  unfold collectStep
  split
  · rename_i m hm
    have len := collectOccurrence_voteLen ly splitSpanningSeeds minSeedLen readLen _ _ _
      (Nat.lt_add_of_pos_right pos) hm
    rw [carriedLen_append_singleton, ← carried]
    push_cast at len
    omega
  · exact ⟨pos, carried⟩

theorem collectMem_carried_from (ks : List (BitVec 64)) {seedLen : Nat} (st : Nat × List FragMatch)
    (pos : 0 < st.1) (carried : st.1 = carriedLen seedLen st.2) :
    0 < (ks.foldl (collectStep ly sa splitSpanningSeeds minSeedLen readLen p) st).1 ∧
      (ks.foldl (collectStep ly sa splitSpanningSeeds minSeedLen readLen p) st).1 =
        carriedLen seedLen (ks.foldl (collectStep ly sa splitSpanningSeeds minSeedLen readLen p) st).2 := by
  induction ks generalizing st with
  | nil => exact ⟨pos, carried⟩
  | cons k ks ih =>
    obtain ⟨pos', carried'⟩ := collectStep_carried ly sa splitSpanningSeeds minSeedLen readLen p st k
      pos carried
    exact ih _ pos' carried'

/-- The loop's `slen` is always positive and the shortest of the seed and of every vote
of the SMEM so far. -/
theorem collectMem_carried (ks : List (BitVec 64)) :
    0 < (collectMem ly sa splitSpanningSeeds minSeedLen readLen p ks).1 ∧
      (collectMem ly sa splitSpanningSeeds minSeedLen readLen p ks).1 =
        carriedLen (p.qend - p.qstart) (collectMem ly sa splitSpanningSeeds minSeedLen readLen p ks).2 :=
  collectMem_carried_from ly sa splitSpanningSeeds minSeedLen readLen p ks _
    (Nat.sub_pos_of_lt p.seed) rfl

theorem collectMem_append_singleton (ks : List (BitVec 64)) (k : BitVec 64) :
    collectMem ly sa splitSpanningSeeds minSeedLen readLen p (ks ++ [k]) =
      collectStep ly sa splitSpanningSeeds minSeedLen readLen p
        (collectMem ly sa splitSpanningSeeds minSeedLen readLen p ks) k := by
  simp only [collectMem, List.foldl_append, List.foldl_cons, List.foldl_nil]

/-- Without `splitSpanningSeeds` no vote is shorter than the seed, so the carried `slen`
never moves: every occurrence is read with the whole seed, as if `slen` were declared per
occurrence. -/
theorem collectMem_of_not_split (ks : List (BitVec 64)) :
    (collectMem ly sa false minSeedLen readLen p ks).2 =
      ks.filterMap fun k => collectOccurrence ly false minSeedLen readLen p.qstart p.qend
        (sa (p.x0 + k)) := by
  have whole : p.qstart + (p.qend - p.qstart) = p.qend := Nat.add_sub_cancel' p.seed.le
  suffices loop : ∀ acc, ks.foldl (collectStep ly sa false minSeedLen readLen p)
      (p.qend - p.qstart, acc) = (p.qend - p.qstart, acc ++ ks.filterMap fun k =>
        collectOccurrence ly false minSeedLen readLen p.qstart p.qend (sa (p.x0 + k))) by
    simp only [collectMem, loop, List.nil_append]
  induction ks with
  | nil => simp
  | cons k ks ih =>
    intro acc
    simp only [List.foldl_cons, collectStep, whole, List.filterMap_cons]
    cases hm : collectOccurrence ly false minSeedLen readLen p.qstart p.qend (sa (p.x0 + k)) with
    | none => exact ih acc
    | some m =>
      have len := collectOccurrence_voteLen_of_not_split ly minSeedLen readLen _ _ _ hm
      have : m.voteLen.toNat = p.qend - p.qstart := by omega
      simp only [this, ih, List.append_assoc, List.singleton_append]

/-- With `splitSpanningSeeds`, an occurrence whose whole seed lies inside transcript `t`
gets the vote of the whole seed, for `t`, from read base `qstart`, at its `votePos`, but
with the length the loop carries: the shortest of the seed and of every earlier vote of
the SMEM, not the seed's length. -/
theorem collectMem_inside_vote (ks : List (BitVec 64)) (k : BitVec 64) (t : Nat)
    (strand : sa (p.x0 + k) < ly.lPac → sa (p.x0 + k) + (p.qend - p.qstart) ≤ ly.lPac)
    (first : MatchedIn ly p.qstart (sa (p.x0 + k)) p.qstart t)
    (last : MatchedIn ly p.qstart (sa (p.x0 + k)) (p.qend - 1) t) :
    ∃ m : FragMatch, (collectMem ly sa splitSpanningSeeds minSeedLen readLen p (ks ++ [k])).2 =
        (collectMem ly sa splitSpanningSeeds minSeedLen readLen p ks).2 ++ [m] ∧
      m.refID = t ∧ m.readPos = (p.qstart : Int) ∧
      m.voteLen = (carriedLen (p.qend - p.qstart)
        (collectMem ly sa splitSpanningSeeds minSeedLen readLen p ks).2 : Nat) ∧
      m.votePos = (matchedPos ly p.qstart (sa (p.x0 + k)) p.qstart : Int) - ly.offset t -
        (if ly.lPac ≤ sa (p.x0 + k) then (readLen : Int) - p.qstart else p.qstart) := by
  rw [collectMem_append_singleton]
  obtain ⟨pos, carried⟩ := collectMem_carried ly sa splitSpanningSeeds minSeedLen readLen p ks
  generalize collectMem ly sa splitSpanningSeeds minSeedLen readLen p ks = st at pos carried ⊢
  have short : st.1 ≤ p.qend - p.qstart := carried ▸ carriedLen_le _ _
  obtain ⟨m, hm, ref, readPos, len, votePos⟩ := collectOccurrence_inside ly splitSpanningSeeds
    minSeedLen readLen p.qstart (p.qstart + st.1) (sa (p.x0 + k)) t
    (Nat.lt_add_of_pos_right pos) (fun fwd => by have := strand fwd; omega) first
    (first.between last (by omega) (by omega))
  refine ⟨m, by simp only [collectStep, hm], ref, readPos, ?_, votePos⟩
  rw [len, ← carried]
  push_cast
  omega

/-- Two 30-base transcripts and a 25-base seed met at forward positions 20 and 0. The
first occurrence crosses into the second transcript and is cut to its 15 bases there; the
second lies wholly inside the first transcript, and its vote has 15 bases, not 25. -/
theorem collectMem_inside_vote_after_split :
    let ly : Layout := ⟨[30, 30], by decide⟩
    let sa : BitVec 64 → Nat := fun x => if x = 0 then 20 else 0
    let p : BwtIntv := ⟨0, 2, 0, 25, by decide⟩
    (collectMem ly sa true 5 40 p [0]).2 = [⟨1, false, 0, 10, 15, 40⟩] ∧
      ∃ m : FragMatch, (collectMem ly sa true 5 40 p ([0] ++ [1])).2 =
          (collectMem ly sa true 5 40 p [0]).2 ++ [m] ∧
        m.refID = 0 ∧ m.readPos = 0 ∧ m.voteLen = 15 ∧ m.votePos = 0 := by
  intro ly sa p
  obtain ⟨m, run, ref, readPos, len, votePos⟩ :=
    collectMem_inside_vote ly sa true 5 40 p [0] 1 0 (by decide) (by decide) (by decide)
  have split : (collectMem ly sa true 5 40 p [0]).2 = [⟨1, false, 0, 10, 15, 40⟩] := by decide
  refine ⟨split, m, run, ref, readPos, ?_, votePos.trans (by decide)⟩
  rw [len, split]
  rfl

end Loop

/-! ## The hit map -/

/-- The `KmerVote` the call for a match stores. -/
def FragMatch.toVote (m : FragMatch) : KmerVote :=
  ⟨.ofInt 32 m.votePos, .ofInt 32 m.readPos, .ofInt 32 m.voteLen⟩

/-- An entry after the calls for the matches `ms`: the forward ones append to `votes`,
the others to `rcVotes`, each in order. -/
def TranscriptHitList.addMatches (h : TranscriptHitList) (ms : List FragMatch) :
    TranscriptHitList :=
  ⟨h.votes ++ (ms.filter fun m => !m.isRev).map FragMatch.toVote,
    h.rcVotes ++ (ms.filter fun m => m.isRev).map FragMatch.toVote⟩

theorem TranscriptHitList.addMatches_append (h : TranscriptHitList) (ms ms' : List FragMatch) :
    (h.addMatches ms).addMatches ms' = h.addMatches (ms ++ ms') := by
  simp only [addMatches, List.filter_append, List.map_append, List.append_assoc]

theorem ofInt_sub (a b : Int) : BitVec.ofInt 32 (a - b) = .ofInt 32 a - .ofInt 32 b := by
  apply BitVec.eq_of_toInt_eq
  simp [BitVec.toInt_sub, Int.bmod_bmod]

/-- `addFragMatch` and `addFragMatchRC` store the `votePos` of `FragMatch.votePos`, in
`uint32_t`. -/
theorem recordMatch_eq (hits : List (Nat × TranscriptHitList)) (m : FragMatch) :
    recordMatch hits m = updateHit (fun h => h.addMatches [m]) m.refID hits := by
  unfold recordMatch
  congr 1
  funext h
  cases rev : m.isRev <;>
    simp [rev, TranscriptHitList.addMatches, TranscriptHitList.addFragMatch,
      TranscriptHitList.addFragMatchRC, FragMatch.toVote, FragMatch.votePos, ofInt_sub]

theorem lookup_cons_of_ne {β : Type} {u v : Nat} (h : u ≠ v) (b : β) (rest : List (Nat × β)) :
    ((v, b) :: rest).lookup u = rest.lookup u := by
  simp [List.lookup, beq_false_of_ne h]

/-- `hits[t]` reads back what it wrote and leaves every other key alone. -/
theorem lookup_updateHit (f : TranscriptHitList → TranscriptHitList) (t u : Nat) :
    ∀ hits : List (Nat × TranscriptHitList), (updateHit f t hits).lookup u =
      if u = t then some (f ((hits.lookup t).getD ⟨[], []⟩)) else hits.lookup u
  | [] => by
    by_cases ut : u = t
    · subst ut; simp [updateHit]
    · simp [updateHit, lookup_cons_of_ne ut, ut]
  | (v, h) :: rest => by
    by_cases uv : u = v
    · subst uv
      by_cases ut : u = t
      · subst ut; simp [updateHit]
      · simp [updateHit, Ne.symm ut, ut]
    · by_cases vt : v = t
      · subst vt; simp [updateHit, lookup_cons_of_ne uv, uv]
      · simp [updateHit, vt, lookup_cons_of_ne uv, lookup_cons_of_ne (Ne.symm vt),
          lookup_updateHit f t u rest]

/-- A new key goes last; a present one stays where it is. -/
theorem keys_updateHit (f : TranscriptHitList → TranscriptHitList) (t : Nat) :
    ∀ hits : List (Nat × TranscriptHitList), (updateHit f t hits).map Prod.fst =
      if t ∈ hits.map Prod.fst then hits.map Prod.fst else hits.map Prod.fst ++ [t]
  | [] => rfl
  | (v, h) :: rest => by
    by_cases vt : v = t
    · subst vt; simp only [updateHit, if_pos rfl, List.map_cons, List.mem_cons_self, if_true]
    · by_cases mem : t ∈ rest.map Prod.fst <;>
        simp [updateHit, vt, Ne.symm vt, mem, keys_updateHit f t rest]

theorem nodup_keys_updateHit (f : TranscriptHitList → TranscriptHitList) (t : Nat)
    {hits : List (Nat × TranscriptHitList)} (nodup : (hits.map Prod.fst).Nodup) :
    ((updateHit f t hits).map Prod.fst).Nodup := by
  rw [keys_updateHit]
  split_ifs with mem
  · exact nodup
  · exact nodup.append (List.nodup_singleton t) (List.disjoint_singleton.2 mem)

/-- After a run of calls, transcript `t`'s entry is its old entry followed by the calls
for `t`, in order; it is absent only if it was and no call names `t`. -/
theorem lookup_foldl_recordMatch (t : Nat) :
    ∀ (ms : List FragMatch) (hits : List (Nat × TranscriptHitList)),
      (ms.foldl recordMatch hits).lookup t =
        if hits.lookup t = none ∧ ms.filter (fun m => m.refID = t) = [] then none
        else some (((hits.lookup t).getD ⟨[], []⟩).addMatches (ms.filter fun m => m.refID = t))
  | [], hits => by
    rcases hl : hits.lookup t with _ | h <;> simp [hl, TranscriptHitList.addMatches]
  | m :: ms, hits => by
    rw [List.foldl_cons, lookup_foldl_recordMatch t ms, recordMatch_eq, lookup_updateHit]
    by_cases mt : m.refID = t
    · subst mt
      simp [List.filter_cons, TranscriptHitList.addMatches_append, -List.lookup_eq_none_iff]
    · simp only [List.filter_cons, mt, Ne.symm mt, decide_False, Bool.false_eq_true, if_false]

theorem nodup_keys_foldl_recordMatch :
    ∀ (ms : List FragMatch) {hits : List (Nat × TranscriptHitList)},
      (hits.map Prod.fst).Nodup → ((ms.foldl recordMatch hits).map Prod.fst).Nodup
  | [], _, nodup => nodup
  | m :: ms, _, nodup => by
    rw [List.foldl_cons, recordMatch_eq]
    exact nodup_keys_foldl_recordMatch ms (nodup_keys_updateHit _ _ nodup)

section Graph

variable {β : Type}

/-- With distinct keys an entry is in the map exactly when the lookup of its key finds
it. -/
theorem mem_iff_lookup {hits : List (Nat × β)} (nodup : (hits.map Prod.fst).Nodup)
    (t : Nat) (h : β) : (t, h) ∈ hits ↔ hits.lookup t = some h := by
  induction hits with
  | nil => simp
  | cons e rest ih =>
    obtain ⟨u, h'⟩ := e
    simp only [List.map_cons, List.nodup_cons] at nodup
    by_cases tu : t = u
    · subst tu
      simp only [List.mem_cons, Prod.mk.injEq, true_and, List.lookup_cons_self, Option.some.injEq]
      exact ⟨fun hm => hm.elim Eq.symm fun m => absurd (List.mem_map_of_mem Prod.fst m) nodup.1,
        fun e => .inl e.symm⟩
    · simp [tu, lookup_cons_of_ne tu, ih nodup.2]

/-- A map with distinct keys whose lookups are those of `G` on the keys `ks` is, up to
order, the graph of `G` on `ks`. -/
theorem perm_of_lookup {hits : List (Nat × β)} {ks : List Nat} {G : Nat → β}
    (nodup : (hits.map Prod.fst).Nodup) (keys : ks.Nodup)
    (lookup : ∀ t, hits.lookup t = if t ∈ ks then some (G t) else none) :
    hits.Perm (ks.map fun t => (t, G t)) := by
  rw [List.perm_ext_iff_of_nodup (nodup.of_map _)
    (keys.map fun a b e => congrArg Prod.fst e)]
  rintro ⟨t, h⟩
  rw [mem_iff_lookup nodup, lookup t, List.mem_map]
  by_cases mem : t ∈ ks
  · simp only [mem, if_true, Option.some.injEq, Prod.mk.injEq]
    exact ⟨fun e => ⟨t, mem, rfl, e⟩, fun ⟨_, _, e, g⟩ => e ▸ g⟩
  · simp only [mem, if_false, reduceCtorEq, false_iff, not_exists, not_and, Prod.mk.injEq]
    exact fun u hu e => absurd (e ▸ hu) mem

/-- Conversely, every order of the graph of `G` on distinct keys `ks` looks up as `G` on
`ks`. -/
theorem lookup_of_perm {hits : List (Nat × β)} {ks : List Nat} {G : Nat → β} (keys : ks.Nodup)
    (perm : hits.Perm (ks.map fun t => (t, G t))) (t : Nat) :
    hits.lookup t = if t ∈ ks then some (G t) else none := by
  have nodup : (hits.map Prod.fst).Nodup := by
    rw [(perm.map Prod.fst).nodup_iff, List.map_map]
    exact keys.map_on fun _ _ _ _ e => e
  split_ifs with mem
  · exact (mem_iff_lookup nodup t (G t)).1 (perm.mem_iff.2 (List.mem_map_of_mem _ mem))
  · rw [List.lookup_eq_none_iff]
    intro e he
    obtain ⟨u, hu, rfl⟩ := List.mem_map.1 (perm.mem_iff.1 he)
    simpa using fun e : t = u => mem (e ▸ hu)

end Graph

/-! ## `collectHitsForRead` -/

section Read

variable (ly : Layout) (sa : BitVec 64 → Nat) (splitSpanningSeeds : Bool) (minSeedLen : Nat)
  (maxOcc : BitVec 32) (readLen : Nat)

/-- The loop over the SMEMs makes the calls of each SMEM's `for k` loop, one SMEM after
the other. -/
theorem collectHitsForRead_eq :
    ∀ (mems : List BwtIntv) (hits : List (Nat × TranscriptHitList)),
      collectHitsForRead ly sa splitSpanningSeeds minSeedLen maxOcc readLen mems hits =
        (mems.mapM fun p => (sampleOccurrences p.x2 maxOcc).map fun ks =>
          (collectMem ly sa splitSpanningSeeds minSeedLen readLen p ks).2).map fun mss =>
            mss.flatten.foldl recordMatch hits
  | [], hits => rfl
  | p :: mems, hits => by
    have rest := collectHitsForRead_eq mems
    unfold collectHitsForRead at rest ⊢
    simp only [List.foldlM_cons, List.mapM_cons]
    cases sampleOccurrences p.x2 maxOcc with
    | none => rfl
    | some ks =>
      refine (rest _).trans ?_
      cases (mems.mapM fun p => (sampleOccurrences p.x2 maxOcc).map fun ks =>
        (collectMem ly sa splitSpanningSeeds minSeedLen readLen p ks).2) with
      | none => rfl
      | some mss => exact congrArg some (List.foldl_append _ _ _ _).symm

/-- A non-zero `max_occ` never divides by zero. -/
theorem sampleOccurrences_isSome (n : BitVec 64) {maxOcc : BitVec 32} (nonzero : maxOcc ≠ 0) :
    (sampleOccurrences n maxOcc).isSome := by
  have : maxOcc.signExtend 64 ≠ 0 := fun h => nonzero (signExtend_eq_zero h)
  simp only [sampleOccurrences, occurrenceStep, Option.isSome_map']
  split_ifs <;> simp_all

/-- The calls `collectHitsForRead` makes, in order, when no occurrence loop divides by
zero. -/
def readMatches (mems : List BwtIntv) : List FragMatch :=
  mems.flatMap fun p => (collectMem ly sa splitSpanningSeeds minSeedLen readLen p
    ((sampleOccurrences p.x2 maxOcc).getD [])).2

/-- The entry the calls `ms` leave for transcript `t` in an empty map. -/
def hitListFor (ms : List FragMatch) (t : Nat) : TranscriptHitList :=
  (⟨[], []⟩ : TranscriptHitList).addMatches (ms.filter fun m => m.refID = t)

/-- With a non-zero `max_occ`, `collectHitsForRead` from an empty map makes the calls of
`readMatches`, in order. -/
theorem collectHitsForRead_some (mems : List BwtIntv) (nonzero : maxOcc ≠ 0) :
    collectHitsForRead ly sa splitSpanningSeeds minSeedLen maxOcc readLen mems [] =
      some ((readMatches ly sa splitSpanningSeeds minSeedLen maxOcc readLen mems).foldl
        recordMatch []) := by
  have sampled : (mems.mapM fun p => (sampleOccurrences p.x2 maxOcc).map fun ks =>
      (collectMem ly sa splitSpanningSeeds minSeedLen readLen p ks).2) =
      some (mems.map fun p => (collectMem ly sa splitSpanningSeeds minSeedLen readLen p
        ((sampleOccurrences p.x2 maxOcc).getD [])).2) := by
    induction mems with
    | nil => rfl
    | cons p mems ih =>
      obtain ⟨ks, hks⟩ := Option.isSome_iff_exists.1 (sampleOccurrences_isSome p.x2 nonzero)
      rw [List.mapM_cons, List.map_cons, hks, ih]
      rfl
  rw [collectHitsForRead_eq, sampled]
  rfl

end Read

/-- The calls `ms` made on an empty map leave `hitListFor ms t` at every transcript `t`
they name, and nothing elsewhere. -/
theorem lookup_foldl_recordMatch_nil (ms : List FragMatch) (t : Nat) :
    (ms.foldl recordMatch []).lookup t =
      if ms.filter (fun m => m.refID = t) = [] then none else some (hitListFor ms t) := by
  rw [lookup_foldl_recordMatch]
  simp only [List.lookup_nil, true_and, Option.getD_none, hitListFor]

/-- With a non-zero `max_occ`, `collectHitsForRead` from an empty map returns a map with
distinct keys in which the lookup of transcript `t` finds the votes of exactly the calls
for `t`, forward ones in `votes` and the others in `rcVotes`, each in the order made, and
finds nothing for a transcript no call names. -/
theorem collectHitsForRead_lookup (ly : Layout) (sa : BitVec 64 → Nat)
    (splitSpanningSeeds : Bool) (minSeedLen : Nat) (maxOcc : BitVec 32) (readLen : Nat)
    (mems : List BwtIntv) (nonzero : maxOcc ≠ 0) :
    ∃ hits, collectHitsForRead ly sa splitSpanningSeeds minSeedLen maxOcc readLen mems [] =
        some hits ∧ (hits.map Prod.fst).Nodup ∧
      ∀ t, hits.lookup t =
        if (readMatches ly sa splitSpanningSeeds minSeedLen maxOcc readLen mems).filter
          (fun m => m.refID = t) = [] then none
        else some (hitListFor (readMatches ly sa splitSpanningSeeds minSeedLen maxOcc readLen
          mems) t) :=
  ⟨_, collectHitsForRead_some ly sa splitSpanningSeeds minSeedLen maxOcc readLen mems nonzero,
    nodup_keys_foldl_recordMatch _ List.nodup_nil, lookup_foldl_recordMatch_nil _⟩

/-- The SMEM of `collectMem_inside_vote_after_split` with `max_occ = 2`: one entry per
transcript, each holding its one forward vote. -/
theorem collectHitsForRead_split_then_inside :
    let ly : Layout := ⟨[30, 30], by decide⟩
    let sa : BitVec 64 → Nat := fun x => if x = 0 then 20 else 0
    let p : BwtIntv := ⟨0, 2, 0, 25, by decide⟩
    (2 : BitVec 32) ≠ 0 ∧ ∃ hits, collectHitsForRead ly sa true 5 2 40 [p] [] = some hits ∧
      (hits.map Prod.fst).Nodup ∧ hits.lookup 1 = some ⟨[⟨-10, 10, 15⟩], []⟩ ∧
      hits.lookup 0 = some ⟨[⟨0, 0, 15⟩], []⟩ := by
  intro ly sa p
  have nonzero : (2 : BitVec 32) ≠ 0 := by decide
  obtain ⟨hits, run, nodup, lookup⟩ := collectHitsForRead_lookup ly sa true 5 2 40 [p] nonzero
  exact ⟨nonzero, hits, run, nodup, (lookup 1).trans (by decide), (lookup 0).trans (by decide)⟩

/-- With a non-zero `max_occ`, the map `collectHitsForRead` builds from an empty one is,
up to the order of its entries, one entry per transcript some call names, holding
`hitListFor` the calls. -/
theorem collectHitsForRead_perm (ly : Layout) (sa : BitVec 64 → Nat)
    (splitSpanningSeeds : Bool) (minSeedLen : Nat) (maxOcc : BitVec 32) (readLen : Nat)
    (mems : List BwtIntv) (nonzero : maxOcc ≠ 0) :
    ∃ hits, collectHitsForRead ly sa splitSpanningSeeds minSeedLen maxOcc readLen mems [] =
        some hits ∧
      hits.Perm (((readMatches ly sa splitSpanningSeeds minSeedLen maxOcc readLen mems).map
        FragMatch.refID).dedup.map fun t =>
          (t, hitListFor (readMatches ly sa splitSpanningSeeds minSeedLen maxOcc readLen mems) t)) := by
  refine ⟨_, collectHitsForRead_some ly sa splitSpanningSeeds minSeedLen maxOcc readLen mems
    nonzero, perm_of_lookup (nodup_keys_foldl_recordMatch _ List.nodup_nil)
      (List.nodup_dedup _) fun t => ?_⟩
  generalize readMatches ly sa splitSpanningSeeds minSeedLen maxOcc readLen mems = ms
  have absent : ms.filter (fun m => m.refID = t) = [] ↔ t ∉ (ms.map FragMatch.refID).dedup := by
    simp [List.filter_eq_nil_iff, List.mem_dedup]
  rw [lookup_foldl_recordMatch_nil, if_congr absent rfl rfl, ite_not]


end SalmonQuant.Mapping
