import SalmonQuant.Basic
import SalmonQuant.Mapping.BestChain
import SalmonQuant.Mapping.Collect

/-!
# `getHitsForFragment`: a fragment's alignment group

`getHitsForFragment` fills the `AlignmentGroup` of one fragment. The single-end
version (`SalmonQuantify.cpp:1230`) collects the read's hits and then

    for (auto& tHitList : hits) {
        tHitList.second.computeBestChain(t, frag.seq);
        if (tHitList.second.bestHitScore >= cutoff) {
            auto fmt = salmon::utils::hitType(tHitList.second.bestHitPos, isForward);
            alnList.emplace_back(tHitList.first, fmt, score); … } }

The paired-end one (`:1093`) collects both ends' hits, computes the chain of every left
entry, and then, for each right entry whose transcript has a left entry scoring at least
the cutoff, computes the right chain and adds an alignment if that scores at least the
cutoff too: the mean score, `hitType` of both ends, and
`fragLength = |end1Start - end2Start| + rightReadLength`.

Both maps are `unordered_map`s, which a range `for` visits in an unspecified order
(`iterate`, any permutation), and `std::sort` inside `computeBestChain` may leave equal
votes in any order (`sortVotes`, any `SortOutcome`). Whatever the orders, the group holds
one alignment per transcript the read's calls name whose chain scores at least the
cutoff, built from exactly that transcript's votes (`getHitsForFragment_single_perm`);
for a pair, per transcript both ends name with both chains at least the cutoff
(`getHitsForFragment_paired_perm`).

The chain scores are `double`s (`computeBestChain_score`), and a pair's score is their
mean in `double`: the sum rounded, then the product with `0.5` rounded. How a `double`
is stored, its bit pattern, is the parameter `toDouble`, and so is
`salmon::utils::hitType`. The `int32_t` difference of the two positions and its
`std::abs` are read on the integers, as in `computeBestLoc_` (both are undefined when they
overflow). `hitListCount` goes up by one per alignment, `readHits` is never read.
-/

namespace SalmonQuant.Mapping

/-- The four fields `computeBestChain` sets: `bestHitPos`, `bestHitCount`,
`bestHitScore` and `isForward_`. -/
abbrev BestHit := BitVec 32 × BitVec 32 × ℚ × Bool

/-- `TranscriptHitList::computeBestChain`: `std::sort` on both vote lists, then the two
sweeps; `none` is a sweep's `std::exit(1)`. -/
def TranscriptHitList.computeBestChain (sortVotes : List KmerVote → List KmerVote)
    (h : TranscriptHitList) (readLen : Nat) : Option BestHit :=
  Mapping.computeBestChain (sortVotes h.votes) (sortVotes h.rcVotes) readLen

/-- `sortVotes` only leaves orders `std::sort` may produce. -/
def SortsVotes (sortVotes : List KmerVote → List KmerVote) : Prop :=
  ∀ vs, SortOutcome vs (sortVotes vs)

/-- `iterate` visits every entry of a map once, in some order. -/
def IteratesMap (iterate : List (Nat × TranscriptHitList) → List (Nat × TranscriptHitList)) :
    Prop :=
  ∀ hits, (iterate hits).Perm hits

/-- A loop over entries that adds at most one alignment per entry: `step` is `none` at a
`std::exit`, and `some none` at a `continue`. -/
def alignmentLoop {α β : Type} (step : α → Option (Option β)) (entries : List α) :
    Option (List β) :=
  entries.foldlM (fun alns e => (step e).map fun a => alns ++ a.toList) []

/-! ## `std::sort` -/

/-- `voteLess b a = false`: `a` may stand before `b`, lexicographically on the signed
`votePos` and the unsigned `readPos`. -/
theorem voteLess_eq_false_iff (a b : KmerVote) :
    voteLess b a = false ↔ a.votePos.toInt < b.votePos.toInt ∨
      (a.votePos.toInt = b.votePos.toInt ∧ a.readPos.toNat ≤ b.readPos.toNat) := by
  unfold voteLess
  by_cases same : b.votePos = a.votePos
  · have := congrArg BitVec.toInt same
    rw [if_pos same, decide_eq_false_iff_not, BitVec.lt_def]
    omega
  · have : b.votePos.toInt ≠ a.votePos.toInt := fun e => same (BitVec.eq_of_toInt_eq e)
    simp only [same, if_false, BitVec.slt, decide_eq_false_iff_not]
    omega

theorem voteLess_total (a b : KmerVote) : voteLess b a = false ∨ voteLess a b = false := by
  simp only [voteLess_eq_false_iff]
  omega

theorem voteLess_trans {a b c : KmerVote} (ab : voteLess b a = false)
    (bc : voteLess c b = false) : voteLess c a = false := by
  simp only [voteLess_eq_false_iff] at ab bc ⊢
  omega

instance : IsTotal KmerVote fun a b => voteLess b a = false := ⟨voteLess_total⟩

instance : IsTrans KmerVote fun a b => voteLess b a = false := ⟨fun _ _ _ => voteLess_trans⟩

/-- One order `std::sort` may leave: insertion sort. -/
def insertionSortVotes (vs : List KmerVote) : List KmerVote :=
  vs.insertionSort fun a b => voteLess b a = false

theorem sortsVotes_insertionSortVotes : SortsVotes insertionSortVotes :=
  fun vs => ⟨List.perm_insertionSort _ vs, List.sorted_insertionSort _ vs⟩

/-- On sorted lists the sweeps never exit. -/
theorem TranscriptHitList.computeBestChain_isSome {sortVotes : List KmerVote → List KmerVote}
    (sorts : SortsVotes sortVotes) (h : TranscriptHitList) (readLen : Nat) :
    (h.computeBestChain sortVotes readLen).isSome := by
  obtain ⟨_, b₁, h₁, -⟩ := computeBestLoc_carry readLen (sortVotes h.votes) ⟨0, 0, 0⟩ (sorts _).2
  obtain ⟨_, b₂, h₂, -⟩ := computeBestLoc_carry readLen (sortVotes h.rcVotes) b₁ (sorts _).2
  simp only [TranscriptHitList.computeBestChain, Mapping.computeBestChain, h₁, h₂, bind,
    Option.bind, pure, Option.isSome_some]

/-! ## The alignment loop -/

section Loop

variable {α β : Type} (step : α → Option (Option β))

theorem alignmentLoop_from (acc : List β) :
    ∀ entries : List α, (∀ e ∈ entries, (step e).isSome) →
      entries.foldlM (fun alns e => (step e).map fun a => alns ++ a.toList) acc =
        some (acc ++ entries.filterMap fun e => (step e).join)
  | [], _ => by simp
  | e :: entries, total => by
    obtain ⟨a, ha⟩ := Option.isSome_iff_exists.1 (total e (List.mem_cons_self _ _))
    simp only [List.foldlM_cons, ha, Option.map_some', Option.bind_eq_bind, Option.some_bind,
      alignmentLoop_from _ entries fun e' he' => total e' (List.mem_cons_of_mem _ he')]
    cases a <;> simp [ha]

/-- When no entry exits, the loop adds each entry's alignment, whatever order it visits
them in. -/
theorem alignmentLoop_perm {entries entries' : List α} (perm : entries.Perm entries')
    (total : ∀ e ∈ entries', (step e).isSome) :
    ∃ alns, alignmentLoop step entries = some alns ∧
      alns.Perm (entries'.filterMap fun e => (step e).join) :=
  ⟨_, (alignmentLoop_from step [] entries fun e he => total e (perm.subset he)).trans
    (by rw [List.nil_append]), perm.filterMap _⟩

end Loop

/-! ## Single-end reads -/

namespace SingleEnd

variable {K : Type} [Zero K] (sortVotes : List KmerVote → List KmerVote)
  (hitType : BitVec 32 → Bool → LibraryFormat) (toDouble : ℚ → UInt64) (coverageThresh : ℚ)
  (readLen : Nat)

/-- The alignment a transcript `t` with chain `c` adds when `bestHitScore >= cutoff`:
`SMEMAlignment(t, hitType(bestHitPos, isForward), score)`, with the defaults
`fragLength = 0` and `logProb = LOG_0`. -/
def hitAlignment (t : Nat) (c : BestHit) : Option (SMEMAlignment K) :=
  if c.2.2.1 ≥ coverageThresh then
    some ⟨UInt32.ofNat t, hitType c.1 c.2.2.2, toDouble c.2.2.1, 0, 0⟩
  else none

/-- One entry of the loop: its chain, then its alignment. -/
def hitStep (e : Nat × TranscriptHitList) : Option (Option (SMEMAlignment K)) :=
  (e.2.computeBestChain sortVotes readLen).map (hitAlignment hitType toDouble coverageThresh e.1)

/-- `getHitsForFragment` for a single-end read of length `readLen` whose SMEMs are
`mems`; `iterate` is the order the map is visited in. -/
def getHitsForFragment
    (iterate : List (Nat × TranscriptHitList) → List (Nat × TranscriptHitList)) (ly : Layout)
    (sa : BitVec 64 → Nat) (splitSpanningSeeds : Bool) (minSeedLen : Nat) (maxOcc : BitVec 32)
    (mems : List BwtIntv) : Option (List (SMEMAlignment K)) :=
  (collectHitsForRead ly sa splitSpanningSeeds minSeedLen maxOcc readLen mems []).bind fun hits =>
    alignmentLoop (hitStep sortVotes hitType toDouble coverageThresh readLen) (iterate hits)

/-- What a read maps to, with the map taken out: for each transcript some call names, the
alignment the chain of exactly its votes gives. -/
def hitSpec (ms : List FragMatch) : List (SMEMAlignment K) :=
  (ms.map FragMatch.refID).dedup.filterMap fun t =>
    ((hitListFor ms t).computeBestChain sortVotes readLen).bind
      (hitAlignment hitType toDouble coverageThresh t)

end SingleEnd

theorem SingleEnd.getHitsForFragment_perm {K : Type} [Zero K]
    (sortVotes : List KmerVote → List KmerVote) (hitType : BitVec 32 → Bool → LibraryFormat)
    (toDouble : ℚ → UInt64) (coverageThresh : ℚ) (readLen : Nat)
    (iterate : List (Nat × TranscriptHitList) → List (Nat × TranscriptHitList)) (ly : Layout)
    (sa : BitVec 64 → Nat) (splitSpanningSeeds : Bool) (minSeedLen : Nat) (maxOcc : BitVec 32)
    (mems : List BwtIntv) (nonzero : maxOcc ≠ 0) (sorts : SortsVotes sortVotes)
    (iterates : IteratesMap iterate) :
    ∃ alns : List (SMEMAlignment K), SingleEnd.getHitsForFragment sortVotes hitType toDouble
        coverageThresh readLen iterate ly sa splitSpanningSeeds minSeedLen maxOcc mems =
        some alns ∧
      alns.Perm (SingleEnd.hitSpec sortVotes hitType toDouble coverageThresh readLen
        (readMatches ly sa splitSpanningSeeds minSeedLen maxOcc readLen mems)) := by
  obtain ⟨hits, run, perm⟩ :=
    collectHitsForRead_perm ly sa splitSpanningSeeds minSeedLen maxOcc readLen mems nonzero
  obtain ⟨alns, loop, alnsPerm⟩ := alignmentLoop_perm
    (SingleEnd.hitStep (K := K) sortVotes hitType toDouble coverageThresh readLen)
    ((iterates hits).trans perm) fun e _ => by
      simpa [SingleEnd.hitStep] using e.2.computeBestChain_isSome sorts readLen
  refine ⟨alns, by rw [SingleEnd.getHitsForFragment, run, Option.some_bind, loop], ?_⟩
  rw [SingleEnd.hitSpec]
  refine alnsPerm.trans (List.Perm.of_eq ?_)
  rw [List.filterMap_map]
  congr 1
  funext t
  dsimp only [Function.comp, SingleEnd.hitStep]
  cases (hitListFor _ t).computeBestChain sortVotes readLen <;> rfl

/-- A single-end read's alignment group, in whatever order the map is iterated and
whatever order `std::sort` leaves equal votes in, holds exactly one alignment per
transcript some call of `collectHitsForRead` names whose chain, over exactly that
transcript's votes, scores at least the cutoff; nothing exits. -/
theorem getHitsForFragment_single_perm {K : Type} [Zero K]
    (sortVotes : List KmerVote → List KmerVote) (hitType : BitVec 32 → Bool → LibraryFormat)
    (toDouble : ℚ → UInt64) (coverageThresh : ℚ) (readLen : Nat)
    (iterate : List (Nat × TranscriptHitList) → List (Nat × TranscriptHitList)) (ly : Layout)
    (sa : BitVec 64 → Nat) (splitSpanningSeeds : Bool) (minSeedLen : Nat) (maxOcc : BitVec 32)
    (mems : List BwtIntv) (nonzero : maxOcc ≠ 0) (sorts : SortsVotes sortVotes)
    (iterates : IteratesMap iterate) :
    ∃ alns : List (SMEMAlignment K), SingleEnd.getHitsForFragment sortVotes hitType toDouble
        coverageThresh readLen iterate ly sa splitSpanningSeeds minSeedLen maxOcc mems =
        some alns ∧
      alns.Perm (SingleEnd.hitSpec sortVotes hitType toDouble coverageThresh readLen
        (readMatches ly sa splitSpanningSeeds minSeedLen maxOcc readLen mems)) :=
  SingleEnd.getHitsForFragment_perm sortVotes hitType toDouble coverageThresh readLen iterate ly sa
    splitSpanningSeeds minSeedLen maxOcc mems nonzero sorts iterates

/-- The read of `collectHitsForRead_split_then_inside`, its map visited in insertion
order and its votes sorted by insertion sort. -/
theorem getHitsForFragment_single_split_read :
    let ly : Layout := ⟨[30, 30], by decide⟩
    let sa : BitVec 64 → Nat := fun x => if x = 0 then 20 else 0
    let p : BwtIntv := ⟨0, 2, 0, 25, by decide⟩
    let hitType : BitVec 32 → Bool → LibraryFormat := fun _ _ => ⟨.SINGLE_END, .NONE, .U⟩
    (2 : BitVec 32) ≠ 0 ∧ SortsVotes insertionSortVotes ∧ IteratesMap id ∧
      ∃ alns : List (SMEMAlignment ℚ), SingleEnd.getHitsForFragment insertionSortVotes hitType
          (fun _ => 0) (1 / 4) 40 id ly sa true 5 2 [p] = some alns ∧
        alns.Perm (SingleEnd.hitSpec insertionSortVotes hitType (fun _ => 0) (1 / 4) 40
          (readMatches ly sa true 5 2 40 [p])) := by
  intro ly sa p hitType
  have nonzero : (2 : BitVec 32) ≠ 0 := by decide
  have iterates : IteratesMap id := List.Perm.refl
  exact ⟨nonzero, sortsVotes_insertionSortVotes, iterates, getHitsForFragment_single_perm
    _ _ _ _ _ _ ly sa true 5 2 [p] nonzero sortsVotes_insertionSortVotes iterates⟩

/-! ## Paired-end reads -/

theorem mapM_isSome {α β : Type} (f : α → Option β) :
    ∀ l : List α, (∀ a ∈ l, (f a).isSome) → ∃ l', l.mapM f = some l'
  | [], _ => ⟨[], rfl⟩
  | a :: l, total => by
    obtain ⟨b, hb⟩ := Option.isSome_iff_exists.1 (total a (List.mem_cons_self _ _))
    obtain ⟨l', hl⟩ := mapM_isSome f l fun a' ha' => total a' (List.mem_cons_of_mem _ ha')
    exact ⟨b :: l', by rw [List.mapM_cons, hb, hl]; rfl⟩

/-- Mapping the values of a map keeps its lookups. -/
theorem lookup_of_mapM {β γ : Type} (g : β → Option γ) :
    ∀ (l : List (Nat × β)) {l' : List (Nat × γ)},
      l.mapM (fun e => (g e.2).map (e.1, ·)) = some l' → ∀ t, l'.lookup t = (l.lookup t).bind g
  | [], l', h, t => by cases h; rfl
  | (u, b) :: l, l', h, t => by
    rw [List.mapM_cons] at h
    cases hb : g b with
    | none => simp [hb] at h
    | some c =>
      cases hl : l.mapM (fun e => (g e.2).map (e.1, ·)) with
      | none =>
        simp only [hb, hl, Option.map_some', Option.bind_eq_bind, Option.some_bind,
          Option.none_bind, reduceCtorEq] at h
      | some l'' =>
        simp only [hb, hl, Option.map_some', Option.bind_eq_bind, Option.some_bind, pure,
          Option.some.injEq] at h
        subst h
        by_cases tu : t = u
        · subst tu; simp [hb]
        · rw [lookup_cons_of_ne tu, lookup_cons_of_ne tu, lookup_of_mapM g l hl t]

namespace PairedEnd

variable {K : Type} [Zero K] (sortVotes : List KmerVote → List KmerVote)
  (hitType : BitVec 32 → Bool → BitVec 32 → Bool → LibraryFormat) (toDouble : ℚ → UInt64)
  (coverageThresh : ℚ) (leftReadLength rightReadLength : Nat)

/-- The alignment a right entry for transcript `t` adds, from the left chain `c1` and its
own chain `c2`: none when its score is below the cutoff (`continue`); otherwise the
`double` mean `(score1 + score2) * 0.5`, `hitType` of both ends, and `fragLength`. -/
def pairAlignment (t : Nat) (c1 c2 : BestHit) : Option (SMEMAlignment K) :=
  if c2.2.2.1 < coverageThresh then none
  else
    let end1Pos := if c1.2.2.2 then c1.1 else c1.1 + BitVec.ofNat 32 leftReadLength
    let end2Pos := if c2.2.2.2 then c2.1 else c2.1 + BitVec.ofNat 32 rightReadLength
    some ⟨UInt32.ofNat t, hitType end1Pos c1.2.2.2 end2Pos c2.2.2.2,
      toDouble (roundDouble (roundDouble (c1.2.2.1 + c2.2.2.1) * (1 / 2))),
      UInt32.ofNat ((c1.1.toInt - c2.1.toInt).natAbs + rightReadLength), 0⟩

/-- One right entry: `leftHits.find`, the left score against the cutoff, then the right
chain. -/
def pairStep (leftChains : List (Nat × BestHit)) (e : Nat × TranscriptHitList) :
    Option (Option (SMEMAlignment K)) :=
  match leftChains.lookup e.1 with
  | some c1 =>
    if c1.2.2.1 ≥ coverageThresh then
      (e.2.computeBestChain sortVotes rightReadLength).map
        (pairAlignment hitType toDouble coverageThresh leftReadLength rightReadLength e.1 c1)
    else some none
  | none => some none

/-- The loop over the left map: every entry's chain. -/
def leftChains (leftHits : List (Nat × TranscriptHitList)) : Option (List (Nat × BestHit)) :=
  leftHits.mapM fun e => (e.2.computeBestChain sortVotes leftReadLength).map (e.1, ·)

/-- `getHitsForFragment` for a pair whose ends have lengths `leftReadLength` and
`rightReadLength` and SMEMs `leftMems` and `rightMems`; `iterate` is the order both maps
are visited in. -/
def getHitsForFragment
    (iterate : List (Nat × TranscriptHitList) → List (Nat × TranscriptHitList)) (ly : Layout)
    (sa : BitVec 64 → Nat) (splitSpanningSeeds : Bool) (minSeedLen : Nat) (maxOcc : BitVec 32)
    (leftMems rightMems : List BwtIntv) : Option (List (SMEMAlignment K)) := do
  let leftHits ← collectHitsForRead ly sa splitSpanningSeeds minSeedLen maxOcc leftReadLength
    leftMems []
  let rightHits ← collectHitsForRead ly sa splitSpanningSeeds minSeedLen maxOcc rightReadLength
    rightMems []
  let chains ← leftChains sortVotes leftReadLength (iterate leftHits)
  alignmentLoop
    (pairStep sortVotes hitType toDouble coverageThresh leftReadLength rightReadLength chains)
    (iterate rightHits)

/-- What a pair maps to, with the maps taken out: for each transcript both ends' calls
name, the alignment of the two chains over exactly its votes, when both score at least the
cutoff. -/
def pairSpec (leftMatches rightMatches : List FragMatch) : List (SMEMAlignment K) :=
  (rightMatches.map FragMatch.refID).dedup.filterMap fun t =>
    if t ∈ leftMatches.map FragMatch.refID then
      ((hitListFor leftMatches t).computeBestChain sortVotes leftReadLength).bind fun c1 =>
        if c1.2.2.1 ≥ coverageThresh then
          ((hitListFor rightMatches t).computeBestChain sortVotes rightReadLength).bind
            (pairAlignment hitType toDouble coverageThresh leftReadLength rightReadLength t c1)
        else none
    else none

end PairedEnd

theorem PairedEnd.getHitsForFragment_perm {K : Type} [Zero K]
    (sortVotes : List KmerVote → List KmerVote)
    (hitType : BitVec 32 → Bool → BitVec 32 → Bool → LibraryFormat) (toDouble : ℚ → UInt64)
    (coverageThresh : ℚ) (leftReadLength rightReadLength : Nat)
    (iterate : List (Nat × TranscriptHitList) → List (Nat × TranscriptHitList)) (ly : Layout)
    (sa : BitVec 64 → Nat) (splitSpanningSeeds : Bool) (minSeedLen : Nat) (maxOcc : BitVec 32)
    (leftMems rightMems : List BwtIntv) (nonzero : maxOcc ≠ 0) (sorts : SortsVotes sortVotes)
    (iterates : IteratesMap iterate) :
    ∃ alns : List (SMEMAlignment K), PairedEnd.getHitsForFragment sortVotes hitType toDouble
        coverageThresh leftReadLength rightReadLength iterate ly sa splitSpanningSeeds
        minSeedLen maxOcc leftMems rightMems = some alns ∧
      alns.Perm (PairedEnd.pairSpec sortVotes hitType toDouble coverageThresh leftReadLength
        rightReadLength
        (readMatches ly sa splitSpanningSeeds minSeedLen maxOcc leftReadLength leftMems)
        (readMatches ly sa splitSpanningSeeds minSeedLen maxOcc rightReadLength rightMems)) := by
  obtain ⟨leftHits, runL, permL⟩ := collectHitsForRead_perm ly sa splitSpanningSeeds
    minSeedLen maxOcc leftReadLength leftMems nonzero
  obtain ⟨rightHits, runR, permR⟩ := collectHitsForRead_perm ly sa splitSpanningSeeds
    minSeedLen maxOcc rightReadLength rightMems nonzero
  generalize readMatches ly sa splitSpanningSeeds minSeedLen maxOcc leftReadLength leftMems =
    msL at permL ⊢
  generalize readMatches ly sa splitSpanningSeeds minSeedLen maxOcc rightReadLength rightMems =
    msR at permR ⊢
  have chainSome := fun h => TranscriptHitList.computeBestChain_isSome sorts h
  obtain ⟨chains, hc⟩ := mapM_isSome (fun e : Nat × TranscriptHitList =>
      (e.2.computeBestChain sortVotes leftReadLength).map (e.1, ·)) (iterate leftHits)
    fun e _ => by simpa using chainSome e.2 leftReadLength
  -- the left chains look up as the chains of the left calls
  have lookupC : ∀ t, chains.lookup t = if t ∈ msL.map FragMatch.refID then
      (hitListFor msL t).computeBestChain sortVotes leftReadLength else none := fun t => by
    rw [lookup_of_mapM (fun h : TranscriptHitList => h.computeBestChain sortVotes leftReadLength)
      _ hc, lookup_of_perm (List.nodup_dedup _)
      ((iterates leftHits).trans permL)]
    by_cases mem : t ∈ msL.map FragMatch.refID <;> simp [mem, List.mem_dedup]
  obtain ⟨alns, loop, alnsPerm⟩ := alignmentLoop_perm (PairedEnd.pairStep (K := K) sortVotes
      hitType toDouble coverageThresh leftReadLength rightReadLength chains)
    ((iterates rightHits).trans permR) fun e _ => by
      unfold PairedEnd.pairStep
      split
      · split_ifs
        · simpa using chainSome e.2 rightReadLength
        · rfl
      · rfl
  refine ⟨alns, ?_, alnsPerm.trans (List.Perm.of_eq ?_)⟩
  · simp only [PairedEnd.getHitsForFragment, runL, runR, Option.bind_eq_bind, Option.some_bind,
      PairedEnd.leftChains, hc, loop]
  · rw [List.filterMap_map, PairedEnd.pairSpec]
    congr 1
    funext t
    dsimp only [Function.comp, PairedEnd.pairStep]
    rw [lookupC t]
    by_cases mem : t ∈ msL.map FragMatch.refID
    · obtain ⟨c1, hc1⟩ := Option.isSome_iff_exists.1 (chainSome (hitListFor msL t) leftReadLength)
      rw [if_pos mem, if_pos mem, hc1, Option.some_bind]
      dsimp only
      split_ifs
      · cases (hitListFor msR t).computeBestChain sortVotes rightReadLength <;> rfl
      · rfl
    · rw [if_neg mem, if_neg mem]
      rfl

/-- A pair's alignment group, in whatever order the maps are iterated and whatever order
`std::sort` leaves equal votes in, holds exactly one alignment per transcript that calls of
both ends name and whose two chains, each over exactly that end's votes for it, both score
at least the cutoff; nothing exits. -/
theorem getHitsForFragment_paired_perm {K : Type} [Zero K]
    (sortVotes : List KmerVote → List KmerVote)
    (hitType : BitVec 32 → Bool → BitVec 32 → Bool → LibraryFormat) (toDouble : ℚ → UInt64)
    (coverageThresh : ℚ) (leftReadLength rightReadLength : Nat)
    (iterate : List (Nat × TranscriptHitList) → List (Nat × TranscriptHitList)) (ly : Layout)
    (sa : BitVec 64 → Nat) (splitSpanningSeeds : Bool) (minSeedLen : Nat) (maxOcc : BitVec 32)
    (leftMems rightMems : List BwtIntv) (nonzero : maxOcc ≠ 0) (sorts : SortsVotes sortVotes)
    (iterates : IteratesMap iterate) :
    ∃ alns : List (SMEMAlignment K), PairedEnd.getHitsForFragment sortVotes hitType toDouble
        coverageThresh leftReadLength rightReadLength iterate ly sa splitSpanningSeeds
        minSeedLen maxOcc leftMems rightMems = some alns ∧
      alns.Perm (PairedEnd.pairSpec sortVotes hitType toDouble coverageThresh leftReadLength
        rightReadLength
        (readMatches ly sa splitSpanningSeeds minSeedLen maxOcc leftReadLength leftMems)
        (readMatches ly sa splitSpanningSeeds minSeedLen maxOcc rightReadLength rightMems)) :=
  PairedEnd.getHitsForFragment_perm sortVotes hitType toDouble coverageThresh leftReadLength
    rightReadLength iterate ly sa splitSpanningSeeds minSeedLen maxOcc leftMems rightMems nonzero
    sorts iterates

/-- Both ends of a pair read as the read of `getHitsForFragment_single_split_read`. -/
theorem getHitsForFragment_paired_split_read :
    let ly : Layout := ⟨[30, 30], by decide⟩
    let sa : BitVec 64 → Nat := fun x => if x = 0 then 20 else 0
    let p : BwtIntv := ⟨0, 2, 0, 25, by decide⟩
    let hitType : BitVec 32 → Bool → BitVec 32 → Bool → LibraryFormat :=
      fun _ _ _ _ => ⟨.PAIRED_END, .TOWARD, .U⟩
    (2 : BitVec 32) ≠ 0 ∧ SortsVotes insertionSortVotes ∧ IteratesMap id ∧
      ∃ alns : List (SMEMAlignment ℚ), PairedEnd.getHitsForFragment insertionSortVotes hitType
          (fun _ => 0) (1 / 4) 40 40 id ly sa true 5 2 [p] [p] = some alns ∧
        alns.Perm (PairedEnd.pairSpec insertionSortVotes hitType (fun _ => 0) (1 / 4) 40 40
          (readMatches ly sa true 5 2 40 [p]) (readMatches ly sa true 5 2 40 [p])) := by
  intro ly sa p hitType
  have nonzero : (2 : BitVec 32) ≠ 0 := by decide
  have iterates : IteratesMap id := List.Perm.refl
  exact ⟨nonzero, sortsVotes_insertionSortVotes, iterates, getHitsForFragment_paired_perm
    _ _ _ _ _ _ _ ly sa true 5 2 [p] [p] nonzero sortsVotes_insertionSortVotes iterates⟩

end SalmonQuant.Mapping
