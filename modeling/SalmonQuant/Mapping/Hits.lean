import Mathlib

/-!
# From seed occurrences to votes

`collectHitsForRead` (`SalmonQuantify.cpp:900`) turns every occurrence of every seed
into a vote. The index text is the packed forward transcripts, at offsets
`anns[t].offset`, followed by their reverse complement; `bns_depos` maps a text
position back to a forward position and says whether it fell in the reverse half, and
`bns_pos2rid` names the transcript holding a forward position. An occurrence that
crosses the strand boundary is dropped; one that crosses a transcript boundary is
dropped or, with `splitSpanningSeeds`, cut down to its longer side. What is left goes to
`addFragMatch` (forward) or `addFragMatchRC` (`:521`).

`collectOccurrence` is the body of the `for k` loop for one occurrence at text position
`refStart`. The source mixes `int`, `uint32_t`, `int64_t` and `bwtint_t`; on every
occurrence inside the text these quantities are small and non-negative where the source
takes them unsigned, so the model computes them in `Int`.

`bns_depos` and `bns_pos2rid` come from BWA, which is not part of this snapshot: they are
modelled from the spec's description of the index.

`matchedPos` says which forward position each read base of an occurrence is matched to;
a vote is right when every base of its query interval is matched inside the transcript
it names (`VoteInside`). Occurrences inside one transcript, and forward ones across one
boundary, only give such votes; the reverse split misplaces the boundary by one base.
-/

namespace SalmonQuant.Mapping

/-- The transcripts of the index, of positive lengths, packed one after another. -/
structure Layout where
  lens : List Nat
  pos : ∀ l ∈ lens, 0 < l

/-- `anns[t].offset`. -/
def Layout.offset (ly : Layout) (t : Nat) : Nat := (ly.lens.take t).sum

/-- `anns[t].len`. -/
def Layout.len (ly : Layout) (t : Nat) : Nat := ly.lens.getD t 0

/-- `l_pac`, the length of the forward half. -/
def Layout.lPac (ly : Layout) : Nat := ly.lens.sum

/-- Modelled from the spec (the reverse-complement half is mapped back to forward
positions): `bns_depos`, the forward position and whether `pos` is in the reverse
half. -/
def bnsDepos (ly : Layout) (pos : Nat) : Nat × Bool :=
  if pos ≥ ly.lPac then (2 * ly.lPac - 1 - pos, true) else (pos, false)

/-- The index of the length segment holding `p`. -/
def ridOf : List Nat → Nat → Nat
  | [], _ => 0
  | l :: ls, p => if p < l then 0 else ridOf ls (p - l) + 1

/-- Modelled from the spec (per-sequence offsets in the packed reference): `bns_pos2rid`,
the transcript holding forward position `pos`, `-1` past the forward half. -/
def bnsPos2rid (ly : Layout) (pos : Nat) : Int :=
  if pos ≥ ly.lPac then -1 else ridOf ly.lens pos

/-- One call of `addFragMatch` or `addFragMatchRC`: the transcript, the strand, and the
arguments `tpos`, `readPos`, `voteLen`, and `readLen` for the reverse strand. -/
structure FragMatch where
  refID : Nat
  isRev : Bool
  tpos : Int
  readPos : Int
  voteLen : Int
  readLen : Int
  deriving DecidableEq, Repr

/-- The `votePos` the call stores. -/
def FragMatch.votePos (m : FragMatch) : Int :=
  if m.isRev then m.tpos - (m.readLen - m.readPos) else m.tpos - m.readPos

/-- The body of the `for k` loop for the occurrence of seed `[qstart, qend)` of a read
of length `readLen` at text position `refStart`: the vote it adds, or `none` for a
`continue`. -/
def collectOccurrence (ly : Layout) (splitSpanningSeeds : Bool) (minSeedLen : Nat)
    (readLen qstart qend refStart : Nat) : Option FragMatch :=
  let slen : Int := (qend : Int) - qstart
  let s := bnsDepos ly refStart
  let e := bnsDepos ly (refStart + (qend - qstart) - 1)
  if s.2 ≠ e.2 then none
  else
    let isRev := s.2
    let startPos := if isRev then e.1 else s.1
    let endPos := if isRev then s.1 else e.1
    let refIDStart := bnsPos2rid ly startPos
    let refIDEnd := bnsPos2rid ly endPos
    if refIDStart < 0 then none
    else
      let refID := refIDStart.toNat
      let tlen : Int := ly.len refID
      let hitLoc : Int := ((if isRev then endPos else startPos : Nat) : Int) - ly.offset refID
      if refIDStart ≠ refIDEnd then
        if !splitSpanningSeeds then none
        else if !isRev then
          let len1 := tlen - hitLoc
          let len2 := slen - len1
          if max len1 len2 < minSeedLen then none
          else if len1 ≥ len2 then some ⟨refID, false, hitLoc, qstart, len1, readLen⟩
          else some ⟨refIDEnd.toNat, false, 0, qstart + len1, len2, readLen⟩
        else
          let len2 : Int := (endPos : Int) - ly.offset refIDEnd.toNat
          let len1 := slen - len2
          if max len1 len2 < minSeedLen then none
          else if len1 ≥ len2 then
            some ⟨refID, true, tlen - len2, qstart + len2, len1, readLen - len2⟩
          else some ⟨(bnsPos2rid ly endPos).toNat, true, len2, qstart, len2, len2 + qstart⟩
      else some ⟨refID, isRev, hitLoc, qstart, slen, readLen⟩

/-- The forward position read base `i` of the seed is matched to: `refStart + (i - q)`
on the forward strand, counted down from the last forward base on the reverse one. -/
def matchedPos (ly : Layout) (qstart refStart i : Nat) : Nat :=
  if refStart ≥ ly.lPac then 2 * ly.lPac - 1 - refStart - (i - qstart)
  else refStart + (i - qstart)

/-! ## The layout -/

theorem Layout.offset_succ (ly : Layout) (t : Nat) :
    ly.offset (t + 1) = ly.offset t + ly.len t := by
  unfold Layout.offset Layout.len
  generalize ly.lens = lens
  induction lens generalizing t with
  | nil => simp only [List.take_nil, List.sum_nil, List.getD_nil, Nat.add_zero]
  | cons l ls ih =>
    cases t with
    | zero => simp only [List.take_succ_cons, List.take_zero, List.sum_cons, List.sum_nil,
        List.getD_cons_zero, Nat.add_zero, Nat.zero_add]
    | succ t => simp only [List.take_succ_cons, List.sum_cons, ih, List.getD_cons_succ]; omega

theorem Layout.offset_le_lPac (ly : Layout) (t : Nat) : ly.offset t ≤ ly.lPac := by
  unfold Layout.offset Layout.lPac
  generalize ly.lens = lens
  induction lens generalizing t with
  | nil => simp
  | cons l ls ih => cases t <;> simp [ih]

/-- `ridOf` finds the segment a position lies in. -/
theorem ridOf_eq (lens : List Nat) (t p : Nat) (h1 : (lens.take t).sum ≤ p)
    (h2 : p < (lens.take t).sum + lens.getD t 0) : ridOf lens p = t := by
  induction lens generalizing t p with
  | nil => simp at h2
  | cons l ls ih =>
    cases t with
    | zero =>
      simp only [List.take_zero, List.sum_nil, List.getD_cons_zero, Nat.zero_add] at h2
      simp [ridOf, h2]
    | succ t =>
      simp only [List.take_succ_cons, List.sum_cons, List.getD_cons_succ] at h1 h2
      simp only [ridOf, show ¬ p < l by omega, if_false, ih t (p - l) (by omega) (by omega)]

/-- A forward position inside transcript `t` is reported as `t`. -/
theorem bnsPos2rid_of_mem {ly : Layout} {t p : Nat} (h1 : ly.offset t ≤ p)
    (h2 : p < ly.offset t + ly.len t) : bnsPos2rid ly p = t := by
  have : p < ly.lPac := lt_of_lt_of_le h2 (ly.offset_succ t ▸ ly.offset_le_lPac (t + 1))
  simp [bnsPos2rid, Nat.not_le.2 this, ridOf_eq ly.lens t p h1 h2]

theorem bnsDepos_forward {ly : Layout} {pos : Nat} (h : pos < ly.lPac) :
    bnsDepos ly pos = (pos, false) := by
  simp [bnsDepos, Nat.not_le.2 h]

theorem bnsDepos_reverse {ly : Layout} {pos : Nat} (h : ly.lPac ≤ pos) :
    bnsDepos ly pos = (2 * ly.lPac - 1 - pos, true) := by
  simp [bnsDepos, h]

/-! ## Occurrences inside one transcript -/

/-- The forward position read base `i` is matched to lies in transcript `t`. -/
def MatchedIn (ly : Layout) (qstart refStart i t : Nat) : Prop :=
  ly.offset t ≤ matchedPos ly qstart refStart i ∧
    matchedPos ly qstart refStart i < ly.offset t + ly.len t

instance (ly : Layout) (qstart refStart i t : Nat) : Decidable (MatchedIn ly qstart refStart i t) :=
  inferInstanceAs (Decidable (_ ∧ _))

/-- Read base `qend - 1`, the seed's last, is `qend - qstart - 1` bases after its first. -/
theorem seed_last_forward (r : Nat) {qstart qend : Nat} (seed : qstart < qend) :
    r + (qend - 1 - qstart) = r + (qend - qstart) - 1 := by
  rw [Nat.add_sub_assoc (Nat.sub_pos_of_lt seed), Nat.sub_right_comm]

/-- The same, counted down from `p` on the reverse strand. -/
theorem seed_last_reverse (p r : Nat) {qstart qend : Nat} (seed : qstart < qend) :
    p - (r + (qend - qstart) - 1) = p - r - (qend - 1 - qstart) := by
  rw [Nat.sub_sub p r, seed_last_forward r seed]

/-- An occurrence that stays on one strand and whose first and last bases (so all of
them) are matched inside transcript `t` gives one vote for `t`: the whole seed as its
query interval, and as `votePos` the forward position of the seed's first base, relative
to `t`, minus `qstart` (forward) or `readLen - qstart` (reverse). -/
theorem collectOccurrence_inside (ly : Layout) (splitSpanningSeeds : Bool)
    (minSeedLen readLen qstart qend refStart t : Nat) (seed : qstart < qend)
    (strand : refStart < ly.lPac → refStart + (qend - qstart) ≤ ly.lPac)
    (first : MatchedIn ly qstart refStart qstart t)
    (last : MatchedIn ly qstart refStart (qend - 1) t) :
    ∃ m, collectOccurrence ly splitSpanningSeeds minSeedLen readLen qstart qend refStart =
        some m ∧ m.refID = t ∧ m.readPos = qstart ∧ m.voteLen = (qend : Int) - qstart ∧
      m.votePos = (matchedPos ly qstart refStart qstart : Int) - ly.offset t -
        (if ly.lPac ≤ refStart then (readLen : Int) - qstart else qstart) := by
  have nonneg : ¬ (t : Int) < 0 := Int.not_lt.2 (Int.ofNat_nonneg t)
  have span : 0 < qend - qstart := Nat.sub_pos_of_lt seed
  obtain ⟨f1, f2⟩ := first
  obtain ⟨l1, l2⟩ := last
  by_cases rev : ly.lPac ≤ refStart
  · have lastRev : ly.lPac ≤ refStart + (qend - qstart) - 1 :=
      le_trans rev (Nat.le_sub_one_of_lt (Nat.lt_add_of_pos_right span))
    simp only [matchedPos, if_pos rev, Nat.sub_self, Nat.sub_zero] at f1 f2 l1 l2
    simp only [collectOccurrence, bnsDepos_reverse rev, bnsDepos_reverse lastRev, ne_eq,
      not_true_eq_false, if_false, if_true, seed_last_reverse _ _ seed, bnsPos2rid_of_mem l1 l2,
      bnsPos2rid_of_mem f1 f2, nonneg, Int.toNat_ofNat]
    refine ⟨_, rfl, rfl, rfl, rfl, ?_⟩
    simp only [FragMatch.votePos, matchedPos, ge_iff_le, if_pos rev, ↓reduceIte, Nat.sub_self,
      Nat.sub_zero]
  · have lastFwd : refStart + (qend - qstart) - 1 < ly.lPac :=
      Nat.sub_one_lt_of_le (Nat.add_pos_right _ span) (strand (Nat.not_le.1 rev))
    simp only [matchedPos, if_neg rev, Nat.sub_self, Nat.add_zero, seed_last_forward _ seed]
      at f1 f2 l1 l2
    simp only [collectOccurrence, bnsDepos_forward (Nat.not_le.1 rev), bnsDepos_forward lastFwd,
      ne_eq, not_true_eq_false, Bool.false_eq_true, if_false, bnsPos2rid_of_mem f1 f2,
      bnsPos2rid_of_mem l1 l2, nonneg, Int.toNat_ofNat]
    refine ⟨_, rfl, rfl, rfl, rfl, ?_⟩
    simp only [FragMatch.votePos, matchedPos, ge_iff_le, if_neg rev, Bool.false_eq_true,
      ↓reduceIte, Nat.sub_self, Nat.add_zero]

/-! ## Seeds across one transcript boundary -/

/-- Every read base of the vote's query interval is matched inside the vote's
transcript. -/
def VoteInside (ly : Layout) (qstart refStart : Nat) (m : FragMatch) : Prop :=
  ∀ i : Nat, m.readPos ≤ i → (i : Int) < m.readPos + m.voteLen →
    MatchedIn ly qstart refStart i m.refID

/-- On the forward strand, a seed inside one transcript or across one boundary only
votes for bases of the transcript it names: the split counts `len1 = tlen - hitLoc`
bases in the first transcript, exactly those before its end. -/
theorem collectOccurrence_forward_inside (ly : Layout) (splitSpanningSeeds : Bool)
    (minSeedLen readLen qstart qend refStart t : Nat) (seed : qstart < qend)
    (fwd : refStart + (qend - qstart) ≤ ly.lPac)
    (first : MatchedIn ly qstart refStart qstart t)
    (last : MatchedIn ly qstart refStart (qend - 1) t ∨
      MatchedIn ly qstart refStart (qend - 1) (t + 1)) (m : FragMatch)
    (h : collectOccurrence ly splitSpanningSeeds minSeedLen readLen qstart qend refStart =
      some m) : VoteInside ly qstart refStart m := by
  have span : 0 < qend - qstart := Nat.sub_pos_of_lt seed
  have rev : ¬ ly.lPac ≤ refStart :=
    Nat.not_le.2 (Nat.lt_of_lt_of_le (Nat.lt_add_of_pos_right span) fwd)
  have offsetNext := ly.offset_succ t
  have matched : ∀ i, matchedPos ly qstart refStart i = refStart + (i - qstart) := by
    simp [matchedPos, rev]
  rcases last with last | last
  · obtain ⟨m', hm', hid, hpos, hlen, -⟩ := collectOccurrence_inside ly splitSpanningSeeds
      minSeedLen readLen qstart qend refStart t seed (fun _ => fwd) first last
    cases Option.some.inj (h.symm.trans hm')
    intro i _ _
    simp only [MatchedIn, matched, hid] at first last ⊢
    omega
  · obtain ⟨f1, f2⟩ := first
    obtain ⟨l1, l2⟩ := last
    simp only [MatchedIn, matched, Nat.sub_self, Nat.add_zero, seed_last_forward _ seed]
      at f1 f2 l1 l2
    have lastFwd : refStart + (qend - qstart) - 1 < ly.lPac :=
      Nat.sub_one_lt_of_le (Nat.add_pos_right _ span) fwd
    have split : ((t : Nat) : Int) ≠ ((t + 1 : Nat) : Int) :=
      Nat.cast_injective.ne (Nat.lt_succ_self t).ne
    simp only [collectOccurrence, bnsDepos_forward (Nat.not_le.1 rev), bnsDepos_forward lastFwd,
      ne_eq, not_true_eq_false, Bool.false_eq_true, if_false, bnsPos2rid_of_mem f1 f2,
      bnsPos2rid_of_mem l1 l2, Int.not_lt.2 (Int.ofNat_nonneg _), Int.toNat_ofNat, split,
      not_false_eq_true, if_true, Bool.not_false] at h
    simp only [VoteInside, MatchedIn, matched]
    split_ifs at h with short <;> cases h <;> intro i lo hi <;> dsimp only at lo hi ⊢ <;>
      clear short <;> omega

/-- Two 30-base transcripts and a 25-base seed at forward position 20: the split keeps
the 15 bases in the second transcript, from read base 10. -/
theorem collectOccurrence_forward_split_second :
    collectOccurrence ⟨[30, 30], by decide⟩ true 5 40 0 25 20 =
        some ⟨1, false, 0, 10, 15, 40⟩ ∧
      VoteInside ⟨[30, 30], by decide⟩ 0 20 ⟨1, false, 0, 10, 15, 40⟩ :=
  ⟨by decide, collectOccurrence_forward_inside _ true 5 40 0 25 20 0 (by decide) (by decide)
    (by decide) (.inr (by decide)) _ (by decide)⟩

/-- The first `k + 1` of the bases `[s, s + n)`, or all `n` of them. -/
theorem countP_range'_le_add (s n k : Nat) :
    (List.range' s n).countP (fun i => decide (i ≤ s + k)) = min (k + 1) n := by
  induction n with
  | zero => simp
  | succ n ih =>
    rw [List.range'_concat, List.countP_append, ih, List.countP_singleton]
    simp only [decide_eq_true_eq]
    split <;> omega

/-- Read bases `[s, s + n)` counted down from `endPos`, as on the reverse strand: those that
land in `[o, o + l)` are the first `endPos - o + 1`, when `endPos` lies in it and the count
reaches below `o > 0` within the `n` bases. -/
theorem countP_range'_window (s n endPos o l : Nat) (pos : 0 < o) (inside : o ≤ endPos)
    (top : endPos < o + l) (below : endPos - o < n) :
    (List.range' s n).countP (fun i =>
      decide (o ≤ endPos - (i - s) ∧ endPos - (i - s) < o + l)) = endPos - o + 1 := by
  rw [List.countP_congr (q := fun i => decide (i ≤ s + (endPos - o))), countP_range'_le_add]
  · omega
  · intro i hi
    rw [List.mem_range'_1] at hi
    simp only [decide_eq_true_eq]
    omega

/-- On the reverse strand the split goes wrong. A seed whose first base is matched in
transcript `t + 1` and whose last base in `t` is cut at `len2 = endPos - offset`, with
`endPos` the forward position of its first base; but the seed has `len2 + 1` bases in
`t + 1`. When the split keeps `t`, the vote's query interval starts at read base
`qstart + len2`, which is matched to the first base of `t + 1`, not to `t`. -/
theorem collectOccurrence_reverse_split_outside (ly : Layout)
    (minSeedLen readLen qstart qend refStart t : Nat) (seed : qstart < qend)
    (rev : ly.lPac ≤ refStart)
    (first : MatchedIn ly qstart refStart qstart (t + 1))
    (last : MatchedIn ly qstart refStart (qend - 1) t) (m : FragMatch)
    (h : collectOccurrence ly true minSeedLen readLen qstart qend refStart = some m)
    (kept : m.refID = t) :
    let len2 : Int := ((2 * ly.lPac - 1 - refStart : Nat) : Int) - ly.offset (t + 1)
    m.readPos = qstart + len2 ∧
      (((List.range' qstart (qend - qstart)).countP fun i =>
        decide (MatchedIn ly qstart refStart i (t + 1)) : Nat) : Int) = len2 + 1 ∧
      MatchedIn ly qstart refStart m.readPos.toNat (t + 1) ∧
      ¬ MatchedIn ly qstart refStart m.readPos.toNat t := by
  have offsetNext := ly.offset_succ t
  have lastRev : ly.lPac ≤ refStart + (qend - qstart) - 1 :=
    le_trans rev (Nat.le_sub_one_of_lt (Nat.lt_add_of_pos_right (Nat.sub_pos_of_lt seed)))
  have split : ((t : Nat) : Int) ≠ ((t + 1 : Nat) : Int) :=
    Nat.cast_injective.ne (Nat.lt_succ_self t).ne
  obtain ⟨f1, f2⟩ := first
  obtain ⟨l1, l2⟩ := last
  simp only [MatchedIn, matchedPos, if_pos rev, Nat.sub_self, Nat.sub_zero]
    at f1 f2 l1 l2 ⊢
  simp only [collectOccurrence, bnsDepos_reverse rev, bnsDepos_reverse lastRev, ne_eq,
    not_true_eq_false, if_false, if_true, seed_last_reverse _ _ seed, bnsPos2rid_of_mem l1 l2,
    bnsPos2rid_of_mem f1 f2, Int.not_lt.2 (Int.ofNat_nonneg _), Int.toNat_ofNat, split,
    not_false_eq_true, Bool.not_true, Bool.not_false, Bool.false_eq_true] at h
  -- `endPos`, the forward position of the seed's first base
  generalize 2 * ly.lPac - 1 - refStart = endPos at f1 f2 l1 l2 h ⊢
  split_ifs at h <;> cases h
  · -- the seed's bases in `t + 1` are its first `endPos - offset + 1`
    dsimp only
    rw [countP_range'_window _ _ _ _ _ (by omega) f1 f2 (by omega)]
    omega
  · simp at kept

/-- The reverse split of a 25-base seed ending 7 bases into the second of two 30-base
transcripts keeps the first with `len2 = 6`, where the seed has 7 bases in the second. -/
theorem collectOccurrence_reverse_split_first :
    let ly : Layout := ⟨[30, 30], by decide⟩
    collectOccurrence ly true 19 40 0 25 83 = some ⟨0, true, 24, 6, 19, 34⟩ ∧
      (((List.range' 0 25).countP fun i => decide (MatchedIn ly 0 83 i 1) : Nat) : Int) = 6 + 1 ∧
      MatchedIn ly 0 83 6 1 ∧ ¬ MatchedIn ly 0 83 6 0 :=
  have outside := collectOccurrence_reverse_split_outside ⟨[30, 30], by decide⟩ 19 40 0 25 83 0
    (by decide) (by decide) (by decide) (by decide) ⟨0, true, 24, 6, 19, 34⟩ (by decide) rfl
  ⟨by decide, outside.2⟩

/-- A 25-base seed of a 40-base read, on the reverse strand of two 30-base transcripts,
ends 7 bases into the second. The split keeps the first transcript with query interval
`[6, 25)`, but read base 6 is matched to forward base 30, the first base of the second
transcript: the reverse split counts `len2 = endPos - offset` one short. -/
theorem collectOccurrence_reverse_split_claims_next_base :
    let ly : Layout := ⟨[30, 30], by decide⟩
    collectOccurrence ly true 19 40 0 25 83 = some ⟨0, true, 24, 6, 19, 34⟩ ∧
      matchedPos ly 0 83 6 = 30 ∧ bnsPos2rid ly 30 = 1 := by
  decide

end SalmonQuant.Mapping
