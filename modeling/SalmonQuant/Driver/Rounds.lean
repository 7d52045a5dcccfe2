import SalmonQuant.Driver.Experiment

/-!
# The round loop of `quantifyLibrary`

`quantifyLibrary` (`SalmonQuantify.cpp:1792`) repeats rounds

    while (numObservedFragments < numRequiredFragments) { ... }

where `numObservedFragments` is its own counter, never reset. Before every round but
the first it resets the experiment (`reset` with the mapping cache disabled, else
`softReset`) and leaves the loop when that fails. Round 0, and every round when the
cache is disabled, maps the reads: `processReads` calls the mapping callback for each
library, which pushes a `CacheFile` named `alnCache_<cacheFiles.size()>.bin` and starts
a writer thread only while the round's `writeToCache` is set; when the library is done
the callback clears `writeToCache`. Later rounds replay library `libNum`'s cache file.

The threads are summarised by a `Schedule`: how many groups the writer thread writes
for a cache file, and how many cached groups the replay workers of each library's
callback consume (`Cache.Replay` shows this can be fewer than were written). A replay
round has one `alnGroupQueue`, so a library's workers can also consume groups an earlier
library's reader loaded. A mapping round observes every fragment of every library.
`Driver.Threads` shows that the thread models of `Cache.Writer` and `Cache.Replay`
realise such a schedule.
-/

namespace SalmonQuant.Driver

/-- `CacheFile`: where a library's groups were cached, and how many were written. -/
structure CacheFile where
  filePath : String
  numWritten : Nat
  deriving DecidableEq, Repr

/-- What the threads of a round achieve: `written i` groups reach the `i`-th cache file
while its writer runs; the replay workers of library `l`'s callback in round `k` consume
`replayed k l` groups. Both are capped by what there is. -/
structure Schedule where
  written : Nat → Nat
  replayed : Nat → Nat → Nat

/-- The driver's variables across rounds; `round` counts the rounds started. -/
structure Quantify where
  experiment : ReadExperiment
  numObservedFragments : Nat
  initialRound : Bool
  cacheFiles : List CacheFile
  round : Nat

/-- The state before the loop. -/
def quantifyStart (readLibraries : List ReadLibrary) (passes : Nat) : Quantify :=
  ⟨ReadExperiment.new readLibraries passes, 0, true, [], 0⟩

/-- The mapping round's callback for one library (`:1866`), threading `writeToCache`,
`cacheFiles` and `numObservedFragments`. -/
def mapLibrary (sched : Schedule) (acc : Bool × List CacheFile × Nat) (rl : ReadLibrary) :
    Bool × List CacheFile × Nat :=
  let (writeToCache, cacheFiles, numObserved) := acc
  let idx := cacheFiles.length
  let numWritten := if writeToCache then min (sched.written idx) rl.numFragments else 0
  (false, cacheFiles ++ [⟨"alnCache_" ++ toString idx ++ ".bin", numWritten⟩],
    numObserved + rl.numFragments)

/-- The replay round's callback for one library (`:1914`), threading `libNum`,
`numObservedFragments`, and the groups loaded into the round's `alnGroupQueue` that no
worker has consumed yet. -/
def replayLibrary (sched : Schedule) (round : Nat) (cacheFiles : List CacheFile)
    (acc : Nat × Nat × Nat) (_rl : ReadLibrary) : Nat × Nat × Nat :=
  let (libNum, numObserved, queued) := acc
  let available := queued + (cacheFiles[libNum]?.map CacheFile.numWritten).getD 0
  let consumed := min (sched.replayed round libNum) available
  (libNum + 1, numObserved + consumed, available - consumed)

/-- The head of the loop body: no reset in the first round. -/
def roundReset (opts : SalmonOpts) (q : Quantify) : Bool × ReadExperiment :=
  if q.initialRound then (true, q.experiment) else q.experiment.resetFor opts.disableMappingCache

/-- One pass of the loop body: `none` for the `break` after a failed reset. -/
def roundBody (opts : SalmonOpts) (sched : Schedule) (q : Quantify) : Option Quantify :=
  let reset := roundReset opts q
  if reset.1 then
    let libs := reset.2.readLibraries_
    if q.initialRound || opts.disableMappingCache then
      let r := libs.foldl (mapLibrary sched)
        (!opts.disableMappingCache, q.cacheFiles, q.numObservedFragments)
      some ⟨reset.2, r.2.2, false, r.2.1, q.round + 1⟩
    else
      let r := libs.foldl (replayLibrary sched q.round q.cacheFiles) (0, q.numObservedFragments, 0)
      some ⟨reset.2, r.2.1, false, q.cacheFiles, q.round + 1⟩
  else none

/-- The loop, for at most `fuel` rounds: `some q` once it has left, `none` when the
fuel runs out first. -/
def quantifyRounds (opts : SalmonOpts) (sched : Schedule) (numRequiredFragments : Nat) :
    Nat → Quantify → Option Quantify
  | 0, _ => none
  | fuel + 1, q =>
    if q.numObservedFragments < numRequiredFragments then
      match roundBody opts sched q with
      | none => some q
      | some q' => quantifyRounds opts sched numRequiredFragments fuel q'
    else some q

/-! ## Mapping rounds -/

theorem foldl_mapLibrary_observed (sched : Schedule) (libs : List ReadLibrary)
    (acc : Bool × List CacheFile × Nat) :
    (libs.foldl (mapLibrary sched) acc).2.2 =
      acc.2.2 + (libs.map ReadLibrary.numFragments).sum := by
  induction libs generalizing acc with
  | nil => simp
  | cons rl libs ih =>
    obtain ⟨w, cfs, n⟩ := acc
    simp only [List.foldl_cons, ih, mapLibrary, List.map_cons, List.sum_cons]
    omega

/-- Once `writeToCache` is clear, each library gets a cache file with no records. -/
theorem foldl_mapLibrary_unwritten (sched : Schedule) (libs : List ReadLibrary)
    (cacheFiles : List CacheFile) (n : Nat) :
    (libs.foldl (mapLibrary sched) (false, cacheFiles, n)).2.1.map CacheFile.numWritten =
      cacheFiles.map CacheFile.numWritten ++ List.replicate libs.length 0 := by
  induction libs generalizing cacheFiles n with
  | nil => simp
  | cons rl libs ih =>
    simp only [List.foldl_cons, mapLibrary, Bool.false_eq_true, if_false, ih, List.map_append,
      List.length_cons, List.replicate_succ]
    simp

/-- Round 0 with the cache enabled: only the first library's cache file can hold
records, since its callback clears `writeToCache` for all the others. -/
theorem roundBody_start (opts : SalmonOpts) (sched : Schedule) (rl : ReadLibrary)
    (rest : List ReadLibrary) (passes : Nat) (cache : opts.disableMappingCache = false) :
    ((roundBody opts sched (quantifyStart (rl :: rest) passes)).map fun q =>
      (q.numObservedFragments, q.cacheFiles.map CacheFile.numWritten)) =
      some (((rl :: rest).map ReadLibrary.numFragments).sum,
        min (sched.written 0) rl.numFragments :: List.replicate rest.length 0) := by
  simp only [roundBody, roundReset, quantifyStart, ReadExperiment.new, cache, if_true, Bool.true_or,
    Option.map_some', List.foldl_cons, Bool.not_false, Option.some.injEq, Prod.mk.injEq]
  refine ⟨?_, ?_⟩
  · rw [foldl_mapLibrary_observed]; simp [mapLibrary]
  · rw [show mapLibrary sched (true, [], 0) rl = (false, [⟨"alnCache_" ++ toString 0 ++ ".bin",
      min (sched.written 0) rl.numFragments⟩], 0 + rl.numFragments) from rfl,
      foldl_mapLibrary_unwritten]
    rfl

/-- Round 0 over libraries of 3 and 4 fragments, with a writer that would take 5. -/
theorem roundBody_start_two_libraries :
    let rl : ReadLibrary := ⟨⟨.SINGLE_END, .NONE, .U⟩, fun _ => 0, true, 3⟩
    let rest : List ReadLibrary := [⟨⟨.SINGLE_END, .NONE, .U⟩, fun _ => 0, true, 4⟩]
    ((roundBody ⟨true, true, false, false⟩ ⟨fun _ => 5, fun _ _ => 5⟩
        (quantifyStart (rl :: rest) 0)).map fun q =>
      (q.numObservedFragments, q.cacheFiles.map CacheFile.numWritten)) =
      some (((rl :: rest).map ReadLibrary.numFragments).sum,
        min 5 rl.numFragments :: List.replicate rest.length 0) :=
  roundBody_start _ _ _ _ 0 rfl

/-- Two libraries of one fragment each, three fragments required, and a writer that
writes every group it is handed. Round 0 observes two fragments, so a replay round
follows, but the second library's cache file holds no record; replaying every cached
group observes one fragment more, the first library's. -/
theorem cacheFiles_miss_second_library :
    let opts : SalmonOpts := ⟨true, true, false, false⟩
    let rl : ReadLibrary := ⟨⟨.SINGLE_END, .NONE, .U⟩, fun _ => 0, true, 1⟩
    let sched : Schedule := ⟨fun _ => 1, fun _ _ => 1⟩
    ((roundBody opts sched (quantifyStart [rl, rl] 0)).map fun q =>
        (q.numObservedFragments, q.cacheFiles)) =
      some (2, [⟨"alnCache_0.bin", 1⟩, ⟨"alnCache_1.bin", 0⟩]) ∧
    (((roundBody opts sched (quantifyStart [rl, rl] 0)).bind (roundBody opts sched)).map
        Quantify.numObservedFragments) = some 3 := by
  decide

/-! ## Leaving the loop -/

theorem roundReset_readLibraries (opts : SalmonOpts) (q : Quantify) :
    (roundReset opts q).2.readLibraries_ = q.experiment.readLibraries_ := by
  unfold roundReset ReadExperiment.resetFor ReadExperiment.reset ReadExperiment.softReset
  split_ifs <;> rfl

/-- Resetting regular libraries always succeeds. -/
theorem roundReset_regular (opts : SalmonOpts) (q : Quantify)
    (regular : ∀ rl ∈ q.experiment.readLibraries_, rl.isRegularFile = true) :
    (roundReset opts q).1 = true := by
  have all : q.experiment.readLibraries_.all ReadLibrary.isRegularFile = true :=
    List.all_eq_true.2 regular
  unfold roundReset ReadExperiment.resetFor ReadExperiment.reset
  split_ifs <;> rfl

/-- The loop body with the mapping cache disabled: a `break`, or a round that observes
every fragment of the libraries, which it leaves in place. -/
theorem roundBody_nocache (opts : SalmonOpts) (sched : Schedule) (q : Quantify)
    (nocache : opts.disableMappingCache = true) :
    roundBody opts sched q = none ∨ ∃ q', roundBody opts sched q = some q' ∧
      q'.experiment.readLibraries_ = q.experiment.readLibraries_ ∧
      q'.numObservedFragments = q.numObservedFragments +
        (q.experiment.readLibraries_.map ReadLibrary.numFragments).sum := by
  have libs := roundReset_readLibraries opts q
  unfold roundBody
  generalize roundReset opts q = reset at libs
  obtain ⟨ok, e⟩ := reset
  cases ok
  · exact .inl rfl
  · simp only [nocache, Bool.or_true, if_true]
    exact .inr ⟨_, rfl, libs, by rw [foldl_mapLibrary_observed, ← libs]⟩

/-- With no fragment anywhere, no cache record, and regular files, a round changes
nothing that the loop's condition reads, and it does not `break`. -/
def Idle (q : Quantify) : Prop :=
  q.numObservedFragments = 0 ∧
    (∀ rl ∈ q.experiment.readLibraries_, rl.isRegularFile = true ∧ rl.numFragments = 0) ∧
    ∀ cf ∈ q.cacheFiles, cf.numWritten = 0

theorem foldl_mapLibrary_idle (sched : Schedule) (libs : List ReadLibrary)
    (acc : Bool × List CacheFile × Nat) (empty : ∀ rl ∈ libs, rl.numFragments = 0)
    (hacc : ∀ cf ∈ acc.2.1, cf.numWritten = 0) :
    ∀ cf ∈ (libs.foldl (mapLibrary sched) acc).2.1, cf.numWritten = 0 := by
  induction libs generalizing acc with
  | nil => exact hacc
  | cons rl libs ih =>
    obtain ⟨w, cfs, n⟩ := acc
    refine ih _ (fun r hr => empty r (List.mem_cons_of_mem _ hr)) fun cf hcf => ?_
    simp only [mapLibrary, List.mem_append, List.mem_singleton] at hcf
    rcases hcf with hcf | rfl
    · exact hacc cf hcf
    · simp [empty rl (List.mem_cons_self _ _)]

theorem foldl_replayLibrary_idle (sched : Schedule) (round : Nat) (cacheFiles : List CacheFile)
    (libs : List ReadLibrary) (libNum n : Nat) (hcf : ∀ cf ∈ cacheFiles, cf.numWritten = 0) :
    (libs.foldl (replayLibrary sched round cacheFiles) (libNum, n, 0)).2.1 = n := by
  induction libs generalizing libNum with
  | nil => rfl
  | cons rl libs ih =>
    have empty : (cacheFiles[libNum]?.map CacheFile.numWritten).getD 0 = 0 := by
      cases h : cacheFiles[libNum]? with
      | none => rfl
      | some cf => exact hcf cf (List.getElem?_mem h)
    rw [List.foldl_cons]
    simpa [replayLibrary, empty] using ih (libNum + 1)

theorem roundBody_idle (opts : SalmonOpts) (sched : Schedule) {q : Quantify} (h : Idle q) :
    ∃ q', roundBody opts sched q = some q' ∧ Idle q' := by
  obtain ⟨obs, libs, cfs⟩ := h
  have ok := roundReset_regular opts q fun rl hrl => (libs rl hrl).1
  have same := roundReset_readLibraries opts q
  unfold roundBody
  generalize roundReset opts q = reset at ok same
  obtain ⟨ok, e⟩ := reset
  subst ok
  rw [← same] at libs
  have zero : (e.readLibraries_.map ReadLibrary.numFragments).sum = 0 :=
    List.sum_eq_zero fun x hx => by
      obtain ⟨rl, hrl, rfl⟩ := List.mem_map.1 hx
      exact (libs rl hrl).2
  simp only [if_true]
  split
  · refine ⟨_, rfl, ?_, libs, ?_⟩
    · simp only [foldl_mapLibrary_observed, obs, zero]
    · exact foldl_mapLibrary_idle _ _ _ (fun rl hrl => (libs rl hrl).2) cfs
  · exact ⟨_, rfl, by simp only [foldl_replayLibrary_idle _ _ _ _ _ _ cfs, obs], libs, cfs⟩

/-- From an idle state the loop never leaves, whatever the options and the threads do:
every reset succeeds and every round observes nothing. -/
theorem quantifyRounds_of_idle (opts : SalmonOpts) (sched : Schedule) (fuel : Nat)
    {q : Quantify} (h : Idle q) : quantifyRounds opts sched 1 fuel q = none := by
  induction fuel generalizing q with
  | zero => rfl
  | succ fuel ih =>
    obtain ⟨q', hq', idle'⟩ := roundBody_idle opts sched h
    simp only [quantifyRounds, h.1, Nat.zero_lt_one, if_true, hq']
    exact ih idle'

/-- One empty regular library, one required fragment, the mapping cache on and threads
that write and replay all they are given: no number of rounds ends the loop. -/
theorem quantifyRounds_empty_library_never_leaves :
    ¬ ∃ fuel, (quantifyRounds ⟨true, true, false, false⟩ ⟨fun _ => 1000, fun _ _ => 1000⟩ 1 fuel
      (quantifyStart [⟨⟨.SINGLE_END, .NONE, .U⟩, fun _ => 0, true, 0⟩] 0)).isSome := by
  rintro ⟨fuel, h⟩
  rw [quantifyRounds_of_idle _ _ fuel
    ⟨rfl, by simp [quantifyStart, ReadExperiment.new], by simp [quantifyStart]⟩] at h
  cases h

/-- Without the cache every round that does not `break` observes every fragment of the
libraries again, so a loop with one round of fuel per missing fragment leaves. -/
theorem quantifyRounds_nocache_isSome (opts : SalmonOpts) (sched : Schedule)
    (numRequiredFragments : Nat) (libs : List ReadLibrary)
    (nocache : opts.disableMappingCache = true)
    (fragments : 0 < (libs.map ReadLibrary.numFragments).sum) :
    ∀ fuel q, q.experiment.readLibraries_ = libs →
      numRequiredFragments ≤ q.numObservedFragments + fuel →
      (quantifyRounds opts sched numRequiredFragments (fuel + 1) q).isSome := by
  intro fuel
  induction fuel with
  | zero => intro q _ h; simp [quantifyRounds, Nat.not_lt.2 (by omega : numRequiredFragments ≤
    q.numObservedFragments)]
  | succ fuel ih =>
    intro q hlibs h
    unfold quantifyRounds
    split
    · rcases roundBody_nocache opts sched q nocache with hnone | ⟨q', hq', hlibs', hobs⟩
      · simp [hnone]
      · simp only [hq']
        exact ih q' (hlibs'.trans hlibs) (by rw [hobs, hlibs]; omega)
    · rfl

/-- With the mapping cache disabled and at least one fragment in the libraries, every
round that does not `break` observes all of them again, so the loop has left after at
most `numRequiredFragments + 1` passes of its condition. -/
theorem quantifyRounds_leaves_without_cache (opts : SalmonOpts) (sched : Schedule)
    (numRequiredFragments : Nat) (libs : List ReadLibrary) (passes : Nat)
    (nocache : opts.disableMappingCache = true)
    (fragments : 0 < (libs.map ReadLibrary.numFragments).sum) :
    (quantifyRounds opts sched numRequiredFragments (numRequiredFragments + 1)
      (quantifyStart libs passes)).isSome :=
  quantifyRounds_nocache_isSome opts sched numRequiredFragments libs nocache fragments _ _ rfl
    (by simp [quantifyStart, ReadExperiment.new])

theorem quantifyRounds_leaves_without_cache_four_fragments :
    let opts : SalmonOpts := ⟨true, true, true, false⟩
    let libs : List ReadLibrary := [⟨⟨.SINGLE_END, .NONE, .U⟩, fun _ => 0, true, 4⟩]
    opts.disableMappingCache = true ∧ 0 < (libs.map ReadLibrary.numFragments).sum ∧
      (quantifyRounds opts ⟨fun _ => 0, fun _ _ => 0⟩ 10 (10 + 1) (quantifyStart libs 0)).isSome :=
  ⟨rfl, by decide, quantifyRounds_leaves_without_cache _ _ 10 _ 0 rfl (by decide)⟩

end SalmonQuant.Driver
