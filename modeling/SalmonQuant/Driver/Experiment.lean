import SalmonQuant.EM.MiniBatch

/-!
# The experiment's counters and burn-in across rounds

`ReadExperiment` (`SalmonQuantify.cpp:2233`) keeps two assigned-fragment counters:
`numAssignedFragments_`, which `processMiniBatch` advances, and
`totalAssignedFragments_`, into which `softReset` and `reset` (`:2371`, `:2380`) fold
it before zeroing it for the next round. `processReads` (`:2342`) seeds each round's
`burnedIn` from both,

    bool burnedIn = (totalAssignedFragments_ + numAssignedFragments_ > 5000000);

and hands that one flag by reference to the callback of every library, so every
`processMiniBatch` call of the round reads and may set it. `processMiniBatch` sets it
(`:460`) once the per-round counter reaches `numBurninFrags`.

With one worker thread the calls of a round run one after another. What matters for
the flag is how many fragments each call assigns: `roundFlags` runs a round on those
numbers, and `burnedInAtCalls_eq_roundFlags` shows that the `processMiniBatch` model
runs with exactly these flags. `burnInRun` strings the rounds together with the resets
between them.
-/

namespace SalmonQuant.Driver

open SalmonQuant.EM

/-- The members of `ReadExperiment` the driver reads and writes between rounds. -/
structure ReadExperiment where
  readLibraries_ : List ReadLibrary
  numObservedFragments_ : Nat
  numAssignedFragments_ : Nat
  totalAssignedFragments_ : Nat
  quantificationPasses_ : Nat

/-- The constructor's counters. It leaves `quantificationPasses_` uninitialised, so its
first value is a parameter. -/
def ReadExperiment.new (readLibraries : List ReadLibrary) (passes : Nat) : ReadExperiment :=
  ⟨readLibraries, 0, 0, 0, passes⟩

/-- `softReset`: fold the round's assigned count into the total and start a new pass. -/
def ReadExperiment.softReset (e : ReadExperiment) : Bool × ReadExperiment :=
  (true, { e with
    numObservedFragments_ := 0
    totalAssignedFragments_ := e.totalAssignedFragments_ + e.numAssignedFragments_
    numAssignedFragments_ := 0
    quantificationPasses_ := e.quantificationPasses_ + 1 })

/-- `reset`: `false`, changing nothing, when a library is not a regular file; else the
updates of `softReset`. -/
def ReadExperiment.reset (e : ReadExperiment) : Bool × ReadExperiment :=
  if e.readLibraries_.all ReadLibrary.isRegularFile then e.softReset else (false, e)

/-- The `burnedIn` that `processReads` hands to every library of a round. -/
def ReadExperiment.processReadsBurnedIn (e : ReadExperiment) : Bool :=
  decide (e.totalAssignedFragments_ + e.numAssignedFragments_ > 5000000)

/-- The reset the round loop makes before every round but the first (`:1837`). -/
def ReadExperiment.resetFor (disableMappingCache : Bool) (e : ReadExperiment) :
    Bool × ReadExperiment :=
  if disableMappingCache then e.reset else e.softReset

/-! ## One round -/

/-- The last statements of `processMiniBatch` (`:458`): add the batch's assigned count,
then set `burnedIn` once the counter reaches `numBurninFrags`. -/
def burnInStep (numAssignedFragments : Nat) (burnedIn : Bool) (assigned : Nat) : Nat × Bool :=
  let n := numAssignedFragments + assigned
  (n, if n ≥ numBurninFrags && !burnedIn then true else burnedIn)

theorem burnInStep_eq (n : Nat) (b : Bool) (a : Nat) :
    burnInStep n b a = (n + a, b || decide (numBurninFrags ≤ n + a)) := by
  cases b <;> simp [burnInStep]

/-- The counter and flag after `processMiniBatch` are `burnInStep` of those before and
the batch's number of assigned groups. -/
theorem processMiniBatch_burnIn {K F C G : Type} [CanonicallyLinearOrderedSemifield K]
    (env : Collaborators K F C G) (opts : SalmonOpts) (lfm : K) (initialRound : Bool)
    (batchHits : List (AlignmentGroup K)) (s : EMState K F C G) :
    let r := processMiniBatch env opts lfm initialRound batchHits s
    (r.2.numAssignedFragments, r.2.burnedIn) =
      burnInStep s.numAssignedFragments s.burnedIn (r.1.countP (Assigned ·)) := by
  obtain ⟨-, hlocal⟩ := eStep_assigned_or_skipped env opts s.readLib.format lfm initialRound
      s.burnedIn ⟨s.transcripts, s.clusterForest, s.fragLengthDist, s.randEng,
      fun _ => 0, 0⟩ batchHits
  simp only [processMiniBatch, burnInStep, hlocal, Nat.zero_add]

/-- One round of calls, given the fragments each assigns: the flag each call runs with,
then the counter and the flag after the round. -/
def roundFlags : Nat → Bool → List Nat → List Bool × Nat × Bool
  | n, b, [] => ([], n, b)
  | n, b, a :: as =>
    let s := burnInStep n b a
    let r := roundFlags s.1 s.2 as
    (b :: r.1, r.2)

/-- The `burnedIn` each of a sequence of `processMiniBatch` calls runs with. -/
def burnedInAtCalls {K F C G : Type} [CanonicallyLinearOrderedSemifield K]
    (env : Collaborators K F C G) (opts : SalmonOpts) :
    List (K × Bool × List (AlignmentGroup K)) → EMState K F C G → List Bool
  | [], _ => []
  | (lfm, initialRound, batch) :: calls, s =>
    s.burnedIn :: burnedInAtCalls env opts calls (processMiniBatch env opts lfm initialRound batch s).2

/-- The `processMiniBatch` model, call after call, runs with the flags `roundFlags` gives
for the numbers of groups the calls assign, and ends with its counter and flag. -/
theorem burnedInAtCalls_eq_roundFlags {K F C G : Type} [CanonicallyLinearOrderedSemifield K]
    (env : Collaborators K F C G) (opts : SalmonOpts)
    (calls : List (K × Bool × List (AlignmentGroup K))) (s : EMState K F C G) :
    let r := processMiniBatches env opts calls s
    let flags := roundFlags s.numAssignedFragments s.burnedIn
      (r.1.map fun batch => batch.countP (Assigned ·))
    burnedInAtCalls env opts calls s = flags.1 ∧
      (r.2.numAssignedFragments, r.2.burnedIn) = flags.2 := by
  induction calls generalizing s with
  | nil => exact ⟨rfl, rfl⟩
  | cons c calls ih =>
    obtain ⟨lfm, initialRound, batch⟩ := c
    have step := processMiniBatch_burnIn env opts lfm initialRound batch s
    obtain ⟨iflags, ifinal⟩ := ih (processMiniBatch env opts lfm initialRound batch s).2
    simp only [Prod.ext_iff] at step
    refine ⟨?_, ?_⟩
    · simp only [burnedInAtCalls, processMiniBatches, List.map_cons, roundFlags, ← step.1,
        ← step.2, iflags]
    · simp only [processMiniBatches, List.map_cons, roundFlags, ← step.1, ← step.2, ifinal]

/-- The running total before each call of a list, from `start`. -/
def assignedBefore (start : Nat) : List Nat → List Nat
  | [] => []
  | a :: as => start :: assignedBefore (start + a) as

theorem le_of_mem_assignedBefore {start m : Nat} {as : List Nat}
    (h : m ∈ assignedBefore start as) : start ≤ m := by
  induction as generalizing start with
  | nil => cases h
  | cons a as ih =>
    rcases List.mem_cons.1 h with rfl | h
    · exact le_rfl
    · exact Nat.le_of_add_right_le (ih h)

theorem roundFlags_counter (n : Nat) (b : Bool) (as : List Nat) :
    (roundFlags n b as).2.1 = n + as.sum := by
  induction as generalizing n b with
  | nil => rfl
  | cons a as ih => simp only [roundFlags, ih, List.sum_cons, burnInStep_eq]; omega

/-- Within a round, a call runs burnt in exactly when the round started so or the
round's own counter has reached `numBurninFrags` before it. -/
theorem roundFlags_flags (n : Nat) (b : Bool) (as : List Nat)
    (h : numBurninFrags ≤ n → b = true) :
    (roundFlags n b as).1 =
      (assignedBefore n as).map fun m => b || decide (numBurninFrags ≤ m) := by
  induction as generalizing n b with
  | nil => rfl
  | cons a as ih =>
    have tail := ih (n + a) (b || decide (numBurninFrags ≤ n + a))
      (fun hle => by simp [hle])
    simp only [roundFlags, burnInStep_eq, tail, assignedBefore, List.map_cons, List.cons.injEq]
    refine ⟨?_, List.map_congr_left fun m hm => ?_⟩
    · by_cases hn : numBurninFrags ≤ n <;> simp [hn, h]
    · have := le_of_mem_assignedBefore hm
      by_cases hm' : numBurninFrags ≤ m
      · simp [hm']
      · simp [hm', show ¬ numBurninFrags ≤ n + a by omega]

/-- A round that starts at zero and assigns 3,000,000 fragments twice: only the calls
after the counter has reached `numBurninFrags` run burnt in. -/
theorem roundFlags_fresh_round :
    (roundFlags 0 false [3000000, 3000000, 1]).1 =
      (assignedBefore 0 [3000000, 3000000, 1]).map fun m => false || decide (numBurninFrags ≤ m) :=
  roundFlags_flags 0 false [3000000, 3000000, 1] (by decide)

/-! ## Rounds -/

/-- A sequential run: each round is the list of what its calls assign, over all
libraries in order; before every round but the first the loop resets the experiment,
and stops when the reset fails. The flags of all calls, in order. -/
def burnInRun (disableMappingCache : Bool) : ReadExperiment → List (List Nat) → List Bool
  | _, [] => []
  | e, round :: rounds =>
    let r := roundFlags e.numAssignedFragments_ e.processReadsBurnedIn round
    let reset := ReadExperiment.resetFor disableMappingCache { e with numAssignedFragments_ := r.2.1 }
    r.1 ++ if reset.1 then burnInRun disableMappingCache reset.2 rounds else []

/-- Two rounds from a fresh experiment, with `softReset` between them: the second round
starts burnt in exactly when the first assigned more than 5,000,000 fragments, and its
counter starts again from zero. -/
theorem burnInRun_two_rounds (libs : List ReadLibrary) (passes : Nat) (first second : List Nat) :
    burnInRun false (ReadExperiment.new libs passes) [first, second] =
      (roundFlags 0 false first).1 ++
        (roundFlags 0 (decide ((roundFlags 0 false first).2.1 > 5000000)) second).1 := by
  simp [burnInRun, ReadExperiment.new, ReadExperiment.processReadsBurnedIn,
    ReadExperiment.resetFor, ReadExperiment.softReset]

theorem assignedBefore_concat (start : Nat) (as : List Nat) (a : Nat) :
    assignedBefore start (as ++ [a]) = assignedBefore start as ++ [start + as.sum] := by
  induction as generalizing start with
  | nil => rfl
  | cons b as ih => simp [assignedBefore, ih, Nat.add_assoc]

/-- A first round that assigns exactly 5,000,000 fragments, in 5,000 batches of 1,000,
ends with the total at the threshold. The next round's first call still runs with
`burnedIn = false`: `processReads` compares the total with `>`, and the round's own
counter starts again from zero. -/
theorem burnInRun_late_after_first_round :
    (burnInRun false (ReadExperiment.new [⟨⟨.SINGLE_END, .NONE, .U⟩, fun _ => 0, true, 5001000⟩] 0)
        [List.replicate 5000 1000, [1000]]).getLast? = some false ∧
      (assignedBefore 0 [List.replicate 5000 1000, [1000]].flatten).getLast? =
        some numBurninFrags := by
  have total : (List.replicate 5000 1000).sum = 5000000 := by
    rw [List.sum_replicate]; rfl
  have first : (roundFlags 0 false (List.replicate 5000 1000)).2.1 = 5000000 := by
    rw [roundFlags_counter, total]
  constructor
  · rw [burnInRun_two_rounds, first, List.getLast?_append]
    rfl
  · rw [show [List.replicate 5000 1000, [1000]].flatten = List.replicate 5000 1000 ++ [1000]
      from rfl, assignedBefore_concat, total, List.getLast?_concat]
    rfl

end SalmonQuant.Driver
