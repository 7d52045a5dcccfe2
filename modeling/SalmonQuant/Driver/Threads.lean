import SalmonQuant.Cache.Writer
import SalmonQuant.Driver.Rounds

/-!
# The round loop over the thread models

`Driver.Rounds` sees a round's threads only through a `Schedule`: how many groups reach
each cache file, and how many cached groups each library's replay workers consume. Here
the schedule is read off interleavings of the thread models of `Cache.Writer` and
`Cache.Replay`, and the loop's per-library steps are shown to compute what the threads
do.

A mapping callback (`mapLibrary`, `:1866`) returns once `processReadLibrary` has joined
its workers and the callback has joined its writer. Its cache file then holds what the
writer wrote, nothing when the round's `writeToCache` was already clear, and the counter
has gone up by every fragment of the library (`mapLibrary_refines`).

A replay round folds `replayLibrary` over the libraries. The round's `alnGroupQueue`
carries from one library to the next, so a library's workers may consume records an
earlier library's reader loaded; they never consume more than the round has read and not
consumed. With each library's consumption read off the threads (`replayCounts`), the
loop counts exactly the records the threads hand to `processMiniBatch`
(`replayRound_refines`).
-/

namespace SalmonQuant.Driver

/-! ## Mapping callbacks -/

/-- The mapping callback can return: `processReadLibrary` has joined every worker and the
writer thread has returned. -/
def MapJoined (s : Writer.MapState) : Prop :=
  (∀ w ∈ s.workers, w = .exited) ∧ s.writer = .returned

section Mapping

variable (sched : Schedule) (rl : ReadLibrary) (writeToCache : Bool) (cacheFiles : List CacheFile)
  (pool : List Nat) (numQuantThreads numRequiredFragments observed : Nat) (moves : List Writer.Move)

/-- A mapping callback whose threads ran the interleaving `moves` until it could return,
with the schedule's count for its cache file the records its writer wrote: `mapLibrary`
records that count, and the counter the threads left. -/
theorem mapLibrary_refines (threads : 0 < numQuantThreads)
    (joined : MapJoined (Writer.mapRun rl.numFragments numRequiredFragments
      (Writer.mapStart pool numQuantThreads writeToCache observed) moves))
    (written : sched.written cacheFiles.length = (Writer.mapRun rl.numFragments
      numRequiredFragments (Writer.mapStart pool numQuantThreads writeToCache observed)
        moves).written.length) :
    mapLibrary sched (writeToCache, cacheFiles, observed) rl =
      (false, cacheFiles ++ [⟨"alnCache_" ++ toString cacheFiles.length ++ ".bin",
        (Writer.mapRun rl.numFragments numRequiredFragments
          (Writer.mapStart pool numQuantThreads writeToCache observed) moves).written.length⟩],
        (Writer.mapRun rl.numFragments numRequiredFragments
          (Writer.mapStart pool numQuantThreads writeToCache observed)
            moves).numObservedFragments) := by
  have inv := Writer.mapRun_inv pool numQuantThreads rl.numFragments numRequiredFragments
    observed writeToCache moves
  have workers : (Writer.mapRun rl.numFragments numRequiredFragments
      (Writer.mapStart pool numQuantThreads writeToCache observed) moves).workers ≠ [] := by
    rw [← List.length_pos, Writer.mapRun_workers_length]
    simpa [Writer.mapStart] using threads
  have counted := inv.observed_of_exited workers joined.1
  cases writeToCache
  · have nothing := Writer.mapRun_no_writer rl.numFragments numRequiredFragments moves
      (Writer.mapStart pool numQuantThreads false observed) ⟨rfl, rfl⟩
    simp [mapLibrary, counted, nothing]
  · simp [mapLibrary, written, counted, inv.written_length_le]

end Mapping

/-! ## Replay rounds -/

/-- The records each library's callback in a replay round hands to `processMiniBatch`,
which its workers add to `numObservedFragments`. The libraries after one whose callback
never returns never start. -/
def replayCounts (numQuantThreads : Nat) (s : Replay.ReplayState) :
    List (Nat × List Replay.Move) → List Nat
  | [] => []
  | (numWritten, moves) :: libs =>
    ((Replay.replayRun numWritten s moves).processed.length - s.processed.length) ::
      if Replay.Joined (Replay.replayRun numWritten s moves) ∧ libs ≠ [] then
        replayCounts numQuantThreads
          (Replay.nextLibrary numQuantThreads (Replay.replayRun numWritten s moves)) libs
      else List.replicate libs.length 0

/-- The libraries `libNum, libNum + 1, …` of a replay round: each reads its own cache file,
`cacheFiles[libNum].numWritten` records, and its callback's threads run `libMoves l`. -/
def replayPlan (cacheFiles : List CacheFile) (libMoves : Nat → List Replay.Move)
    (libNum count : Nat) : List (Nat × List Replay.Move) :=
  (List.range' libNum count).map fun l =>
    ((cacheFiles[l]?.map CacheFile.numWritten).getD 0, libMoves l)

/-- A library's callback about to start its threads: a state of the invariant for any
number of records, since the reader has read none yet, with every worker at its outer
loop. -/
structure LibraryStart (numQuantThreads : Nat) (pool : List Nat) (s : Replay.ReplayState) :
    Prop where
  inv : ∀ numWritten, Replay.ReplayInv numWritten pool s
  workers : s.workers = List.replicate numQuantThreads .outer

theorem replayStart_libraryStart (pool : List Nat) (numQuantThreads : Nat) :
    LibraryStart numQuantThreads pool (Replay.replayStart pool numQuantThreads) :=
  ⟨fun numWritten => Replay.replayStart_inv numWritten pool numQuantThreads, rfl⟩

theorem nextLibrary_libraryStart {numWritten : Nat} {pool : List Nat} {s : Replay.ReplayState}
    (inv : Replay.ReplayInv numWritten pool s) (joined : Replay.Joined s)
    (numQuantThreads : Nat) :
    LibraryStart numQuantThreads pool (Replay.nextLibrary numQuantThreads s) :=
  ⟨Replay.nextLibrary_inv inv joined numQuantThreads, rfl⟩

section Replaying

variable {pool : List Nat} {numQuantThreads : Nat} {s : Replay.ReplayState}

theorem LibraryStart.queued (start : LibraryStart numQuantThreads pool s) :
    s.processed.length + s.alignmentCache.length = s.recordBase := by
  have := (start.inv 0).length_queue (by
    rw [start.workers]; exact Replay.flatMap_replicate_outer _ rfl numQuantThreads)
  have := (start.inv 0).numRead_le
  omega

/-- A library's workers consume no more than the round has read and not consumed: what
was queued when the callback started, and the library's own records. -/
theorem LibraryStart.consumed_le (start : LibraryStart numQuantThreads pool s)
    (numWritten : Nat) (moves : List Replay.Move) :
    s.processed.length + ((Replay.replayRun numWritten s moves).processed.length -
        s.processed.length) = (Replay.replayRun numWritten s moves).processed.length ∧
      (Replay.replayRun numWritten s moves).processed.length - s.processed.length ≤
        s.alignmentCache.length + numWritten := by
  have frame := Replay.replayRun_frame numWritten moves s
  have inv := Replay.replayRun_inv_of moves (start.inv numWritten)
  have grown := frame.2.2.length_le
  have read := inv.length_allRecords
  have := inv.numRead_le
  have := start.queued
  have : (Replay.replayRun numWritten s moves).processed.length ≤
      (Replay.allRecords (Replay.replayRun numWritten s moves)).length := by
    simp [Replay.allRecords]
  omega

/-- When the callback returns, what is left in the queue is what the round read and did
not consume. -/
theorem LibraryStart.queue_of_joined (start : LibraryStart numQuantThreads pool s)
    (numWritten : Nat) (moves : List Replay.Move)
    (joined : Replay.Joined (Replay.replayRun numWritten s moves)) :
    (Replay.replayRun numWritten s moves).processed.length +
        (Replay.replayRun numWritten s moves).alignmentCache.length =
      s.processed.length + s.alignmentCache.length + numWritten := by
  have inv := Replay.replayRun_inv_of moves (start.inv numWritten)
  have queue := inv.length_queue (Replay.flatMap_eq_nil_of_returned _ rfl joined.1)
  rw [queue, (Replay.replayRun_frame numWritten moves s).2.1, inv.readAll joined.2,
    start.queued]

end Replaying

/-- Libraries whose workers consume nothing leave the count where it was. -/
theorem foldl_replayLibrary_none (sched : Schedule) (round : Nat) (cacheFiles : List CacheFile) :
    ∀ (rls : List ReadLibrary) (libNum n queued : Nat),
      (∀ k < rls.length, sched.replayed round (libNum + k) = 0) →
      (rls.foldl (replayLibrary sched round cacheFiles) (libNum, n, queued)).2.1 = n
  | [], _, _, _, _ => rfl
  | _ :: rls, libNum, n, queued, idle => by
    have first := idle 0 (Nat.zero_lt_succ _)
    rw [Nat.add_zero] at first
    rw [List.foldl_cons]
    simpa [replayLibrary, first] using foldl_replayLibrary_none sched round cacheFiles rls
      (libNum + 1) n _ fun k hk => by
        rw [Nat.add_right_comm]
        exact idle (k + 1) (Nat.succ_lt_succ hk)

/-- The fold of the replay callbacks from library `libNum` on, started where the threads
are, counts what the threads consume. -/
theorem foldl_replayLibrary_refines (sched : Schedule) (round : Nat)
    (cacheFiles : List CacheFile) (libMoves : Nat → List Replay.Move) {pool : List Nat}
    (numQuantThreads n : Nat) :
    ∀ (rls : List ReadLibrary) (libNum : Nat) {s : Replay.ReplayState},
      LibraryStart numQuantThreads pool s →
      (∀ k, sched.replayed round (libNum + k) = (replayCounts numQuantThreads s
        (replayPlan cacheFiles libMoves libNum rls.length)).getD k 0) →
      (rls.foldl (replayLibrary sched round cacheFiles)
          (libNum, n + s.processed.length, s.alignmentCache.length)).2.1 =
        n + (Replay.replayLibraries numQuantThreads s
          (replayPlan cacheFiles libMoves libNum rls.length)).processed.length
  | [], _, _, _, _ => rfl
  | rl :: rls, libNum, s, start, consumed => by
    have plan : replayPlan cacheFiles libMoves libNum (rls.length + 1) =
        ((cacheFiles[libNum]?.map CacheFile.numWritten).getD 0, libMoves libNum) ::
          replayPlan cacheFiles libMoves (libNum + 1) rls.length := by
      simp [replayPlan, List.range'_succ]
    generalize hnw : (cacheFiles[libNum]?.map CacheFile.numWritten).getD 0 = numWritten at plan
    generalize libMoves libNum = moves at plan
    rw [List.length_cons, plan] at consumed ⊢
    have later : ∀ k, sched.replayed round (libNum + 1 + k) = (replayCounts numQuantThreads s
        ((numWritten, moves) :: replayPlan cacheFiles libMoves (libNum + 1) rls.length)).getD
          (k + 1) 0 := fun k => by
      rw [Nat.add_right_comm, Nat.add_assoc]
      exact consumed (k + 1)
    have first := consumed 0
    rw [Nat.add_zero] at first
    simp only [replayCounts, List.getD_cons_zero] at first later
    -- the library's workers consume `c`, at most what is queued and its own records
    obtain ⟨sum, le⟩ := start.consumed_le numWritten moves
    have step : replayLibrary sched round cacheFiles
        (libNum, n + s.processed.length, s.alignmentCache.length) rl =
        (libNum + 1, n + (Replay.replayRun numWritten s moves).processed.length,
          s.alignmentCache.length + numWritten -
            ((Replay.replayRun numWritten s moves).processed.length - s.processed.length)) := by
      simp only [replayLibrary, hnw, first, Nat.min_eq_left le, Prod.mk.injEq, true_and,
        and_true]
      omega
    rw [List.foldl_cons, step, Replay.replayLibraries]
    split
    · rename_i next
      have start' := nextLibrary_libraryStart (Replay.replayRun_inv_of moves (start.inv _))
        next.1 numQuantThreads
      have queue := start.queue_of_joined numWritten moves next.1
      have rest := foldl_replayLibrary_refines sched round cacheFiles libMoves numQuantThreads n
        rls (libNum + 1) start' (by simpa only [if_pos next, List.getD_cons_succ] using later)
      simp only [Replay.nextLibrary] at rest
      rw [show s.alignmentCache.length + numWritten -
          ((Replay.replayRun numWritten s moves).processed.length - s.processed.length) =
        (Replay.replayRun numWritten s moves).alignmentCache.length by omega]
      exact rest
    · rename_i stuck
      refine foldl_replayLibrary_none sched round cacheFiles rls (libNum + 1) _ _ fun k hk => ?_
      simpa [if_neg stuck, List.getD_cons_succ, hk] using later k

/-- A replay round whose schedule is read off an interleaving of the round's threads, one
reader and `numQuantThreads` workers per library over the round's one queue, counts
exactly the records the threads hand to `processMiniBatch`. -/
theorem replayRound_refines (sched : Schedule) (round : Nat) (cacheFiles : List CacheFile)
    (rls : List ReadLibrary) (pool : List Nat) (numQuantThreads n : Nat)
    (libMoves : Nat → List Replay.Move)
    (consumed : ∀ l, sched.replayed round l = (replayCounts numQuantThreads
      (Replay.replayStart pool numQuantThreads)
        (replayPlan cacheFiles libMoves 0 rls.length)).getD l 0) :
    (rls.foldl (replayLibrary sched round cacheFiles) (0, n, 0)).2.1 =
      n + (Replay.replayLibraries numQuantThreads (Replay.replayStart pool numQuantThreads)
        (replayPlan cacheFiles libMoves 0 rls.length)).processed.length :=
  foldl_replayLibrary_refines sched round cacheFiles libMoves numQuantThreads n rls 0
    (replayStart_libraryStart pool numQuantThreads) fun k => by rw [Nat.zero_add]; exact consumed k

end SalmonQuant.Driver
