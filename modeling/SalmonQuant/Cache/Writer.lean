import SalmonQuant.Basic
import SalmonQuant.Cache.Replay

/-!
# Writing the mapping cache: `T` mapping workers and one writer

In a round that maps reads with the cache on, `quantifyLibrary` (`SalmonQuantify.cpp:1862`)
starts, per library, one `writeAlignmentCacheToFile` thread, then calls
`processReadLibrary`, which runs `numQuantThreads` copies of `processReadsMEM`
(`SalmonQuantify.cpp:1302`) and joins them; it then sets `writeToCache = false` and joins
the writer.

A mapping worker:

    while (true) {
        job j(*parser); if (j.is_empty()) break;
        for (i < j->nb_filled) {
            while (!structureCache.try_dequeue(hitLists[i])) {}
            getHitsForFragment(j->data[i], …, hitList, …); … ++numObservedFragments;
        }
        … processMiniBatch(…, hitLists, …);
        if (writeToCache) outputGroups.enqueue_bulk(…) else structureCache.enqueue_bulk(…);
    }

The writer (`SalmonQuantify.cpp:1720`):

    while (writeToCache) {
        while ((numDequed = outputGroups.try_dequeue_bulk(alnGroups, blockSize)) > 0) {
            for (i < numDequed) { outputStream(*alnGroups[i]); ++numWritten; }
            structureCache.enqueue_bulk(alnGroups, numDequed);
            if (numObservedFragments > numRequiredFragments) writeToCache = false;
        }
    }
    while (outputGroups.try_dequeue(alnGroups[0])) {
        outputStream(*alnGroups[0]); ++numWritten; structureCache.enqueue(alnGroups[0]); }

Reads are numbered in the order the parser hands them out, and a group carries the read
mapped into it; `written` is the file, one read per record, so `numWritten` is its length.
Each test of the flag, each queue operation and each mapped read is one step; the batch
number, the forgetting mass and `processMiniBatch` touch none of this state (they are
`Driver.Forgetting` and `EM.MiniBatch`). As in `Cache.Replay` the queues are FIFO lists
and a bulk dequeue may return fewer groups than are queued; a parser job holds between one
and `miniBatchSize` reads, as the move asks, and is empty once the library is exhausted;
`miniBatchSize` is also the writer's `blockSize`.

`MapInv` holds on every interleaving: no group is lost or duplicated, and every read handed
out is in exactly one place, so the file never holds a read twice. When the writer never
sets the flag itself, the main thread's `writeToCache = false` comes after every worker
has left, and once the writer returns the file holds every read exactly once
(`mapRun_cache_complete`). When the writer does set it, a worker that tested the flag just
before can queue its batch after the writer's last drain: that batch is never written and
its groups never return to the pool.
-/

namespace SalmonQuant.Writer

open SalmonQuant.Replay (count_flatMap_set count_map_take_drop count_range'_eq count_range_eq)

/-- Where a mapping worker is; `got` is its `hitLists`, as (group, read) pairs, and
`reads` what is left of its parser job. -/
inductive WorkerPc
  | job
  | take (reads : List Nat) (got : List (Nat × Nat))
  | map (g r : Nat) (reads : List Nat) (got : List (Nat × Nat))
  | branch (got : List (Nat × Nat))
  | toOutput (got : List (Nat × Nat))
  | toPool (got : List (Nat × Nat))
  | exited
  deriving DecidableEq, Repr

/-- Where the writer thread is. -/
inductive WriterPc
  | outer
  | bulk
  | write (got : List (Nat × Nat))
  | release (got : List (Nat × Nat))
  | check
  | drain
  | drainWrite (e : Nat × Nat)
  | drainRelease (e : Nat × Nat)
  | returned
  deriving DecidableEq, Repr

/-- Where `quantifyLibrary`'s callback is: inside `processReadLibrary`, or past
`writeToCache = false`, joining the writer. -/
inductive MainPc
  | processing
  | flipped
  deriving DecidableEq, Repr

/-- The round's shared state: `structureCache` (the group pool), `outputGroups`, the flag,
`numObservedFragments`, how many reads the parser has handed out, every thread's position,
the file, and the reads whose groups a worker put straight back in the pool. -/
structure MapState where
  structureCache : List Nat
  outputGroups : List (Nat × Nat)
  writeToCache : Bool
  numObservedFragments : Nat
  parsed : Nat
  workers : List WorkerPc
  writer : WriterPc
  main : MainPc
  written : List Nat
  requeued : List Nat
  deriving DecidableEq, Repr

/-- Which thread moves: worker `i`, whose parser job or bulk request (if that is its next
step) asks for `want`; the writer, whose bulk dequeue returns at most `want`; or the main
thread. -/
inductive Move
  | worker (i want : Nat)
  | writer (want : Nat)
  | main
  deriving DecidableEq, Repr

/-- The size of the next parser job: at least one read and at most `miniBatchSize`, as the
move asks, and no more than are `left`; `0` once the library is exhausted. -/
def jobSize (want left : Nat) : Nat := min (max want 1) (min miniBatchSize left)

/-- One step of `processReadsMEM` on a library of `numReads` reads; returns the shared
state and the worker's next position. An empty pool makes `try_dequeue` spin. -/
def workerStep (numReads : Nat) (s : MapState) (want : Nat) : WorkerPc → MapState × WorkerPc
  | .job =>
    let n := jobSize want (numReads - s.parsed)
    if n = 0 then (s, .exited)
    else ({ s with parsed := s.parsed + n }, .take (List.range' s.parsed n) [])
  | .take [] got => (s, .branch got)
  | .take (r :: rest) got =>
    match s.structureCache with
    | g :: pool => ({ s with structureCache := pool }, .map g r rest got)
    | [] => (s, .take (r :: rest) got)
  | .map g r rest got =>
    ({ s with numObservedFragments := s.numObservedFragments + 1 },
      .take rest (got ++ [(g, r)]))
  | .branch got => (s, if s.writeToCache then .toOutput got else .toPool got)
  | .toOutput got => ({ s with outputGroups := s.outputGroups ++ got }, .job)
  | .toPool got =>
    ({ s with structureCache := s.structureCache ++ got.map Prod.fst,
               requeued := s.requeued ++ got.map Prod.snd }, .job)
  | .exited => (s, .exited)

/-- One step of `writeAlignmentCacheToFile`. -/
def writerStep (numRequiredFragments want : Nat) (s : MapState) : MapState :=
  match s.writer with
  | .outer => { s with writer := if s.writeToCache then .bulk else .drain }
  | .bulk =>
    let k := min want miniBatchSize
    if s.outputGroups.take k = [] then { s with writer := .outer }
    else
      { s with outputGroups := s.outputGroups.drop k, writer := .write (s.outputGroups.take k) }
  | .write got => { s with written := s.written ++ got.map Prod.snd, writer := .release got }
  | .release got =>
    { s with structureCache := s.structureCache ++ got.map Prod.fst, writer := .check }
  | .check =>
    { s with
      writeToCache :=
        if s.numObservedFragments > numRequiredFragments then false else s.writeToCache,
      writer := .bulk }
  | .drain =>
    match s.outputGroups with
    | e :: rest => { s with outputGroups := rest, writer := .drainWrite e }
    | [] => { s with writer := .returned }
  | .drainWrite e => { s with written := s.written ++ [e.2], writer := .drainRelease e }
  | .drainRelease e => { s with structureCache := s.structureCache ++ [e.1], writer := .drain }
  | .returned => s

/-- The main thread: once `processReadLibrary` has joined every worker,
`writeToCache = false`. -/
def mainStep (s : MapState) : MapState :=
  match s.main with
  | .processing =>
    if ∀ w ∈ s.workers, w = .exited then { s with writeToCache := false, main := .flipped }
    else s
  | .flipped => s

/-- One step of the round. A move naming no worker changes nothing. -/
def mapStep (numReads numRequiredFragments : Nat) (s : MapState) : Move → MapState
  | .worker i want =>
    match s.workers[i]? with
    | some pc =>
      let r := workerStep numReads s want pc
      { r.1 with workers := s.workers.set i r.2 }
    | none => s
  | .writer want => writerStep numRequiredFragments want s
  | .main => mainStep s

/-- The round after the interleaving `moves`. -/
def mapRun (numReads numRequiredFragments : Nat) (s : MapState) (moves : List Move) :
    MapState :=
  moves.foldl (mapStep numReads numRequiredFragments) s

/-- The round's start: the pool as `quantifyLibrary` left it, the flag as the round set
it, the counter as earlier libraries left it, `numQuantThreads` workers, and a writer
thread only when the flag is set. -/
def mapStart (pool : List Nat) (numQuantThreads : Nat) (writeToCache : Bool)
    (numObservedFragments : Nat) : MapState :=
  ⟨pool, [], writeToCache, numObservedFragments, 0, List.replicate numQuantThreads .job,
    if writeToCache then .outer else .returned, .processing, [], []⟩

/-! ## What each place holds -/

/-- The groups a worker holds. -/
def WorkerPc.groups : WorkerPc → List Nat
  | .take _ got | .branch got | .toOutput got | .toPool got => got.map Prod.fst
  | .map g _ _ got => g :: got.map Prod.fst
  | .job | .exited => []

/-- The reads of a worker's job that are in no queue yet, mapped or not. -/
def WorkerPc.reads : WorkerPc → List Nat
  | .take rest got => rest ++ got.map Prod.snd
  | .map _ r rest got => r :: rest ++ got.map Prod.snd
  | .branch got | .toOutput got | .toPool got => got.map Prod.snd
  | .job | .exited => []

/-- How many reads of a worker's job `numObservedFragments` has not counted yet. -/
def WorkerPc.unmapped : WorkerPc → Nat
  | .take rest _ => rest.length
  | .map _ _ rest _ => rest.length + 1
  | _ => 0

/-- The groups the writer holds. -/
def WriterPc.groups : WriterPc → List Nat
  | .write got | .release got => got.map Prod.fst
  | .drainWrite e | .drainRelease e => [e.1]
  | _ => []

/-- The reads the writer has dequeued and not yet written. -/
def WriterPc.reads : WriterPc → List Nat
  | .write got => got.map Prod.snd
  | .drainWrite e => [e.2]
  | _ => []

/-- The writer is in its final drain loop, or has returned. -/
def WriterPc.draining : WriterPc → Bool
  | .drain | .drainWrite _ | .drainRelease _ | .returned => true
  | _ => false

/-- Every group, wherever it is. -/
def allGroups (s : MapState) : List Nat :=
  s.structureCache ++ s.outputGroups.map Prod.fst ++ s.workers.flatMap WorkerPc.groups ++
    s.writer.groups

/-- Every read handed out so far, wherever it is. -/
def allReads (s : MapState) : List Nat :=
  s.written ++ s.requeued ++ s.outputGroups.map Prod.snd ++ s.workers.flatMap WorkerPc.reads ++
    s.writer.reads

/-- The invariant of a mapping round over the pool `pool`, a library of `numReads` reads,
and a counter that stood at `observed` when the round started. -/
structure MapInv (numReads : Nat) (pool : List Nat) (observed : Nat) (s : MapState) : Prop where
  groups : ∀ g, (allGroups s).count g = pool.count g
  reads : ∀ r, (allReads s).count r = if r < s.parsed then 1 else 0
  parsed_le : s.parsed ≤ numReads
  counted : s.numObservedFragments + (s.workers.map WorkerPc.unmapped).sum = observed + s.parsed
  exitAfterParsed : ∀ w ∈ s.workers, w = .exited → s.parsed = numReads
  joined : s.main = .flipped → ∀ w ∈ s.workers, w = .exited

/-! ## The invariant holds on every interleaving -/

/-- Summing over a list after `List.set`: the new element's term replaces the old. -/
theorem sum_map_set {α : Type} (f : α → Nat) :
    ∀ (l : List α) (i : Nat) (x : α) (h : i < l.length),
      ((l.set i x).map f).sum + f l[i] = (l.map f).sum + f x
  | _ :: _, 0, _, _ => by simp only [List.set_cons_zero, List.map_cons, List.sum_cons,
      List.getElem_cons_zero]; omega
  | a :: l, i + 1, x, h => by
    have := sum_map_set f l i x (by simpa using h)
    simp only [List.set_cons_succ, List.map_cons, List.sum_cons, List.getElem_cons_succ]
    omega

theorem flatMap_replicate_job {β : Type} (f : WorkerPc → List β) (hf : f .job = [])
    (n : Nat) : (List.replicate n WorkerPc.job).flatMap f = [] :=
  List.flatMap_eq_nil_iff.2 fun w hw => by rw [(List.mem_replicate.1 hw).2, hf]

theorem mapStart_inv (pool : List Nat) (numQuantThreads numReads observed : Nat)
    (writeToCache : Bool) :
    MapInv numReads pool observed (mapStart pool numQuantThreads writeToCache observed) where
  groups g := by
    simp only [allGroups, mapStart, flatMap_replicate_job WorkerPc.groups rfl]
    split <;> simp [WriterPc.groups]
  reads r := by
    simp only [allReads, mapStart, flatMap_replicate_job WorkerPc.reads rfl]
    split <;> simp [WriterPc.reads]
  parsed_le := Nat.zero_le _
  counted := by simp [mapStart, WorkerPc.unmapped]
  exitAfterParsed w hw := by
    rw [(List.mem_replicate.1 hw).2]
    intro h
    cases h
  joined h := by cases h

/-- What one worker step `pc` to `pc'` does to the state `s` to `s'`: the writer, the main
thread, the flag, the file and the other workers are untouched; the groups and reads it
moves between its hands and the queues are neither lost nor duplicated; new reads come from
the parser, and `numObservedFragments` counts each read as it is mapped; and it exits only
on an empty job. -/
structure WorkerFrame (numReads : Nat) (s s' : MapState) (pc pc' : WorkerPc) : Prop where
  writer : s'.writer = s.writer
  main : s'.main = s.main
  written : s'.written = s.written
  flag : s'.writeToCache = s.writeToCache
  groups : ∀ g, (s'.structureCache ++ s'.outputGroups.map Prod.fst).count g +
      pc'.groups.count g =
    (s.structureCache ++ s.outputGroups.map Prod.fst).count g + pc.groups.count g
  reads : ∀ r, (s'.requeued ++ s'.outputGroups.map Prod.snd).count r + pc'.reads.count r +
      (if r < s.parsed then 1 else 0) =
    (s.requeued ++ s.outputGroups.map Prod.snd).count r + pc.reads.count r +
      (if r < s'.parsed then 1 else 0)
  counted : s'.numObservedFragments + pc'.unmapped + s.parsed =
    s.numObservedFragments + pc.unmapped + s'.parsed
  parsed_mono : s.parsed ≤ s'.parsed
  parsed_le : s.parsed ≤ numReads → s'.parsed ≤ numReads
  exit : pc' = .exited → pc = .exited ∨ numReads ≤ s'.parsed
  quiet : pc = .exited → pc' = .exited ∧ s' = s

theorem workerStep_frame (numReads : Nat) (s : MapState) (want : Nat) (pc : WorkerPc) :
    WorkerFrame numReads s (workerStep numReads s want pc).1 pc
      (workerStep numReads s want pc).2 := by
  cases pc with
  | job =>
    unfold workerStep
    dsimp only
    split
    · rename_i empty
      refine ⟨rfl, rfl, rfl, rfl, fun _ => rfl, fun _ => rfl, rfl, le_rfl, id, fun _ => .inr ?_,
        nofun⟩
      simp only [jobSize, miniBatchSize] at empty
      show numReads ≤ s.parsed
      omega
    · rename_i some
      refine ⟨rfl, rfl, rfl, rfl, fun _ => rfl, fun r => ?_, ?_, Nat.le_add_right _ _,
        fun _ => ?_, nofun, nofun⟩
      · simp only [WorkerPc.reads, List.map_nil, List.append_nil, count_range'_eq, List.count_nil]
        split <;> split <;> split <;> omega
      · simp only [WorkerPc.unmapped, List.length_range']
        omega
      · simp only [jobSize, miniBatchSize] at some ⊢
        omega
  | take reads got =>
    cases reads with
    | nil =>
      refine ⟨rfl, rfl, rfl, rfl, fun _ => rfl, fun _ => ?_, ?_, le_rfl, id, nofun, nofun⟩
      · simp [workerStep, WorkerPc.reads]
      · simp [workerStep, WorkerPc.unmapped]
    | cons r rest =>
      rcases hpool : s.structureCache with _ | ⟨g, pool⟩
      · simp only [workerStep, hpool]
        exact ⟨rfl, rfl, rfl, rfl, fun _ => rfl, fun _ => rfl, rfl, le_rfl, id, nofun, nofun⟩
      · simp only [workerStep, hpool]
        refine ⟨rfl, rfl, rfl, rfl, fun x => ?_, fun _ => ?_, rfl, le_rfl, id, nofun, nofun⟩
        · simp only [hpool, WorkerPc.groups, List.count_append, List.count_cons]
          omega
        · simp [WorkerPc.reads]
  | map g r rest got =>
    refine ⟨rfl, rfl, rfl, rfl, fun x => ?_, fun x => ?_, ?_, le_rfl, id, nofun, nofun⟩
    · simp only [workerStep, WorkerPc.groups, List.map_append, List.map_cons, List.map_nil,
        List.count_append, List.count_cons, List.count_nil]
      omega
    · simp only [workerStep, WorkerPc.reads, List.map_append, List.map_cons, List.map_nil,
        List.count_append, List.count_cons, List.count_nil, List.cons_append]
      omega
    · simp only [workerStep, WorkerPc.unmapped]
      omega
  | branch got =>
    cases hflag : s.writeToCache <;>
      exact ⟨rfl, rfl, rfl, rfl, fun _ => by simp [workerStep, hflag, WorkerPc.groups],
        fun _ => by simp [workerStep, hflag, WorkerPc.reads],
        by simp [workerStep, hflag, WorkerPc.unmapped], le_rfl, id,
        fun h => by simp [workerStep, hflag] at h, nofun⟩
  | toOutput got =>
    refine ⟨rfl, rfl, rfl, rfl, fun x => ?_, fun x => ?_, rfl, le_rfl, id, nofun, nofun⟩
    · simp only [workerStep, WorkerPc.groups, List.map_append, List.map_nil, List.count_append,
        List.count_nil]
      omega
    · simp only [workerStep, WorkerPc.reads, List.map_append, List.map_nil, List.count_append,
        List.count_nil]
      omega
  | toPool got =>
    refine ⟨rfl, rfl, rfl, rfl, fun x => ?_, fun x => ?_, rfl, le_rfl, id, nofun, nofun⟩
    · simp only [workerStep, WorkerPc.groups, List.map_nil, List.count_append, List.count_nil]
      omega
    · simp only [workerStep, WorkerPc.reads, List.map_nil, List.count_append, List.count_nil]
      omega
  | exited =>
    exact ⟨rfl, rfl, rfl, rfl, fun _ => rfl, fun _ => rfl, rfl, le_rfl, id, fun _ => .inl rfl,
      fun _ => ⟨rfl, rfl⟩⟩

theorem mapStep_worker_inv {numReads numRequiredFragments observed : Nat} {pool : List Nat}
    {s : MapState} (inv : MapInv numReads pool observed s) (i want : Nat) :
    MapInv numReads pool observed (mapStep numReads numRequiredFragments s (.worker i want)) := by
  simp only [mapStep]
  split
  · rename_i pc hpc
    obtain ⟨hi, rfl⟩ := List.getElem?_eq_some_iff.1 hpc
    have fr := workerStep_frame numReads s want s.workers[i]
    generalize workerStep numReads s want s.workers[i] = r at fr
    obtain ⟨s', pc'⟩ := r
    dsimp only at fr ⊢
    have le := fr.parsed_le inv.parsed_le
    constructor
    · intro g
      have moved := count_flatMap_set WorkerPc.groups g s.workers i pc' hi
      have before := inv.groups g
      have step := fr.groups g
      simp only [allGroups, List.count_append, fr.writer] at before step ⊢
      omega
    · intro x
      have moved := count_flatMap_set WorkerPc.reads x s.workers i pc' hi
      have before := inv.reads x
      have step := fr.reads x
      simp only [allReads, List.count_append, fr.written, fr.writer] at before step ⊢
      omega
    · exact le
    · have := sum_map_set WorkerPc.unmapped s.workers i pc' hi
      have := inv.counted
      have := fr.counted
      dsimp only
      omega
    · intro w hw hex
      have settled : s.parsed = numReads → s'.parsed = numReads := fun h =>
        le_antisymm le (h ▸ fr.parsed_mono)
      rcases List.mem_or_eq_of_mem_set hw with hw | rfl
      · exact settled (inv.exitAfterParsed w hw hex)
      · rcases fr.exit hex with h | h
        · exact settled (inv.exitAfterParsed _ (List.getElem_mem hi) h)
        · exact le_antisymm le h
    · intro flipped w hw
      have idle := inv.joined (fr.main ▸ flipped)
      rcases List.mem_or_eq_of_mem_set hw with hw | rfl
      · exact idle w hw
      · exact (fr.quiet (idle _ (List.getElem_mem hi))).1
  · exact inv

/-- What one writer step `s` to `s'` does: the workers, the parser, the counter, the reads
workers put back and the main thread are untouched, and the groups and reads it moves
between the queue, its hands, the file and the pool are neither lost nor duplicated. -/
structure WriterFrame (s s' : MapState) : Prop where
  workers : s'.workers = s.workers
  parsed : s'.parsed = s.parsed
  counter : s'.numObservedFragments = s.numObservedFragments
  requeued : s'.requeued = s.requeued
  main : s'.main = s.main
  groups : ∀ g, (s'.structureCache ++ s'.outputGroups.map Prod.fst ++ s'.writer.groups).count g =
    (s.structureCache ++ s.outputGroups.map Prod.fst ++ s.writer.groups).count g
  reads : ∀ r, (s'.written ++ s'.outputGroups.map Prod.snd ++ s'.writer.reads).count r =
    (s.written ++ s.outputGroups.map Prod.snd ++ s.writer.reads).count r

theorem writerStep_frame (numRequiredFragments want : Nat) (s : MapState) :
    WriterFrame s (writerStep numRequiredFragments want s) := by
  cases hw : s.writer with
  | outer =>
    simp only [writerStep, hw]
    split <;> exact ⟨rfl, rfl, rfl, rfl, rfl, fun _ => by simp [hw, WriterPc.groups],
      fun _ => by simp [hw, WriterPc.reads]⟩
  | bulk =>
    simp only [writerStep, hw]
    split
    · exact ⟨rfl, rfl, rfl, rfl, rfl, fun _ => by simp [hw, WriterPc.groups],
        fun _ => by simp [hw, WriterPc.reads]⟩
    · refine ⟨rfl, rfl, rfl, rfl, rfl, fun g => ?_, fun r => ?_⟩
      · have := count_map_take_drop Prod.fst s.outputGroups (min want miniBatchSize) g
        simp only [hw, WriterPc.groups, List.count_append, List.map_nil, List.count_nil] at this ⊢
        omega
      · have := count_map_take_drop Prod.snd s.outputGroups (min want miniBatchSize) r
        simp only [hw, WriterPc.reads, List.count_append, List.map_nil, List.count_nil] at this ⊢
        omega
  | write got =>
    simp only [writerStep, hw]
    refine ⟨rfl, rfl, rfl, rfl, rfl, fun _ => by simp [hw, WriterPc.groups], fun r => ?_⟩
    simp only [hw, WriterPc.reads, List.count_append, List.count_nil]
    omega
  | release got =>
    simp only [writerStep, hw]
    refine ⟨rfl, rfl, rfl, rfl, rfl, fun g => ?_, fun _ => by simp [hw, WriterPc.reads]⟩
    simp only [hw, WriterPc.groups, List.count_append, List.count_nil]
    omega
  | check =>
    simp only [writerStep, hw]
    exact ⟨rfl, rfl, rfl, rfl, rfl, fun _ => by simp [hw, WriterPc.groups],
      fun _ => by simp [hw, WriterPc.reads]⟩
  | drain =>
    rcases hq : s.outputGroups with _ | ⟨e, rest⟩
    · simp only [writerStep, hw, hq]
      exact ⟨rfl, rfl, rfl, rfl, rfl, fun _ => by simp [hw, hq, WriterPc.groups],
        fun _ => by simp [hw, hq, WriterPc.reads]⟩
    · simp only [writerStep, hw, hq]
      refine ⟨rfl, rfl, rfl, rfl, rfl, fun g => ?_, fun r => ?_⟩
      · simp only [hw, hq, WriterPc.groups, List.map_cons, List.count_append, List.count_cons,
          List.count_nil]
        omega
      · simp only [hw, hq, WriterPc.reads, List.map_cons, List.count_append, List.count_cons,
          List.count_nil]
        omega
  | drainWrite e =>
    simp only [writerStep, hw]
    refine ⟨rfl, rfl, rfl, rfl, rfl, fun _ => by simp [hw, WriterPc.groups], fun r => ?_⟩
    simp only [hw, WriterPc.reads, List.count_append, List.count_cons, List.count_nil]
    omega
  | drainRelease e =>
    simp only [writerStep, hw]
    refine ⟨rfl, rfl, rfl, rfl, rfl, fun g => ?_, fun _ => by simp [hw, WriterPc.reads]⟩
    simp only [hw, WriterPc.groups, List.count_append, List.count_cons, List.count_nil]
    omega
  | returned =>
    simp only [writerStep, hw]
    exact ⟨rfl, rfl, rfl, rfl, rfl, fun _ => rfl, fun _ => rfl⟩

theorem writerStep_inv {numReads numRequiredFragments observed want : Nat} {pool : List Nat}
    {s : MapState} (inv : MapInv numReads pool observed s) :
    MapInv numReads pool observed (writerStep numRequiredFragments want s) := by
  obtain ⟨hw, hp, hn, hr, hm, hg, hx⟩ := writerStep_frame numRequiredFragments want s
  refine ⟨fun g => ?_, fun x => ?_, hp ▸ inv.parsed_le, ?_, fun w => ?_, fun h => ?_⟩
  · have before := inv.groups g
    have step := hg g
    simp only [allGroups, List.count_append, hw] at before step ⊢
    omega
  · have before := inv.reads x
    have step := hx x
    simp only [allReads, List.count_append, hw, hr, hp] at before step ⊢
    omega
  · rw [hn, hw, hp]; exact inv.counted
  · rw [hw, hp]; exact inv.exitAfterParsed w
  · rw [hw]; exact inv.joined (hm ▸ h)

theorem mainStep_inv {numReads observed : Nat} {pool : List Nat} {s : MapState}
    (inv : MapInv numReads pool observed s) : MapInv numReads pool observed (mainStep s) := by
  unfold mainStep
  split
  · split
    · rename_i idle
      exact ⟨inv.groups, inv.reads, inv.parsed_le, inv.counted, inv.exitAfterParsed,
        fun _ => idle⟩
    · exact inv
  · exact inv

theorem mapStep_inv {numReads numRequiredFragments observed : Nat} {pool : List Nat}
    {s : MapState} (inv : MapInv numReads pool observed s) (m : Move) :
    MapInv numReads pool observed (mapStep numReads numRequiredFragments s m) := by
  cases m with
  | worker i want => exact mapStep_worker_inv inv i want
  | writer want => exact writerStep_inv inv
  | main => exact mainStep_inv inv

theorem mapRun_inv_of {numReads numRequiredFragments observed : Nat} {pool : List Nat} :
    ∀ (moves : List Move) {s : MapState}, MapInv numReads pool observed s →
      MapInv numReads pool observed (mapRun numReads numRequiredFragments s moves)
  | [], _, inv => inv
  | m :: ms, _, inv => mapRun_inv_of ms (mapStep_inv inv m)

/-- Every interleaving keeps the invariant. -/
theorem mapRun_inv (pool : List Nat) (numQuantThreads numReads numRequiredFragments observed : Nat)
    (writeToCache : Bool) (moves : List Move) :
    MapInv numReads pool observed
      (mapRun numReads numRequiredFragments (mapStart pool numQuantThreads writeToCache observed)
        moves) :=
  mapRun_inv_of moves (mapStart_inv pool numQuantThreads numReads observed writeToCache)

/-! ## What the invariant gives -/

/-- No read is archived twice or before the parser handed it out, and the pool never holds
a group more often than it was allocated. -/
theorem MapInv.written_once {numReads observed : Nat} {pool : List Nat} {s : MapState}
    (inv : MapInv numReads pool observed s) :
    s.written.Nodup ∧ (∀ r ∈ s.written, r < numReads) ∧
      ∀ g, s.structureCache.count g ≤ pool.count g := by
  have once : ∀ r, s.written.count r ≤ if r < s.parsed then 1 else 0 := fun r => by
    have := inv.reads r
    simp only [allReads, List.count_append] at this
    omega
  refine ⟨List.nodup_iff_count_le_one.2 fun r => (once r).trans (by split <;> omega),
    fun r hr => ?_, fun g => ?_⟩
  · have := (once r).trans' (List.count_pos_iff.2 hr)
    split at this
    · exact lt_of_lt_of_le ‹_› inv.parsed_le
    · omega
  · have := inv.groups g
    simp only [allGroups, List.count_append] at this
    omega

/-- On every interleaving of a mapping round, the cache file never holds a read twice or a
read beyond the library, and the pool never holds a group more often than
`quantifyLibrary` allocated it. -/
theorem mapRun_written_once (pool : List Nat)
    (numQuantThreads numReads numRequiredFragments observed : Nat) (writeToCache : Bool)
    (moves : List Move) :
    (mapRun numReads numRequiredFragments (mapStart pool numQuantThreads writeToCache observed)
        moves).written.Nodup ∧
      (∀ r ∈ (mapRun numReads numRequiredFragments
          (mapStart pool numQuantThreads writeToCache observed) moves).written, r < numReads) ∧
      ∀ g, (mapRun numReads numRequiredFragments
          (mapStart pool numQuantThreads writeToCache observed) moves).structureCache.count g ≤
        pool.count g :=
  (mapRun_inv pool numQuantThreads numReads numRequiredFragments observed writeToCache
    moves).written_once

/-- The file never holds more records than the library has reads. -/
theorem MapInv.written_length_le {numReads observed : Nat} {pool : List Nat}
    {s : MapState} (inv : MapInv numReads pool observed s) :
    s.written.length ≤ numReads := by
  obtain ⟨nodup, below, -⟩ := inv.written_once
  simpa using (nodup.subperm fun r hr => List.mem_range.2 (below r hr)).length_le

/-- Once every worker has left, the counter has gone up by every read of the library. -/
theorem MapInv.observed_of_exited {numReads observed : Nat} {pool : List Nat}
    {s : MapState} (inv : MapInv numReads pool observed s)
    (threads : s.workers ≠ []) (exited : ∀ w ∈ s.workers, w = .exited) :
    s.numObservedFragments = observed + numReads := by
  obtain ⟨w, hw⟩ := List.exists_mem_of_ne_nil _ threads
  have unmapped : (s.workers.map WorkerPc.unmapped).sum = 0 :=
    List.sum_eq_zero fun n hn => by
      obtain ⟨w', hw', rfl⟩ := List.mem_map.1 hn
      rw [exited w' hw']
      rfl
  have := inv.counted
  rw [unmapped, inv.exitAfterParsed w hw (exited w hw)] at this
  omega

/-- Without a writer thread nothing reaches the file. -/
theorem mapStep_no_writer (numReads numRequiredFragments : Nat) (s : MapState)
    (m : Move) (h : s.writer = .returned ∧ s.written = []) :
    (mapStep numReads numRequiredFragments s m).writer = .returned ∧
      (mapStep numReads numRequiredFragments s m).written = [] := by
  cases m with
  | worker i want =>
    simp only [mapStep]
    split
    · rename_i pc _
      have fr := workerStep_frame numReads s want pc
      exact ⟨fr.writer.trans h.1, fr.written.trans h.2⟩
    · exact h
  | writer want => simp only [mapStep, writerStep, h.1, h.2, and_self]
  | main =>
    simp only [mapStep, mainStep]
    split
    · split <;> exact h
    · exact h

theorem mapRun_no_writer (numReads numRequiredFragments : Nat) :
    ∀ (moves : List Move) (s : MapState), s.writer = .returned ∧ s.written = [] →
      (mapRun numReads numRequiredFragments s moves).written = []
  | [], _, h => h.2
  | m :: ms, s, h =>
    mapRun_no_writer numReads numRequiredFragments ms _
      (mapStep_no_writer numReads numRequiredFragments s m h)
/-! ## When the writer never clears the flag -/

/-- The invariant of a cached round whose writer never clears the flag: the flag is clear
only once the main thread has joined the workers, the writer drains only with the flag
clear and returns only on an empty queue, and no worker ever finds the flag clear. -/
structure CacheInv (s : MapState) : Prop where
  flag : s.writeToCache = false → s.main = .flipped
  draining : s.writer.draining = true → s.writeToCache = false
  returned : s.writer = .returned → s.outputGroups = []
  requeued : s.requeued = []
  noPool : ∀ w ∈ s.workers, ∀ got, w ≠ .toPool got

theorem mapStart_cacheInv (pool : List Nat) (numQuantThreads observed : Nat) :
    CacheInv (mapStart pool numQuantThreads true observed) where
  flag h := by cases h
  draining h := by cases h
  returned h := by cases h
  requeued := rfl
  noPool w hw got := by rw [(List.mem_replicate.1 hw).2]; exact nofun

/-- A worker that finds the flag set puts nothing back in the pool and never heads there. -/
theorem workerStep_flag_set {numReads want : Nat} {s : MapState} {pc : WorkerPc}
    (set : s.writeToCache = true) (notPool : ∀ got, pc ≠ .toPool got) :
    (workerStep numReads s want pc).1.requeued = s.requeued ∧
      ∀ got, (workerStep numReads s want pc).2 ≠ .toPool got := by
  cases pc with
  | job => unfold workerStep; dsimp only; split <;> exact ⟨rfl, nofun⟩
  | take reads got =>
    rcases reads with _ | ⟨r, rest⟩
    · exact ⟨rfl, nofun⟩
    · rcases hpool : s.structureCache with _ | ⟨g, pool⟩ <;>
        exact ⟨by simp [workerStep, hpool], by simp [workerStep, hpool]⟩
  | map g r rest got => exact ⟨rfl, nofun⟩
  | branch got => exact ⟨rfl, by simp [workerStep, set]⟩
  | toOutput got => exact ⟨rfl, nofun⟩
  | toPool got => exact absurd rfl (notPool got)
  | exited => exact ⟨rfl, nofun⟩

section Cached

variable {numReads numRequiredFragments observed : Nat} {pool : List Nat} {s : MapState}

theorem mapStep_worker_cacheInv (inv : MapInv numReads pool observed s) (cinv : CacheInv s)
    (i want : Nat) : CacheInv (mapStep numReads numRequiredFragments s (.worker i want)) := by
  simp only [mapStep]
  split
  · rename_i pc hpc
    obtain ⟨hi, rfl⟩ := List.getElem?_eq_some_iff.1 hpc
    have fr := workerStep_frame numReads s want s.workers[i]
    by_cases idle : s.workers[i] = .exited
    · obtain ⟨hpc', hs'⟩ := fr.quiet idle
      rw [hpc', hs']
      refine ⟨cinv.flag, cinv.draining, cinv.returned, cinv.requeued, fun w hw => ?_⟩
      rcases List.mem_or_eq_of_mem_set hw with hw | rfl
      · exact cinv.noPool w hw
      · exact nofun
    · have set : s.writeToCache = true := by
        cases h : s.writeToCache
        · exact absurd (inv.joined (cinv.flag h) _ (List.getElem_mem hi)) idle
        · rfl
      have live : s.writer.draining = false := by
        cases h : s.writer.draining
        · rfl
        · exact absurd (cinv.draining h) (by simp [set])
      obtain ⟨hreq, hpool⟩ := @workerStep_flag_set numReads want s _ set
        (cinv.noPool _ (List.getElem_mem hi))
      refine ⟨fun h => ?_, fun h => ?_, fun h => ?_, hreq.trans cinv.requeued, fun w hw => ?_⟩
      · dsimp only at h
        rw [fr.flag, set] at h
        cases h
      · dsimp only at h
        rw [fr.writer, live] at h
        cases h
      · dsimp only at h
        rw [fr.writer] at h
        simp [h, WriterPc.draining] at live
      · rcases List.mem_or_eq_of_mem_set hw with hw | rfl
        · exact cinv.noPool w hw
        · exact hpool
  · exact cinv

theorem writerStep_cacheInv {want : Nat} (inv : MapInv numReads pool observed s)
    (cinv : CacheInv s) (below : observed + numReads ≤ numRequiredFragments) :
    CacheInv (writerStep numRequiredFragments want s) := by
  have counted : ¬ s.numObservedFragments > numRequiredFragments := by
    have := inv.counted
    have := inv.parsed_le
    omega
  cases hw : s.writer with
  | outer =>
    simp only [writerStep, hw]
    split
    · exact ⟨cinv.flag, nofun, nofun, cinv.requeued, cinv.noPool⟩
    · rename_i clear
      exact ⟨cinv.flag, fun _ => by simpa using clear, nofun, cinv.requeued, cinv.noPool⟩
  | bulk =>
    simp only [writerStep, hw]
    split <;> exact ⟨cinv.flag, nofun, nofun, cinv.requeued, cinv.noPool⟩
  | write got =>
    simp only [writerStep, hw]
    exact ⟨cinv.flag, nofun, nofun, cinv.requeued, cinv.noPool⟩
  | release got =>
    simp only [writerStep, hw]
    exact ⟨cinv.flag, nofun, nofun, cinv.requeued, cinv.noPool⟩
  | check =>
    simp only [writerStep, hw, counted, if_false]
    exact ⟨cinv.flag, nofun, nofun, cinv.requeued, cinv.noPool⟩
  | drain =>
    have clear := cinv.draining (by rw [hw]; rfl)
    rcases hq : s.outputGroups with _ | ⟨e, rest⟩ <;> simp only [writerStep, hw, hq]
    · exact ⟨cinv.flag, fun _ => clear, fun _ => rfl, cinv.requeued, cinv.noPool⟩
    · exact ⟨cinv.flag, fun _ => clear, nofun, cinv.requeued, cinv.noPool⟩
  | drainWrite e =>
    simp only [writerStep, hw]
    exact ⟨cinv.flag, fun _ => cinv.draining (by rw [hw]; rfl), nofun, cinv.requeued,
      cinv.noPool⟩
  | drainRelease e =>
    simp only [writerStep, hw]
    exact ⟨cinv.flag, fun _ => cinv.draining (by rw [hw]; rfl), nofun, cinv.requeued,
      cinv.noPool⟩
  | returned =>
    simp only [writerStep, hw]
    exact ⟨cinv.flag, fun _ => cinv.draining (by rw [hw]; rfl), cinv.returned, cinv.requeued,
      cinv.noPool⟩

theorem mainStep_cacheInv (cinv : CacheInv s) : CacheInv (mainStep s) := by
  unfold mainStep
  split
  · split
    · exact ⟨fun _ => rfl, fun _ => rfl, cinv.returned, cinv.requeued, cinv.noPool⟩
    · exact cinv
  · exact cinv

theorem mapStep_cacheInv (inv : MapInv numReads pool observed s) (cinv : CacheInv s)
    (below : observed + numReads ≤ numRequiredFragments) (m : Move) :
    CacheInv (mapStep numReads numRequiredFragments s m) := by
  cases m with
  | worker i want => exact mapStep_worker_cacheInv inv cinv i want
  | writer want => exact writerStep_cacheInv inv cinv below
  | main => exact mainStep_cacheInv cinv

theorem mapRun_cacheInv_of (below : observed + numReads ≤ numRequiredFragments) :
    ∀ (moves : List Move) {s : MapState}, MapInv numReads pool observed s → CacheInv s →
      CacheInv (mapRun numReads numRequiredFragments s moves)
  | [], _, _, cinv => cinv
  | m :: ms, _, inv, cinv =>
    mapRun_cacheInv_of below ms (mapStep_inv inv m) (mapStep_cacheInv inv cinv below m)

end Cached

theorem mapStep_workers_length (numReads numRequiredFragments : Nat) (s : MapState) (m : Move) :
    (mapStep numReads numRequiredFragments s m).workers.length = s.workers.length := by
  cases m with
  | worker i want =>
    simp only [mapStep]
    split <;> simp
  | writer want => rw [mapStep, (writerStep_frame numRequiredFragments want s).workers]
  | main =>
    simp only [mapStep, mainStep]
    split
    · split <;> rfl
    · rfl

theorem mapRun_workers_length (numReads numRequiredFragments : Nat) :
    ∀ (moves : List Move) (s : MapState),
      (mapRun numReads numRequiredFragments s moves).workers.length = s.workers.length
  | [], _ => rfl
  | m :: ms, s => (mapRun_workers_length numReads numRequiredFragments ms _).trans
      (mapStep_workers_length numReads numRequiredFragments s m)

/-- Once the writer of a cached round has returned, and the main thread's
`writeToCache = false` was the only one, the file holds every read of the library exactly
once, and the pool holds every group exactly as often as it was allocated. -/
theorem MapInv.complete_of_returned {numReads observed : Nat} {pool : List Nat} {s : MapState}
    (inv : MapInv numReads pool observed s) (cinv : CacheInv s) (threads : s.workers ≠ [])
    (joined : s.writer = .returned) :
    s.written.Perm (List.range numReads) ∧ s.structureCache.Perm pool := by
  have idle := inv.joined (cinv.flag (cinv.draining (by rw [joined]; rfl)))
  obtain ⟨w, hw⟩ := List.exists_mem_of_ne_nil _ threads
  have parsed := inv.exitAfterParsed w hw (idle w hw)
  have empty : ∀ {β : Type} (f : WorkerPc → List β), f .exited = [] → s.workers.flatMap f = [] :=
    fun f hf => List.flatMap_eq_nil_iff.2 fun w hw => by rw [idle w hw, hf]
  refine ⟨List.perm_iff_count.2 fun r => ?_, List.perm_iff_count.2 fun g => ?_⟩
  · have := inv.reads r
    simp only [allReads, cinv.returned joined, cinv.requeued, empty WorkerPc.reads rfl, joined,
      parsed, WriterPc.reads, List.map_nil, List.append_nil] at this
    rw [this, count_range_eq]
  · have := inv.groups g
    simpa [allGroups, cinv.returned joined, empty WorkerPc.groups rfl, joined, WriterPc.groups]
      using this

/-- On every interleaving of a cached mapping round with at least one worker, in which the
counter cannot pass `numRequiredFragments` (the library and the fragments counted before
it are no more than that), once the writer has returned the file holds every read of the
library exactly once, and the pool holds every group exactly as often as it was
allocated. -/
theorem mapRun_cache_complete (pool : List Nat)
    (numQuantThreads numReads numRequiredFragments observed : Nat) (moves : List Move)
    (threads : 0 < numQuantThreads) (below : observed + numReads ≤ numRequiredFragments)
    (joined : (mapRun numReads numRequiredFragments (mapStart pool numQuantThreads true observed)
      moves).writer = .returned) :
    (mapRun numReads numRequiredFragments (mapStart pool numQuantThreads true observed)
        moves).written.Perm (List.range numReads) ∧
      (mapRun numReads numRequiredFragments (mapStart pool numQuantThreads true observed)
        moves).structureCache.Perm pool := by
  have inv := mapRun_inv pool numQuantThreads numReads numRequiredFragments observed true moves
  have cinv := mapRun_cacheInv_of below moves
    (mapStart_inv pool numQuantThreads numReads observed true)
    (mapStart_cacheInv pool numQuantThreads observed)
  refine inv.complete_of_returned cinv ?_ joined
  rw [← List.length_pos, mapRun_workers_length]
  simpa [mapStart] using threads

/-- One read, one worker: it maps the read and queues it, then leaves; the main thread
clears the flag and the writer drains the queue into the file. -/
theorem mapRun_cache_complete_one_read :
    0 < 1 ∧ 0 + 1 ≤ 1 ∧
      (mapRun 1 1 (mapStart [0] 1 true 0) [.worker 0 1, .worker 0 0, .worker 0 0, .worker 0 0,
        .worker 0 0, .worker 0 0, .worker 0 1, .main, .writer 1, .writer 1, .writer 1,
        .writer 1, .writer 1]).writer = .returned ∧
      (mapRun 1 1 (mapStart [0] 1 true 0) [.worker 0 1, .worker 0 0, .worker 0 0, .worker 0 0,
        .worker 0 0, .worker 0 0, .worker 0 1, .main, .writer 1, .writer 1, .writer 1,
        .writer 1, .writer 1]).written.Perm (List.range 1) ∧
      (mapRun 1 1 (mapStart [0] 1 true 0) [.worker 0 1, .worker 0 0, .worker 0 0, .worker 0 0,
        .worker 0 0, .worker 0 0, .worker 0 1, .main, .writer 1, .writer 1, .writer 1,
        .writer 1, .writer 1]).structureCache.Perm [0] :=
  ⟨by decide, by decide, rfl, mapRun_cache_complete [0] 1 1 1 0 _ (by decide) (by decide) rfl⟩

/-- Without the bound the writer can clear the flag itself, between a worker's test of the
flag and its enqueue: two reads, and the second batch is queued after the writer's last
drain, so read `1` is never written and group `1` never returns to the pool. -/
example :
    let s := mapRun 2 0 (mapStart [0, 1] 1 true 0) [.worker 0 1, .worker 0 0, .worker 0 0,
      .worker 0 0, .worker 0 0, .worker 0 0, .worker 0 1, .worker 0 0, .worker 0 0,
      .worker 0 0, .worker 0 0, .writer 1, .writer 1, .writer 1, .writer 1, .writer 1,
      .writer 1, .writer 1, .writer 1, .worker 0 0, .worker 0 1, .main]
    s.writer = .returned ∧ s.written = [0] ∧ s.outputGroups = [(1, 1)] ∧ s.structureCache = [0] :=
  by decide

/-! ## The cache, written and replayed -/

theorem map_getD_range {α : Type} (l : List α) (d : α) :
    (List.range l.length).map (l.getD · d) = l :=
  List.ext_getElem (by simp) fun i _ h => by
    simp only [List.getElem_map, List.getElem_range]
    exact List.getD_eq_getElem _ _ h

/-- A cached mapping round whose writer returned as in `mapRun_cache_complete`, and then a
replay round over the pool it left and its `numWritten` records that returns with its queue
drained: every read of the library reaches `processMiniBatch` in the replay exactly once,
and the pool is back as `quantifyLibrary` allocated it. Record `j` of the file is the
`j`-th read written. -/
theorem cache_replay_every_read_once (pool : List Nat)
    (numQuantThreads numReads numRequiredFragments observed : Nat) (moves : List Move)
    (replayMoves : List Replay.Move) (threads : 0 < numQuantThreads)
    (below : observed + numReads ≤ numRequiredFragments)
    (joined : (mapRun numReads numRequiredFragments (mapStart pool numQuantThreads true observed)
      moves).writer = .returned)
    (ret : Replay.Returned (Replay.replayRun
      (mapRun numReads numRequiredFragments (mapStart pool numQuantThreads true observed)
        moves).written.length
      (Replay.replayStart (mapRun numReads numRequiredFragments
        (mapStart pool numQuantThreads true observed) moves).structureCache numQuantThreads)
      replayMoves))
    (drained : (Replay.replayRun
      (mapRun numReads numRequiredFragments (mapStart pool numQuantThreads true observed)
        moves).written.length
      (Replay.replayStart (mapRun numReads numRequiredFragments
        (mapStart pool numQuantThreads true observed) moves).structureCache numQuantThreads)
      replayMoves).alignmentCache = []) :
    ((Replay.replayRun
      (mapRun numReads numRequiredFragments (mapStart pool numQuantThreads true observed)
        moves).written.length
      (Replay.replayStart (mapRun numReads numRequiredFragments
        (mapStart pool numQuantThreads true observed) moves).structureCache numQuantThreads)
      replayMoves).processed.map fun j =>
        (mapRun numReads numRequiredFragments (mapStart pool numQuantThreads true observed)
          moves).written.getD j 0).Perm (List.range numReads) ∧
      (Replay.replayRun
        (mapRun numReads numRequiredFragments (mapStart pool numQuantThreads true observed)
          moves).written.length
        (Replay.replayStart (mapRun numReads numRequiredFragments
          (mapStart pool numQuantThreads true observed) moves).structureCache numQuantThreads)
        replayMoves).structureCache.Perm pool := by
  obtain ⟨file, restored⟩ := mapRun_cache_complete pool numQuantThreads numReads
    numRequiredFragments observed moves threads below joined
  generalize mapRun numReads numRequiredFragments (mapStart pool numQuantThreads true observed)
    moves = s at file restored ret drained ⊢
  have frame := Replay.replayRun_frame s.written.length replayMoves
    (Replay.replayStart s.structureCache numQuantThreads)
  have replayed := (Replay.replayRun_inv s.written.length s.structureCache numQuantThreads
    replayMoves).complete_of_drained (by
      rw [← List.length_pos, frame.1]
      simpa [Replay.replayStart] using threads) ret drained
  rw [frame.2.1, show (Replay.replayStart s.structureCache numQuantThreads).recordBase = 0 from rfl,
    Nat.zero_add] at replayed
  have once : (Replay.replayRun s.written.length (Replay.replayStart s.structureCache
      numQuantThreads) replayMoves).processed.Perm (List.range s.written.length) :=
    List.perm_iff_count.2 fun j => by rw [replayed.1 j, count_range_eq]
  refine ⟨((once.map _).trans (by rw [map_getD_range])).trans file, ?_⟩
  exact (List.perm_iff_count.2 replayed.2).trans restored

/-- The one-read round of `mapRun_cache_complete_one_read`, then a replay round with one
worker that takes the record before the reader sets the flag. -/
theorem cache_replay_one_read :
    0 < 1 ∧ 0 + 1 ≤ 1 ∧
      (mapRun 1 1 (mapStart [0] 1 true 0) [.worker 0 1, .worker 0 0, .worker 0 0, .worker 0 0,
        .worker 0 0, .worker 0 0, .worker 0 1, .main, .writer 1, .writer 1, .writer 1,
        .writer 1, .writer 1]).writer = .returned ∧
      Replay.Returned (Replay.replayRun 1 (Replay.replayStart [0] 1) [.worker 0 1, .reader,
        .reader, .worker 0 1, .worker 0 1, .reader, .worker 0 1, .worker 0 1, .worker 0 1,
        .worker 0 1]) ∧
      (Replay.replayRun 1 (Replay.replayStart [0] 1) [.worker 0 1, .reader, .reader,
        .worker 0 1, .worker 0 1, .reader, .worker 0 1, .worker 0 1, .worker 0 1,
        .worker 0 1]).alignmentCache = [] ∧
      ((Replay.replayRun 1 (Replay.replayStart [0] 1) [.worker 0 1, .reader, .reader,
        .worker 0 1, .worker 0 1, .reader, .worker 0 1, .worker 0 1, .worker 0 1,
        .worker 0 1]).processed.map fun j => [0].getD j 0).Perm (List.range 1) ∧
      (Replay.replayRun 1 (Replay.replayStart [0] 1) [.worker 0 1, .reader, .reader,
        .worker 0 1, .worker 0 1, .reader, .worker 0 1, .worker 0 1, .worker 0 1,
        .worker 0 1]).structureCache.Perm [0] :=
  ⟨by decide, by decide, rfl, by decide, rfl,
    cache_replay_every_read_once [0] 1 1 1 0 [.worker 0 1, .worker 0 0, .worker 0 0,
      .worker 0 0, .worker 0 0, .worker 0 0, .worker 0 1, .main, .writer 1, .writer 1,
      .writer 1, .writer 1, .writer 1] [.worker 0 1, .reader, .reader, .worker 0 1, .worker 0 1,
      .reader, .worker 0 1, .worker 0 1, .worker 0 1, .worker 0 1] (by decide) (by decide) rfl
      (by decide) rfl⟩

end SalmonQuant.Writer
