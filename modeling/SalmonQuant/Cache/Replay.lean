import Mathlib

/-!
# Replaying the mapping cache: one reader, `T` EM workers

In a cache-replay round `quantifyLibrary` (`SalmonQuantify.cpp:1909`) makes one
`alnGroupQueue` for the round and then, per library, starts one `readAlignmentCache`
thread and `numQuantThreads` copies of `processCachedAlignmentsHelper`
(`SalmonQuantify.cpp:1417`), and joins the workers (`processCachedAlignments` returns)
before the reader. The pool `groupCache` and the queue carry over from one library to
the next, `finishedParsing` and the reader's `numRead` do not.

The reader (`SalmonQuantify.cpp:1757`):

    while (numRead < numWritten) {
        while (!structureCache.try_dequeue(alnGroup)) {}
        inputArchive((*alnGroup)); alnGroupQueue.enqueue(alnGroup); ++numRead;
    }
    finishedParsing = true;

A worker:

    while (!cacheExhausted) {
        while (!cacheExhausted and numConsumed < batchCount) {
            numConsumed += alignmentCache.try_dequeue_bulk(it, batchCount - numConsumed); … }
        … processMiniBatch(…, hitLists, …); structureCache.enqueue_bulk(hitLists…);
    }

where `cacheExhausted` is the reader's `finishedParsing`. Each read of the flag, each
queue operation, the load and `processMiniBatch` are one step; a `Move` says which
thread takes the next step, so a list of moves is an interleaving. A group is named by
its index among the groups `quantifyLibrary` allocated, and carries the index of the
cache record loaded into it, counted over the round: record `numRead` of a library is
`recordBase + numRead`, with the ghost `recordBase` the number of records the earlier
libraries read. `try_dequeue_bulk` may return fewer groups than are queued; the move
says how many it asks for.

`ReplayInv` holds in every reachable state: no group is lost or duplicated across the
pool, the queue and the threads' hands; every record read so far is in exactly one of
`processed`, the queue or a worker's batch; and a worker only exits once the flag is
set, which the reader only does after its last record. It carries over to the next
library (`nextLibrary_inv`), so it holds over a whole round (`replayLibraries_inv`).
-/

namespace SalmonQuant.Replay

/-- `batchCount`, the most groups a worker collects before `processMiniBatch`. -/
def batchCount : Nat := 1000

/-- Where the reader thread is. -/
inductive ReaderPc
  | loop
  | load (group : Nat)
  | exited
  deriving DecidableEq, Repr

/-- Where a worker thread is; `got` is its `hitLists`, as (group, record) pairs. -/
inductive WorkerPc
  | outer
  | inner (got : List (Nat × Nat))
  | dequeue (got : List (Nat × Nat))
  | process (got : List (Nat × Nat))
  | release (got : List (Nat × Nat))
  | exited
  deriving DecidableEq, Repr

/-- The round's shared state: `structureCache` (the group pool), `alignmentCache` (the
queue between reader and workers), the flag, the reader's `numRead`, every thread's
position, the records handed to `processMiniBatch`, in order, and the ghost
`recordBase`. -/
structure ReplayState where
  structureCache : List Nat
  alignmentCache : List (Nat × Nat)
  finishedParsing : Bool
  numRead : Nat
  reader : ReaderPc
  workers : List WorkerPc
  processed : List Nat
  recordBase : Nat
  deriving DecidableEq, Repr

/-- Which thread moves: the reader, or worker `i`, whose bulk dequeue (if that is its
next step) returns at most `want` groups. -/
inductive Move
  | reader
  | worker (i : Nat) (want : Nat)
  deriving DecidableEq, Repr

/-- One step of `readAlignmentCache`. An empty pool makes `try_dequeue` spin. -/
def readerStep (numWritten : Nat) (s : ReplayState) : ReplayState :=
  match s.reader with
  | .loop =>
    if s.numRead < numWritten then
      match s.structureCache with
      | g :: rest => { s with structureCache := rest, reader := .load g }
      | [] => s
    else
      { s with finishedParsing := true, reader := .exited }
  | .load g =>
    { s with alignmentCache := s.alignmentCache ++ [(g, s.recordBase + s.numRead)],
             numRead := s.numRead + 1, reader := .loop }
  | .exited => s

/-- One step of `processCachedAlignmentsHelper`; returns the shared state and the
worker's next position. -/
def workerStep (s : ReplayState) (want : Nat) : WorkerPc → ReplayState × WorkerPc
  | .outer => (s, if s.finishedParsing then .exited else .inner [])
  | .inner got =>
    (s, if !s.finishedParsing && got.length < batchCount then .dequeue got else .process got)
  | .dequeue got =>
    let k := min want (batchCount - got.length)
    ({ s with alignmentCache := s.alignmentCache.drop k }, .inner (got ++ s.alignmentCache.take k))
  | .process got => ({ s with processed := s.processed ++ got.map Prod.snd }, .release got)
  | .release got => ({ s with structureCache := s.structureCache ++ got.map Prod.fst }, .outer)
  | .exited => (s, .exited)

/-- One step of the round. A move naming no worker changes nothing. -/
def replayStep (numWritten : Nat) (s : ReplayState) : Move → ReplayState
  | .reader => readerStep numWritten s
  | .worker i want =>
    match s.workers[i]? with
    | some pc =>
      let r := workerStep s want pc
      { r.1 with workers := s.workers.set i r.2 }
    | none => s

/-- The round after the interleaving `moves`. -/
def replayRun (numWritten : Nat) (s : ReplayState) (moves : List Move) : ReplayState :=
  moves.foldl (replayStep numWritten) s

/-- The round's start: the pool as `quantifyLibrary` left it, the round's empty
`alnGroupQueue`, and the first library's reader and `numQuantThreads` workers. -/
def replayStart (structureCache : List Nat) (numQuantThreads : Nat) : ReplayState :=
  ⟨structureCache, [], false, 0, .loop, List.replicate numQuantThreads .outer, [], 0⟩

/-- `processCachedAlignments` has returned: every worker has exited. -/
def Returned (s : ReplayState) : Prop := ∀ w ∈ s.workers, w = .exited

instance (s : ReplayState) : Decidable (Returned s) :=
  inferInstanceAs (Decidable (∀ w ∈ s.workers, w = .exited))

/-! ## What each place holds -/

/-- The groups a worker holds. -/
def WorkerPc.groups : WorkerPc → List Nat
  | .inner got | .dequeue got | .process got | .release got => got.map Prod.fst
  | .outer | .exited => []

/-- The records a worker holds that have not reached `processMiniBatch` yet. -/
def WorkerPc.pending : WorkerPc → List (Nat × Nat)
  | .inner got | .dequeue got | .process got => got
  | .outer | .release _ | .exited => []

/-- The group the reader holds while loading it. -/
def ReaderPc.groups : ReaderPc → List Nat
  | .load g => [g]
  | .loop | .exited => []

/-- Every group, wherever it is. -/
def allGroups (s : ReplayState) : List Nat :=
  s.structureCache ++ s.alignmentCache.map Prod.fst ++ s.reader.groups ++
    s.workers.flatMap WorkerPc.groups

/-- The records a worker holds that have not reached `processMiniBatch` yet. -/
def WorkerPc.records (w : WorkerPc) : List Nat := w.pending.map Prod.snd

/-- Every record read so far, wherever it is. -/
def allRecords (s : ReplayState) : List Nat :=
  s.processed ++ s.alignmentCache.map Prod.snd ++ s.workers.flatMap WorkerPc.records

/-- The invariant of a replay round over the pool `pool`, during a library whose cache
file holds `numWritten` records. -/
structure ReplayInv (numWritten : Nat) (pool : List Nat) (s : ReplayState) : Prop where
  groups : ∀ g, (allGroups s).count g = pool.count g
  records : ∀ r, (allRecords s).count r = if r < s.recordBase + s.numRead then 1 else 0
  numRead_le : s.numRead ≤ numWritten
  loading : ∀ g, s.reader = .load g → s.numRead < numWritten
  finished : s.finishedParsing = true ↔ s.reader = .exited
  readAll : s.reader = .exited → s.numRead = numWritten
  exitAfterFlag : ∀ w ∈ s.workers, w = .exited → s.finishedParsing = true

/-! ## The invariant holds on every interleaving -/

theorem flatMap_replicate_outer {β : Type} (f : WorkerPc → List β) (hf : f .outer = [])
    (n : Nat) : (List.replicate n WorkerPc.outer).flatMap f = [] := by
  induction n with
  | zero => rfl
  | succ n ih => simp [List.replicate_succ, hf, ih]

theorem replayStart_inv (numWritten : Nat) (pool : List Nat) (numQuantThreads : Nat) :
    ReplayInv numWritten pool (replayStart pool numQuantThreads) where
  groups g := by
    simp [allGroups, replayStart, ReaderPc.groups,
      flatMap_replicate_outer (f := WorkerPc.groups) rfl]
  records r := by
    simp [allRecords, replayStart, flatMap_replicate_outer (f := WorkerPc.records) rfl]
  numRead_le := Nat.zero_le _
  loading g h := by cases h
  finished := by simp [replayStart]
  readAll h := by cases h
  exitAfterFlag w hw := by
    rw [(List.mem_replicate.1 hw).2]
    intro h
    cases h

/-- Counting over `flatMap` after `List.set`: the new element's share replaces the old. -/
theorem count_flatMap_set {α β : Type} [DecidableEq β] (f : α → List β) (b : β) :
    ∀ (l : List α) (i : Nat) (x : α) (h : i < l.length),
      ((l.set i x).flatMap f).count b + (f l[i]).count b =
        (l.flatMap f).count b + (f x).count b
  | _ :: _, 0, _, _ => by simp only [List.set_cons_zero, List.flatMap_cons, List.count_append,
      List.getElem_cons_zero]; omega
  | a :: l, i + 1, x, h => by
    have := count_flatMap_set f b l i x (by simpa using h)
    simp only [List.set_cons_succ, List.flatMap_cons, List.count_append,
      List.getElem_cons_succ]
    omega

theorem count_map_take_drop {α β : Type} [DecidableEq β] (f : α → β) (l : List α) (k : Nat)
    (b : β) : ((l.drop k).map f).count b + ((l.take k).map f).count b = (l.map f).count b := by
  rw [← List.take_append_drop k l, List.map_append, List.count_append]
  simp only [List.take_append_drop]
  omega

theorem count_range'_eq (r s n : Nat) :
    (List.range' s n).count r = if s ≤ r ∧ r < s + n then 1 else 0 := by
  rw [List.count_eq_of_nodup (List.nodup_range' s n)]
  exact if_congr List.mem_range'_1 rfl rfl

theorem count_range_eq (r n : Nat) : (List.range n).count r = if r < n then 1 else 0 := by
  rw [List.range_eq_range', count_range'_eq]
  simp

/-- What one worker step does to the shared lists and to the worker's own hands: no
group and no record appears or disappears, the reader's side is untouched, and the
worker exits only after reading the flag set. -/
theorem workerStep_local (s : ReplayState) (want : Nat) (pc : WorkerPc) :
    (workerStep s want pc).1.numRead = s.numRead ∧
    (workerStep s want pc).1.recordBase = s.recordBase ∧
    (workerStep s want pc).1.reader = s.reader ∧
    (workerStep s want pc).1.finishedParsing = s.finishedParsing ∧
    (∀ g, ((workerStep s want pc).1.structureCache ++
        (workerStep s want pc).1.alignmentCache.map Prod.fst).count g +
        (workerStep s want pc).2.groups.count g =
      (s.structureCache ++ s.alignmentCache.map Prod.fst).count g + pc.groups.count g) ∧
    (∀ r, ((workerStep s want pc).1.processed ++
        (workerStep s want pc).1.alignmentCache.map Prod.snd).count r +
        (workerStep s want pc).2.records.count r =
      (s.processed ++ s.alignmentCache.map Prod.snd).count r + pc.records.count r) ∧
    ((workerStep s want pc).2 = .exited → pc = .exited ∨ s.finishedParsing = true) := by
  cases pc with
  | outer =>
    refine ⟨rfl, rfl, rfl, rfl, fun g => ?_, fun r => ?_, fun h => ?_⟩
    · simp only [workerStep]; split <;> rfl
    · simp only [workerStep]; split <;> rfl
    · simp only [workerStep] at h; split at h
      · exact .inr ‹_›
      · cases h
  | inner got =>
    refine ⟨rfl, rfl, rfl, rfl, fun g => ?_, fun r => ?_, fun h => ?_⟩
    · simp only [workerStep]; split <;> rfl
    · simp only [workerStep]; split <;> rfl
    · simp only [workerStep] at h; split at h <;> cases h
  | dequeue got =>
    refine ⟨rfl, rfl, rfl, rfl, fun g => ?_, fun r => ?_, fun h => by cases h⟩
    · have := count_map_take_drop Prod.fst s.alignmentCache (min want (batchCount - got.length)) g
      simp only [workerStep, WorkerPc.groups, List.map_append, List.count_append] at this ⊢
      omega
    · have := count_map_take_drop Prod.snd s.alignmentCache (min want (batchCount - got.length)) r
      simp only [workerStep, WorkerPc.records, WorkerPc.pending, List.map_append,
        List.count_append] at this ⊢
      omega
  | process got =>
    refine ⟨rfl, rfl, rfl, rfl, fun g => rfl, fun r => ?_, fun h => by cases h⟩
    simp only [workerStep, WorkerPc.records, WorkerPc.pending, List.map_nil, List.count_nil,
      List.count_append]
    omega
  | release got =>
    refine ⟨rfl, rfl, rfl, rfl, fun g => ?_, fun r => rfl, fun h => by cases h⟩
    simp only [workerStep, WorkerPc.groups, List.map_nil, List.count_nil, List.count_append]
    omega
  | exited => exact ⟨rfl, rfl, rfl, rfl, fun _ => rfl, fun _ => rfl, fun _ => .inl rfl⟩

theorem replayStep_worker_inv {numWritten : Nat} {pool : List Nat} {s : ReplayState}
    (inv : ReplayInv numWritten pool s) (i want : Nat) :
    ReplayInv numWritten pool (replayStep numWritten s (.worker i want)) := by
  simp only [replayStep]
  split
  · rename_i pc hpc
    obtain ⟨hi, rfl⟩ := List.getElem?_eq_some_iff.1 hpc
    obtain ⟨hn, hb, hr, hf, hg, hrec, hx⟩ := workerStep_local s want s.workers[i]
    constructor
    · intro g
      have := count_flatMap_set WorkerPc.groups g s.workers i (workerStep s want s.workers[i]).2 hi
      have := inv.groups g
      simp only [allGroups, List.count_append, hr] at this hg ⊢
      have := hg g
      simp only [List.count_append] at this
      omega
    · intro r
      have := count_flatMap_set WorkerPc.records r s.workers i (workerStep s want s.workers[i]).2 hi
      have := inv.records r
      simp only [allRecords, List.count_append, hn, hb] at this hrec ⊢
      have := hrec r
      simp only [List.count_append] at this
      omega
    · rw [hn]; exact inv.numRead_le
    · rw [hn, hr]; exact inv.loading
    · rw [hf, hr]; exact inv.finished
    · rw [hn, hr]; exact inv.readAll
    · intro w hw hex
      rw [hf]
      rcases List.mem_or_eq_of_mem_set hw with hw | rfl
      · exact inv.exitAfterFlag w hw hex
      · rcases hx hex with h | h
        · exact inv.exitAfterFlag _ (List.getElem_mem hi) h
        · exact h
  · exact inv

theorem readerStep_inv {numWritten : Nat} {pool : List Nat} {s : ReplayState}
    (inv : ReplayInv numWritten pool s) : ReplayInv numWritten pool (readerStep numWritten s) := by
  unfold readerStep
  split
  · rename_i hloop
    have flag : s.finishedParsing = false := by simpa [hloop] using inv.finished
    split
    · rename_i hlt
      split
      · rename_i g rest hpool
        refine ⟨fun x => ?_, inv.records, inv.numRead_le, fun _ _ => hlt, ?_, fun h => ?_,
          inv.exitAfterFlag⟩
        · have := inv.groups x
          simp only [allGroups, hloop, hpool, ReaderPc.groups, List.count_append,
            List.count_cons, List.count_nil] at this ⊢
          omega
        · simp [flag]
        · cases h
      · exact inv
    · rename_i hge
      refine ⟨fun x => ?_, inv.records, inv.numRead_le, fun _ h => ?_, by simp, fun _ => ?_,
        fun _ _ _ => rfl⟩
      · simpa [allGroups, hloop, ReaderPc.groups] using inv.groups x
      · cases h
      · have := inv.numRead_le
        simp only
        omega
  · rename_i g hload
    have flag : s.finishedParsing = false := by simpa [hload] using inv.finished
    have hlt := inv.loading g hload
    refine ⟨fun x => ?_, fun r => ?_, hlt, fun _ h => ?_, by simp [flag], fun h => ?_,
      fun w hw hex => ?_⟩
    · have := inv.groups x
      simp only [allGroups, hload, ReaderPc.groups, List.map_append, List.map_cons,
        List.map_nil, List.count_append, List.count_cons, List.count_nil] at this ⊢
      omega
    · have := inv.records r
      simp only [allRecords, List.map_append, List.map_cons, List.map_nil, List.count_append,
        List.count_cons, List.count_nil, beq_iff_eq] at this ⊢
      split <;> split <;> (split at this <;> omega)
    · cases h
    · cases h
    · exact absurd (inv.exitAfterFlag w hw hex) (by simp [flag])
  · exact inv

theorem replayStep_inv {numWritten : Nat} {pool : List Nat} {s : ReplayState}
    (inv : ReplayInv numWritten pool s) (m : Move) :
    ReplayInv numWritten pool (replayStep numWritten s m) := by
  cases m with
  | reader => exact readerStep_inv inv
  | worker i want => exact replayStep_worker_inv inv i want

theorem replayRun_inv_of {numWritten : Nat} {pool : List Nat} :
    ∀ (moves : List Move) {s : ReplayState}, ReplayInv numWritten pool s →
      ReplayInv numWritten pool (replayRun numWritten s moves)
  | [], _, inv => inv
  | m :: ms, _, inv => replayRun_inv_of ms (replayStep_inv inv m)

/-- Every interleaving keeps the invariant. -/
theorem replayRun_inv (numWritten : Nat) (pool : List Nat) (numQuantThreads : Nat)
    (moves : List Move) :
    ReplayInv numWritten pool (replayRun numWritten (replayStart pool numQuantThreads) moves) :=
  replayRun_inv_of moves (replayStart_inv numWritten pool numQuantThreads)

/-- A worker only ever appends to `processed`. -/
theorem workerStep_processed (s : ReplayState) (want : Nat) (pc : WorkerPc) :
    s.processed <+: (workerStep s want pc).1.processed := by
  cases pc <;> dsimp only [workerStep] <;>
    first | exact List.prefix_append _ _ | exact List.prefix_refl _

/-- A step keeps the number of workers and `recordBase`, and only appends to
`processed`. -/
theorem replayStep_frame (numWritten : Nat) (s : ReplayState) (m : Move) :
    (replayStep numWritten s m).workers.length = s.workers.length ∧
      (replayStep numWritten s m).recordBase = s.recordBase ∧
      s.processed <+: (replayStep numWritten s m).processed := by
  cases m with
  | reader =>
    simp only [replayStep, readerStep]
    split
    · split
      · split <;> exact ⟨rfl, rfl, List.prefix_refl _⟩
      · exact ⟨rfl, rfl, List.prefix_refl _⟩
    · exact ⟨rfl, rfl, List.prefix_refl _⟩
    · exact ⟨rfl, rfl, List.prefix_refl _⟩
  | worker i want =>
    simp only [replayStep]
    split
    · exact ⟨List.length_set .., (workerStep_local s want _).2.1, workerStep_processed s want _⟩
    · exact ⟨rfl, rfl, List.prefix_refl _⟩

theorem replayRun_frame (numWritten : Nat) :
    ∀ (moves : List Move) (s : ReplayState),
      (replayRun numWritten s moves).workers.length = s.workers.length ∧
        (replayRun numWritten s moves).recordBase = s.recordBase ∧
        s.processed <+: (replayRun numWritten s moves).processed
  | [], _ => ⟨rfl, rfl, List.prefix_refl _⟩
  | m :: ms, s =>
    have step := replayStep_frame numWritten s m
    have run := replayRun_frame numWritten ms (replayStep numWritten s m)
    ⟨run.1.trans step.1, run.2.1.trans step.2.1, step.2.2.trans run.2.2⟩

/-! ## What the invariant gives -/

section Consequences

variable {numWritten : Nat} {pool : List Nat} {s : ReplayState}

/-- On every interleaving, no record reaches `processMiniBatch` twice and no group is in
the pool more often than it was allocated. -/
theorem ReplayInv.at_most_once (inv : ReplayInv numWritten pool s) :
    (∀ r, s.processed.count r ≤ 1) ∧ (∀ g, s.structureCache.count g ≤ pool.count g) := by
  refine ⟨fun r => ?_, fun g => ?_⟩
  · have := inv.records r
    simp only [allRecords, List.count_append] at this
    split at this <;> omega
  · have := inv.groups g
    simp only [allGroups, List.count_append] at this
    omega

theorem flatMap_eq_nil_of_returned {β : Type} (f : WorkerPc → List β) (hf : f .exited = [])
    (ret : Returned s) : s.workers.flatMap f = [] :=
  List.flatMap_eq_nil_iff.2 fun w hw => by rw [ret w hw, hf]

/-- When `processCachedAlignments` returns and nothing is left in the queue, every
record went through `processMiniBatch` exactly once and every group is back in the pool
exactly as often as it was allocated. -/
theorem ReplayInv.complete_of_drained (inv : ReplayInv numWritten pool s)
    (threads : s.workers ≠ []) (ret : Returned s) (drained : s.alignmentCache = []) :
    (∀ r, s.processed.count r = if r < s.recordBase + numWritten then 1 else 0) ∧
      (∀ g, s.structureCache.count g = pool.count g) := by
  obtain ⟨w, hw⟩ := List.exists_mem_of_ne_nil _ threads
  have flag := inv.exitAfterFlag w hw (ret w hw)
  have done := inv.finished.1 flag
  have all := inv.readAll done
  refine ⟨fun r => ?_, fun g => ?_⟩
  · have := inv.records r
    simpa [allRecords, drained, flatMap_eq_nil_of_returned WorkerPc.records rfl ret, all]
      using this
  · have := inv.groups g
    simpa [allGroups, drained, done, ReaderPc.groups,
      flatMap_eq_nil_of_returned WorkerPc.groups rfl ret] using this

/-- The records read so far are the first `recordBase + numRead` of the round. -/
theorem ReplayInv.length_allRecords (inv : ReplayInv numWritten pool s) :
    (allRecords s).length = s.recordBase + s.numRead := by
  have perm : (allRecords s).Perm (List.range (s.recordBase + s.numRead)) :=
    List.perm_iff_count.2 fun r => by rw [inv.records r, count_range_eq]
  rw [perm.length_eq, List.length_range]

/-- When a library's threads hold nothing, every record read and not consumed is in the
round's queue. -/
theorem ReplayInv.length_queue (inv : ReplayInv numWritten pool s)
    (idle : s.workers.flatMap WorkerPc.records = []) :
    s.processed.length + s.alignmentCache.length = s.recordBase + s.numRead := by
  have := inv.length_allRecords
  simpa [allRecords, idle] using this
end Consequences

/-! ## The reader can finish first -/

/-- The reader loads its one record and sets the flag before the worker's first test. -/
def readerFirst : List Move := [.reader, .reader, .reader, .worker 0 0]

theorem replayRun_readerFirst (g : Nat) (rest : List Nat) :
    replayRun 1 (replayStart (g :: rest) 1) readerFirst =
      ⟨rest, [(g, 0)], true, 1, .exited, [.exited], [], 0⟩ := rfl

/-- One cached record, one worker: `processCachedAlignments` returns with the record
never handed to `processMiniBatch` and its group still queued. -/
theorem replay_returns_before_record_processed (g : Nat) (rest : List Nat) :
    Returned (replayRun 1 (replayStart (g :: rest) 1) readerFirst) ∧
      (replayRun 1 (replayStart (g :: rest) 1) readerFirst).processed.count 0 = 0 ∧
      (replayRun 1 (replayStart (g :: rest) 1) readerFirst).alignmentCache = [(g, 0)] := by
  rw [replayRun_readerFirst]
  exact ⟨fun w hw => List.mem_singleton.1 hw, rfl, rfl⟩

/-- The same round, with the `1 × 1000 × 10` groups `quantifyLibrary` allocates for one
thread: once all threads are joined, group `0` is not back in `groupCache`; it stays in
the replay queue. -/
theorem replay_round_ends_with_group_outside_pool :
    Returned (replayRun 1 (replayStart (List.range (1 * 1000 * 10)) 1) readerFirst) ∧
      (replayRun 1 (replayStart (List.range (1 * 1000 * 10)) 1) readerFirst).reader = .exited ∧
      (List.range (1 * 1000 * 10)).count 0 = 1 ∧
      (replayRun 1 (replayStart (List.range (1 * 1000 * 10)) 1) readerFirst).structureCache.count
        0 = 0 ∧
      (replayRun 1 (replayStart (List.range (1 * 1000 * 10)) 1) readerFirst).alignmentCache =
        [(0, 0)] := by
  rw [show 1 * 1000 * 10 = 9999 + 1 from rfl, List.range_succ_eq_map, replayRun_readerFirst]
  refine ⟨fun w hw => List.mem_singleton.1 hw, rfl, ?_, ?_, rfl⟩
  · rw [List.count_cons_self, List.count_eq_zero.2 (by simp)]
  · exact List.count_eq_zero.2 (by simp)

/-! ## A round over several libraries -/

/-- `processCachedAlignments` has returned and the reader thread is joined: the
library's callback returns. -/
def Joined (s : ReplayState) : Prop := Returned s ∧ s.reader = .exited

instance (s : ReplayState) : Decidable (Joined s) :=
  inferInstanceAs (Decidable (_ ∧ _))

/-- The next library's callback: a reader with `numRead = 0` and its own cleared
`finishedParsing`, and `numQuantThreads` new workers. The pool and the round's
`alnGroupQueue` carry over; the records read so far move into `recordBase`. -/
def nextLibrary (numQuantThreads : Nat) (s : ReplayState) : ReplayState :=
  { s with finishedParsing := false, numRead := 0, reader := .loop,
           workers := List.replicate numQuantThreads .outer,
           recordBase := s.recordBase + s.numRead }

/-- A replay round: library `k` has `numWritten` records and runs the interleaving
`moves`; the next library starts only once the callback of this one returns. A callback
that never returns (its threads are not joined) makes its library the round's last. -/
def replayLibraries (numQuantThreads : Nat) (s : ReplayState) :
    List (Nat × List Move) → ReplayState
  | [] => s
  | (numWritten, moves) :: libs =>
    if Joined (replayRun numWritten s moves) ∧ libs ≠ [] then
      replayLibraries numQuantThreads (nextLibrary numQuantThreads (replayRun numWritten s moves))
        libs
    else replayRun numWritten s moves

/-- Every library's callback returned. -/
def AllJoined (numQuantThreads : Nat) : ReplayState → List (Nat × List Move) → Prop
  | _, [] => True
  | s, (numWritten, moves) :: libs =>
    Joined (replayRun numWritten s moves) ∧
      AllJoined numQuantThreads (nextLibrary numQuantThreads (replayRun numWritten s moves)) libs

instance allJoinedDecidable (numQuantThreads : Nat) :
    ∀ s libs, Decidable (AllJoined numQuantThreads s libs)
  | _, [] => isTrue trivial
  | s, (numWritten, moves) :: libs =>
    haveI := allJoinedDecidable numQuantThreads
      (nextLibrary numQuantThreads (replayRun numWritten s moves)) libs
    inferInstanceAs (Decidable (_ ∧ _))

/-- Once a library's callback returns, the next library starts in a state of the
invariant, whatever its number of records: the threads that left held nothing. -/
theorem nextLibrary_inv {numWritten : Nat} {pool : List Nat} {s : ReplayState}
    (inv : ReplayInv numWritten pool s) (joined : Joined s) (numQuantThreads next : Nat) :
    ReplayInv next pool (nextLibrary numQuantThreads s) where
  groups g := by
    simpa [allGroups, nextLibrary, joined.2, ReaderPc.groups,
      flatMap_replicate_outer (f := WorkerPc.groups) rfl,
      flatMap_eq_nil_of_returned WorkerPc.groups rfl joined.1] using inv.groups g
  records r := by
    simpa [allRecords, nextLibrary, flatMap_replicate_outer (f := WorkerPc.records) rfl,
      flatMap_eq_nil_of_returned WorkerPc.records rfl joined.1] using inv.records r
  numRead_le := Nat.zero_le _
  loading g h := by cases h
  finished := by simp [nextLibrary]
  readAll h := by cases h
  exitAfterFlag w hw := by
    rw [(List.mem_replicate.1 hw).2]
    intro h
    cases h

section Round

variable {pool : List Nat} (numQuantThreads : Nat)

/-- Every interleaving of every library of a round keeps the invariant. -/
theorem replayLibraries_inv :
    ∀ (libs : List (Nat × List Move)) {s : ReplayState},
      (∀ numWritten, ReplayInv numWritten pool s) →
      ∃ numWritten, ReplayInv numWritten pool (replayLibraries numQuantThreads s libs)
  | [], _, inv => ⟨0, inv 0⟩
  | (numWritten, moves) :: libs, s, inv => by
    have run := replayRun_inv_of moves (inv numWritten)
    simp only [replayLibraries]
    split
    · rename_i next
      exact replayLibraries_inv libs (nextLibrary_inv run next.1 numQuantThreads)
    · exact ⟨numWritten, run⟩

theorem replayLibraries_workers_length :
    ∀ (libs : List (Nat × List Move)) {s : ReplayState},
      s.workers.length = numQuantThreads →
      (replayLibraries numQuantThreads s libs).workers.length = numQuantThreads
  | [], _, h => h
  | (numWritten, moves) :: libs, s, h => by
    simp only [replayLibraries]
    split
    · exact replayLibraries_workers_length libs (List.length_replicate _ _)
    · exact (replayRun_frame numWritten moves s).1.trans h

/-- When every library's callback returns, the round ends with the last one's threads
joined, every library's records read. -/
theorem replayLibraries_allJoined :
    ∀ (libs : List (Nat × List Move)) {s : ReplayState}, libs ≠ [] →
      (∀ numWritten, ReplayInv numWritten pool s) → AllJoined numQuantThreads s libs →
      ∃ numWritten, ReplayInv numWritten pool (replayLibraries numQuantThreads s libs) ∧
        Joined (replayLibraries numQuantThreads s libs) ∧
        (replayLibraries numQuantThreads s libs).recordBase + numWritten =
          s.recordBase + (libs.map Prod.fst).sum
  | [], _, nonempty, _, _ => absurd rfl nonempty
  | (numWritten, moves) :: libs, s, _, inv, ⟨joined, rest⟩ => by
    have run := replayRun_inv_of moves (inv numWritten)
    have base := (replayRun_frame numWritten moves s).2.1
    cases libs with
    | nil =>
      rw [replayLibraries, if_neg fun h => h.2 rfl]
      exact ⟨numWritten, run, joined, by simp [base]⟩
    | cons lib libs =>
      rw [replayLibraries, if_pos ⟨joined, List.cons_ne_nil _ _⟩]
      obtain ⟨last, inv', joined', total⟩ := replayLibraries_allJoined (lib :: libs)
        (List.cons_ne_nil _ _) (nextLibrary_inv run joined numQuantThreads) rest
      have started : (nextLibrary numQuantThreads (replayRun numWritten s moves)).recordBase =
          s.recordBase + numWritten := by
        simp only [nextLibrary, base, run.readAll joined.2]
      refine ⟨last, inv', joined', ?_⟩
      rw [total, started]
      simp only [List.map_cons, List.sum_cons]
      omega

end Round

/-- On every interleaving of every library of a replay round, no record reaches
`processMiniBatch` twice and the pool never holds a group more often than
`quantifyLibrary` allocated it. -/
theorem replayLibraries_at_most_once (pool : List Nat) (numQuantThreads : Nat)
    (libs : List (Nat × List Move)) :
    (∀ r, (replayLibraries numQuantThreads (replayStart pool numQuantThreads) libs).processed.count
        r ≤ 1) ∧
      ∀ g, (replayLibraries numQuantThreads (replayStart pool numQuantThreads)
        libs).structureCache.count g ≤ pool.count g := by
  obtain ⟨_, inv⟩ := replayLibraries_inv numQuantThreads libs
    fun numWritten => replayStart_inv numWritten pool numQuantThreads
  exact inv.at_most_once

/-- With at least one worker per library, when every library's callback returns and the
round ends with `alnGroupQueue` empty, every record of every library reached
`processMiniBatch` exactly once and the pool holds every group exactly as often as it
was allocated. -/
theorem replayLibraries_complete (pool : List Nat) (numQuantThreads : Nat)
    (libs : List (Nat × List Move)) (threads : 0 < numQuantThreads)
    (joined : AllJoined numQuantThreads (replayStart pool numQuantThreads) libs)
    (drained :
      (replayLibraries numQuantThreads (replayStart pool numQuantThreads) libs).alignmentCache =
        []) :
    (∀ r, (replayLibraries numQuantThreads (replayStart pool numQuantThreads) libs).processed.count
        r = if r < (libs.map Prod.fst).sum then 1 else 0) ∧
      ∀ g, (replayLibraries numQuantThreads (replayStart pool numQuantThreads)
        libs).structureCache.count g = pool.count g := by
  rcases eq_or_ne libs [] with rfl | nonempty
  · simp [replayLibraries, replayStart]
  obtain ⟨numWritten, inv, done, total⟩ := replayLibraries_allJoined numQuantThreads libs nonempty
    (fun numWritten => replayStart_inv numWritten pool numQuantThreads) joined
  have workers := replayLibraries_workers_length numQuantThreads libs
    (s := replayStart pool numQuantThreads) (List.length_replicate _ _)
  have complete := inv.complete_of_drained
    (List.ne_nil_of_length_pos (by rw [workers]; exact threads)) done.1 drained
  rw [total] at complete
  simpa [replayStart] using complete

/-- Two libraries, one worker each. The first library's round is `readerFirst`: its worker
leaves with record `0` queued. The second library has no records; its worker takes
record `0` from the round's queue before its reader sets the flag. -/
theorem replayLibraries_leftover_drained :
    let libs : List (Nat × List Move) := [(1, readerFirst), (0, [.worker 0 1, .worker 0 1,
      .worker 0 1, .reader, .worker 0 1, .worker 0 1, .worker 0 1, .worker 0 1])]
    (0 < 1 ∧ AllJoined 1 (replayStart [0] 1) libs ∧
      (replayLibraries 1 (replayStart [0] 1) libs).alignmentCache = []) ∧
      (∀ r, (replayLibraries 1 (replayStart [0] 1) libs).processed.count r =
        if r < (libs.map Prod.fst).sum then 1 else 0) ∧
      ∀ g, (replayLibraries 1 (replayStart [0] 1) libs).structureCache.count g = [0].count g :=
  ⟨⟨by decide, by decide, by decide⟩, replayLibraries_complete [0] 1 _ (by decide) (by decide)
    (by decide)⟩

end SalmonQuant.Replay
