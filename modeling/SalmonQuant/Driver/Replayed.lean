import SalmonQuant.Cache.Archive
import SalmonQuant.EM.Invariance

/-!
# What a replay round hands `processMiniBatch`

After the first round the EM workers no longer map reads: `readAlignmentCache` loads
the cached records into groups taken from the pool, and `processCachedAlignmentsHelper`
passes batches of them to `processMiniBatch`. A loaded alignment keeps the `logProb` of
the pooled element it was loaded into (`SMEMAlignment.reloaded`), and a loaded group
gets default elements when it grows. `Cache/Replay.lean` shows which records reach the
EM; this module shows what a call does with them.

The E-step never reads the `logProb`s a batch carries in (`EM/Invariance.lean`). So
every call a replay worker makes, on any selection of the loaded groups, is the call on
the written groups at the same positions (`processMiniBatch_replayed`), whatever the
pool held before.
-/

namespace SalmonQuant.Driver

open SalmonQuant.EM

variable {K F C G : Type}

theorem sameRecords_filterMap {l l' : List (AlignmentGroup K)} (h : SameRecords l l')
    (ps : List Nat) :
    SameRecords (ps.filterMap fun i => l[i]?) (ps.filterMap fun i => l'[i]?) := by
  unfold SameRecords at h ⊢
  simp only [List.map_filterMap]
  congr 1
  funext i
  rw [← List.getElem?_map, h, List.getElem?_map]

variable [CanonicallyLinearOrderedSemifield K]

/-- Reading back a cache file of `written` groups into pooled groups with any earlier
contents succeeds, and every `processMiniBatch` call on a selection of the loaded groups
(a replay worker's batch, the positions `ps`) gives the processed batch and the state
that the call on the written groups at those positions gives. -/
theorem processMiniBatch_replayed (formatID : LibraryFormat → UInt8)
    (formatFromID : UInt8 → LibraryFormat) (inverse : ∀ f, formatFromID (formatID f) = f)
    (written : List (AlignmentGroup K)) (fits : ∀ g ∈ written, g.alignments.length < 2 ^ 64)
    (pooled : Nat → AlignmentGroup K) (env : Collaborators K F C G) (opts : SalmonOpts) :
    ∃ read, readAlignmentCache formatFromID pooled written.length
        (writeAlignmentCacheToFile formatID written) = some read ∧
      ∀ (ps : List Nat) (lfm : K) (initialRound : Bool) (s : EMState K F C G),
        processMiniBatch env opts lfm initialRound (ps.filterMap fun i => read[i]?) s =
          processMiniBatch env opts lfm initialRound (ps.filterMap fun i => written[i]?) s := by
  have trip := readRecords_write formatID formatFromID inverse written fits pooled 0 []
  rw [List.append_nil] at trip
  obtain ⟨read, hread, recs⟩ := Option.map_eq_some'.1 trip
  exact ⟨read, hread, fun ps lfm initialRound s =>
    processMiniBatch_record env opts lfm initialRound (sameRecords_filterMap recs.symm ps) s⟩

/-- One group of one alignment, loaded into a pooled group that held two alignments with
other `logProb`s. -/
theorem processMiniBatch_replayed_one_group :
    let written : List (AlignmentGroup ℚ≥0) := [⟨[⟨7, ⟨.SINGLE_END, .NONE, .U⟩, 42, 250, 0⟩]⟩]
    let pooled : Nat → AlignmentGroup ℚ≥0 := fun _ =>
      ⟨[⟨3, ⟨.PAIRED_END, .TOWARD, .U⟩, 1, 100, 5⟩, ⟨4, ⟨.PAIRED_END, .TOWARD, .U⟩, 1, 100, 7⟩]⟩
    let env : Collaborators ℚ≥0 Unit Unit Unit :=
      ⟨fun _ _ => 1, fun f _ _ => f, fun c _ _ _ _ => c, fun c _ => c, fun g => (0, g),
        LibraryFormat.toByte⟩
    (∀ f, LibraryFormat.ofByte f.toByte = f) ∧ (∀ g ∈ written, g.alignments.length < 2 ^ 64) ∧
      ∃ read, readAlignmentCache LibraryFormat.ofByte pooled written.length
          (writeAlignmentCacheToFile LibraryFormat.toByte written) = some read ∧
        ∀ (ps : List Nat) (lfm : ℚ≥0) (initialRound : Bool) (s : EMState ℚ≥0 Unit Unit Unit),
          processMiniBatch env ⟨true, false, false, false⟩ lfm initialRound
              (ps.filterMap fun i => read[i]?) s =
            processMiniBatch env ⟨true, false, false, false⟩ lfm initialRound
              (ps.filterMap fun i => written[i]?) s := by
  intro written pooled env
  have fits : ∀ g ∈ written, g.alignments.length < 2 ^ 64 := by simp [written]
  exact ⟨LibraryFormat.ofByte_toByte, fits, processMiniBatch_replayed LibraryFormat.toByte
    LibraryFormat.ofByte LibraryFormat.ofByte_toByte written fits pooled env _⟩

end SalmonQuant.Driver
