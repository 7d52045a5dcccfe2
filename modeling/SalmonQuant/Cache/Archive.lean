import SalmonQuant.Basic
import Mathlib

/-!
# The mapping cache's byte layout

Round 0 writes every alignment group it maps to `alnCache_<libIdx>.bin` through a
`cereal::BinaryOutputArchive`; later rounds read them back with a
`cereal::BinaryInputArchive` into groups taken from the pool.

* `SMEMAlignment::save` (`SalmonQuantify.cpp:241`) writes `transcriptID_` (4 bytes),
  `format_.formatID()` (1 byte), `score_` (the 8 bytes of the `double`) and
  `fragLength_` (4 bytes); `load` reads the same four fields back into the object
  in place, leaving `logProb` as it was, and rebuilds the format with `formatFromID`.
* `AlignmentGroup::serialize` (`AlignmentGroup.hpp:30`) archives the `std::vector`:
  cereal writes its size as a `uint64_t` size tag, then each element. Loading reads
  the size, calls `vector.resize(size)` (dropping extra elements, appending
  default-constructed ones) and loads every element in place.
* `writeAlignmentCacheToFile` (`SalmonQuantify.cpp:1720`) writes groups in the order
  it dequeues them; `readAlignmentCache` (`SalmonQuantify.cpp:1757`) loads
  `numWritten` records, each into the next group it takes from `structureCache`.

The binary archives copy object representations, native byte order; both ends run on
one host, taken little-endian. A stream that ends early makes cereal throw, which is
`none`.
-/

namespace SalmonQuant

variable {K : Type}

/-- The `w` bytes of `n`, least significant first. -/
def toBytesLE : Nat → Nat → List UInt8
  | 0, _ => []
  | w + 1, n => UInt8.ofNat (n % 256) :: toBytesLE w (n / 256)

/-- `loadBinary` of a `w`-byte value; `none` when the stream is too short. -/
def fromBytesLE : Nat → List UInt8 → Option (Nat × List UInt8)
  | 0, bs => some (0, bs)
  | _ + 1, [] => none
  | w + 1, b :: bs => (fromBytesLE w bs).map fun r => (b.toNat + 256 * r.1, r.2)

theorem fromBytesLE_toBytesLE (w n : Nat) (rest : List UInt8) :
    fromBytesLE w (toBytesLE w n ++ rest) = some (n % 256 ^ w, rest) := by
  induction w generalizing n with
  | zero => simp [toBytesLE, fromBytesLE, Nat.mod_one]
  | succ w ih =>
    have low : (UInt8.ofNat (n % 256)).toNat = n % 256 :=
      UInt8.toNat_ofNat_of_lt (Nat.mod_lt _ (by decide))
    rw [toBytesLE, List.cons_append, fromBytesLE, ih, Option.map_some', low, Nat.pow_succ',
      Nat.mod_mul]

/-- `SMEMAlignment::save`: `archive(transcriptID_, format_.formatID(), score_, fragLength_)`. -/
def SMEMAlignment.save (formatID : LibraryFormat → UInt8) (a : SMEMAlignment K) : List UInt8 :=
  toBytesLE 4 a.transcriptID.toNat ++ toBytesLE 1 (formatID a.format).toNat ++
    toBytesLE 8 a.score.toNat ++ toBytesLE 4 a.fragLength.toNat

/-- `SMEMAlignment::load`, into the alignment `a` already in the vector. -/
def SMEMAlignment.load (formatFromID : UInt8 → LibraryFormat) (a : SMEMAlignment K)
    (bs : List UInt8) : Option (SMEMAlignment K × List UInt8) := do
  let (tid, bs) ← fromBytesLE 4 bs
  let (fid, bs) ← fromBytesLE 1 bs
  let (score, bs) ← fromBytesLE 8 bs
  let (fragLength, bs) ← fromBytesLE 4 bs
  pure ({ a with transcriptID := UInt32.ofNat tid, format := formatFromID (UInt8.ofNat fid),
                 score := UInt64.ofNat score, fragLength := UInt32.ofNat fragLength }, bs)

/-- `AlignmentGroup::serialize` on an output archive: the size tag, then each element. -/
def AlignmentGroup.save (formatID : LibraryFormat → UInt8) (g : AlignmentGroup K) :
    List UInt8 :=
  toBytesLE 8 g.alignments.length ++ g.alignments.flatMap (SMEMAlignment.save formatID)

/-- `std::vector::resize(n)` with `d` as the appended element. -/
def resize {α : Type} (d : α) (as : List α) (n : Nat) : List α :=
  as.take n ++ List.replicate (n - as.length) d

/-- cereal's element loop: each element of the resized vector loaded in place. -/
def loadEach (formatFromID : UInt8 → LibraryFormat) :
    List (SMEMAlignment K) → List UInt8 → Option (List (SMEMAlignment K) × List UInt8)
  | [], bs => some ([], bs)
  | a :: as, bs => do
    let (a, bs) ← a.load formatFromID bs
    let (as, bs) ← loadEach formatFromID as bs
    pure (a :: as, bs)

/-- `AlignmentGroup::serialize` on an input archive, into the pooled group `g`. -/
def AlignmentGroup.load [Zero K] (formatFromID : UInt8 → LibraryFormat) (g : AlignmentGroup K)
    (bs : List UInt8) : Option (AlignmentGroup K × List UInt8) := do
  let (n, bs) ← fromBytesLE 8 bs
  let (as, bs) ← loadEach formatFromID
    (resize (SMEMAlignment.default formatFromID) g.alignments n) bs
  pure (⟨as⟩, bs)

/-- The bytes `writeAlignmentCacheToFile` leaves in the file: its groups in the order it
dequeued them. -/
def writeAlignmentCacheToFile (formatID : LibraryFormat → UInt8) (written : List (AlignmentGroup K)) :
    List UInt8 :=
  written.flatMap (AlignmentGroup.save formatID)

/-- `readAlignmentCache`'s loop from its `numRead`-th record: the record goes into the
group the reader takes next from `structureCache`, whose earlier contents are
`pooled numRead`. The result is what it enqueues, in order. -/
def readRecords [Zero K] (formatFromID : UInt8 → LibraryFormat) (pooled : Nat → AlignmentGroup K) :
    Nat → Nat → List UInt8 → Option (List (AlignmentGroup K))
  | _, 0, _ => some []
  | numRead, n + 1, bs => do
    let (g, bs) ← (pooled numRead).load formatFromID bs
    let gs ← readRecords formatFromID pooled (numRead + 1) n bs
    pure (g :: gs)

/-- `readAlignmentCache(…, numWritten, …)`. -/
def readAlignmentCache [Zero K] (formatFromID : UInt8 → LibraryFormat)
    (pooled : Nat → AlignmentGroup K) (numWritten : Nat) (bs : List UInt8) :
    Option (List (AlignmentGroup K)) :=
  readRecords formatFromID pooled 0 numWritten bs

/-- Modelled from the spec: `LibraryFormat::formatID` (`LibraryFormat.hpp` is not in
this snapshot). The spec says only that the id is a one-byte bijection; this is one,
the read type in bit 0, the orientation in bits 1-2, the strandedness above. -/
def LibraryFormat.toByte (f : LibraryFormat) : UInt8 :=
  let t : Nat := match f.type with | .SINGLE_END => 0 | .PAIRED_END => 1
  let o : Nat := match f.orientation with | .SAME => 0 | .AWAY => 1 | .TOWARD => 2 | .NONE => 3
  let s : Nat := match f.strandedness with | .S => 0 | .A => 1 | .AS => 2 | .SA => 3 | .U => 4
  UInt8.ofNat (t + 2 * o + 8 * s)

/-- Modelled from the spec: `LibraryFormat::formatFromID`, the inverse of `toByte`. -/
def LibraryFormat.ofByte (b : UInt8) : LibraryFormat :=
  ⟨match b.toNat % 2 with | 0 => .SINGLE_END | _ => .PAIRED_END,
   match b.toNat / 2 % 4 with | 0 => .SAME | 1 => .AWAY | 2 => .TOWARD | _ => .NONE,
   match b.toNat / 8 with | 0 => .S | 1 => .A | 2 => .AS | 3 => .SA | _ => .U⟩

theorem LibraryFormat.ofByte_toByte (f : LibraryFormat) : LibraryFormat.ofByte f.toByte = f := by
  obtain ⟨t, o, s⟩ := f
  cases t <;> cases o <;> cases s <;> rfl

/-! ## Round trip -/

section RoundTrip

variable (formatID : LibraryFormat → UInt8) (formatFromID : UInt8 → LibraryFormat)
  (inverse : ∀ f, formatFromID (formatID f) = f)

theorem UInt32.ofNat_toNat_mod (x : UInt32) : UInt32.ofNat (x.toNat % 256 ^ 4) = x :=
  have lt : x.toNat < 256 ^ 4 := x.toNat_lt_size
  UInt32.toNat.inj (by rw [Nat.mod_eq_of_lt lt]; exact UInt32.toNat_ofNat_of_lt lt)

theorem UInt64.ofNat_toNat_mod (x : UInt64) : UInt64.ofNat (x.toNat % 256 ^ 8) = x :=
  have lt : x.toNat < 256 ^ 8 := x.toNat_lt_size
  UInt64.toNat.inj (by rw [Nat.mod_eq_of_lt lt]; exact UInt64.toNat_ofNat_of_lt lt)

theorem UInt8.ofNat_toNat_mod (x : UInt8) : UInt8.ofNat (x.toNat % 256 ^ 1) = x :=
  have lt : x.toNat < 256 ^ 1 := x.toNat_lt_size
  UInt8.toNat.inj (by rw [Nat.mod_eq_of_lt lt]; exact UInt8.toNat_ofNat_of_lt lt)

/-- A written alignment loaded into `old`: the four saved fields, `old`'s `logProb`. -/
def SMEMAlignment.reloaded (a old : SMEMAlignment K) : SMEMAlignment K :=
  { a with logProb := old.logProb }

@[simp] theorem SMEMAlignment.record_reloaded (a old : SMEMAlignment K) :
    (a.reloaded old).record = a.record := rfl

theorem map_record_zipWith_reloaded (as olds : List (SMEMAlignment K))
    (same : olds.length = as.length) :
    (List.zipWith SMEMAlignment.reloaded as olds).map SMEMAlignment.record =
      as.map SMEMAlignment.record := by
  induction as generalizing olds with
  | nil => rfl
  | cons a as ih =>
    cases olds with
    | nil => cases same
    | cons old olds => simp [ih olds (by simpa using same)]

include inverse in
theorem SMEMAlignment.load_save (a old : SMEMAlignment K) (rest : List UInt8) :
    old.load formatFromID (a.save formatID ++ rest) = some (a.reloaded old, rest) := by
  simp only [SMEMAlignment.load, SMEMAlignment.save, List.append_assoc, fromBytesLE_toBytesLE,
    Option.bind_eq_bind, Option.some_bind, Option.pure_def, UInt32.ofNat_toNat_mod,
    UInt64.ofNat_toNat_mod, UInt8.ofNat_toNat_mod, inverse]
  rfl

include inverse in
theorem loadEach_save (as olds : List (SMEMAlignment K)) (same : olds.length = as.length)
    (rest : List UInt8) :
    loadEach formatFromID olds (as.flatMap (SMEMAlignment.save formatID) ++ rest) =
      some (List.zipWith SMEMAlignment.reloaded as olds, rest) := by
  induction as generalizing olds with
  | nil =>
    cases olds with
    | nil => rfl
    | cons => cases same
  | cons a as ih =>
    cases olds with
    | nil => cases same
    | cons old olds =>
      simp only [List.flatMap_cons, List.append_assoc, loadEach,
        SMEMAlignment.load_save formatID formatFromID inverse, ih olds (by simpa using same),
        Option.bind_eq_bind, Option.some_bind, Option.pure_def, List.zipWith_cons_cons]

theorem length_resize {α : Type} (d : α) (as : List α) (n : Nat) :
    (resize d as n).length = n := by
  simp only [resize, List.length_append, List.length_take, List.length_replicate]
  omega

include inverse in
/-- One record: whatever the pooled group `old` held before, it ends up with exactly the
written alignments, each keeping the `logProb` of the element it was loaded into. The
size tag is a `uint64_t`, which every `std::vector` size fits. -/
theorem AlignmentGroup.load_save [Zero K] (g old : AlignmentGroup K)
    (fits : g.alignments.length < 2 ^ 64) (rest : List UInt8) :
    old.load formatFromID (g.save formatID ++ rest) =
      some (⟨List.zipWith SMEMAlignment.reloaded g.alignments
        (resize (SMEMAlignment.default formatFromID) old.alignments g.alignments.length)⟩, rest) := by
  have size : g.alignments.length % 256 ^ 8 = g.alignments.length := Nat.mod_eq_of_lt fits
  simp only [AlignmentGroup.load, AlignmentGroup.save, List.append_assoc, fromBytesLE_toBytesLE,
    size, Option.bind_eq_bind, Option.some_bind, Option.pure_def,
    loadEach_save formatID formatFromID inverse _ _ (length_resize _ _ _)]

include inverse in
theorem readRecords_write [Zero K] (written : List (AlignmentGroup K))
    (fits : ∀ g ∈ written, g.alignments.length < 2 ^ 64) (pooled : Nat → AlignmentGroup K)
    (numRead : Nat) (rest : List UInt8) :
    (readRecords formatFromID pooled numRead written.length
        (writeAlignmentCacheToFile formatID written ++ rest)).map
        (List.map fun g => g.alignments.map SMEMAlignment.record) =
      some (written.map fun g => g.alignments.map SMEMAlignment.record) := by
  induction written generalizing numRead with
  | nil => rfl
  | cons g gs ih =>
    obtain ⟨r, hr, hrec⟩ := Option.map_eq_some'.1
      (ih (fun g' hg' => fits g' (List.mem_cons_of_mem _ hg')) (numRead + 1))
    simp only [writeAlignmentCacheToFile, List.flatMap_cons, List.append_assoc,
      List.length_cons, readRecords] at hr ⊢
    simp only [AlignmentGroup.load_save formatID formatFromID inverse g _
        (fits g (List.mem_cons_self _ _)), Option.bind_eq_bind, Option.some_bind, hr,
      Option.pure_def, Option.map_some', List.map_cons, hrec,
      map_record_zipWith_reloaded _ _ (length_resize _ _ _)]

include inverse in
/-- The cache round trip: reading back `numWritten` records of what
`writeAlignmentCacheToFile` wrote, into pooled groups with any earlier contents, gives
the written groups in order, with the same sizes and, alignment by alignment, the same
`transcriptID`, format, `score` bits and `fragLength`. -/
theorem readAlignmentCache_writeAlignmentCacheToFile [Zero K] (written : List (AlignmentGroup K))
    (fits : ∀ g ∈ written, g.alignments.length < 2 ^ 64) (pooled : Nat → AlignmentGroup K) :
    (readAlignmentCache formatFromID pooled written.length
        (writeAlignmentCacheToFile formatID written)).map
        (List.map fun g => g.alignments.map SMEMAlignment.record) =
      some (written.map fun g => g.alignments.map SMEMAlignment.record) := by
  simpa only [List.append_nil] using
    readRecords_write formatID formatFromID inverse written fits pooled 0 []

end RoundTrip

/-- One paired-end alignment, through a pooled group that held nothing. -/
theorem readAlignmentCache_one_alignment :
    (∀ f, LibraryFormat.ofByte f.toByte = f) ∧
      (∀ g ∈ [(⟨[⟨7, ⟨.PAIRED_END, .TOWARD, .U⟩, 42, 250, 0⟩]⟩ : AlignmentGroup Nat)],
        g.alignments.length < 2 ^ 64) ∧
      (readAlignmentCache LibraryFormat.ofByte (fun _ => (⟨[]⟩ : AlignmentGroup Nat))
          [(⟨[⟨7, ⟨.PAIRED_END, .TOWARD, .U⟩, 42, 250, 0⟩]⟩ : AlignmentGroup Nat)].length
          (writeAlignmentCacheToFile LibraryFormat.toByte
            [(⟨[⟨7, ⟨.PAIRED_END, .TOWARD, .U⟩, 42, 250, 0⟩]⟩ : AlignmentGroup Nat)])).map
          (List.map fun g => g.alignments.map SMEMAlignment.record) =
        some ([(⟨[⟨7, ⟨.PAIRED_END, .TOWARD, .U⟩, 42, 250, 0⟩]⟩ : AlignmentGroup Nat)].map
          fun g => g.alignments.map SMEMAlignment.record) :=
  have fits : ∀ g ∈ [(⟨[⟨7, ⟨.PAIRED_END, .TOWARD, .U⟩, 42, 250, 0⟩]⟩ : AlignmentGroup Nat)],
      g.alignments.length < 2 ^ 64 := by simp
  ⟨LibraryFormat.ofByte_toByte, fits,
    readAlignmentCache_writeAlignmentCacheToFile _ _ LibraryFormat.ofByte_toByte _ fits _⟩

end SalmonQuant
