import Mathlib.Order.Basic

/-!
# Alignments, alignment groups, library formats and options

The records the quantification threads hand to each other. An `SMEMAlignment`
(`SalmonQuantify.cpp:218`) is one fragment's mapping to one transcript; an
`AlignmentGroup` (`AlignmentGroup.hpp:18`) holds all of one fragment's mappings and
is what the pool, the mapping cache and `processMiniBatch` move around.

Widths follow the source: `TranscriptID` and `fragLength_` are `uint32_t`, the
format is serialized through a `uint8_t` id, and `score_` is a `double`, kept here as
its 64-bit pattern since only the cache reads it. `logProb` is the one field the EM
writes; its type `K` is left open so that `EM/MiniBatch.lean` can read it exactly.
`kmerCount` and the group's `read_` pointer are never read by the modelled code and
are left out.

`LibraryFormat.hpp`, `ReadLibrary.hpp` and `SalmonOpts.hpp` are not in this snapshot:
the enumerations are the values `SalmonQuantify.cpp` names, `formatID` /
`formatFromID` stay parameters of the functions that call them, and `ReadLibrary` and
`SalmonOpts` keep only the members the modelled functions use.
-/

namespace SalmonQuant

/-- `ReadType`. -/
inductive ReadType
  | SINGLE_END
  | PAIRED_END
  deriving DecidableEq, Repr

/-- `ReadOrientation`. -/
inductive ReadOrientation
  | SAME
  | AWAY
  | TOWARD
  | NONE
  deriving DecidableEq, Repr

/-- `ReadStrandedness`. -/
inductive ReadStrandedness
  | S
  | A
  | AS
  | SA
  | U
  deriving DecidableEq, Repr

/-- `LibraryFormat`: the three fields `logAlignFormatProb` compares. -/
structure LibraryFormat where
  type : ReadType
  orientation : ReadOrientation
  strandedness : ReadStrandedness
  deriving DecidableEq, Repr

/-- `using TranscriptID = uint32_t`. -/
abbrev TranscriptID := UInt32

/-- `constexpr uint32_t miniBatchSize{1000}`. -/
def miniBatchSize : Nat := 1000

/-- `SMEMAlignment`, with `logProb` in `K`. -/
structure SMEMAlignment (K : Type) where
  transcriptID : TranscriptID
  format : LibraryFormat
  score : UInt64
  fragLength : UInt32
  logProb : K

/-- `SMEMAlignment()`: what `std::vector::resize` appends. `LOG_0` is `0` in the
exact reading of `EM/MiniBatch.lean`. -/
def SMEMAlignment.default {K : Type} [Zero K] (formatFromID : UInt8 → LibraryFormat) :
    SMEMAlignment K :=
  { transcriptID := 0xFFFFFFFF, format := formatFromID 0, score := 0, fragLength := 0,
    logProb := 0 }

/-- The four fields `SMEMAlignment::save` writes. -/
def SMEMAlignment.record {K : Type} (a : SMEMAlignment K) :
    TranscriptID × LibraryFormat × UInt64 × UInt32 :=
  (a.transcriptID, a.format, a.score, a.fragLength)

/-- `AlignmentGroup<SMEMAlignment>`. -/
structure AlignmentGroup (K : Type) where
  alignments : List (SMEMAlignment K)

/-- The members of `SalmonOpts` the modelled functions read. -/
structure SalmonOpts where
  useReadCompat : Bool
  useFragLenDist : Bool
  disableMappingCache : Bool
  splitSpanningSeeds : Bool
  deriving DecidableEq, Repr

/-- The members of `ReadLibrary` the modelled functions use: the expected `format()`,
the format tally `updateLibTypeCounts` adds to, `isRegularFile()`, and how many
fragments one pass of its parser yields. -/
structure ReadLibrary where
  format : LibraryFormat
  libTypeCounts : Nat → Nat
  isRegularFile : Bool
  numFragments : Nat

/-- Modelled from the spec ("credit +1 to the library-type counter for each alignment's
format"): `ReadLibrary::updateLibTypeCounts` adds a batch's tally to the library's. -/
def ReadLibrary.updateLibTypeCounts (rl : ReadLibrary) (counts : Nat → Nat) : ReadLibrary :=
  { rl with libTypeCounts := fun i => rl.libTypeCounts i + counts i }

end SalmonQuant
