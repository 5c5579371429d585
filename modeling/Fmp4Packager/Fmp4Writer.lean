import Fmp4Packager.BoxBuilder
import Fmp4Packager.Libav

/-!
# The media segment writer

`buildSegment` emits styp, one sidx per track, moof and mdat, and back-patches
the data offsets and referenced sizes once the lengths are known.  Each
`write…` function is the source function of that name, with the builder passed
along explicitly; the offsets the source pushes into vectors are returned.
-/

namespace Fmp4Packager

open IsoBox

/-- One coded sample with its timing.  `data` is the caller's payload
pointer. -/
structure Sample where
  data : Option (List UInt8)
  size : UInt32
  dts : Int64
  duration : UInt32
  ctsOffset : Int32
  isKeyframe : Bool
  deriving DecidableEq

/-- The payload pointer of a sample is valid for exactly `size` bytes. -/
def Sample.Holds (s : Sample) : Prop :=
  ∃ data, s.data = some data ∧ data.length = s.size.toNat

namespace Fmp4Writer

structure Track where
  trackId : UInt32
  timescale : AVRational
  codecpar : Option AVCodecParameters
  language : Option (List UInt8) := none
  initialPadding : Int64 := 0
  deriving DecidableEq

/-- What `BuildSegment` reads for one index `i`: `tracks[i]`,
`samples_per_track[i]` and `tfdt_per_track[i]`. -/
abbrev TrackInput := Track × List Sample × Int64

def writeStyp (b : BoxBuilder) : BoxBuilder :=
  let (b, start) := b.beginBox ⟨'s', 't', 'y', 'p'⟩
  let b := b.type ⟨'m', 's', 'd', 'h'⟩
  let b := b.u32 0
  let b := b.type ⟨'m', 's', 'd', 'h'⟩
  let b := b.type ⟨'m', 's', 'i', 'x'⟩
  b.endBox start

/-- Returns the offset of `referenced_size`, to be patched by the caller. -/
def writeSidx (b : BoxBuilder) (referenceId timescale : UInt32)
    (earliestPresentationTime : Int64) (subsegmentDuration : UInt32) : BoxBuilder × ℕ :=
  let (b, start) := b.beginFullBox ⟨'s', 'i', 'd', 'x'⟩ 1 0
  let b := b.u32 referenceId
  let b := b.u32 timescale
  let b := b.s64 earliestPresentationTime
  let b := b.u64 0
  let b := b.u16 0
  let b := b.u16 1
  let refSizeOffset := b.pos
  let b := b.u32 0
  let b := b.u32 subsegmentDuration
  let b := b.u32 0x90000000
  (b.endBox start, refSizeOffset)

def writeMfhd (b : BoxBuilder) (sequenceNumber : UInt32) : BoxBuilder :=
  let (b, start) := b.beginFullBox ⟨'m', 'f', 'h', 'd'⟩ 0 0
  let b := b.u32 sequenceNumber
  b.endBox start

def writeTfhd (b : BoxBuilder) (trackId : UInt32) : BoxBuilder :=
  let (b, start) := b.beginFullBox ⟨'t', 'f', 'h', 'd'⟩ 0 0x020000
  let b := b.u32 trackId
  b.endBox start

def writeTfdt (b : BoxBuilder) (baseMediaDecodeTime : Int64) : BoxBuilder :=
  let (b, start) := b.beginFullBox ⟨'t', 'f', 'd', 't'⟩ 1 0
  let b := b.s64 baseMediaDecodeTime
  b.endBox start

def kTrunFlags : UInt32 := 0x000001 ||| 0x000004 ||| 0x000100 ||| 0x000200 ||| 0x000800

def kSampleFlagsKey : UInt32 := 0x02000000

def writeTrunEntry (b : BoxBuilder) (s : Sample) : BoxBuilder :=
  ((b.u32 s.duration).u32 s.size).s32 s.ctsOffset

/-- Returns the offset of `data_offset`, to be patched by the caller. -/
def writeTrun (b : BoxBuilder) (samples : List Sample) : BoxBuilder × ℕ :=
  let (b, start) := b.beginFullBox ⟨'t', 'r', 'u', 'n'⟩ 1 kTrunFlags
  let b := b.u32 (UInt32.ofNat samples.length)
  let dataOffsetPos := b.pos
  let b := b.s32 0
  let b := b.u32 kSampleFlagsKey
  let b := samples.foldl writeTrunEntry b
  (b.endBox start, dataOffsetPos)

/-- First sample's presentation time, or the tfdt of an empty track. -/
def earliestPresentationTime (samples : List Sample) (tfdt : Int64) : Int64 :=
  match samples with
  | [] => tfdt
  | s :: _ => s.dts + s.ctsOffset.toInt64

/-- The sum of the sample durations, narrowed to 32 bits. -/
def subsegmentDuration (samples : List Sample) : UInt32 :=
  UInt32.ofNat (samples.map fun s ↦ s.duration.toNat).sum

/-- One round of the sidx loop. -/
def writeTrackSidx (b : BoxBuilder) (input : TrackInput) : BoxBuilder × ℕ :=
  writeSidx b input.1.trackId input.1.timescale.denU32
    (earliestPresentationTime input.2.1 input.2.2) (subsegmentDuration input.2.1)

/-- The sidx loop; the offsets are those pushed to `sidx_ref_size_offsets`. -/
def writeSidxs (b : BoxBuilder) : List TrackInput → BoxBuilder × List ℕ
  | [] => (b, [])
  | input :: rest =>
      let (b, off) := writeTrackSidx b input
      let (b, offs) := writeSidxs b rest
      (b, off :: offs)

/-- One round of the traf loop, with the position it pushes to
`data_offset_positions`: `0` for a track without samples. -/
def writeTraf (b : BoxBuilder) (input : TrackInput) : BoxBuilder × ℕ :=
  let (b, trafStart) := b.beginBox ⟨'t', 'r', 'a', 'f'⟩
  let b := writeTfhd b input.1.trackId
  let b := writeTfdt b input.2.2
  let (b, trunDataOffPos) :=
    if input.2.1.isEmpty then (b, 0) else writeTrun b input.2.1
  (b.endBox trafStart, trunDataOffPos)

def writeTrafs (b : BoxBuilder) : List TrackInput → BoxBuilder × List ℕ
  | [] => (b, [])
  | input :: rest =>
      let (b, trunDataOffPos) := writeTraf b input
      let (b, positions) := writeTrafs b rest
      (b, trunDataOffPos :: positions)

def writeSampleData (b : BoxBuilder) (s : Sample) : BoxBuilder :=
  if 0 < s.size ∧ s.data.isSome then b.bytes s.data s.size.toNat else b

/-- The mdat loop; the offsets are those pushed to
`track_payload_offsets_in_moof`. -/
def writePayloads (b : BoxBuilder) (moofStart : ℕ) :
    List (List Sample) → BoxBuilder × List ℕ
  | [] => (b, [])
  | samples :: rest =>
      let trackPayloadStart := b.pos
      let b := samples.foldl writeSampleData b
      let (b, offs) := writePayloads b moofStart rest
      (b, (trackPayloadStart - moofStart) :: offs)

def patchDataOffset (b : BoxBuilder) (p : ℕ × ℕ) : BoxBuilder :=
  if p.1 = 0 then b else b.patch32 p.1 (UInt32.ofNat p.2)

def buildSegment (sequenceNumber : UInt32) (tracks : List Track)
    (samplesPerTrack : List (List Sample)) (tfdtPerTrack : List Int64) :
    Except String (List UInt8) :=
  if tracks.length ≠ samplesPerTrack.length ∨ tracks.length ≠ tfdtPerTrack.length then
    .error "Fmp4Writer::BuildSegment: track/sample/tfdt size mismatch"
  else
    let inputs : List TrackInput := tracks.zip (samplesPerTrack.zip tfdtPerTrack)
    let b := writeStyp {}
    let (b, sidxRefSizeOffsets) := writeSidxs b inputs
    let afterSidx := b.pos
    let (b, moofStart) := b.beginBox ⟨'m', 'o', 'o', 'f'⟩
    let b := writeMfhd b sequenceNumber
    let (b, dataOffsetPositions) := writeTrafs b inputs
    let b := b.endBox moofStart
    let (b, mdatStart) := b.beginBox ⟨'m', 'd', 'a', 't'⟩
    let (b, trackPayloadOffsetsInMoof) := writePayloads b moofStart samplesPerTrack
    let b := b.endBox mdatStart
    let totalSegmentSize := b.pos
    let b := (dataOffsetPositions.zip trackPayloadOffsetsInMoof).foldl patchDataOffset b
    let referencedSize := UInt32.ofNat (totalSegmentSize - afterSidx)
    let b := sidxRefSizeOffsets.foldl
      (fun b off ↦ b.patch32 off (referencedSize &&& 0x7FFFFFFF)) b
    .ok b.buf

end Fmp4Writer

end Fmp4Packager
