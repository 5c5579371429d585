import Fmp4Packager.EbmlParser
import Fmp4Packager.Keyframes
import Fmp4Packager.Libav

/-!
# The demuxer

`Demuxer` keeps a libav input context open over a file, caches the keyframe times
read from the Cues, and re-opens the context on every seek.  An operation returns
its outcome together with the state it leaves behind, also when it is cut short:
by an exception, or by an access that has no defined meaning in the source.
-/

namespace Fmp4Packager

open EbmlParser

/-- Why an operation does not return. -/
inductive Stop where
  | exception (what : String)
  /-- `fmt_ctx_` is dereferenced while it is null. -/
  | nullContext
  /-- `streams` is indexed with a negative stream index. -/
  | negativeStreamIndex
  /-- `streams` is indexed past its end. -/
  | streamOutOfRange
  /-- A null `vid_stream` is dereferenced. -/
  | nullStream
  | parser (fault : EbmlParser.Fault)
  deriving DecidableEq, Repr

/-- A file as the media library presents it: the context it opens to, the bytes
that `avio_read` returns from an offset, the packets that follow a seek, and what the
library makes of an index. -/
structure Media where
  context : AVFormatContext
  avioRead : ℤ → ℕ → List UInt8
  /-- The packets after `avformat_flush` and `avio_seek` to a file offset. -/
  packetsFromOffset : AVFormatContext → ℤ → List AVPacket
  /-- The packets after `avformat_seek_file` to a timestamp of a stream. -/
  packetsFromTimestamp : AVFormatContext → ℤ → ℤ → List AVPacket
  /-- The index of a stream after `av_add_index_entry`. -/
  avAddIndexEntry : AVIndexEntry → List AVIndexEntry → List AVIndexEntry := insertIndexEntry

/-- How far the re-opening of the input gets. -/
inductive Reopen where
  /-- The constructor of `HttpReader` throws. -/
  | readerFails (what : String)
  | allocFails
  | openInputFails (err : String)
  | streamInfoFails (ctx : AVFormatContext)
  | opened (ctx : AVFormatContext)
  deriving DecidableEq, Repr

def Reopen.readerMade : Reopen → Bool
  | .readerFails _ => false
  | _ => true

/-- `packets` are those that `av_read_frame` has yet to return. -/
structure Demuxer where
  fmtCtx : Option AVFormatContext := none
  packets : List AVPacket := []
  videoStreamIdx : ℤ := -1
  audioStreamIdx : ℤ := -1
  durationMs : ℤ := 0
  cachedKeyframes : List ℤ := []
  cachedCues : List CueEntry := []
  keyframesCached : Bool := false
  cueIndexAdded : Bool := false
  deriving DecidableEq, Repr

namespace Demuxer

/-- `fmt_ctx_->streams[idx]`. -/
def streamAt (d : Demuxer) (idx : ℤ) : Except Stop AVStream :=
  match d.fmtCtx with
  | none => .error .nullContext
  | some ctx =>
      if idx < 0 then .error .negativeStreamIndex
      else
        match ctx.streams[idx.toNat]? with
        | none => .error .streamOutOfRange
        | some stream => .ok stream

/-- `none` is the null pointer. -/
def videoStream (d : Demuxer) : Except Stop (Option AVStream) :=
  if 0 ≤ d.videoStreamIdx then do
    let stream ← d.streamAt d.videoStreamIdx
    .ok (some stream)
  else .ok none

def audioStream (d : Demuxer) : Except Stop (Option AVStream) :=
  if 0 ≤ d.audioStreamIdx then do
    let stream ← d.streamAt d.audioStreamIdx
    .ok (some stream)
  else .ok none

def avTimeBase : ℤ := 1000000

/-- `OpenInput`, after `avformat_close_input` or in the constructor: the context
is null when it starts. -/
def openInput (d : Demuxer) : Reopen → Except Stop Unit × Demuxer
  | .readerFails what => (.error (.exception what), d)
  | .allocFails => (.error (.exception "avformat_alloc_context failed"), { d with fmtCtx := none })
  | .openInputFails err =>
      (.error (.exception ("avformat_open_input: " ++ err)), { d with fmtCtx := none })
  | .streamInfoFails ctx =>
      (.error (.exception "avformat_find_stream_info failed"), { d with fmtCtx := some ctx })
  | .opened ctx =>
      let d := { d with
        fmtCtx := some ctx
        videoStreamIdx := ctx.bestVideo
        audioStreamIdx := ctx.bestAudio }
      if d.videoStreamIdx < 0 then (.error (.exception "No video stream found"), d)
      else (.ok (), { d with durationMs := toInt ((ctx.duration * 1000).tdiv avTimeBase) })

/-- The constructor: a session only exists when it does not throw. -/
def create (reopen : Reopen) : Except Stop Unit × Demuxer := ({} : Demuxer).openInput reopen

def kHeaderSize : ℕ := 256 * 1024

/-- The part of `EnsureCueIndex` that reads the file: the cue entries, or `none`
where it settles for an empty keyframe list. -/
def readCueEntries (m : Media) : Except EbmlParser.Fault (Option (List CueEntry)) :=
  let header := m.avioRead 0 kHeaderSize
  if header.isEmpty then .ok none
  else do
    let segInfo ← parseSegmentInfo header
    match ← parseCuesLocation header with
    | none => .ok none
    | some cuesLoc =>
      let hdrChunk := m.avioRead cuesLoc.offset 32
      if hdrChunk.length < 12 then .ok none
      else
        match ← ebmlReadId hdrChunk 0 hdrChunk.length with
        | none => .ok none
        | some (idBytes, cuesId) =>
          if cuesId ≠ kEbmlIdCues then .ok none
          else do
            let size ← ebmlReadSize hdrChunk idBytes (toInt (hdrChunk.length - idBytes))
            let (sizeBytes, cuesElementSize) := size.getD (0, 0)
            let totalCuesSize := min (idBytes + sizeBytes + cuesElementSize) (32 * 1024 * 1024)
            let cuesBuf := m.avioRead cuesLoc.offset totalCuesSize
            if cuesBuf.isEmpty then .ok none
            else do
              let entries ← parseCuesData cuesBuf segInfo.timestampScale segInfo.videoTrackNumber
                cuesLoc.segmentDataStart
              .ok (some entries)

/-- The loop of `AddCueIndexEntries`. -/
def indexCues (m : Media) (cues : List CueEntry) (video : AVStream) : AVStream :=
  { video with
    indexEntries := cues.foldl (fun entries cue ↦
      if cue.clusterPos < 0 then entries
      else
        let ts := avRescaleQ cue.timeMs ⟨1, 1000⟩ video.timeBase
        m.avAddIndexEntry ⟨cue.clusterPos, ts⟩ entries) video.indexEntries }

def addCueIndexEntries (m : Media) (d : Demuxer) : Except Stop Unit × Demuxer :=
  if d.cueIndexAdded ∨ d.cachedCues.isEmpty ∨ d.videoStreamIdx < 0 then (.ok (), d)
  else
    match d.streamAt d.videoStreamIdx with
    | .error stop => (.error stop, d)
    | .ok video =>
        let fmtCtx := d.fmtCtx.map fun ctx ↦
          { ctx with
            streams := ctx.streams.set d.videoStreamIdx.toNat (indexCues m d.cachedCues video) }
        (.ok (), { d with fmtCtx := fmtCtx, cueIndexAdded := true })

def ensureCueIndex (m : Media) (d : Demuxer) : Except Stop Unit × Demuxer :=
  if d.keyframesCached then d.addCueIndexEntries m
  else if d.fmtCtx.isNone then (.error .nullContext, d)
  else
    match readCueEntries m with
    | .error fault => (.error (.parser fault), d)
    | .ok none => (.ok (), { d with cachedKeyframes := [], keyframesCached := true })
    | .ok (some entries) =>
        addCueIndexEntries m { d with
          cachedKeyframes := filterKeyframes (entries.map CueEntry.timeMs) 10000
          cachedCues := entries
          keyframesCached := true }

def keyframesMs (m : Media) (d : Demuxer) : Except Stop (List ℤ) × Demuxer :=
  match d.ensureCueIndex m with
  | (.error stop, d) => (.error stop, d)
  | (.ok (), d) => (.ok d.cachedKeyframes, d)

/-- The last of the leading cues that are not after `targetMs`. -/
def latestCue (cues : List CueEntry) (targetMs : ℤ) : Option CueEntry :=
  (cues.takeWhile fun cue ↦ cue.timeMs ≤ targetMs).getLast?

/-- The packets that the final seek of `SeekToMs` leads to. -/
def packetsAfterSeek (m : Media) (ctx : AVFormatContext) (cue : Option CueEntry)
    (videoStreamIdx targetTs : ℤ) : List AVPacket :=
  match cue.filter fun cue ↦ 0 ≤ cue.clusterPos with
  | some cue => m.packetsFromOffset ctx cue.clusterPos
  | none => m.packetsFromTimestamp ctx videoStreamIdx targetTs

/-- The tear-down in `SeekToMs`.  When the constructor of the reader throws,
`cue_index_added_` is not yet cleared. -/
def tearDown (d : Demuxer) (reopen : Reopen) : Demuxer :=
  { d with
    fmtCtx := none
    packets := []
    cueIndexAdded := d.cueIndexAdded && !reopen.readerMade }

/-- The part of `SeekToMs` after the tear-down. -/
def openAndSeek (m : Media) (reopen : Reopen) (cue : Option CueEntry) (targetTs : ℤ)
    (d : Demuxer) : Except Stop Unit × Demuxer :=
  match d.openInput reopen with
  | (.error stop, d) => (.error stop, d)
  | (.ok (), d) =>
      match d.addCueIndexEntries m with
      | (.error stop, d) => (.error stop, d)
      | (.ok (), d) =>
          match d.fmtCtx with
          | none => (.error .nullContext, d)
          | some ctx =>
              (.ok (), { d with packets := packetsAfterSeek m ctx cue d.videoStreamIdx targetTs })

def seekToMs (m : Media) (reopen : Reopen) (targetMs : ℤ) (d : Demuxer) :
    Except Stop Unit × Demuxer :=
  match d.ensureCueIndex m with
  | (.error stop, d) => (.error stop, d)
  | (.ok (), d) =>
      match d.streamAt d.videoStreamIdx with
      | .error stop => (.error stop, d)
      | .ok video =>
          let targetTs := avRescaleQ targetMs ⟨1, 1000⟩ video.timeBase
          let cue := latestCue d.cachedCues targetMs
          (d.tearDown reopen).openAndSeek m reopen cue targetTs

end Demuxer

end Fmp4Packager
