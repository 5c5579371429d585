import Fmp4Packager.AacTranscoder
import Fmp4Packager.Demuxer
import Fmp4Packager.General.KeyedCache
import Fmp4Packager.InitSegment

/-!
# The session

A session owns a demuxer and, when the file has audio, a transcoder.  It caches
finished segments by their index, and encoded audio by the global index of the
1024-sample frame.  `buildSegmentLocked` seeks, reads packets up to the boundary
keyframe, and hands the collected samples to `buildSegment`.
-/

namespace Fmp4Packager

open Fmp4Writer

namespace Session

def kVideoOutTb : AVRational := ⟨1, 16000⟩
def kAudioOutTb : AVRational := ⟨1, 48000⟩
def kMsTb : AVRational := ⟨1, 1000⟩
def kAudioPrerollMs : ℤ := 2000
def kAudioLookaheadMs : ℤ := 250
def kMaxCachedSegments : ℕ := 50
def kMaxCachedAudioFrames : ℕ := 4096

def floorDiv (num den : ℤ) : ℤ :=
  let q := num.tdiv den
  let r := num.tmod den
  if r ≠ 0 ∧ decide (r < 0) ≠ decide (den < 0) then q - 1 else q

def msToAudioPts (ms : ℤ) : ℤ := avRescaleQ ms kMsTb kAudioOutTb

def audioFrameIndexForPts (pts48k : ℤ) : ℤ := floorDiv pts48k 1024

def audioDecodeStartMs (segmentStartMs : ℤ) : ℤ := max 0 (segmentStartMs - kAudioPrerollMs)

def audioEncodeStartPts (segmentStartMs : ℤ) : ℤ :=
  audioFrameIndexForPts (msToAudioPts (audioDecodeStartMs segmentStartMs)) * 1024

def audioCutoffPts (segmentEndMs : ℤ) : ℤ := msToAudioPts (segmentEndMs + kAudioLookaheadMs)

/-- `initialPadding` is that of the transcoder, if there is one. -/
def outputStartFrame (initialPadding : Option ℤ) (segmentIdx segmentStartMs : ℤ) : ℤ :=
  match initialPadding with
  | some padding =>
      if segmentIdx = 0 then audioFrameIndexForPts (-padding)
      else audioFrameIndexForPts (msToAudioPts segmentStartMs)
  | none => audioFrameIndexForPts (msToAudioPts segmentStartMs)

/-- At least one frame is requested. -/
def outputEndFrame (initialPadding : Option ℤ) (segmentIdx segmentStartMs segmentEndMs : ℤ) : ℤ :=
  let start := outputStartFrame initialPadding segmentIdx segmentStartMs
  let end_ := audioFrameIndexForPts (msToAudioPts segmentEndMs)
  if end_ ≤ start then start + 1 else end_

/-- The frame indices from `start` up to `end_`, as the output loop counts them. -/
def frameRange (start end_ : ℤ) : List ℤ :=
  (List.range (end_ - start).toNat).map fun k : ℕ ↦ start + k

/-- Real timestamps are taken relative to the start time of the stream. -/
def subtractStartTime (vid : AVStream) (ts : ℤ) : ℤ :=
  if vid.startTime ≠ avNoptsValue ∧ 0 < vid.startTime ∧ ts ≠ avNoptsValue then
    ts - vid.startTime
  else ts

/-- `append_video_packet`: the sample appended for a packet, if it has any
timestamp. -/
def videoSample (vid : AVStream) (p : AVPacket) : Option Sample :=
  let dts := subtractStartTime vid p.dts
  let pts := subtractStartTime vid p.pts
  let dts := if dts = avNoptsValue ∧ pts ≠ avNoptsValue then pts else dts
  if dts = avNoptsValue then none
  else
    let pts := if pts = avNoptsValue then dts else pts
    let dtsOut := avRescaleQ dts vid.timeBase kVideoOutTb
    let ptsOut := avRescaleQ pts vid.timeBase kVideoOutTb
    let ctsOff := Int32.ofInt (ptsOut - dtsOut)
    some {
      data := some p.data
      size := UInt32.ofNat p.data.length
      dts := Int64.ofInt dtsOut
      duration :=
        if 0 < p.duration then UInt32.ofInt (avRescaleQ p.duration vid.timeBase kVideoOutTb)
        else 0
      ctsOffset := if ctsOff < 0 then 0 else ctsOff
      isKeyframe := p.key }

/-- The loop of `fix_video_durations`: the gap to the next sample, where it is
positive. -/
def fixGaps : List Sample → List Sample
  | s :: next :: rest =>
      let gap := next.dts - s.dts
      (if 0 < gap then { s with duration := UInt32.ofInt gap.toInt } else s) ::
        fixGaps (next :: rest)
  | samples => samples

/-- The last sample takes the duration of the one before it; a single sample
without a duration gets a thirtieth of a second. -/
def fixLast : List Sample → List Sample
  | [] => []
  | [s] => [if s.duration = 0 then { s with duration := 16000 / 30 } else s]
  | [s, last] => [s, { last with duration := s.duration }]
  | s :: rest => s :: fixLast rest

def fixVideoDurations (samples : List Sample) : List Sample := fixLast (fixGaps samples)

def audioSample (frameIdx : ℤ) (payload : List UInt8) : Sample where
  data := some payload
  size := UInt32.ofNat payload.length
  dts := Int64.ofInt (frameIdx * 1024)
  duration := 1024
  ctsOffset := 0
  isKeyframe := true

/-- The local constants of `BuildSegmentLocked` that its loops read. -/
structure BuildInputs where
  segmentStartMs : ℤ
  segmentEndMs : ℤ
  videoIdx : ℤ
  audioIdx : ℤ
  vidStream : AVStream
  audStream : Option AVStream

/-- The audio side of a build: the members and local variables that change as
audio packets are decoded.  `sentFrames` are the frames that
`total_audio_frames` counts. -/
structure AudioBuild (δ ε α : Type) where
  aac : Option (AacTranscoder δ ε α)
  audioFrameCache : KeyedCache ℤ (List UInt8)
  thisBuildAac : KeyedCache ℤ (List UInt8) := ∅
  sentFrames : List (AacFrame α) := []

/-- The local variables of `BuildSegmentLocked` that its loops change. -/
structure BuildState (δ ε α : Type) where
  audio : AudioBuild δ ε α
  videoSamples : List Sample := []
  seenKeyframe : Bool := false
  hitBoundary : Bool := false

variable {δ ε α : Type}

def cacheAudioPkt (a : AudioBuild δ ε α) (ep : AVPacket) : AudioBuild δ ε α :=
  if ep.pts ≠ avNoptsValue ∧ ep.data ≠ [] then
    let frameIdx := audioFrameIndexForPts ep.pts
    { a with
      thisBuildAac := a.thisBuildAac.insert frameIdx ep.data
      audioFrameCache := KeyedCache.tryEmplace frameIdx ep.data a.audioFrameCache }
  else a

def drainAac (c : AacCodec δ ε α) (cutoffPts48k : ℤ) (a : AudioBuild δ ε α) : AudioBuild δ ε α :=
  match a.aac with
  | none => a
  | some aac =>
      let (aac, frames, encPkts) := aac.encodeUntil c cutoffPts48k
      encPkts.foldl cacheAudioPkt
        { a with aac := some aac, sentFrames := a.sentFrames ++ frames }

def decodeAac (c : AacCodec δ ε α) (a : AudioBuild δ ε α) (pkt : AVPacket) : AudioBuild δ ε α :=
  { a with aac := a.aac.map fun aac ↦ aac.decode c pkt }

def videoPktMs (vidStream : AVStream) (pkt : AVPacket) : ℤ :=
  avRescaleQ (if pkt.pts ≠ avNoptsValue then pkt.pts else pkt.dts) vidStream.timeBase kMsTb

/-- A packet without a timestamp, or of a stream that is gone, counts as one at
the start of the preroll. -/
def audioPktMs (i : BuildInputs) (pkt : AVPacket) : ℤ :=
  match i.audStream with
  | some aud =>
      if pkt.pts ≠ avNoptsValue then avRescaleQ pkt.pts aud.timeBase kMsTb
      else audioDecodeStartMs i.segmentStartMs
  | none => audioDecodeStartMs i.segmentStartMs

/-- A packet that the preroll cut lets through is decoded. -/
def decodeFromPreroll (c : AacCodec δ ε α) (i : BuildInputs) (a : AudioBuild δ ε α)
    (pkt : AVPacket) : AudioBuild δ ε α :=
  if audioDecodeStartMs i.segmentStartMs ≤ audioPktMs i pkt then decodeAac c a pkt else a

/-- The loop over the packets past the boundary keyframe, with the packets left
unread. -/
def drainLoop (c : AacCodec δ ε α) (i : BuildInputs) :
    List AVPacket → AudioBuild δ ε α → AudioBuild δ ε α × List AVPacket
  | [], a => (a, [])
  | pkt :: packets, a =>
      if pkt.streamIndex ≠ i.audioIdx then drainLoop c i packets a
      else if i.segmentEndMs + kAudioLookaheadMs < audioPktMs i pkt then (a, packets)
      else drainLoop c i packets (decodeFromPreroll c i a pkt)

/-- What follows the boundary keyframe. -/
def finishAtBoundary (c : AacCodec δ ε α) (i : BuildInputs) (packets : List AVPacket)
    (a : AudioBuild δ ε α) : AudioBuild δ ε α × List AVPacket :=
  let (a, packets) :=
    if a.aac.isSome ∧ 0 ≤ i.audioIdx ∧ i.audStream.isSome then drainLoop c i packets a
    else (a, packets)
  (drainAac c (audioCutoffPts i.segmentEndMs) a, packets)

/-- The main loop, with the packets left unread. -/
def readLoop (c : AacCodec δ ε α) (i : BuildInputs) :
    List AVPacket → BuildState δ ε α → BuildState δ ε α × List AVPacket
  | [], b => (b, [])
  | pkt :: packets, b =>
      if pkt.streamIndex = i.videoIdx then
        if !b.seenKeyframe &&
            (!pkt.key || decide (videoPktMs i.vidStream pkt < i.segmentStartMs)) then
          readLoop c i packets b
        else if pkt.key && decide (i.segmentEndMs ≤ videoPktMs i.vidStream pkt) then
          let (audio, packets) := finishAtBoundary c i packets b.audio
          ({ b with audio := audio, seenKeyframe := true, hitBoundary := true }, packets)
        else
          readLoop c i packets { b with
            seenKeyframe := true
            videoSamples := b.videoSamples ++ (videoSample i.vidStream pkt).toList }
      else if pkt.streamIndex = i.audioIdx ∧ b.audio.aac.isSome then
        readLoop c i packets { b with
          audio := drainAac c (audioCutoffPts i.segmentEndMs) (decodeFromPreroll c i b.audio pkt) }
      else readLoop c i packets b

/-- The main loop and the drain at the end of the file. -/
def readPackets (c : AacCodec δ ε α) (i : BuildInputs) (packets : List AVPacket)
    (audio : AudioBuild δ ε α) : BuildState δ ε α × List AVPacket :=
  let (b, packets) := readLoop c i packets { audio := audio }
  if b.hitBoundary then (b, packets)
  else ({ b with audio := drainAac c (audioCutoffPts i.segmentEndMs) b.audio }, packets)

/-- The output loop: this build's frame where there is one, else the cached
one. -/
def outputAudioFrames (thisBuildAac audioFrameCache : KeyedCache ℤ (List UInt8))
    (frames : List ℤ) : List Sample :=
  frames.filterMap fun frameIdx ↦
    ((thisBuildAac.lookup frameIdx).or (audioFrameCache.lookup frameIdx)).map
      (audioSample frameIdx)

/-- The tracks, their samples and their tfdt, in the order in which they are
pushed. -/
def segmentTracks (vidStream : AVStream) (aacCodecpar : Option AVCodecParameters)
    (hasAac : Bool) (videoSamples audioSamples : List Sample) :
    List (Track × List Sample × Int64) :=
  let tfdt : List Sample → Int64 := fun samples ↦ (samples.head?.map Sample.dts).getD 0
  ({ trackId := 1, timescale := kVideoOutTb, codecpar := some vidStream.codecpar },
      videoSamples, tfdt videoSamples) ::
    if hasAac ∧ aacCodecpar.isSome ∧ audioSamples ≠ [] then
      [({ trackId := 2, timescale := kAudioOutTb, codecpar := aacCodecpar },
        audioSamples, tfdt audioSamples)]
    else []

/-- The eviction loop of the segment cache; it stops at the segment just
built. -/
def evictSegments (segmentIdx : ℤ) :
    ℕ → KeyedCache ℤ (List UInt8) → KeyedCache ℤ (List UInt8)
  | 0, cache => cache
  | fuel + 1, cache =>
      if kMaxCachedSegments < cache.keys.length then
        let oldest := cache.keys.foldl min segmentIdx
        if oldest = segmentIdx then cache else evictSegments segmentIdx fuel (cache.erase oldest)
      else cache

end Session

/-! ## The session and its operations -/

structure Session (δ ε α : Type) where
  demuxer : Demuxer
  aac : Option (AacTranscoder δ ε α) := none
  aacCodecpar : Option AVCodecParameters := none
  initBuilt : Bool := false
  initCache : List UInt8 := []
  segmentCache : KeyedCache ℤ (List UInt8) := ∅
  audioFrameCache : KeyedCache ℤ (List UInt8) := ∅

namespace Session

variable {δ ε α : Type}

/-- The constructor; where it throws there is no session. -/
def create (c : AacCodec δ ε α) (reopen : Reopen) : Except Stop (Session δ ε α) := do
  let (opened, demuxer) := Demuxer.create reopen
  opened
  match ← demuxer.audioStream with
  | none => .ok { demuxer := demuxer }
  | some astream =>
      match c.openCodec astream.codecpar with
      | .error what => .error (.exception what)
      | .ok o =>
          .ok {
            demuxer := demuxer
            aac := some (AacTranscoder.ofOpened o)
            aacCodecpar := some o.codecpar }

def getKeyframesMs (m : Media) (s : Session δ ε α) :
    Except Stop (List ℤ) × Session δ ε α :=
  let (result, demuxer) := s.demuxer.keyframesMs m
  (result, { s with demuxer := demuxer })

/-- The language of a stream, unless it is empty. -/
def trackLanguage (stream : AVStream) : Option (List UInt8) :=
  stream.language.filter fun lang ↦ lang ≠ []

def initTracks (s : Session δ ε α) : Except Stop (List Track) := do
  let vid ← s.demuxer.videoStream
  let videoTracks := vid.toList.map fun vid ↦
    { trackId := 1, timescale := kVideoOutTb, codecpar := some vid.codecpar,
      language := trackLanguage vid }
  match s.aac, s.aacCodecpar with
  | some aac, some codecpar =>
      let aud ← s.demuxer.audioStream
      .ok (videoTracks ++ [{
        trackId := 2, timescale := kAudioOutTb, codecpar := some codecpar,
        language := aud.bind trackLanguage,
        initialPadding := Int64.ofInt aac.initialPadding }])
  | _, _ => .ok videoTracks

def generateInitSegment (s : Session δ ε α) : Except Stop (List UInt8) × Session δ ε α :=
  if s.initBuilt ∧ s.initCache ≠ [] then (.ok s.initCache, s)
  else
    match s.initTracks with
    | .error stop => (.error stop, s)
    | .ok tracks =>
        match buildInit tracks with
        | .error what => (.error (.exception what), s)
        | .ok bytes => (.ok bytes, { s with initCache := bytes, initBuilt := true })

structure Window where
  segmentIdx : ℤ
  segmentStartMs : ℤ
  segmentEndMs : ℤ
  deriving DecidableEq, Repr

/-- The timestamp to which `BuildSegmentLocked` resets the transcoder. -/
def resetPts (w : Window) (aac : AacTranscoder δ ε α) : ℤ :=
  if w.segmentIdx = 0 then -aac.initialPadding else audioEncodeStartPts w.segmentStartMs

def outputFrames (initialPadding : Option ℤ) (w : Window) : List ℤ :=
  frameRange (outputStartFrame initialPadding w.segmentIdx w.segmentStartMs)
    (outputEndFrame initialPadding w.segmentIdx w.segmentStartMs w.segmentEndMs)

def noVideoSamples (segmentIdx : ℤ) : Stop :=
  .exception ("Session::BuildSegmentLocked: no video samples for segment " ++ toString segmentIdx)

/-- The call of `BuildSegment`. -/
def segmentBytes (w : Window) (vid : AVStream) (aacCodecpar : Option AVCodecParameters)
    (hasAac : Bool) (videoSamples audioSamples : List Sample) : Except String (List UInt8) :=
  let tracks := segmentTracks vid aacCodecpar hasAac videoSamples audioSamples
  buildSegment (UInt32.ofInt (w.segmentIdx + 1)) (tracks.map Prod.fst)
    (tracks.map fun t ↦ t.2.1) (tracks.map fun t ↦ t.2.2)

def buildInputs (w : Window) (vid : AVStream) (aud : Option AVStream) (d : Demuxer) :
    BuildInputs where
  segmentStartMs := w.segmentStartMs
  segmentEndMs := w.segmentEndMs
  videoIdx := d.videoStreamIdx
  audioIdx := d.audioStreamIdx
  vidStream := vid
  audStream := aud

/-- The part of `BuildSegmentLocked` after the seek and the reset, over the
streams it has looked up. -/
def buildFromPackets (c : AacCodec δ ε α) (w : Window) (vid : AVStream) (aud : Option AVStream)
    (s : Session δ ε α) : Except Stop (List UInt8) × Session δ ε α :=
  let (b, packets) := readPackets c (buildInputs w vid aud s.demuxer) s.demuxer.packets
    { aac := s.aac, audioFrameCache := s.audioFrameCache }
  let videoSamples := fixVideoDurations b.videoSamples
  let frames := outputFrames (s.aac.map AacTranscoder.initialPadding) w
  let audioSamples :=
    if s.aac.isSome then outputAudioFrames b.audio.thisBuildAac b.audio.audioFrameCache frames
    else []
  let s := { s with
    demuxer := { s.demuxer with packets := packets }
    aac := b.audio.aac
    audioFrameCache :=
      if s.aac.isSome then KeyedCache.evict kMaxCachedAudioFrames b.audio.audioFrameCache
      else b.audio.audioFrameCache }
  if videoSamples.isEmpty then (.error (noVideoSamples w.segmentIdx), s)
  else
    match segmentBytes w vid s.aacCodecpar s.aac.isSome videoSamples audioSamples with
    | .error what => (.error (.exception what), s)
    | .ok bytes =>
        let segmentCache := s.segmentCache.insert w.segmentIdx bytes
        let segmentCache := evictSegments w.segmentIdx segmentCache.keys.length segmentCache
        (.ok ((segmentCache.lookup w.segmentIdx).getD []),
          { s with segmentCache := segmentCache })

def buildSegmentLocked (m : Media) (c : AacCodec δ ε α) (reopen : Reopen) (w : Window)
    (s : Session δ ε α) : Except Stop (List UInt8) × Session δ ε α :=
  match s.segmentCache.lookup w.segmentIdx with
  | some bytes => (.ok bytes, s)
  | none =>
      match s.demuxer.seekToMs m reopen (audioDecodeStartMs w.segmentStartMs) with
      | (.error stop, demuxer) => (.error stop, { s with demuxer := demuxer })
      | (.ok (), demuxer) =>
          let s := { s with
            demuxer := demuxer
            aac := s.aac.map fun aac ↦ aac.reset c (resetPts w aac) }
          match demuxer.videoStream, demuxer.audioStream with
          | .error stop, _ => (.error stop, s)
          | .ok _, .error stop => (.error stop, s)
          -- `OpenInput` has thrown when there is no video stream
          | .ok none, .ok _ => (.error .nullStream, s)
          | .ok (some vid), .ok aud => buildFromPackets c w vid aud s

def generateSegment (m : Media) (c : AacCodec δ ε α) (reopen : Reopen) (w : Window)
    (s : Session δ ε α) : Except Stop (List UInt8) × Session δ ε α :=
  if s.initBuilt then buildSegmentLocked m c reopen w s
  else
    match s.generateInitSegment with
    | (.error stop, s) => (.error stop, s)
    | (.ok _, s) => buildSegmentLocked m c reopen w s

end Session

end Fmp4Packager
