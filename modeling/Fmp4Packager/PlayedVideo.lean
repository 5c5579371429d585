import Fmp4Packager.TruthfulReplies
import Fmp4Packager.VideoPayloads

/-!
# The video that a player gets

On a file whose cues lead to the right places, a player that fetches every segment
between the boundaries gets the payload of every video packet between them, once and in
order, from whichever sessions and at whichever times the segments come.
-/

namespace Fmp4Packager

open IsoBox

namespace Session

open EbmlParser Demuxer Fmp4Writer Server

variable {δ ε α : Type}

/-- The file is one stream of packets, and its cues and timestamps lead to points of it
before which there is no keyframe of their time or later. -/
structure WellIndexed (m : Media) (stream : List AVPacket) (vid : AVStream) : Prop where
  video : fileVideo m = some vid
  inOrder : ((fileCues m).map CueEntry.timeMs).Pairwise (· < ·)
  nonneg : ∀ cue ∈ fileCues m, 0 ≤ cue.timeMs
  cue : ∀ cue ∈ fileCues m, 0 ≤ cue.clusterPos → ∃ skipped, stream = skipped ++
    m.packetsFromOffset ((indexedFile m).fmtCtx.getD m.context) cue.clusterPos ∧
      ∀ pkt ∈ skipped, ¬keyframeFrom m.context.bestVideo vid cue.timeMs pkt
  timestamp : ∀ targetMs, ∃ skipped, stream = skipped ++
    m.packetsFromTimestamp ((indexedFile m).fmtCtx.getD m.context) m.context.bestVideo
      (avRescaleQ targetMs ⟨1, 1000⟩ (videoTimeBase m)) ∧
      ∀ pkt ∈ skipped, ¬keyframeFrom m.context.bestVideo vid targetMs pkt

theorem latestCue_spec {cues : List CueEntry} {targetMs : ℤ} {cue : CueEntry}
    (h : latestCue cues targetMs = some cue) : cue ∈ cues ∧ cue.timeMs ≤ targetMs := by
  have hmem := List.mem_of_getLast? h
  exact ⟨(List.takeWhile_sublist _).subset hmem, by simpa using List.mem_takeWhile_imp hmem⟩

/-- The seek for a window lands before the first keyframe of the window. -/
theorem WellIndexed.packets_fileAt {m : Media} {stream : List AVPacket} {vid : AVStream}
    (h : WellIndexed m stream vid) {w : Window} (hstart : 0 ≤ w.segmentStartMs) :
    ∃ skipped, stream = skipped ++ (fileAt m w).packets ∧
      ∀ pkt ∈ skipped, ¬keyframeFrom m.context.bestVideo vid w.segmentStartMs pkt := by
  have htarget : audioDecodeStartMs w.segmentStartMs ≤ w.segmentStartMs := by
    rw [audioDecodeStartMs, kAudioPrerollMs]
    omega
  have hpackets : (fileAt m w).packets =
      packetsAfterSeek m ((indexedFile m).fmtCtx.getD m.context)
        (latestCue (fileCues m) (audioDecodeStartMs w.segmentStartMs)) m.context.bestVideo
        (avRescaleQ (audioDecodeStartMs w.segmentStartMs) ⟨1, 1000⟩ (videoTimeBase m)) := rfl
  rw [hpackets, packetsAfterSeek]
  split
  · next cue hcue =>
      obtain ⟨hlatest, hpos⟩ := Option.filter_eq_some_iff.mp hcue
      obtain ⟨hmem, htime⟩ := latestCue_spec hlatest
      obtain ⟨skipped, hstream, hskipped⟩ := h.cue cue hmem (by simpa using hpos)
      exact ⟨skipped, hstream, fun pkt hpkt hkey ↦
        hskipped pkt hpkt (keyframeFrom_of_le (htime.trans htarget) hkey)⟩
  · obtain ⟨skipped, hstream, hskipped⟩ := h.timestamp (audioDecodeStartMs w.segmentStartMs)
    exact ⟨skipped, hstream, fun pkt hpkt hkey ↦
      hskipped pkt hpkt (keyframeFrom_of_le htarget hkey)⟩

/-- The samples of a window are those of its stretch of the stream. -/
theorem WellIndexed.ownSamples_eq {m : Media} {stream : List AVPacket} {vid : AVStream}
    (h : WellIndexed m stream vid) {w : Window} (hstart : 0 ≤ w.segmentStartMs) :
    ownSamples m w = samplesOf m.context.bestVideo vid
      (ListCut.between (keyframeFrom m.context.bestVideo vid) w.segmentStartMs w.segmentEndMs
        stream) := by
  obtain ⟨skipped, hstream, hskipped⟩ := h.packets_fileAt hstart
  have hidx : (fileAt m w).videoStreamIdx = m.context.bestVideo :=
    (addCueIndexEntries_sameOpening m (openedFile m)).video
  rw [ownSamples, h.video]
  dsimp only
  rw [runSamples, hidx, hstream, ListCut.between, ListCut.onwards_append_of_forall hskipped]
  rw [segmentRun, buildInputs, hidx]
  rfl

theorem WellIndexed.boundaries {m : Media} {stream : List AVPacket} {vid : AVStream}
    (h : WellIndexed m stream vid) :
    (fileBoundaries m).Pairwise (· < ·) ∧ ∀ ms ∈ fileBoundaries m, 0 ≤ ms := by
  have hsublist := filterKeyframes_sublist ((fileCues m).map CueEntry.timeMs) 10000
  refine ⟨h.inOrder.sublist hsublist, fun ms hms ↦ ?_⟩
  obtain ⟨cue, hcue, rfl⟩ := List.mem_map.mp (hsublist.subset hms)
  exact h.nonneg cue hcue

/-- The packets of a file of which each fills a sample of its own. -/
structure WellFormed (m : Media) (stream : List AVPacket) (vid : AVStream) : Prop
    extends WellIndexed m stream vid where
  pts : ∀ pkt ∈ stream, pkt.streamIndex = m.context.bestVideo → CarriesPts vid pkt
  size : ∀ pkt ∈ stream, pkt.data.length < 2 ^ 32

/-- The first track of a segment is made of the stretch of the stream for its window. -/
theorem SegmentOf.exists_segmentBytes {m : Media} {c : AacCodec δ ε α} {s₀ : Session δ ε α}
    {w : Window} {bytes : List UInt8} (h : SegmentOf m c s₀ w bytes) {stream : List AVPacket}
    {vid : AVStream} (hfile : WellFormed m stream vid) (hstart : 0 ≤ w.segmentStartMs) :
    ∃ samples others, samples ≠ [] ∧
      samples = samplesOf m.context.bestVideo vid (ListCut.between
        (keyframeFrom m.context.bestVideo vid) w.segmentStartMs w.segmentEndMs stream) ∧
      bytes = Fmp4Writer.segmentBytes (UInt32.ofInt (w.segmentIdx + 1))
        (videoInput vid (fixVideoDurations samples) :: others) := by
  obtain ⟨s, frames, -, -, houtcome⟩ := h
  rw [outcomeWith, hfile.video] at houtcome
  dsimp only at houtcome
  rw [segmentOutcome] at houtcome
  split at houtcome
  · cases houtcome
  · next hne =>
      rw [segmentBytes_eq_layout] at houtcome
      cases houtcome
      rw [segmentTracks]
      exact ⟨_, _, hne, hfile.ownSamples_eq hstart, rfl⟩

/-- The video of a segment is the stretch of the stream for its window. -/
theorem SegmentOf.videoPayloads {m : Media} {c : AacCodec δ ε α} {s₀ : Session δ ε α} {w : Window}
    {bytes : List UInt8} (h : SegmentOf m c s₀ w bytes) {stream : List AVPacket} {vid : AVStream}
    (hfile : WellFormed m stream vid) (hstart : 0 ≤ w.segmentStartMs)
    (hsize : bytes.length < 2 ^ 31) :
    Fmp4Writer.videoPayloads bytes =
      some ((videoStretch m.context.bestVideo vid w.segmentStartMs w.segmentEndMs stream).map
        AVPacket.data) := by
  obtain ⟨samples, others, -, hsamples, rfl⟩ := h.exists_segmentBytes hfile hstart
  rw [samplesOf_between hfile.pts] at hsamples
  subst hsamples
  exact videoPayloads_packetSamples _
    (fun pkt hpkt ↦ hfile.size pkt (mem_of_mem_videoStretch hpkt).1) others hsize

theorem length_videoRuns (videoIdx : ℤ) (vid : AVStream) (keyframes : List ℤ)
    (stream : List AVPacket) :
    (videoRuns videoIdx vid keyframes stream).length = keyframes.length - 1 := by
  rw [videoRuns, ListCut.parts, List.length_map, List.length_map, List.length_zip,
    List.length_tail]
  omega

/-- Where each segment reads as the stretch for its window, all of them read as the stretch
from the first boundary to the last. -/
theorem stretch_of_replies {β : Type} {read : List UInt8 → Option (List β)} (f : AVPacket → β)
    {videoIdx : ℤ} {vid : AVStream} {keyframes : List ℤ} {stream : List AVPacket}
    (hsorted : keyframes.Pairwise (· < ·)) {replies : List (List UInt8)}
    (hlength : replies.length + 1 = keyframes.length)
    (hreads : ∀ (i : ℕ) bytes, replies[i]? = some bytes →
      ∃ w, segmentWindow keyframes i = some w ∧ read bytes =
        some ((videoStretch videoIdx vid w.segmentStartMs w.segmentEndMs stream).map f)) :
    ∃ parts : List (List β), replies.map read = parts.map some ∧
      ∀ first ∈ keyframes.head?, ∀ last ∈ keyframes.getLast?,
        parts.flatten = (videoStretch videoIdx vid first last stream).map f := by
  let runs := videoRuns videoIdx vid keyframes stream
  have hruns : runs.length = replies.length := by
    rw [length_videoRuns]
    omega
  refine ⟨runs.map (List.map f), List.ext_getElem? fun i ↦ ?_, ?_⟩
  · rw [List.getElem?_map, List.getElem?_map, List.getElem?_map]
    cases hi : replies[i]? with
    | none =>
        rw [List.getElem?_eq_none_iff] at hi
        rw [List.getElem?_eq_none (by omega)]
        rfl
    | some bytes =>
        obtain ⟨w, hw, hread⟩ := hreads i bytes hi
        have hrun : runs[i]? = some (videoStretch videoIdx vid w.segmentStartMs w.segmentEndMs
          stream) := getElem?_videoRuns hw stream
        rw [hrun, Option.map_some, hread]
        rfl
  · intro first hfirst last hlast
    have hflatten : (runs.map (List.map f)).flatten = runs.flatten.map f :=
      List.map_flatten.symm
    rw [hflatten]
    obtain ⟨boundaries, hboundaries⟩ : ∃ boundaries, keyframes = first :: boundaries :=
      List.head?_eq_some_iff.mp hfirst
    have hjoin := flatten_videoRuns videoIdx vid (hboundaries ▸ hsorted.imp le_of_lt) stream
    rw [hboundaries, List.getLast?_eq_some_getLast (List.cons_ne_nil first boundaries)] at hlast
    rw [Option.some.inj hlast, ← hboundaries] at hjoin
    exact congrArg (List.map f) hjoin

end Session

end Fmp4Packager
