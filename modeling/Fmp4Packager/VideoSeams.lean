import Fmp4Packager.SegmentBuild
import Fmp4Packager.Server

/-!
# Video across segments

Every segment is cut by a run of its own, from its own seek point.  The run ends at
the keyframe at which the run of the next window starts, so over a list of
boundaries the runs join to one stretch of the stream.
-/

namespace Fmp4Packager

namespace Session

open Server

variable {δ ε α : Type}

/-- The packet has a presentation time, also when the start time of its stream is
taken off. -/
def CarriesPts (vid : AVStream) (pkt : AVPacket) : Prop :=
  avNoptsValue < pkt.pts ∧ avNoptsValue < pkt.pts - vid.startTime

/-- The video packets of the stream between the first keyframe at or after
`startMs` and the first at or after `endMs`. -/
def videoStretch (videoIdx : ℤ) (vid : AVStream) (startMs endMs : ℤ) (stream : List AVPacket) :
    List AVPacket :=
  (ListCut.between (keyframeFrom videoIdx vid) startMs endMs stream).filter (isVideo videoIdx)

/-- One stretch for each window between consecutive boundaries. -/
def videoRuns (videoIdx : ℤ) (vid : AVStream) (keyframes : List ℤ) (stream : List AVPacket) :
    List (List AVPacket) :=
  (ListCut.parts (keyframeFrom videoIdx vid) keyframes stream).map
    (List.filter (isVideo videoIdx))

/-- The demuxer `d` that the seek to a window leaves behind: it reads on from a
point of the stream before which there is no keyframe at or after the start of the
window. -/
structure SeeksBefore (m : Media) (reopen : Reopen) (stream : List AVPacket) (videoIdx : ℤ)
    (vid : AVStream) (w : Window) (s : Session δ ε α) (d : Demuxer) (aud : Option AVStream) :
    Prop where
  seek : s.demuxer.seekToMs m reopen (audioDecodeStartMs w.segmentStartMs) = (.ok (), d)
  videoStreamIdx : d.videoStreamIdx = videoIdx
  videoStream : d.videoStream = .ok (some vid)
  audioStream : d.audioStream = .ok aud
  packets : ∃ skipped, stream = skipped ++ d.packets ∧
    ∀ pkt ∈ skipped, ¬keyframeFrom videoIdx vid w.segmentStartMs pkt

theorem keyframeFrom_of_le {videoIdx : ℤ} {vid : AVStream} {j k : ℤ} (hjk : j ≤ k)
    {pkt : AVPacket} (h : keyframeFrom videoIdx vid k pkt) : keyframeFrom videoIdx vid j pkt := by
  obtain ⟨hvideo, hkey, hms⟩ := keyframeFrom_iff.mp h
  exact keyframeFrom_iff.mpr ⟨hvideo, hkey, by omega⟩

theorem subtractStartTime_ne {vid : AVStream} {pkt : AVPacket} (h : CarriesPts vid pkt) :
    subtractStartTime vid pkt.pts ≠ avNoptsValue := by
  obtain ⟨hpts, hshifted⟩ := h
  rw [subtractStartTime]
  split <;> omega

/-- Where the seek lands does not show in the run. -/
theorem between_of_seeksBefore {m : Media} {reopen : Reopen} {stream : List AVPacket} {videoIdx : ℤ}
    {vid : AVStream} {w : Window} {s : Session δ ε α} {d : Demuxer} {aud : Option AVStream}
    (h : SeeksBefore m reopen stream videoIdx vid w s d aud) :
    segmentRun (buildInputs w vid aud d) d.packets =
      ListCut.between (keyframeFrom videoIdx vid) w.segmentStartMs w.segmentEndMs stream := by
  obtain ⟨skipped, hstream, hskipped⟩ := h.packets
  rw [hstream, ListCut.between, ListCut.onwards_append_of_forall hskipped, ← h.videoStreamIdx]
  rfl

theorem flatten_videoRuns (videoIdx : ℤ) (vid : AVStream) {first : ℤ} {boundaries : List ℤ}
    (hsorted : (first :: boundaries).Pairwise (· ≤ ·)) (stream : List AVPacket) :
    (videoRuns videoIdx vid (first :: boundaries) stream).flatten =
      videoStretch videoIdx vid first
        ((first :: boundaries).getLast (List.cons_ne_nil first boundaries)) stream := by
  have hchain : (first :: boundaries).IsChain fun j k ↦
      ∀ pkt, keyframeFrom videoIdx vid k pkt → keyframeFrom videoIdx vid j pkt :=
    hsorted.isChain.imp fun j k hjk pkt ↦ keyframeFrom_of_le hjk
  have hlast : first ≤ (first :: boundaries).getLast (List.cons_ne_nil first boundaries) := by
    cases boundaries with
    | nil => exact le_rfl
    | cons k ks =>
        rw [List.getLast_cons_cons]
        exact (List.pairwise_cons.mp hsorted).1 _ (List.getLast_mem _)
  have hparts := ListCut.flatten_parts hchain stream
  rw [← ListCut.between_append_onwards (fun pkt ↦ keyframeFrom_of_le hlast)] at hparts
  rw [videoRuns, ← List.filter_flatten, videoStretch, List.append_cancel_right hparts]

theorem getElem?_videoRuns {videoIdx : ℤ} {vid : AVStream} {keyframes : List ℤ} {segmentIdx : ℤ}
    {w : Window} (hw : segmentWindow keyframes segmentIdx = some w) (stream : List AVPacket) :
    (videoRuns videoIdx vid keyframes stream)[segmentIdx.toNat]? =
      some (videoStretch videoIdx vid w.segmentStartMs w.segmentEndMs stream) := by
  obtain ⟨-, -, hstart, hend⟩ := segmentWindow_eq_some.mp hw
  have hzip : (keyframes.zip keyframes.tail)[segmentIdx.toNat]? =
      some (w.segmentStartMs, w.segmentEndMs) := by
    rw [List.getElem?_zip_eq_some, List.getElem?_tail]
    exact ⟨hstart, hend⟩
  rw [videoRuns, ListCut.parts, List.map_map, List.getElem?_map, hzip]
  rfl

theorem exists_audioSamples {m : Media} (c : AacCodec δ ε α) {reopen : Reopen}
    {stream : List AVPacket} {videoIdx : ℤ} {vid : AVStream} {w : Window} {s : Session δ ε α}
    {d : Demuxer} {aud : Option AVStream}
    (hseek : SeeksBefore m reopen stream videoIdx vid w s d aud)
    (hmiss : s.segmentCache.lookup w.segmentIdx = none) :
    ∃ audioSamples, (buildSegmentLocked m c reopen w s).1 =
      segmentOutcome w vid s.aacCodecpar s.aac.isSome (runSamples w vid aud d) audioSamples := by
  have hbuild := buildSegmentLocked_fst c hmiss hseek.seek hseek.videoStream hseek.audioStream
  rw [buildOutcome, show (afterSeek c w d s).aac.isSome = s.aac.isSome from Option.isSome_map]
    at hbuild
  exact ⟨_, hbuild⟩

/-- Three keyframes, with an audio packet between them. -/
def threeKeyframes : List AVPacket :=
  [⟨0, 0, 0, 10000, true, [1]⟩, ⟨1, 5000, 5000, 0, true, [7]⟩, ⟨0, 10000, 10000, 10000, true, [2]⟩,
    ⟨0, 20000, 20000, 10000, true, [3]⟩]

def millisecondStream (codecType : AVMediaType) : AVStream where
  timeBase := ⟨1, 1000⟩
  startTime := 0
  codecpar := ⟨codecType, .other, [], 0, 0, 0, 0, 0⟩

def videoFile (packets : List AVPacket) : Media where
  context := ⟨[millisecondStream .video], 0, -1, 30000000⟩
  avioRead := fun _ _ ↦ []
  packetsFromOffset := fun _ _ ↦ packets
  packetsFromTimestamp := fun _ _ _ ↦ packets

def openedSession (m : Media) : Session Unit Unit Unit where
  demuxer := { (Demuxer.create (.opened m.context)).2 with keyframesCached := true }

def noCodec : AacCodec Unit Unit Unit where
  openCodec := fun _ ↦ .error "AacTranscoder: source decoder not found"
  decode := fun _ _ ↦ ((), [])
  flushDecoder := id
  encode := fun _ _ ↦ ((), [])
  flushEncoder := id

end Session

end Fmp4Packager
