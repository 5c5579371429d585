import Fmp4Packager.AudioPartition
import Fmp4Packager.FrameFallback
import Fmp4Packager.VideoTimeline
import Mathlib.Algebra.Order.Field.Basic
import Mathlib.Tactic.Linarith

/-!
# The origin of the audio and video times

The video times are those of the packets with the start time of the stream taken
off.  The audio times are frame indices, counted from the start of the requested
window, and no start time is taken off there.
-/

namespace Fmp4Packager

namespace Session

open Fmp4Writer IsoBox

variable {δ ε α : Type}

/-- The tracks that a build writes, with the session as it is after the seek. -/
def builtTracks (c : AacCodec δ ε α) (w : Window) (vid : AVStream) (aud : Option AVStream)
    (s : Session δ ε α) : List TrackInput :=
  segmentTracks vid s.aacCodecpar s.aac.isSome
    (fixVideoDurations (runSamples w vid aud s.demuxer))
    (audioOutput s.aac.isSome (buildPackets c w vid aud s) s.audioFrameCache
      (outputFrames (s.aac.map AacTranscoder.initialPadding) w))

theorem buildOutcome_eq (c : AacCodec δ ε α) (w : Window) (vid : AVStream)
    (aud : Option AVStream) (s : Session δ ε α) (hne : runSamples w vid aud s.demuxer ≠ []) :
    buildOutcome c w vid aud s =
      (buildSegment (UInt32.ofInt (w.segmentIdx + 1)) ((builtTracks c w vid aud s).map Prod.fst)
        ((builtTracks c w vid aud s).map fun t ↦ t.2.1)
        ((builtTracks c w vid aud s).map fun t ↦ t.2.2)).mapError Stop.exception := by
  rw [buildOutcome, segmentOutcome, if_neg hne]
  rfl

/-- Every requested frame is one of the build or of the session's cache. -/
def FramesAvailable (c : AacCodec δ ε α) (w : Window) (vid : AVStream) (aud : Option AVStream)
    (s : Session δ ε α) : Prop :=
  ∀ aac ∈ s.aac, ∀ j ∈ requestedFrames aac w,
    j ∈ frameIndices (buildPackets c w vid aud s) ∨ j ∈ s.audioFrameCache

theorem exists_outputSample {encPkts : List AVPacket} {cache : KeyedCache ℤ (List UInt8)} {j : ℤ}
    (h : j ∈ frameIndices encPkts ∨ j ∈ cache) :
    ∃ payload, outputSample encPkts cache j = some (audioSample j payload) := by
  by_cases hown : j ∈ frameIndices encPkts
  · obtain ⟨payload, hpayload⟩ :=
      Option.isSome_iff_exists.mp (AList.lookup_isSome.mpr (mem_ownFrames.mpr hown))
    refine ⟨payload, ?_⟩
    rw [outputSample, hpayload]
    rfl
  · obtain ⟨payload, hpayload⟩ :=
      Option.isSome_iff_exists.mp (AList.lookup_isSome.mpr (h.resolve_left hown))
    refine ⟨payload, ?_⟩
    rw [outputSample_of_not_mem hown, hpayload]
    rfl

theorem requestedFrames_eq_cons (aac : AacTranscoder δ ε α) (w : Window) :
    ∃ frames, requestedFrames aac w = startFrame aac w :: frames := by
  have hlt := startFrame_lt_endFrame aac w
  have hrange : requestedFrames aac w = frameRange (startFrame aac w) (endFrame aac w) := rfl
  obtain ⟨n, hn⟩ : ∃ n, (endFrame aac w - startFrame aac w).toNat = n + 1 :=
    Nat.exists_eq_succ_of_ne_zero (by omega)
  rw [hrange, frameRange, hn, List.range_succ_eq_map, List.map_cons, Nat.cast_zero, add_zero]
  exact ⟨_, rfl⟩

/-- With all frames there, the audio track begins with the first requested one. -/
theorem builtTracks_eq {c : AacCodec δ ε α} {w : Window} {vid : AVStream} {aud : Option AVStream}
    {s : Session δ ε α} {aac : AacTranscoder δ ε α} (haac : s.aac = some aac)
    (hpar : s.aacCodecpar.isSome) (hframes : FramesAvailable c w vid aud s) :
    ∃ audio, builtTracks c w vid aud s =
        [videoInput vid (fixVideoDurations (runSamples w vid aud s.demuxer)), audio] ∧
      audio.1.timescale = kAudioOutTb ∧
      audio.2.2 = Int64.ofInt (startFrame aac w * 1024) := by
  obtain ⟨frames, hrequested⟩ := requestedFrames_eq_cons aac w
  have hfirst := hframes aac haac (startFrame aac w) (by rw [hrequested]; exact List.mem_cons_self)
  obtain ⟨payload, hpayload⟩ := exists_outputSample hfirst
  have haudio : audioOutput s.aac.isSome (buildPackets c w vid aud s) s.audioFrameCache
      (outputFrames (s.aac.map AacTranscoder.initialPadding) w) =
      audioSample (startFrame aac w) payload ::
        frames.filterMap (outputSample (buildPackets c w vid aud s) s.audioFrameCache) := by
    have hrequest : outputFrames (s.aac.map AacTranscoder.initialPadding) w =
        startFrame aac w :: frames := by
      rw [haac, ← hrequested]
      rfl
    rw [hrequest, haac, Option.isSome_some, audioOutput_true, List.filterMap_cons_some hpayload]
  rw [builtTracks, haudio, segmentTracks, if_pos ⟨by rw [haac]; rfl, hpar, by simp⟩]
  exact ⟨_, rfl, rfl, rfl⟩

theorem videoTicks_of_exact {vid : AVStream} (hnum : 0 < vid.timeBase.num)
    (hden : 0 < vid.timeBase.den) {time ms : ℤ}
    (hexact : time * vid.timeBase.num * 1000 = ms * vid.timeBase.den) :
    videoTicks vid time = 16 * ms := by
  have hb : time * (vid.timeBase.num * 16000) = 16 * ms * vid.timeBase.den := by linarith
  have hc : kVideoOutTb.num * vid.timeBase.den = vid.timeBase.den := one_mul _
  have hround : ∀ n : ℤ, (n * vid.timeBase.den + vid.timeBase.den / 2) / vid.timeBase.den = n := by
    intro n
    rw [Int.add_comm, Int.add_mul_ediv_right _ _ hden.ne',
      Int.ediv_eq_zero_of_lt (by omega) (by omega), zero_add]
  simp only [videoTicks, avRescaleQ, hc]
  rw [if_neg (by
    have : 0 < vid.timeBase.num * kVideoOutTb.den := mul_pos hnum (by decide)
    omega)]
  split
  · rw [show -time * (vid.timeBase.num * kVideoOutTb.den) = -(16 * ms) * vid.timeBase.den from by
      rw [show kVideoOutTb.den = 16000 from rfl]
      linarith, hround]
    omega
  · rw [show kVideoOutTb.den = 16000 from rfl, hb, hround]

theorem head?_presentationTimes (vid : AVStream) (first : AVPacket) (samples : List Sample)
    (dataOffset : ℕ) :
    (trafView dataOffset (videoInput vid
        (fixVideoDurations (packetSample vid first :: samples)))).presentationTimes.head? =
      some ((packetSample vid first).dts.toInt + (packetSample vid first).ctsOffset.toInt) := by
  rw [presentationTimes_trafView, videoInput_tfdt, videoInput, presentedFrom_fixVideoDurations,
    head?_presentedFrom_fixGaps]
  rfl

/-- A composition offset that does not fit puts the sample far off. -/
theorem near_iff {startMs decoded presented : ℤ} (hle : decoded ≤ presented)
    (hstart : presented ≤ 16 * startMs) :
    |48 * startMs / 1024 * 1024 - 3 * (decoded + max 0 ((presented - decoded).bmod (2 ^ 32)))| ≤
        1027 ↔
      presented - decoded < 2 ^ 31 ∧
        3 * (16 * startMs - presented) ≤ 1027 + 48 * startMs % 1024 := by
  rw [abs_le]
  by_cases hfits : presented - decoded < 2 ^ 31
  · rw [Int.bmod_eq_of_le (by omega) (by omega)]
    omega
  · have hshort : max 0 ((presented - decoded).bmod (2 ^ 32)) + 2 ^ 31 ≤ presented - decoded := by
      rw [Int.bmod_def]
      split
      · omega
      · omega
    refine iff_of_false (fun hnear ↦ ?_) fun h ↦ hfits h.1
    omega

/-- A time in the units of a track. -/
def seconds (timescale : AVRational) (time : ℤ) : ℚ := time * timescale.num / timescale.den

theorem seconds_near_iff (audio video : ℤ) :
    |seconds kAudioOutTb audio - seconds kVideoOutTb video| ≤ 1024 / 48000 + 1 / 16000 ↔
      |audio - 3 * video| ≤ 1027 := by
  have hdiff : seconds kAudioOutTb audio - seconds kVideoOutTb video =
      ((audio - 3 * video : ℤ) : ℚ) / 48000 := by
    simp only [seconds, kAudioOutTb, kVideoOutTb]
    push_cast
    ring
  have hbound : (1024 : ℚ) / 48000 + 1 / 16000 = ((1027 : ℤ) : ℚ) / 48000 := by norm_num
  rw [hdiff, hbound, abs_div, abs_of_pos (by norm_num : (0 : ℚ) < 48000),
    div_le_div_iff_of_pos_right (by norm_num), ← Int.cast_abs, Int.cast_le]

/-- Audio and video of a segment after the first begin within a frame and a tick of
each other exactly when the start time of the stream, in ticks of the video
track, is small enough. -/
theorem tracks_shareOrigin_iff {m : Media} (c : AacCodec δ ε α) {reopen : Reopen} {w : Window}
    {s : Session δ ε α} {d : Demuxer} {vid : AVStream} {aud : Option AVStream}
    {aac : AacTranscoder δ ε α} (first : AVPacket) (rest : List AVPacket)
    (hidx : 1 ≤ w.segmentIdx) (hmiss : s.segmentCache.lookup w.segmentIdx = none)
    (hseek : s.demuxer.seekToMs m reopen (audioDecodeStartMs w.segmentStartMs) = (.ok (), d))
    (hvid : d.videoStream = .ok (some vid)) (haud : d.audioStream = .ok aud)
    (haac : s.aac = some aac) (hpar : s.aacCodecpar.isSome)
    (hframes : FramesAvailable c w vid aud (afterSeek c w d s))
    (hrun : (segmentRun (buildInputs w vid aud d) d.packets).filter (isVideo d.videoStreamIdx) =
      first :: rest)
    (hnum : 0 < vid.timeBase.num) (hden : 0 < vid.timeBase.den) (hstart : 0 ≤ vid.startTime)
    (hexact : first.pts * vid.timeBase.num * 1000 = w.segmentStartMs * vid.timeBase.den)
    (hpts : CarriesPts vid first) (hle : first.dts ≤ first.pts)
    (hrange : -2 ^ 63 ≤ videoTicks vid (decodeTime vid first) ∧
      videoTicks vid (decodeTime vid first) < 2 ^ 63)
    (hrange' : -2 ^ 63 ≤ msToAudioPts w.segmentStartMs ∧
      msToAudioPts w.segmentStartMs < 2 ^ 63) :
    ∃ video audio presented,
      builtTracks c w vid aud (afterSeek c w d s) = [video, audio] ∧
        (buildSegmentLocked m c reopen w s).1 =
          (buildSegment (UInt32.ofInt (w.segmentIdx + 1)) [video.1, audio.1]
            [video.2.1, audio.2.1] [video.2.2, audio.2.2]).mapError Stop.exception ∧
        (∀ dataOffset, (trafView dataOffset video).presentationTimes.head? = some presented) ∧
        ∀ dataOffset,
          |seconds audio.1.timescale (trafView dataOffset audio).startTime -
              seconds video.1.timescale presented| ≤ 1024 / 48000 + 1 / 16000 ↔
            videoTicks vid (presentationTime vid first) - videoTicks vid (decodeTime vid first) <
                2 ^ 31 ∧
              3 * (16 * w.segmentStartMs - videoTicks vid (first.pts - vid.startTime)) ≤
                1027 + 48 * w.segmentStartMs % 1024 := by
  have hsample : runSamples w vid aud d =
      packetSample vid first :: rest.filterMap (videoSample vid) := by
    rw [runSamples, samplesOf, hrun, List.filterMap_cons_some]
    rw [videoSample_eq, if_neg (decodeTime_ne_of_carriesPts hpts)]
  have haac' : (afterSeek c w d s).aac = some (aac.reset c (resetPts w aac)) := by
    rw [afterSeek, haac]
    rfl
  obtain ⟨audio, htracks, htimescale, htfdt⟩ :=
    builtTracks_eq haac' hpar hframes
  have hne : runSamples w vid aud d ≠ [] := by simp [hsample]
  have hbuild := buildSegmentLocked_fst c hmiss hseek hvid haud
  rw [buildOutcome_eq c w vid aud (afterSeek c w d s) hne, htracks] at hbuild
  have hpresented : presentationTime vid first = first.pts - vid.startTime := by
    have hneg : avNoptsValue < 0 := by decide
    have hknown : vid.startTime ≠ avNoptsValue := (hneg.trans_le hstart).ne'
    rw [(presentationTime_eq_sourceTime_iff hpts).mpr (.inr hstart), sourceTime, if_neg hknown]
  have hordered : videoTicks vid (decodeTime vid first) ≤
      videoTicks vid (presentationTime vid first) :=
    avRescaleQ_le_avRescaleQ _ _ (decodeTime_le_presentationTime hpts hle)
  have hbefore : videoTicks vid (presentationTime vid first) ≤ 16 * w.segmentStartMs := by
    rw [← videoTicks_of_exact hnum hden hexact, hpresented]
    exact avRescaleQ_le_avRescaleQ _ _ (by omega)
  refine ⟨_, audio,
    (packetSample vid first).dts.toInt + (packetSample vid first).ctsOffset.toInt,
    htracks, hbuild, fun dataOffset ↦ ?_, fun dataOffset ↦ ?_⟩
  · exact hsample ▸ head?_presentationTimes vid first _ dataOffset
  · have haudio : (trafView dataOffset audio).startTime = 48 * w.segmentStartMs / 1024 * 1024 := by
      have hframe : startFrame (aac.reset c (resetPts w aac)) w = 48 * w.segmentStartMs / 1024 :=
        startFrame_of_ne_zero _ (by omega)
      rw [msToAudioPts_eq] at hrange'
      rw [startTime_trafView, htfdt, hframe]
      exact Int64.toInt_ofInt_of_le (by omega) (by omega)
    rw [haudio, htimescale, toInt_dts_packetSample hrange.1 hrange.2, toInt_ctsOffset_eq_max,
      ← hpresented]
    exact (seconds_near_iff _ _).trans (near_iff hordered hbefore)

/-! A file with one keyframe at 10 seconds, in a session that has the audio frame of
that time in its cache. -/

def keyframeAt10s : List AVPacket := [⟨0, 10000, 10000, 40, true, [1]⟩]

def videoFrom (startTime : ℤ) : AVStream :=
  { millisecondStream .video with startTime := startTime }

def startingAt (startTime : ℤ) : Media where
  context := ⟨[videoFrom startTime, millisecondStream .audio], 0, 1, 30000000⟩
  avioRead := fun _ _ ↦ []
  packetsFromOffset := fun _ _ ↦ keyframeAt10s
  packetsFromTimestamp := fun _ _ _ ↦ keyframeAt10s

def frameCachedSession (m : Media) : Session Unit Unit Unit where
  demuxer := { (Demuxer.create (.opened m.context)).2 with keyframesCached := true }
  aac := some (AacTranscoder.ofOpened ⟨(), (), 1024, (millisecondStream .audio).codecpar⟩)
  aacCodecpar := some ⟨.audio, .aac, [], 0, 0, 128000, 48000, 2⟩
  audioFrameCache := AList.singleton 468 [9]

def at10s (m : Media) : Demuxer := { (frameCachedSession m).demuxer with packets := keyframeAt10s }

theorem framesAvailable_at10s (m : Media) (vid : AVStream) (aud : Option AVStream) :
    FramesAvailable noCodec ⟨1, 10000, 10010⟩ vid aud
      (afterSeek noCodec ⟨1, 10000, 10010⟩ (at10s m) (frameCachedSession m)) := by
  rintro aac ⟨⟩ j hj
  have hframe : j = 468 := by
    rw [mem_requestedFrames, endFrame_eq, startFrame_of_ne_zero _ (by decide)] at hj
    dsimp only at hj
    omega
  refine .inr ?_
  rw [hframe]
  exact List.mem_singleton.mpr rfl

theorem tracks_shareOrigin_iff_startTime10 :
    ∃ video audio presented,
      builtTracks noCodec ⟨1, 10000, 10010⟩ (videoFrom 10) (some (millisecondStream .audio))
          (afterSeek noCodec ⟨1, 10000, 10010⟩ (at10s (startingAt 10))
            (frameCachedSession (startingAt 10))) = [video, audio] ∧
        (buildSegmentLocked (startingAt 10) noCodec (.opened (startingAt 10).context)
            ⟨1, 10000, 10010⟩ (frameCachedSession (startingAt 10))).1 =
          (buildSegment (UInt32.ofInt (1 + 1)) [video.1, audio.1]
            [video.2.1, audio.2.1] [video.2.2, audio.2.2]).mapError Stop.exception ∧
        (∀ dataOffset, (trafView dataOffset video).presentationTimes.head? = some presented) ∧
        ∀ dataOffset,
          |seconds audio.1.timescale (trafView dataOffset audio).startTime -
              seconds video.1.timescale presented| ≤ 1024 / 48000 + 1 / 16000 ↔
            videoTicks (videoFrom 10)
                  (presentationTime (videoFrom 10) ⟨0, 10000, 10000, 40, true, [1]⟩) -
                videoTicks (videoFrom 10)
                  (decodeTime (videoFrom 10) ⟨0, 10000, 10000, 40, true, [1]⟩) < 2 ^ 31 ∧
              3 * (16 * 10000 - videoTicks (videoFrom 10) (10000 - 10)) ≤
                1027 + 48 * 10000 % 1024 :=
  tracks_shareOrigin_iff noCodec (w := ⟨1, 10000, 10010⟩) (d := at10s (startingAt 10))
    ⟨0, 10000, 10000, 40, true, [1]⟩ [] (by decide) rfl rfl rfl rfl rfl rfl
    (framesAvailable_at10s _ _ _) rfl (by decide) (by decide) (by decide) (by decide)
    (by simp [CarriesPts, videoFrom, avNoptsValue]) (by decide) (by decide) (by decide)

/-- With a start time of one second the video begins a second before the audio. -/
theorem not_tracks_shareOrigin :
    ¬∀ (m : Media) (c : AacCodec Unit Unit Unit) (reopen : Reopen) (w : Window)
        (s : Session Unit Unit Unit) (d : Demuxer) (vid : AVStream) (aud : Option AVStream)
        (aac : AacTranscoder Unit Unit Unit) (first : AVPacket) (rest : List AVPacket),
      1 ≤ w.segmentIdx → s.segmentCache.lookup w.segmentIdx = none →
      s.demuxer.seekToMs m reopen (audioDecodeStartMs w.segmentStartMs) = (.ok (), d) →
      d.videoStream = .ok (some vid) → d.audioStream = .ok aud → s.aac = some aac →
      s.aacCodecpar.isSome → FramesAvailable c w vid aud (afterSeek c w d s) →
      (segmentRun (buildInputs w vid aud d) d.packets).filter (isVideo d.videoStreamIdx) =
        first :: rest →
      0 < vid.timeBase.num → 0 < vid.timeBase.den → 0 ≤ vid.startTime →
      first.pts * vid.timeBase.num * 1000 = w.segmentStartMs * vid.timeBase.den →
      CarriesPts vid first → first.dts ≤ first.pts →
      (-2 ^ 63 ≤ videoTicks vid (decodeTime vid first) ∧
        videoTicks vid (decodeTime vid first) < 2 ^ 63) →
      (-2 ^ 63 ≤ msToAudioPts w.segmentStartMs ∧ msToAudioPts w.segmentStartMs < 2 ^ 63) →
      ∀ video audio, builtTracks c w vid aud (afterSeek c w d s) = [video, audio] →
        ∀ presented ∈ (trafView 0 video).presentationTimes.head?,
          |seconds audio.1.timescale (trafView 0 audio).startTime -
            seconds video.1.timescale presented| ≤ 1024 / 48000 + 1 / 16000 := by
  intro h
  have hnear := h (startingAt 1000) noCodec (.opened (startingAt 1000).context) ⟨1, 10000, 10010⟩
    (frameCachedSession (startingAt 1000)) (at10s (startingAt 1000)) (videoFrom 1000)
    (some (millisecondStream .audio)) _ ⟨0, 10000, 10000, 40, true, [1]⟩ [] (by decide) rfl rfl rfl
    rfl rfl rfl (framesAvailable_at10s _ _ _) rfl (by decide) (by decide) (by decide) (by decide)
    (by simp [CarriesPts, videoFrom, avNoptsValue]) (by decide) (by decide) (by decide) _ _ rfl
    144000 rfl
  exact absurd ((seconds_near_iff 479232 144000).mp hnear) (by decide)

end Session

end Fmp4Packager
