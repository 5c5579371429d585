import Fmp4Packager.FrameFallback
import Fmp4Packager.VideoTimeline

/-!
# The video in the segments

A reader that cuts the samples of the video track out of a segment gets the payloads of
the packets of its run, so over a list of boundaries the segments hold the payloads of one
stretch of the stream.
-/

namespace Fmp4Packager

open IsoBox

namespace Fmp4Writer

/-- The payloads of the video track of a segment, as a player cuts them out. -/
def videoPayloads (bytes : List UInt8) : Option (List (List UInt8)) := do
  let f ← readFragment bytes
  let traf ← f.trafs.find? fun t ↦ t.tfhd.trackId = 1
  some (traf.payloads bytes f.moof.start)

/-- The data of every track stands in the segment in one piece, at its data offset. -/
theorem exists_segmentBytes_eq (sequenceNumber : UInt32) (front : List TrackInput)
    (input : TrackInput) (others : List TrackInput) :
    let inputs := front ++ input :: others
    ∃ before, segmentBytes sequenceNumber inputs =
        before ++ trackData input.2.1 ++ others.flatMap (fun i ↦ trackData i.2.1) ∧
      before.length = moofStart inputs +
        (firstDataOffset inputs + (front.flatMap fun i ↦ trackData i.2.1).length) := by
  intro inputs
  refine ⟨stypBytes ++ inputs.flatMap (sidxBytes (mediaSize inputs % 2 ^ 31)) ++
    box ⟨'m', 'o', 'o', 'f'⟩ (moofPayload sequenceNumber inputs (dataOffsets inputs)) ++
    (BigEndian.encode 4 (8 + (mdatPayload inputs).length) ++ FourCC.bytes ⟨'m', 'd', 'a', 't'⟩) ++
    front.flatMap fun i ↦ trackData i.2.1, ?_, ?_⟩
  · simp [inputs, segmentBytes, box, mdatPayload]
  · have hmoof := length_moofPayload sequenceNumber (length_dataOffsets inputs)
    simp only [List.length_append, length_flatMap_sidxBytes, length_box, hmoof, stypBytes,
      BigEndian.length_encode, FourCC.length_bytes, moofStart, firstDataOffset]
    omega

/-- What a player cuts out for a track is what the writer was given for it, wherever the
track stands in the segment. -/
theorem payloads_trafView (sequenceNumber : UInt32) (front : List TrackInput) (input : TrackInput)
    (others : List TrackInput) (hdata : ∀ s ∈ input.2.1, s.Holds) :
    let inputs := front ++ input :: others
    (trafView (firstDataOffset inputs + (front.flatMap fun i ↦ trackData i.2.1).length)
        input).payloads (segmentBytes sequenceNumber inputs) (moofStart inputs) =
      input.2.1.map sampleData := by
  intro inputs
  obtain ⟨before, hbytes, hbefore⟩ := exists_segmentBytes_eq sequenceNumber front input others
  have hviews := payloads_trafViews (moofStart inputs) _ [input] before
    (others.flatMap fun i ↦ trackData i.2.1) hbefore (by simpa using hdata)
  rw [List.flatMap_singleton, ← hbytes] at hviews
  exact (List.cons.inj hviews).1

/-- The first track is the one that a player takes for the video. -/
theorem find?_trafs_video (sequenceNumber : UInt32) {video : TrackInput}
    (others : List TrackInput) (hid : video.1.trackId = 1) :
    (fragmentView sequenceNumber (video :: others)).trafs.find? (fun t ↦ t.tfhd.trackId = 1) =
      some (trafView (firstDataOffset (video :: others)) video) := by
  have htrack : (trafView (firstDataOffset (video :: others)) video).tfhd.trackId = 1 := by
    rw [trafView, hid]
    rfl
  simp only [fragmentView, dataOffsets, List.map_cons, payloadOffsets, List.zip_cons_cons]
  exact List.find?_cons_of_pos (by simpa using htrack)

theorem videoPayloads_segmentBytes (sequenceNumber : UInt32) {video : TrackInput}
    (others : List TrackInput) (hid : video.1.trackId = 1) (hdata : ∀ s ∈ video.2.1, s.Holds)
    (hsize : (segmentBytes sequenceNumber (video :: others)).length < 2 ^ 31) :
    videoPayloads (segmentBytes sequenceNumber (video :: others)) =
      some (video.2.1.map sampleData) := by
  rw [videoPayloads, readFragment_segmentBytes sequenceNumber hsize]
  simp only [Option.bind_eq_bind, Option.bind_some]
  rw [find?_trafs_video sequenceNumber others hid, Option.bind_some]
  exact congrArg some (payloads_trafView sequenceNumber [] video others hdata)

end Fmp4Writer

namespace Session

open Fmp4Writer Server

variable {δ ε α : Type}

theorem map_data_fixGaps (samples : List Sample) :
    (fixGaps samples).map (fun s ↦ (s.data, s.size)) =
      samples.map fun s ↦ (s.data, s.size) := by
  fun_induction fixGaps samples with
  | case1 s next rest gap ih =>
      rw [List.map_cons, ih, List.map_cons]
      split <;> rfl
  | case2 samples => rfl

theorem map_data_fixLast (samples : List Sample) :
    (fixLast samples).map (fun s ↦ (s.data, s.size)) =
      samples.map fun s ↦ (s.data, s.size) := by
  fun_induction fixLast samples with
  | case1 => rfl
  | case2 s =>
      rw [List.map_cons, List.map_cons]
      split <;> rfl
  | case3 s last => rfl
  | case4 s rest hne hne' ih => rw [List.map_cons, ih, List.map_cons]

theorem map_data_fixVideoDurations (samples : List Sample) :
    (fixVideoDurations samples).map (fun s ↦ (s.data, s.size)) =
      samples.map fun s ↦ (s.data, s.size) := by
  rw [fixVideoDurations, map_data_fixLast, map_data_fixGaps]

theorem map_sampleData_fixVideoDurations (samples : List Sample) :
    (fixVideoDurations samples).map sampleData = samples.map sampleData := by
  have hmapped := congrArg (List.map fun p : Option (List UInt8) × UInt32 ↦
    (p.1.getD []).take p.2.toNat) (map_data_fixVideoDurations samples)
  rw [List.map_map, List.map_map] at hmapped
  exact hmapped

theorem holds_fixVideoDurations {samples : List Sample} (h : ∀ s ∈ samples, s.Holds) :
    ∀ s ∈ fixVideoDurations samples, s.Holds := by
  intro s hs
  have hmem : (s.data, s.size) ∈ samples.map fun s ↦ (s.data, s.size) := by
    rw [← map_data_fixVideoDurations]
    exact List.mem_map_of_mem hs
  obtain ⟨s', hs', hsame⟩ := List.mem_map.mp hmem
  obtain ⟨data, hdata, hlength⟩ := h s' hs'
  obtain ⟨hdata', hsize⟩ := Prod.mk.inj hsame
  exact ⟨data, hdata'.symm.trans hdata, hlength.trans (congrArg UInt32.toNat hsize)⟩

theorem packetSample_payload (vid : AVStream) {pkt : AVPacket}
    (hlength : pkt.data.length < 2 ^ 32) :
    (packetSample vid pkt).Holds ∧ sampleData (packetSample vid pkt) = pkt.data := by
  have hholds : (packetSample vid pkt).Holds :=
    ⟨pkt.data, rfl, (UInt32.toNat_ofNat_of_lt' hlength).symm⟩
  exact ⟨hholds, Option.some.inj (sampleData_of_holds hholds).1⟩

theorem packetSamples_payload (vid : AVStream) {packets : List AVPacket}
    (hlength : ∀ pkt ∈ packets, pkt.data.length < 2 ^ 32) :
    (∀ s ∈ packets.map (packetSample vid), s.Holds) ∧
      (packets.map (packetSample vid)).map sampleData = packets.map AVPacket.data := by
  constructor
  · intro s hs
    obtain ⟨pkt, hpkt, rfl⟩ := List.mem_map.mp hs
    exact (packetSample_payload vid (hlength pkt hpkt)).1
  · rw [List.map_map]
    apply List.map_congr_left
    intro pkt hpkt
    exact (packetSample_payload vid (hlength pkt hpkt)).2

theorem mem_of_mem_videoStretch {videoIdx : ℤ} {vid : AVStream} {startMs endMs : ℤ}
    {stream : List AVPacket} {pkt : AVPacket}
    (hpkt : pkt ∈ videoStretch videoIdx vid startMs endMs stream) :
    pkt ∈ stream ∧ pkt.streamIndex = videoIdx := by
  obtain ⟨hbetween, hvideo⟩ := List.mem_filter.mp hpkt
  exact ⟨ListCut.mem_of_mem_between hbetween, isVideo_iff.mp hvideo⟩

theorem samplesOf_between {videoIdx : ℤ} {vid : AVStream} {stream : List AVPacket}
    (hpts : ∀ pkt ∈ stream, pkt.streamIndex = videoIdx → CarriesPts vid pkt) (startMs endMs : ℤ) :
    samplesOf videoIdx vid (ListCut.between (keyframeFrom videoIdx vid) startMs endMs stream) =
      (videoStretch videoIdx vid startMs endMs stream).map (packetSample vid) := by
  refine filterMap_videoSample fun pkt hpkt ↦ ?_
  obtain ⟨hmem, hvideo⟩ := mem_of_mem_videoStretch hpkt
  exact decodeTime_ne_of_carriesPts (hpts pkt hmem hvideo)

theorem videoPayloads_packetSamples (sequenceNumber : UInt32) {vid : AVStream}
    {packets : List AVPacket} (hlength : ∀ pkt ∈ packets, pkt.data.length < 2 ^ 32)
    (others : List TrackInput) :
    let video := videoInput vid (fixVideoDurations (packets.map (packetSample vid)))
    (Fmp4Writer.segmentBytes sequenceNumber (video :: others)).length < 2 ^ 31 →
      videoPayloads (Fmp4Writer.segmentBytes sequenceNumber (video :: others)) =
        some (packets.map AVPacket.data) := by
  intro video hsize
  obtain ⟨hholds, hdata⟩ := packetSamples_payload vid hlength
  rw [videoPayloads_segmentBytes sequenceNumber others rfl (holds_fixVideoDurations hholds) hsize]
  exact congrArg some ((map_sampleData_fixVideoDurations _).trans hdata)

/-- What a build makes of the packets of its run: an exception where there are none, and
otherwise a segment that holds their payloads one after the other, where a reader finds
them. -/
structure HoldsRun (segmentIdx : ℤ) (run : List AVPacket)
    (outcome : Except Stop (List UInt8)) : Prop where
  empty : run = [] → outcome = .error (noVideoSamples segmentIdx)
  segment : run ≠ [] → ∃ bytes, outcome = .ok bytes ∧
    (∃ front back, bytes = front ++ (run.map AVPacket.data).flatten ++ back) ∧
      (bytes.length < 2 ^ 31 → videoPayloads bytes = some (run.map AVPacket.data))

theorem HoldsRun.of_segmentOutcome {w : Window} {vid : AVStream} {run : List AVPacket}
    (hlength : ∀ pkt ∈ run, pkt.data.length < 2 ^ 32) (aacCodecpar : Option AVCodecParameters)
    (hasAac : Bool) (audioSamples : List Sample) :
    HoldsRun w.segmentIdx run
      (segmentOutcome w vid aacCodecpar hasAac (run.map (packetSample vid)) audioSamples) := by
  constructor
  · rintro rfl
    exact if_pos rfl
  · intro hne
    have hsamples : run.map (packetSample vid) ≠ [] := fun hnil ↦ hne (List.map_eq_nil_iff.mp hnil)
    rw [segmentOutcome, if_neg hsamples, segmentBytes_eq_layout, segmentTracks]
    refine ⟨_, rfl, ?_, videoPayloads_packetSamples _ hlength _⟩
    obtain ⟨-, hdata⟩ := packetSamples_payload vid hlength
    have htrack : trackData (fixVideoDurations (run.map (packetSample vid))) =
        (run.map AVPacket.data).flatten := by
      rw [trackData, List.flatMap_def, map_sampleData_fixVideoDurations, hdata]
    obtain ⟨front, hbytes, -⟩ := exists_segmentBytes_eq _ [] _ _
    exact ⟨front, _, by rw [← htrack]; exact hbytes⟩

/-- The runs of the segments join to the stretch of the stream from the first
keyframe at or after the first boundary up to the first keyframe at or after the
last one, and each build puts its run into its segment. -/
theorem builds_join_at_seams (m : Media) (c : AacCodec δ ε α) (stream : List AVPacket)
    (videoIdx : ℤ) (vid : AVStream) (first : ℤ) (boundaries : List ℤ)
    (hsorted : (first :: boundaries).Pairwise (· ≤ ·))
    (hpts : ∀ pkt ∈ stream, pkt.streamIndex = videoIdx → CarriesPts vid pkt)
    (hsize : ∀ pkt ∈ stream, pkt.data.length < 2 ^ 31)
    (sessions : ℤ → Session δ ε α) (reopens : ℤ → Reopen) (demuxers : ℤ → Demuxer)
    (auds : ℤ → Option AVStream)
    (hmiss : ∀ idx, (sessions idx).segmentCache.lookup idx = none)
    (hseek : ∀ idx w, segmentWindow (first :: boundaries) idx = some w →
      SeeksBefore m (reopens idx) stream videoIdx vid w (sessions idx) (demuxers idx) (auds idx)) :
    (videoRuns videoIdx vid (first :: boundaries) stream).flatten =
        videoStretch videoIdx vid first
          ((first :: boundaries).getLast (List.cons_ne_nil first boundaries)) stream ∧
      ∀ idx w, segmentWindow (first :: boundaries) idx = some w →
        ∃ run, (videoRuns videoIdx vid (first :: boundaries) stream)[idx.toNat]? = some run ∧
          HoldsRun idx run (buildSegmentLocked m c (reopens idx) w (sessions idx)).1 := by
  refine ⟨flatten_videoRuns videoIdx vid hsorted stream, fun idx w hw ↦ ?_⟩
  have hidx : w.segmentIdx = idx := (segmentWindow_eq_some.mp hw).2.1
  have htime : ∀ pkt ∈ stream, pkt.streamIndex = videoIdx → decodeTime vid pkt ≠ avNoptsValue :=
    fun pkt hpkt hvideo ↦ decodeTime_ne_of_carriesPts (hpts pkt hpkt hvideo)
  obtain ⟨hsamples, audioSamples, hbuild⟩ :=
    runSamples_of_seeksBefore c (hseek idx w hw) (hidx ▸ hmiss idx) htime
  refine ⟨_, getElem?_videoRuns hw stream, ?_⟩
  rw [hbuild, hsamples, ← hidx]
  refine .of_segmentOutcome (fun pkt hpkt ↦ ?_) ..
  have hlt := hsize pkt (mem_of_mem_videoStretch hpkt).1
  omega

theorem builds_join_at_seams_three_keyframes :
    (videoRuns 0 (millisecondStream .video) [0, 10000, 20000] threeKeyframes).flatten =
        videoStretch 0 (millisecondStream .video) 0 20000 threeKeyframes ∧
      ∀ idx w, segmentWindow [0, 10000, 20000] idx = some w →
        ∃ run, (videoRuns 0 (millisecondStream .video) [0, 10000, 20000]
            threeKeyframes)[idx.toNat]? = some run ∧
          HoldsRun idx run (buildSegmentLocked (videoFile threeKeyframes) noCodec
            (.opened (videoFile threeKeyframes).context) w
            (openedSession (videoFile threeKeyframes))).1 :=
  builds_join_at_seams (videoFile threeKeyframes) noCodec threeKeyframes 0
    (millisecondStream .video) 0 [10000, 20000] (by decide)
    (by simp [threeKeyframes, CarriesPts, millisecondStream, avNoptsValue]) (by decide)
    (fun _ ↦ openedSession (videoFile threeKeyframes))
    (fun _ ↦ .opened (videoFile threeKeyframes).context)
    (fun _ ↦ { (openedSession (videoFile threeKeyframes)).demuxer with packets := threeKeyframes })
    (fun _ ↦ none) (fun _ ↦ rfl)
    fun _ _ _ ↦ ⟨rfl, rfl, rfl, rfl, [], rfl, by simp⟩

end Session

end Fmp4Packager
