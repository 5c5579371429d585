import Fmp4Packager.AudioTimeline
import Fmp4Packager.ConsistentReplies

/-!
# The audio that a player gets

Where every build encodes the frames that it requests, the segments of a file make up
one run of audio frames, each 1024 ticks after the one before it.
-/

namespace Fmp4Packager

open IsoBox

namespace Fmp4Writer

/-- The samples of the audio track of a segment, as a player cuts them out, with the times
at which it decodes them. -/
def audioFrames (bytes : List UInt8) : Option (List (ℤ × List UInt8)) := do
  let f ← readFragment bytes
  let traf ← f.trafs.find? fun t ↦ t.tfhd.trackId = 2
  some (traf.decodeTimes.zip (traf.payloads bytes f.moof.start))

theorem audioFrames_segmentBytes (sequenceNumber : UInt32) {video audio : TrackInput}
    (hvideo : video.1.trackId = 1) (haudio : audio.1.trackId = 2)
    (hdata : ∀ s ∈ audio.2.1, s.Holds) (hduration : ∀ s ∈ audio.2.1, s.duration = 1024)
    (hsize : (segmentBytes sequenceNumber [video, audio]).length < 2 ^ 31) :
    audioFrames (segmentBytes sequenceNumber [video, audio]) =
      some (((List.range audio.2.1.length).map fun i : ℕ ↦ audio.2.2.toInt + 1024 * i).zip
        (audio.2.1.map sampleData)) := by
  let offset := firstDataOffset [video, audio] + (trackData video.2.1).length
  have hfind : (fragmentView sequenceNumber [video, audio]).trafs.find?
      (fun t ↦ t.tfhd.trackId = 2) = some (trafView offset audio) := by
    simp only [fragmentView, dataOffsets, List.map_cons, payloadOffsets, List.zip_cons_cons]
    rw [List.find?_cons_of_neg (by simp [trafView, hvideo]),
      List.find?_cons_of_pos (by simp [trafView, haudio])]
  have htimes : (trafView offset audio).decodeTimes =
      (List.range audio.2.1.length).map fun i : ℕ ↦ audio.2.2.toInt + 1024 * i := by
    have hstart : (trafView offset audio).startTime = audio.2.2.toInt := signed_toUInt64 _
    rw [Traf.decodeTimes, hstart, samples_trafView,
      decodeTimesFrom_of_forall _ 1024, List.length_map]
    · rfl
    · intro s hs
      obtain ⟨sample, hsample, rfl⟩ := List.mem_map.mp hs
      rw [hduration sample hsample]
      rfl
  have hpayloads := payloads_trafView sequenceNumber [video] audio [] hdata
  simp only [List.flatMap_cons, List.flatMap_nil, List.append_nil, List.singleton_append]
    at hpayloads
  rw [audioFrames, readFragment_segmentBytes sequenceNumber hsize]
  simp only [Option.bind_eq_bind, Option.bind_some]
  rw [hfind, Option.bind_some, htimes]
  exact congrArg (fun payloads ↦ some (List.zip _ payloads)) hpayloads

end Fmp4Writer

namespace Session

open AacTranscoder Fmp4Writer Server

variable {δ ε α : Type} {m : Media} {c : AacCodec δ ε α} {s₀ : Session δ ε α}
  {aac : AacTranscoder δ ε α} {vid : AVStream}

/-! ## One segment -/

/-- A frame as the build of a window encodes it. -/
def encodedFrame (m : Media) (c : AacCodec δ ε α) (s₀ : Session δ ε α) (w : Window) (j : ℤ) :
    List UInt8 :=
  ((ownFrames (ownPackets m c s₀ w)).lookup j).getD []

/-- The frames that a window requests, each at the time that its index stands for. -/
def windowFrames (m : Media) (c : AacCodec δ ε α) (s₀ : Session δ ε α)
    (aac : AacTranscoder δ ε α) (w : Window) : List (ℤ × List UInt8) :=
  (requestedFrames aac w).map fun j ↦ (1024 * j, encodedFrame m c s₀ w j)

/-- The build of the window encodes the frames that it requests. -/
structure EncodesAll (m : Media) (c : AacCodec δ ε α) (s₀ : Session δ ε α)
    (aac : AacTranscoder δ ε α) (w : Window) : Prop where
  start : FitsInt64 (msToAudioPts w.segmentStartMs)
  finish : FitsInt64 (msToAudioPts w.segmentEndMs)
  encoded : ∀ j ∈ requestedFrames aac w, j ∈ frameIndices (ownPackets m c s₀ w)
  size : ∀ pkt ∈ ownPackets m c s₀ w, pkt.data.length < 2 ^ 32

theorem lookup_foldl_storeFrame_of_some {encPkts : List AVPacket}
    {frames : KeyedCache ℤ (List UInt8)} {j : ℤ} {payload : List UInt8}
    (h : (encPkts.foldl storeFrame frames).lookup j = some payload) :
    frames.lookup j = some payload ∨
      ∃ pkt ∈ encPkts, frameOf pkt = some j ∧ pkt.data = payload := by
  induction encPkts generalizing frames with
  | nil => exact .inl h
  | cons ep encPkts ih =>
      rcases ih h with hstored | ⟨pkt, hpkt, hframe⟩
      · rw [storeFrame] at hstored
        split at hstored
        · next hkept =>
            by_cases hj : j = audioFrameIndexForPts ep.pts
            · subst hj
              rw [AList.lookup_insert] at hstored
              refine .inr ⟨ep, List.mem_cons_self, ?_, Option.some.inj hstored⟩
              rw [frameOf, if_pos hkept]
            · rw [AList.lookup_insert_ne hj] at hstored
              exact .inl hstored
        · exact .inl hstored
      · exact .inr ⟨pkt, List.mem_cons_of_mem ep hpkt, hframe⟩

/-- What holds of every payload that a build encodes holds of its frames. -/
theorem encodedFrame_of_forall (P : List UInt8 → Prop) {w : Window}
    (hall : ∀ pkt ∈ ownPackets m c s₀ w, P pkt.data) {j : ℤ}
    (hj : j ∈ frameIndices (ownPackets m c s₀ w)) : P (encodedFrame m c s₀ w j) := by
  obtain ⟨payload, hown⟩ := Option.isSome_iff_exists.mp
    (AList.lookup_isSome.mpr (mem_ownFrames.mpr hj))
  rw [encodedFrame, hown]
  rcases lookup_foldl_storeFrame_of_some hown with hnone | ⟨pkt, hpkt, -, rfl⟩
  · cases hnone
  · exact hall pkt hpkt

theorem EncodesAll.length_encodedFrame {w : Window} (h : EncodesAll m c s₀ aac w) (j : ℤ) :
    (encodedFrame m c s₀ w j).length < 2 ^ 32 := by
  by_cases hj : j ∈ frameIndices (ownPackets m c s₀ w)
  · exact encodedFrame_of_forall (·.length < 2 ^ 32) h.size hj
  · rw [encodedFrame, AList.lookup_eq_none.mpr fun hown ↦ hj (mem_ownFrames.mp hown)]
    exact Nat.two_pow_pos 32

/-- A build that encodes every frame it requests writes these, whatever the cache holds. -/
theorem EncodesAll.audioOutput_eq {w : Window} (h : EncodesAll m c s₀ aac w)
    (cache : KeyedCache ℤ (List UInt8)) :
    audioOutput true (ownPackets m c s₀ w) cache (requestedFrames aac w) =
      (requestedFrames aac w).map fun j ↦ audioSample j (encodedFrame m c s₀ w j) := by
  have hsample : ∀ j ∈ requestedFrames aac w, outputSample (ownPackets m c s₀ w) cache j =
      some (audioSample j (encodedFrame m c s₀ w j)) := by
    intro j hj
    obtain ⟨payload, hown⟩ :=
      Option.isSome_iff_exists.mp (AList.lookup_isSome.mpr (mem_ownFrames.mpr (h.encoded j hj)))
    rw [outputSample, encodedFrame, hown]
    rfl
  rw [audioOutput_true, List.filterMap_congr hsample]
  exact congrFun List.filterMap_eq_map _

theorem audioSample_payload {payload : List UInt8} (hlength : payload.length < 2 ^ 32) (j : ℤ) :
    (audioSample j payload).Holds ∧ sampleData (audioSample j payload) = payload := by
  have hholds : (audioSample j payload).Holds :=
    ⟨payload, rfl, (UInt32.toNat_ofNat_of_lt' hlength).symm⟩
  exact ⟨hholds, Option.some.inj (sampleData_of_holds hholds).1⟩

theorem times_frameRange (start end_ : ℤ) :
    (List.range (frameRange start end_).length).map (fun i : ℕ ↦ start * 1024 + 1024 * i) =
      (frameRange start end_).map (1024 * ·) := by
  rw [frameRange, List.length_map, List.length_range, List.map_map]
  apply List.map_congr_left
  intro i _
  simp only [Function.comp_apply]
  ring

theorem toInt_audioInput (codecpar : Option AVCodecParameters) {frames : List (ℤ × List UInt8)}
    {start : ℤ} (hstart : frames.head?.map Prod.fst = some start)
    (hfit : FitsInt64 (start * 1024)) :
    (audioInput codecpar frames).2.2.toInt = start * 1024 := by
  obtain ⟨first, hfirst, rfl⟩ := Option.map_eq_some_iff.mp hstart
  rw [audioInput, hfirst]
  exact Int64.toInt_ofInt_of_le hfit.1 hfit.2

/-- The audio track of a window without a missing frame, read back. -/
theorem audioFrames_windowFrames {w : Window} (h : EncodesAll m c s₀ aac w)
    (hpadding : aac.initialPadding < 2 ^ 31) (sequenceNumber : UInt32) (vid : AVStream)
    (videoSamples : List Sample) (codecpar : Option AVCodecParameters) :
    let audio := audioInput codecpar
      ((requestedFrames aac w).map fun j ↦ (j, encodedFrame m c s₀ w j))
    (Fmp4Writer.segmentBytes sequenceNumber [videoInput vid videoSamples, audio]).length <
        2 ^ 31 →
      audioFrames (Fmp4Writer.segmentBytes sequenceNumber [videoInput vid videoSamples, audio]) =
        some (windowFrames m c s₀ aac w) := by
  intro audio hsize
  obtain ⟨rest, hframes⟩ := requestedFrames_eq_cons aac w
  have hfit : FitsInt64 (startFrame aac w * 1024) :=
    fitsInt64_of_mem_requestedFrames hpadding h.start h.finish (hframes ▸ List.mem_cons_self)
  have hstart : audio.2.2.toInt = startFrame aac w * 1024 :=
    toInt_audioInput codecpar (by rw [hframes]; rfl) hfit
  have hsamples : audio.2.1 =
      (requestedFrames aac w).map fun j ↦ audioSample j (encodedFrame m c s₀ w j) :=
    List.map_map
  have hpayload := fun j ↦ audioSample_payload (h.length_encodedFrame j) j
  have hholds : ∀ s ∈ audio.2.1, s.Holds := by
    rw [hsamples]
    intro s hs
    obtain ⟨j, -, rfl⟩ := List.mem_map.mp hs
    exact (hpayload j).1
  have hduration : ∀ s ∈ audio.2.1, s.duration = 1024 := by
    rw [hsamples]
    intro s hs
    obtain ⟨j, -, rfl⟩ := List.mem_map.mp hs
    rfl
  have hdata : audio.2.1.map sampleData =
      (requestedFrames aac w).map fun j ↦ encodedFrame m c s₀ w j := by
    rw [hsamples, List.map_map]
    exact List.map_congr_left fun j _ ↦ (hpayload j).2
  rw [audioFrames_segmentBytes sequenceNumber rfl rfl hholds hduration hsize, hstart, hdata,
    hsamples, List.length_map]
  have htimes : (List.range (requestedFrames aac w).length).map
      (fun i : ℕ ↦ startFrame aac w * 1024 + 1024 * i) =
        (requestedFrames aac w).map (1024 * ·) := times_frameRange _ _
  rw [htimes, List.zip_map']
  rfl

/-- What a segment is built from, if its build encodes every frame that it requests. -/
theorem SegmentOf.eq_segmentBytes (hflush : FlushForgets c) (haac : s₀.aac = some aac)
    (hpar : s₀.aacCodecpar.isSome) {w : Window} (hencodes : EncodesAll m c s₀ aac w)
    {bytes : List UInt8} (h : SegmentOf m c s₀ w bytes) :
    ∃ vid, bytes = Fmp4Writer.segmentBytes (UInt32.ofInt (w.segmentIdx + 1))
      [videoInput vid (fixVideoDurations (ownSamples m w)), audioInput s₀.aacCodecpar
        ((requestedFrames aac w).map fun j ↦ (j, encodedFrame m c s₀ w j))] := by
  obtain ⟨s, frames, hlike, -, houtcome⟩ := h
  have hrequested : outputFrames ((some aac).map AacTranscoder.initialPadding) w =
      requestedFrames aac w := rfl
  rw [outcomeWith_of_likeNew hflush hlike, outcomeWith, haac, hrequested, Option.isSome_some,
    hencodes.audioOutput_eq] at houtcome
  split at houtcome
  · cases houtcome
  · next vid hvid =>
      rw [segmentOutcome] at houtcome
      split at houtcome
      · cases houtcome
      · have htracks : segmentTracks vid s₀.aacCodecpar true
            (fixVideoDurations (ownSamples m w))
            ((requestedFrames aac w).map fun j ↦ audioSample j (encodedFrame m c s₀ w j)) =
              [videoInput vid (fixVideoDurations (ownSamples m w)), audioInput s₀.aacCodecpar
                ((requestedFrames aac w).map fun j ↦ (j, encodedFrame m c s₀ w j))] := by
          obtain ⟨rest, hframes⟩ := requestedFrames_eq_cons aac w
          rw [segmentTracks, if_pos ⟨rfl, hpar, by rw [hframes]; exact List.cons_ne_nil _ _⟩,
            audioInput, List.map_map, hframes]
          rfl
        rw [segmentBytes_eq_layout, htracks] at houtcome
        exact ⟨vid, (Except.ok.inj houtcome).symm⟩

/-- The audio of a segment, read back, is that of its window. -/
theorem SegmentOf.audioFrames (hflush : FlushForgets c) (haac : s₀.aac = some aac)
    (hpar : s₀.aacCodecpar.isSome) (hpadding : aac.initialPadding < 2 ^ 31) {w : Window}
    (hencodes : EncodesAll m c s₀ aac w) {bytes : List UInt8} (h : SegmentOf m c s₀ w bytes)
    (hsize : bytes.length < 2 ^ 31) :
    Fmp4Writer.audioFrames bytes = some (windowFrames m c s₀ aac w) := by
  obtain ⟨vid, rfl⟩ := h.eq_segmentBytes hflush haac hpar hencodes
  exact audioFrames_windowFrames hencodes hpadding _ vid _ _ hsize

theorem length_trackData (samples : List Sample) :
    (trackData samples).length = (samples.map fun s ↦ (sampleData s).length).sum :=
  List.length_flatMap

/-- The length of a segment, by the samples of its video and by its frames. -/
theorem SegmentOf.length_eq (hflush : FlushForgets c) (haac : s₀.aac = some aac)
    (hpar : s₀.aacCodecpar.isSome) {w : Window} (hencodes : EncodesAll m c s₀ aac w)
    {bytes : List UInt8} (h : SegmentOf m c s₀ w bytes) :
    ∃ vid, bytes.length = 56 + (trackCost (videoInput vid (fixVideoDurations (ownSamples m w))) +
      (52 + (68 + 12 * (requestedFrames aac w).length) +
        ((requestedFrames aac w).map fun j ↦ (encodedFrame m c s₀ w j).length).sum)) := by
  obtain ⟨vid, rfl⟩ := h.eq_segmentBytes hflush haac hpar hencodes
  obtain ⟨rest, hframes⟩ := requestedFrames_eq_cons aac w
  have hne : (requestedFrames aac w).isEmpty = false := by rw [hframes]; rfl
  have hdata : ∀ j, (sampleData (audioSample j (encodedFrame m c s₀ w j))).length =
      (encodedFrame m c s₀ w j).length := fun j ↦ by
    rw [(audioSample_payload (hencodes.length_encodedFrame j) j).2]
  refine ⟨vid, ?_⟩
  rw [length_segmentBytes_eq]
  simp only [List.map_cons, List.map_nil, List.sum_cons, List.sum_nil, Nat.add_zero, trackCost,
    trafSize, audioInput, length_trackData, List.map_map, List.isEmpty_map, hne, List.length_map,
    Function.comp_def, hdata, Bool.false_eq_true, if_false]
  omega

theorem ownPackets_of_some (hvid : fileVideo m = some vid) (haac : s₀.aac = some aac) (w : Window) :
    ownPackets m c s₀ w = ((aac.reset c (resetPts w aac)).transcode c
      (audioCutoffPts w.segmentEndMs) (acceptedAudio (buildInputs w vid (fileAudio m) (fileAt m w))
        (fileAt m w).packets)).2.2 := by
  rw [ownPackets, hvid, resetAac, haac]
  rfl

/-- What holds of every payload that the codec encodes holds of those of a build. -/
theorem data_ownPackets (P : List UInt8 → Prop)
    (hall : ∀ encoder frames, ∀ pkt ∈ encodeAll c encoder frames, P pkt.data)
    (hvid : fileVideo m = some vid) (haac : s₀.aac = some aac) {w : Window} :
    ∀ pkt ∈ ownPackets m c s₀ w, P pkt.data := by
  intro pkt hpkt
  rw [ownPackets_of_some hvid haac, AacTranscoder.transcode] at hpkt
  have hdata := List.mem_map_of_mem (f := AVPacket.data) hpkt
  rw [map_data_encodeUntil] at hdata
  obtain ⟨pkt', hpkt', heq⟩ := List.mem_map.mp hdata
  rw [← heq]
  exact hall _ _ pkt' hpkt'

/-- A build encodes the frames that its audio reaches. -/
theorem encodesAll_of_reached (q : EncoderQueue c) {len : AVPacket → ℕ}
    (hdecode : ∀ decoder pkt, (c.decode decoder pkt).2.length = len pkt)
    (hlength : ∀ encoder frames, ∀ pkt ∈ encodeAll c encoder frames, pkt.data.length < 2 ^ 32)
    (haac : s₀.aac = some aac) (hpadding : aac.initialPadding < 2 ^ 31)
    (hvid : fileVideo m = some vid) {w : Window}
    (hstart : FitsInt64 (msToAudioPts w.segmentStartMs))
    (hfinish : FitsInt64 (msToAudioPts w.segmentEndMs))
    (hfirst : firstReached q w aac ≤ startFrame aac w)
    (hend : endFrame aac w ≤
      reachEnd q w aac (decodedSamples len w vid (fileAudio m) (fileAt m w))) :
    EncodesAll m c s₀ aac w := by
  refine ⟨hstart, hfinish, fun j hj ↦ ?_, data_ownPackets (·.length < 2 ^ 32) hlength hvid haac⟩
  obtain ⟨hlow, hhigh⟩ := mem_frameRange.mp hj
  rw [ownPackets_of_some hvid haac, mem_frameIndices_transcode q hdecode hpadding]
  exact .inr ⟨hfirst.trans hlow, hhigh.trans_le hend⟩

/-! ## All segments -/

/-- The windows between the boundaries of a file. -/
def fileWindows (m : Media) : List Window :=
  (List.range ((fileBoundaries m).length - 1)).map (windowAt (fileBoundaries m))

/-- A file that is cut between audio frames, and of which every build encodes the frames
that it requests. -/
structure WellEncoded (m : Media) (c : AacCodec δ ε α) (s₀ : Session δ ε α)
    (aac : AacTranscoder δ ε α) : Prop where
  inOrder : (fileBoundaries m).Pairwise (· < ·)
  nonneg : ∀ ms ∈ fileBoundaries m, 0 ≤ ms
  crossFrames : CrossFrames (fileBoundaries m)
  padding : aac.initialPadding < 2 ^ 31
  encodes : ∀ w ∈ fileWindows m, EncodesAll m c s₀ aac w

theorem frameRange_append {start middle end_ : ℤ} (hlow : start ≤ middle) (hhigh : middle ≤ end_) :
    frameRange start middle ++ frameRange middle end_ = frameRange start end_ := by
  have hlength : (end_ - start).toNat = (middle - start).toNat + (end_ - middle).toNat := by
    omega
  rw [frameRange, frameRange, frameRange, hlength, List.range_add, List.map_append, List.map_map]
  congr 1
  apply List.map_congr_left
  intro i _
  simp only [Function.comp_apply, Nat.cast_add]
  omega

/-- The windows up to some index request the frames of one range. -/
theorem flatMap_requestedFrames (aac : AacTranscoder δ ε α) {keyframes : List ℤ}
    (hsorted : keyframes.Pairwise (· < ·)) (hnonneg : ∀ ms ∈ keyframes, 0 ≤ ms)
    (hcross : CrossFrames keyframes) {n : ℕ} (hn : n < keyframes.length - 1) :
    startFrame aac (windowAt keyframes 0) ≤ endFrame aac (windowAt keyframes n) ∧
      (List.range (n + 1)).flatMap (fun i ↦ requestedFrames aac (windowAt keyframes i)) =
        frameRange (startFrame aac (windowAt keyframes 0))
          (endFrame aac (windowAt keyframes n)) := by
  induction n with
  | zero => exact ⟨(startFrame_lt_endFrame aac _).le, List.flatMap_singleton ..⟩
  | succ n ih =>
      obtain ⟨hle, hrange⟩ := ih (by omega)
      have hw : segmentWindow keyframes n = some (windowAt keyframes n) :=
        segmentWindow_eq_windowAt.mpr ⟨n, rfl, by omega, rfl⟩
      have hnext : segmentWindow keyframes (n + 1) = some (windowAt keyframes (n + 1)) :=
        segmentWindow_eq_windowAt.mpr ⟨n + 1, by omega, hn, rfl⟩
      have hmeet : endFrame aac (windowAt keyframes n) =
          startFrame aac (windowAt keyframes (n + 1)) :=
        (endFrame_eq_startFrame_iff aac hsorted hnonneg hw hnext).mpr (hcross n _ _ hw hnext)
      have hlt := startFrame_lt_endFrame aac (windowAt keyframes (n + 1))
      rw [List.range_succ, List.flatMap_append, hrange, hmeet, List.flatMap_singleton]
      exact ⟨by omega, frameRange_append (hmeet ▸ hle) hlt.le⟩

/-- The frames of all windows are at times without a gap. -/
theorem WellEncoded.times (h : WellEncoded m c s₀ aac) {first last : Window}
    (hfirst : first ∈ (fileWindows m).head?) (hlast : last ∈ (fileWindows m).getLast?) :
    ((fileWindows m).flatMap (windowFrames m c s₀ aac)).map Prod.fst =
      (frameRange (startFrame aac first) (endFrame aac last)).map (1024 * ·) := by
  rw [fileWindows] at hfirst hlast ⊢
  cases hlength : (fileBoundaries m).length - 1 with
  | zero =>
      rw [hlength] at hfirst
      cases hfirst
  | succ n =>
      rw [hlength, List.range_succ_eq_map, List.map_cons, List.head?_cons] at hfirst
      rw [hlength, List.range_succ, List.map_append, List.map_singleton,
        List.getLast?_concat] at hlast
      obtain rfl := Option.some.inj hfirst
      obtain rfl := Option.some.inj hlast
      have hn : n < (fileBoundaries m).length - 1 := by omega
      obtain ⟨-, hrange⟩ := flatMap_requestedFrames aac h.inOrder h.nonneg h.crossFrames hn
      rw [← hrange, List.map_flatMap, List.map_flatMap, List.flatMap_map]
      congr 1
      funext i
      rw [windowFrames, List.map_map]
      rfl

/-- One segment for every window makes up the frames of all windows. -/
theorem frames_of_segments (hflush : FlushForgets c)
    (hcreate : create c (.opened m.context) = .ok s₀) (haac : s₀.aac = some aac)
    (h : WellEncoded m c s₀ aac) {replies : List (List UInt8)}
    (hsegments : SegmentsOf m c replies) :
    replies.map audioFrames = (fileWindows m).map fun w ↦ some (windowFrames m c s₀ aac w) := by
  obtain ⟨hlength, hreplies⟩ := hsegments
  obtain ⟨-, -, hpar⟩ := create_opened hcreate
  rw [haac, Option.isSome_some] at hpar
  refine List.ext_getElem? fun i ↦ ?_
  rw [List.getElem?_map, List.getElem?_map, fileWindows, List.getElem?_map]
  cases hi : replies[i]? with
  | none =>
      rw [List.getElem?_eq_none_iff] at hi
      rw [List.getElem?_eq_none (by simp; omega)]
      rfl
  | some bytes =>
      obtain ⟨hsize, s₀', w, hw, hcreate', hsegment⟩ := hreplies i bytes hi
      cases hcreate.symm.trans hcreate'
      obtain ⟨j, hj, hlt, rfl⟩ := segmentWindow_eq_windowAt.mp hw
      obtain rfl : i = j := by omega
      have hmem : windowAt (fileBoundaries m) i ∈ fileWindows m :=
        List.mem_map_of_mem (List.mem_range.mpr hlt)
      rw [List.getElem?_range hlt]
      exact congrArg some (hsegment.audioFrames hflush haac hpar.symm h.padding
        (h.encodes _ hmem) hsize)

end Session

namespace Server

open Session Fmp4Writer

variable {δ ε α : Type} {files : List Char → Media} {c : AacCodec δ ε α}

/-- In every run: whoever gets a playlist and fetches what it lists gets for every window
the frames that its own build encodes, one every 1024 ticks from the first frame to the
last. -/
theorem playlist_plays_audio (hflush : FlushForgets c) {infohash : List Char}
    {s₀ : Session δ ε α} (hcreate : create c (.opened (files infohash).context) = .ok s₀)
    {aac : AacTranscoder δ ε α} (haac : s₀.aac = some aac)
    (hfile : WellEncoded (files infohash) c s₀ aac) (faults : Set String) (now : ℤ)
    (moves : List Move)
    (hopens : CallRun.Always (serverStep files c)
      (ThreadPool.Meets (OpensFiles files faults)) moves (startUp now)) :
    let threads := (CallRun.finalState (serverStep files c) moves (startUp now)).threads
    let windows := fileWindows (files infohash)
    let frames := windowFrames (files infohash) c s₀ aac
    ∀ h ∈ threads, AsksManifest h.path infohash →
      ∀ body, h.stage.got "application/vnd.apple.mpegurl" = some body →
        ∃ p, readPlaylist body = some p ∧
          ∀ replies, Fetched threads h.path p replies →
            replies.map audioFrames = windows.map (fun w ↦ some (frames w)) ∧
              ∀ first ∈ windows.head?, ∀ last ∈ windows.getLast?,
                (windows.flatMap frames).map Prod.fst =
                  (frameRange (startFrame aac first) (endFrame aac last)).map (1024 * ·) := by
  intro threads windows frames h hmem hasks body hgot
  have hholds : ServingHolds files c faults _ :=
    ThreadPool.Holds.finalState (serving_keeps files c faults) (servingHolds_startUp now) hopens
  obtain ⟨p, hread, hsegments⟩ := hholds.segmentsOf hmem hasks hgot hfile.inOrder
  refine ⟨p, hread, fun replies hfetched ↦
    ⟨frames_of_segments hflush hcreate haac hfile (hsegments replies hfetched), ?_⟩⟩
  intro first hfirst last hlast
  exact hfile.times hfirst hlast

/-! A file with cues at 0, 10 and 20 s and an audio packet for every 1024 samples. -/

def audioPackets (first count : ℕ) : List AVPacket :=
  (List.range' first count).map fun i : ℕ ↦ ⟨1, 64 * i / 3, 64 * i / 3, 0, true, [7]⟩

def steadyAudio : List AVPacket :=
  ⟨0, 0, 0, 0, true, [1]⟩ :: audioPackets 0 469 ++
    ⟨0, 10000, 10000, 0, true, [2]⟩ :: audioPackets 469 469 ++
      ⟨0, 20000, 20000, 0, true, [3]⟩ :: audioPackets 938 10

def steadyAudioFile : Media :=
  { threeCueFile with
    context := ⟨[millisecondStream .video, millisecondStream .audio], 0, 1, 20000000⟩
    packetsFromOffset := fun _ _ ↦ steadyAudio
    packetsFromTimestamp := fun _ _ _ ↦ steadyAudio }

def steadyTranscoder : AacTranscoder Unit Unit ℤ :=
  AacTranscoder.ofOpened ⟨(), (), 1024, (millisecondStream .audio).codecpar⟩

def steadySession : Session Unit Unit ℤ where
  demuxer := (Demuxer.create (.opened steadyAudioFile.context)).2
  aac := some steadyTranscoder
  aacCodecpar := some (millisecondStream .audio).codecpar

theorem create_steadyAudioFile :
    create silentCodec (.opened steadyAudioFile.context) = .ok steadySession := rfl

theorem fileVideo_steadyAudioFile : fileVideo steadyAudioFile = some threeCueStream := by
  decide +kernel

theorem fileBoundaries_steadyAudioFile : fileBoundaries steadyAudioFile = [0, 10000, 20000] := by
  decide +kernel

theorem fileWindows_steadyAudioFile :
    fileWindows steadyAudioFile = [⟨0, 0, 10000⟩, ⟨1, 10000, 20000⟩] := by
  rw [fileWindows, fileBoundaries_steadyAudioFile]
  rfl

theorem data_silentCodec (encoder : Unit) (frames : List (AacFrame ℤ)) :
    ∀ pkt ∈ AacTranscoder.encodeAll silentCodec encoder frames, pkt.data = [9] := by
  intro pkt hpkt
  rw [encodeAll_silentCodec] at hpkt
  obtain ⟨frame, -, rfl⟩ := List.mem_map.mp hpkt
  rfl

theorem encodesAll_steadyAudioFile : ∀ w ∈ fileWindows steadyAudioFile,
    EncodesAll steadyAudioFile silentCodec steadySession steadyTranscoder w := by
  intro w hw
  have hreached : ∀ w ∈ fileWindows steadyAudioFile,
      FitsInt64 (msToAudioPts w.segmentStartMs) ∧ FitsInt64 (msToAudioPts w.segmentEndMs) ∧
        firstReached silentQueue w steadyTranscoder ≤ startFrame steadyTranscoder w ∧
        endFrame steadyTranscoder w ≤ reachEnd silentQueue w steadyTranscoder
          (decodedSamples (fun _ ↦ 1024) w threeCueStream (fileAudio steadyAudioFile)
            (fileAt steadyAudioFile w)) := by
    rw [fileWindows_steadyAudioFile]
    decide +kernel
  obtain ⟨hstart, hfinish, hfirst, hend⟩ := hreached w hw
  refine encodesAll_of_reached silentQueue length_decode_silentCodec (fun encoder frames pkt hpkt ↦
    ?_) rfl (by decide) fileVideo_steadyAudioFile hstart hfinish hfirst hend
  rw [data_silentCodec encoder frames pkt hpkt]
  decide

theorem encodedFrame_steadyAudioFile {w : Window} (hw : w ∈ fileWindows steadyAudioFile) {j : ℤ}
    (hj : j ∈ requestedFrames steadyTranscoder w) :
    encodedFrame steadyAudioFile silentCodec steadySession w j = [9] :=
  encodedFrame_of_forall (· = [9])
    (data_ownPackets (· = [9]) data_silentCodec fileVideo_steadyAudioFile rfl)
    ((encodesAll_steadyAudioFile w hw).encoded j hj)

theorem wellEncoded_steadyAudioFile :
    WellEncoded steadyAudioFile silentCodec steadySession steadyTranscoder where
  inOrder := by
    rw [fileBoundaries_steadyAudioFile]
    decide
  nonneg := by
    rw [fileBoundaries_steadyAudioFile]
    decide
  crossFrames := by
    rw [fileBoundaries_steadyAudioFile]
    intro idx w next hw hnext
    obtain ⟨i, rfl, -, rfl⟩ := segmentWindow_eq_windowAt.mp hw
    obtain ⟨j, hj, hlt, -⟩ := segmentWindow_eq_windowAt.mp hnext
    simp only [List.length_cons, List.length_nil] at hlt
    obtain rfl : i = 0 := by omega
    exact fun hwithin ↦ hwithin.1 rfl
  padding := by decide
  encodes := encodesAll_steadyAudioFile

/-- A request for the playlist, all but its last stage. -/
def steadyPlaylistRequested : List Move :=
  .arrive threeCuePlaylist :: List.replicate 5 (.proceed 0 (.opened steadyAudioFile.context))

/-- Requests for the two segments, whose handlers take turns until they come to build. -/
def steadySegmentsRequested : List Move :=
  let proceed (i : ℕ) : Move := .proceed i (.opened steadyAudioFile.context)
  [.arrive (threeCueSegment 1), proceed 1, .arrive (threeCueSegment 0), proceed 1, proceed 1,
    proceed 1, proceed 2, proceed 2, proceed 2]

def steadyToBuild : List Move :=
  steadyPlaylistRequested ++ [.proceed 0 (.opened steadyAudioFile.context)] ++
    steadySegmentsRequested

/-- The later window is built last. -/
def steadyRun : List Move :=
  steadyToBuild ++ [.proceed 2 (.opened steadyAudioFile.context),
    .proceed 1 (.opened steadyAudioFile.context)]

theorem opensFiles_steady {moves : List Move} (hmoves : ∀ move ∈ moves, move ∈ steadyRun)
    (p : Pool Unit Unit ℤ) : CallRun.Always (serverStep (fun _ ↦ steadyAudioFile) silentCodec)
      (ThreadPool.Meets (OpensFiles (fun _ ↦ steadyAudioFile) ∅)) moves p := by
  refine opensFiles_of_opened (fun i reopen hmove ↦ ?_) p
  have hmem := hmoves _ hmove
  simp [steadyRun, steadyToBuild, steadyPlaylistRequested, steadySegmentsRequested,
    List.replicate] at hmem
  tauto

theorem playlist_steadyRun :
    (poolAfter (fun _ ↦ steadyAudioFile) silentCodec 0 steadyRun).threads[0]? =
      some ⟨threeCuePlaylist,
        .ofManifest (sampleInfohash.map Char.toLower) 0 [0, 10000, 20000]⟩ := by
  have hthread : (poolAfter (fun _ ↦ steadyAudioFile) silentCodec 0
      steadyPlaylistRequested).threads[0]? = some
        ⟨threeCuePlaylist, .listKeyframes (sampleInfohash.map Char.toLower) 0 0⟩ := by
    decide +kernel
  have hkeyframes : ((poolAfter (fun _ ↦ steadyAudioFile) silentCodec 0
      steadyPlaylistRequested).shared.objects[0]?.map fun o ↦
        (o.session.getKeyframesMs steadyAudioFile).1) = some (.ok [0, 10000, 20000]) := by
    decide +kernel
  rw [poolAfter, steadyRun, steadyToBuild, CallRun.finalState_append, CallRun.finalState_append,
    CallRun.finalState_append]
  refine ThreadPool.getElem?_threads_finalState (fun input ↦ by simp) ?_
  exact ThreadPool.getElem?_threads_finalState (fun input ↦ by simp [steadySegmentsRequested])
    (getElem?_step_listKeyframes hthread hkeyframes _)

theorem toBuild_steady :
    let p := poolAfter (fun _ ↦ steadyAudioFile) silentCodec 0 steadyToBuild
    p.threads[1]? = some ⟨threeCueSegment 1, .build 0 ⟨1, 10000, 20000⟩⟩ ∧
      p.threads[2]? = some ⟨threeCueSegment 0, .build 0 ⟨0, 0, 10000⟩⟩ ∧
      (p.shared.objects[0]?.any fun o ↦ o.session.demuxer.fmtCtx.isSome) = true := by
  decide +kernel

theorem playable_steadyAudioFile : Playable steadyAudioFile where
  video := by
    rw [Demuxer.HasVideo]
    decide
  audio := by
    rw [Demuxer.HasAudio]
    decide
  cues := by
    have hread : Demuxer.readCueEntries steadyAudioFile =
        .ok (some [⟨0, 0, 1, 61, -1⟩, ⟨10000, 10000, 1, 61, -1⟩, ⟨20000, 20000, 1, 61, -1⟩]) := by
      decide +kernel
    exact ⟨_, hread⟩

theorem ownSamples_steadyAudioFile : ∀ w ∈ fileWindows steadyAudioFile,
    ownSamples steadyAudioFile w ≠ [] ∧
      trackCost (videoInput threeCueStream (fixVideoDurations (ownSamples steadyAudioFile w))) <
          1000 ∧
        (requestedFrames steadyTranscoder w).length = 469 := by
  rw [fileWindows_steadyAudioFile]
  decide +kernel

theorem length_segment_steady {w : Window} (hw : w ∈ fileWindows steadyAudioFile)
    {bytes : List UInt8} (h : SegmentOf steadyAudioFile silentCodec steadySession w bytes) :
    bytes.length < 2 ^ 31 := by
  obtain ⟨vid, hlength⟩ := h.length_eq flushForgets_silentCodec rfl rfl
    (encodesAll_steadyAudioFile w hw)
  obtain ⟨-, hvideo, hframes⟩ := ownSamples_steadyAudioFile w hw
  have hcost : trackCost (videoInput vid (fixVideoDurations (ownSamples steadyAudioFile w))) =
    trackCost (videoInput threeCueStream (fixVideoDurations (ownSamples steadyAudioFile w))) := rfl
  have hpayloads : ((requestedFrames steadyTranscoder w).map fun j ↦
      (encodedFrame steadyAudioFile silentCodec steadySession w j).length) =
        (requestedFrames steadyTranscoder w).map fun _ ↦ 1 :=
    List.map_congr_left fun j hj ↦ by rw [encodedFrame_steadyAudioFile hw hj]; rfl
  rw [hlength, hcost, hpayloads, List.map_const', List.sum_replicate_nat, hframes]
  omega

/-- Both segments are fetched. -/
theorem segments_steadyRun :
    ∀ i : ℕ, i < 2 → ∃ k ∈ (poolAfter (fun _ ↦ steadyAudioFile) silentCodec 0 steadyRun).threads,
      k.path = threeCueSegment i ∧
        ∃ bytes, k.stage.got "video/mp4" = some bytes ∧ bytes.length < 2 ^ 31 := by
  obtain ⟨hlater, hfirst, hany⟩ := toBuild_steady
  obtain ⟨o, ho, hopen⟩ := (Option.any_eq_true _ _).mp hany
  have hstart : ⟨0, 0, 10000⟩ ∈ fileWindows steadyAudioFile := by
    rw [fileWindows_steadyAudioFile]
    exact List.mem_cons_self
  have hend : ⟨1, 10000, 20000⟩ ∈ fileWindows steadyAudioFile := by
    rw [fileWindows_steadyAudioFile]
    exact List.mem_cons_of_mem _ List.mem_cons_self
  have hholds : ServingHolds (fun _ ↦ steadyAudioFile) silentCodec ∅
      (poolAfter (fun _ ↦ steadyAudioFile) silentCodec 0 steadyToBuild) :=
    ThreadPool.Holds.finalState (serving_keeps _ silentCodec ∅) (servingHolds_startUp 0)
      (opensFiles_steady (fun move hmove ↦ List.mem_append_left _ hmove) _)
  have hopens := opensFiles_steady (fun move hmove ↦ List.mem_append_right steadyToBuild hmove)
    (poolAfter (fun _ ↦ steadyAudioFile) silentCodec 0 steadyToBuild)
  rw [poolAfter, steadyRun, CallRun.finalState_append, ← poolAfter, CallRun.finalState,
    List.foldl_cons, List.foldl_cons, List.foldl_nil]
  generalize poolAfter (fun _ ↦ steadyAudioFile) silentCodec 0 steadyToBuild = p at *
  -- the first window is built, while the other handler stays where it is
  obtain ⟨⟨s₀, bytes, hcreate, hsegment, hanswered⟩, o', ho', -, hopen'⟩ := hholds.answers_build
    hfirst ho hopen playable_steadyAudioFile (ownSamples_steadyAudioFile _ hstart).1
  have hnext := ThreadPool.Holds.step (serving_keeps _ silentCodec ∅) hholds hopens.1
  have hlater' : (serverStep (fun _ ↦ steadyAudioFile) silentCodec
      (.proceed 2 (.opened steadyAudioFile.context)) p).2.threads[1]? = _ :=
    ThreadPool.getElem?_threads_step_of_ne (by simp) hlater
  obtain ⟨⟨s₀', bytes', hcreate', hsegment', hanswered'⟩, -⟩ := ServingHolds.answers_build hnext
    hlater' ho' hopen' playable_steadyAudioFile (ownSamples_steadyAudioFile _ hend).1
  have hkept : (serverStep (fun _ ↦ steadyAudioFile) silentCodec
      (.proceed 1 (.opened steadyAudioFile.context)) _).2.threads[2]? = _ :=
    ThreadPool.getElem?_threads_step_of_ne (by simp) hanswered
  obtain rfl := Except.ok.inj (create_steadyAudioFile.symm.trans hcreate)
  obtain rfl := Except.ok.inj (create_steadyAudioFile.symm.trans hcreate')
  intro i hi
  obtain rfl | rfl := Nat.le_one_iff_eq_zero_or_eq_one.mp (Nat.lt_succ_iff.mp hi)
  · refine ⟨_, List.mem_of_getElem? hkept, rfl, bytes, ?_,
      length_segment_steady hstart hsegment⟩
    simp [Stage.got, contentReply]
  · refine ⟨_, List.mem_of_getElem? hanswered', rfl, bytes', ?_,
      length_segment_steady hend hsegment'⟩
    simp [Stage.got, contentReply]

theorem playlist_plays_audio_two_windows :
    let threads := (CallRun.finalState (serverStep (fun _ ↦ steadyAudioFile) silentCodec)
      steadyRun (startUp 0)).threads
    ∃ h ∈ threads, ∃ p replies, Fetched threads h.path p replies ∧
      replies.map audioFrames =
        [some ((frameRange (-1) 468).map fun j ↦ (1024 * j, [9])),
          some ((frameRange 468 937).map fun j ↦ (1024 * j, [9]))] ∧
      ((fileWindows steadyAudioFile).flatMap
          (windowFrames steadyAudioFile silentCodec steadySession steadyTranscoder)).map Prod.fst =
        (frameRange (-1) 937).map (1024 * ·) := by
  intro threads
  have hplaylist := List.mem_of_getElem? playlist_steadyRun
  have hinfohash : IsInfohash (sampleInfohash.map Char.toLower) :=
    isInfohash_sampleInfohash.map_toLower
  obtain ⟨text, hgenerate, hgot⟩ := exists_got_threeCuePlaylist
  obtain ⟨p, hread, hplays⟩ := @playlist_plays_audio Unit Unit ℤ (fun _ ↦ steadyAudioFile)
    silentCodec flushForgets_silentCodec (sampleInfohash.map Char.toLower) steadySession rfl
    steadyTranscoder rfl wellEncoded_steadyAudioFile ∅ 0 steadyRun
    (opensFiles_steady (fun _ hmove ↦ hmove) _) _ hplaylist asksManifest_threeCuePlaylist _ hgot
  obtain ⟨p', hread', hcount, huri⟩ := read_playlist (by decide) (by decide) hinfohash hgenerate
  obtain rfl : p' = p := by
    rw [readPlaylist_bodyOfString, hread'] at hread
    exact Option.some.inj hread
  obtain ⟨k, hk, hkpath, bytes, hkgot, hsize⟩ := segments_steadyRun 0 (by decide)
  obtain ⟨k', hk', hkpath', bytes', hkgot', hsize'⟩ := segments_steadyRun 1 (by decide)
  have hfetched : Fetched threads threeCuePlaylist p' [bytes, bytes'] := by
    refine ⟨(Nat.succ.inj hcount).symm, fun i segment reply hsegment hreply ↦ ?_⟩
    rw [huri i segment hsegment, threeCuePlaylist, resolve_segmentUri hinfohash (by decide)]
    have hi : i < 2 := (List.getElem?_eq_some_iff.mp hreply).1
    obtain rfl | rfl := Nat.le_one_iff_eq_zero_or_eq_one.mp (Nat.lt_succ_iff.mp hi)
    · cases hreply
      exact ⟨hsize, k, hk, hkpath, hkgot⟩
    · cases hreply
      exact ⟨hsize', k', hk', hkpath', hkgot'⟩
  obtain ⟨hframes, htimes⟩ := hplays _ hfetched
  refine ⟨_, hplaylist, p', _, hfetched, ?_, ?_⟩
  · have hwindow : ∀ w ∈ fileWindows steadyAudioFile,
        windowFrames steadyAudioFile silentCodec steadySession steadyTranscoder w =
          (requestedFrames steadyTranscoder w).map fun j ↦ (1024 * j, [9]) :=
      fun w hw ↦ List.map_congr_left fun j hj ↦ by rw [encodedFrame_steadyAudioFile hw hj]
    have hfirst : requestedFrames steadyTranscoder ⟨0, 0, 10000⟩ = frameRange (-1) 468 :=
      congrArg₂ frameRange (by decide +kernel) (by decide +kernel)
    have hlast : requestedFrames steadyTranscoder ⟨1, 10000, 20000⟩ = frameRange 468 937 :=
      congrArg₂ frameRange (by decide +kernel) (by decide +kernel)
    rw [hframes, List.map_congr_left fun w hw ↦ congrArg some (hwindow w hw),
      fileWindows_steadyAudioFile, List.map_cons, List.map_singleton, hfirst, hlast]
  · rw [fileWindows_steadyAudioFile] at htimes ⊢
    have hstart : startFrame steadyTranscoder ⟨0, 0, 10000⟩ = -1 := by decide +kernel
    have hend : endFrame steadyTranscoder ⟨1, 10000, 20000⟩ = 937 := by decide +kernel
    have hall := htimes ⟨0, 0, 10000⟩ rfl ⟨1, 10000, 20000⟩ rfl
    rwa [hstart, hend] at hall

end Server

end Fmp4Packager
