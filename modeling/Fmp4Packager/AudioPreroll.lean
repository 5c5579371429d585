import Fmp4Packager.AudioAlignment
import Fmp4Packager.AudioPartition
import Fmp4Packager.FrameFallback

/-!
# Preroll and lookahead

A build decodes the audio packets from the preroll cut on, up to the lookahead past
the end of its window.  Where the file has audio all that time, this gives enough
samples for every requested frame, also when the encoder holds one frame back.
-/

namespace Fmp4Packager

namespace AacTranscoder

variable {δ ε α : Type}

/-- The packets that the encoder returns for a list of frames. -/
def encodeAll (c : AacCodec δ ε α) (encoder : ε) : List (AacFrame α) → List AVPacket
  | [] => []
  | frame :: frames =>
      let (encoder, pkts) := c.encode encoder frame
      pkts ++ encodeAll c encoder frames

/-- For all frames but the last one there is a packet with the timestamp of the
frame. -/
def HoldsBackOne (c : AacCodec δ ε α) : Prop :=
  ∀ encoder frames last, ∀ frame ∈ frames,
    ∃ pkt ∈ encodeAll c (c.flushEncoder encoder) (frames ++ [last]),
      pkt.pts = frame.pts ∧ pkt.data ≠ []

theorem encodeUntil_packets (c : AacCodec δ ε α) (cutoffPts48k : ℤ) (t : AacTranscoder δ ε α)
    {pkt : AVPacket}
    (hpkt : pkt ∈ encodeAll c t.encoder (t.encodeUntil c cutoffPts48k).2.1)
    (hpts : pkt.pts ≠ avNoptsValue) :
    ∃ out ∈ (t.encodeUntil c cutoffPts48k).2.2, out.pts = pkt.pts ∧ out.data = pkt.data := by
  induction hlen : t.leftQueue.length using Nat.strong_induction_on generalizing t with
  | _ n ih =>
      rw [encodeUntil_eq] at hpkt ⊢
      split at hpkt
      · next hfull =>
          rw [if_pos hfull]
          rcases List.mem_append.mp hpkt with hpkt | hpkt
          · refine ⟨stampPacket t.audioPts pkt, List.mem_append_left _ (List.mem_map_of_mem hpkt),
              ?_⟩
            simp only [stampPacket, if_neg hpts]
            split
            · exact ⟨rfl, rfl⟩
            · exact ⟨rfl, rfl⟩
          · obtain ⟨out, hout, heq⟩ := ih _
              (by rw [encodeFrame_leftQueue, List.length_drop]; omega) (t.encodeFrame c).1 hpkt rfl
            exact ⟨out, List.mem_append_right _ hout, heq⟩
      · simp [encodeAll] at hpkt

theorem lt_length_encodeUntil (c : AacCodec δ ε α) (cutoffPts48k : ℤ) (k : ℕ)
    (t : AacTranscoder δ ε α) (hleft : 1024 * (k + 1) ≤ t.leftQueue.length)
    (hright : 1024 * (k + 1) ≤ t.rightQueue.length)
    (hcutoff : t.audioPts + 1024 * (k + 1) ≤ cutoffPts48k) :
    k < (t.encodeUntil c cutoffPts48k).2.1.length := by
  induction k generalizing t with
  | zero =>
      rw [encodeUntil_eq, if_pos ⟨by omega, by omega, by omega⟩]
      simp
  | succ k ih =>
      rw [encodeUntil_eq, if_pos ⟨by omega, by omega, by push_cast at hcutoff; omega⟩]
      have hnext := ih (t.encodeFrame c).1
        (by rw [encodeFrame_leftQueue, List.length_drop]; omega)
        (by rw [encodeFrame_rightQueue, List.length_drop]; omega)
        (by rw [encodeFrame_audioPts]; push_cast at hcutoff ⊢; omega)
      simpa using hnext

theorem foldl_decode_encoder (c : AacCodec δ ε α) (pkts : List AVPacket)
    (t : AacTranscoder δ ε α) : (pkts.foldl (decode c) t).encoder = t.encoder := by
  induction pkts generalizing t with
  | nil => rfl
  | cons pkt pkts ih => rw [List.foldl_cons, ih, decode]

theorem foldl_decode_queues {c : AacCodec δ ε α} {len : AVPacket → ℕ}
    (hdecode : ∀ decoder pkt, (c.decode decoder pkt).2.length = len pkt) (pkts : List AVPacket)
    (t : AacTranscoder δ ε α) :
    (pkts.foldl (decode c) t).leftQueue.length = t.leftQueue.length + (pkts.map len).sum ∧
      (pkts.foldl (decode c) t).rightQueue.length = t.rightQueue.length + (pkts.map len).sum ∧
      (pkts.foldl (decode c) t).audioPts = t.audioPts := by
  induction pkts generalizing t with
  | nil => exact ⟨rfl, rfl, rfl⟩
  | cons pkt pkts ih =>
      obtain ⟨hleft, hright, hpts⟩ := ih (t.decode c pkt)
      have hsamples := hdecode t.decoder pkt
      rw [List.foldl_cons, hleft, hright, hpts, List.map_cons, List.sum_cons]
      simp only [decode, List.length_append, List.length_map, hsamples]
      exact ⟨by omega, by omega, trivial⟩

end AacTranscoder

namespace Session

variable {δ ε α : Type}

/-- The audio packets of the file, where each packet starts on a clock of 48 kHz and
how many samples it has: from the preroll cut to the lookahead past the end of the
window they leave out no sample; the build reads all from the cut on, in the order
of their milliseconds, which are rounded to the nearest. -/
structure CoversWindow (w : Window) (aud : AVStream) (i : BuildInputs) (start : AVPacket → ℤ)
    (len : AVPacket → ℕ) (source packets : List AVPacket) : Prop where
  covered : ∀ x, 48 * audioDecodeStartMs w.segmentStartMs ≤ x →
    x < 48 * (w.segmentEndMs + kAudioLookaheadMs) →
    ∃ pkt ∈ source, start pkt ≤ x ∧ x < start pkt + len pkt
  short : ∀ pkt ∈ source, len pkt ≤ 4800
  timed : ∀ pkt ∈ source, pkt.pts ≠ avNoptsValue ∧
    |48 * avRescaleQ pkt.pts aud.timeBase kMsTb - start pkt| ≤ 24
  read : ∀ pkt ∈ source,
    audioDecodeStartMs w.segmentStartMs ≤ avRescaleQ pkt.pts aud.timeBase kMsTb →
    pkt ∈ audioTrack i packets
  ordered : (audioTrack i packets).Pairwise fun x y ↦ audioPktMs i x ≤ audioPktMs i y

theorem mem_takeWhile_of_pairwise {β : Type} {p : β → Bool} {R : β → β → Prop} {xs : List β}
    (hxs : xs.Pairwise R) (hp : ∀ x y, R x y → p y → p x) {y : β} (hy : y ∈ xs) (hpy : p y) :
    y ∈ xs.takeWhile p := by
  induction xs with
  | nil => exact absurd hy (by simp)
  | cons x xs ih =>
      obtain ⟨hx, hxs⟩ := List.pairwise_cons.mp hxs
      rcases List.mem_cons.mp hy with rfl | hy
      · rw [List.takeWhile_cons_of_pos hpy]
        exact List.mem_cons_self
      · rw [List.takeWhile_cons_of_pos (hp x y (hx y hy) hpy)]
        exact List.mem_cons_of_mem x (ih hxs hy)

/-- Every audio packet from the preroll cut up to the lookahead is decoded. -/
theorem mem_acceptedAudio {i : BuildInputs} {aud : AVStream} (haud : i.audStream = some aud)
    (hidx : 0 ≤ i.audioIdx) (hne : i.audioIdx ≠ i.videoIdx) {packets : List AVPacket}
    (hordered : (audioTrack i packets).Pairwise fun x y ↦ audioPktMs i x ≤ audioPktMs i y)
    {pkt : AVPacket} (hpkt : pkt ∈ audioTrack i packets)
    (hfrom : audioDecodeStartMs i.segmentStartMs ≤ audioPktMs i pkt)
    (hto : audioPktMs i pkt ≤ i.segmentEndMs + kAudioLookaheadMs) :
    pkt ∈ acceptedAudio i packets := by
  have hwhole : packets =
      (beforeRun i packets ++ segmentRun i packets) ++ boundaryOnwards i packets := by
    rw [List.append_assoc, segmentRun_append_boundaryOnwards]
    exact (ListCut.before_append_onwards ..).symm
  refine List.mem_filter.mpr ⟨?_, by simpa using hfrom⟩
  rw [filter_isAudio hne]
  rw [hwhole, audioTrack, List.filter_append] at hpkt
  rcases List.mem_append.mp hpkt with hpkt | hpkt
  · exact List.mem_append_left _ hpkt
  · refine List.mem_append_right _ ?_
    have hsub : (audioTrack i (boundaryOnwards i packets)).Sublist (audioTrack i packets) := by
      conv_rhs => rw [hwhole, audioTrack, List.filter_append]
      exact List.sublist_append_right ..
    have hpast := hordered.sublist hsub
    rw [← audioTrack_boundaryOnwards hne] at hpast
    rw [← audioTrack, ← audioTrack_boundaryOnwards hne] at hpkt
    rw [audioPastBoundary, if_pos ⟨hidx, by rw [haud]; rfl⟩]
    refine mem_takeWhile_of_pairwise hpast (fun x y hxy hy ↦ ?_) hpkt (by simpa using hto)
    simp only [decide_eq_true_eq] at hy ⊢
    exact hxy.trans hy

/-- The packets that are decoded hold all samples from at most one packet after the
preroll cut on. -/
theorem samples_acceptedAudio {w : Window} {vid aud : AVStream} {d : Demuxer}
    {start : AVPacket → ℤ} {len : AVPacket → ℕ} {source : List AVPacket}
    (hidx : 0 ≤ d.audioStreamIdx) (hne : d.audioStreamIdx ≠ d.videoStreamIdx)
    (h : CoversWindow w aud (buildInputs w vid (some aud) d) start len source d.packets) :
    48 * (w.segmentEndMs - audioDecodeStartMs w.segmentStartMs) + 7200 ≤
      (((acceptedAudio (buildInputs w vid (some aud) d) d.packets).map len).sum : ℤ) := by
  have hcover : ∀ x, 48 * audioDecodeStartMs w.segmentStartMs + 4800 ≤ x →
      x < 48 * (w.segmentEndMs + kAudioLookaheadMs) →
      ∃ pkt ∈ acceptedAudio (buildInputs w vid (some aud) d) d.packets,
        start pkt ≤ x ∧ x < start pkt + len pkt := by
    intro x hlow hhigh
    obtain ⟨pkt, hpkt, hstart, hend⟩ := h.covered x (by omega) hhigh
    have hshort := h.short pkt hpkt
    obtain ⟨hpts, hround⟩ := h.timed pkt hpkt
    have hms : audioPktMs (buildInputs w vid (some aud) d) pkt =
        avRescaleQ pkt.pts aud.timeBase kMsTb := if_pos hpts
    rw [abs_le] at hround
    have hfrom : audioDecodeStartMs w.segmentStartMs ≤
        avRescaleQ pkt.pts aud.timeBase kMsTb := by omega
    refine ⟨pkt, ?_, hstart, hend⟩
    refine mem_acceptedAudio rfl hidx hne h.ordered (h.read pkt hpkt hfrom) ?_ ?_
    · rw [hms]
      exact hfrom
    · rw [hms]
      exact show avRescaleQ pkt.pts aud.timeBase kMsTb ≤ w.segmentEndMs + kAudioLookaheadMs by omega
  have hsum := Signal.sub_le_sum_of_covered hcover
  rw [kAudioLookaheadMs] at hsum
  omega

/-! ## The requested frames -/

/-- The frames that the encoder of a build provides, as its loops leave them. -/
def thisBuildFrames (c : AacCodec δ ε α) (w : Window) (vid : AVStream) (aud : Option AVStream)
    (s : Session δ ε α) : KeyedCache ℤ (List UInt8) :=
  (readPackets c (buildInputs w vid aud s.demuxer) s.demuxer.packets
    { aac := s.aac, audioFrameCache := s.audioFrameCache }).1.audio.thisBuildAac

theorem thisBuildFrames_eq (c : AacCodec δ ε α) (w : Window) (vid : AVStream)
    (aud : Option AVStream) {s : Session δ ε α} (hempty : ∀ t ∈ s.aac, t.leftQueue = []) :
    thisBuildFrames c w vid aud s = ownFrames (buildPackets c w vid aud s) := by
  have hdrained : Drained c (audioCutoffPts (buildInputs w vid aud s.demuxer).segmentEndMs)
      ⟨s.aac, s.audioFrameCache, ∅, []⟩ := drained_of_empty c _ hempty
  obtain ⟨-, haudio⟩ := readPackets_eq c (buildInputs w vid aud s.demuxer) s.demuxer.packets
    hdrained
  rw [thisBuildFrames, haudio, drainAac_foldl_decodeAac]
  rfl

/-- Where the transcoder is reset to a whole frame, `k` frames before the requested
one, and enough samples are decoded for that frame and one more, the frame is
one of the build. -/
theorem mem_frameIndices_of_samples {c : AacCodec δ ε α} (hholds : AacTranscoder.HoldsBackOne c)
    {len : AVPacket → ℕ}
    (hdecode : ∀ decoder pkt, (c.decode decoder pkt).2.length = len pkt) {cutoff first j : ℤ}
    (t : AacTranscoder δ ε α) {pkts : List AVPacket} (hfirst : -1 ≤ first) (hj : first ≤ j)
    (hsamples : 1024 * (j - first + 2) ≤ ((pkts.map len).sum : ℤ))
    (hcutoff : 1024 * (j + 2) ≤ cutoff) :
    j ∈ frameIndices ((t.reset c (first * 1024)).transcode c cutoff pkts).2.2 := by
  obtain ⟨k, hk⟩ := Int.eq_ofNat_of_zero_le (sub_nonneg.mpr hj)
  obtain ⟨hleft, hright, hpts⟩ :=
    AacTranscoder.foldl_decode_queues hdecode pkts (t.reset c (first * 1024))
  have hencoder := AacTranscoder.foldl_decode_encoder c pkts (t.reset c (first * 1024))
  rw [AacTranscoder.transcode]
  generalize pkts.foldl (AacTranscoder.decode c) (t.reset c (first * 1024)) = u at *
  simp only [AacTranscoder.reset, List.length_nil, zero_add] at hleft hright hpts hencoder
  have hsent : k + 1 < (u.encodeUntil c cutoff).2.1.length :=
    AacTranscoder.lt_length_encodeUntil c cutoff (k + 1) u (by omega) (by omega)
      (by push_cast; omega)
  have hne : (u.encodeUntil c cutoff).2.1 ≠ [] := List.ne_nil_of_length_pos (by omega)
  have hfront : k < (u.encodeUntil c cutoff).2.1.dropLast.length := by
    rw [List.length_dropLast]
    omega
  obtain ⟨-, -, hframe⟩ := AacTranscoder.frame_of_encodeUntil c cutoff k u
    (List.getElem?_eq_getElem (by omega : k < (u.encodeUntil c cutoff).2.1.length))
  obtain ⟨pkt, hpkt, hpktPts, hdata⟩ := hholds t.encoder (u.encodeUntil c cutoff).2.1.dropLast
    ((u.encodeUntil c cutoff).2.1.getLast hne) _ (List.getElem_mem hfront)
  rw [List.dropLast_append_getLast, ← hencoder] at hpkt
  rw [List.getElem_dropLast, hframe] at hpktPts
  have hpktPts : pkt.pts = j * 1024 := by
    rw [hpktPts, hpts]
    dsimp only
    omega
  have hpresent : pkt.pts ≠ avNoptsValue := by
    rw [hpktPts, avNoptsValue]
    omega
  obtain ⟨out, hout, houtPts, houtData⟩ :=
    AacTranscoder.encodeUntil_packets c cutoff u hpkt hpresent
  refine List.mem_filterMap.mpr ⟨out, hout, ?_⟩
  rw [frameOf, houtPts, houtData, if_pos ⟨hpresent, hdata⟩, hpktPts, audioFrameIndexForPts,
    floorDiv_eq_ediv, Int.mul_ediv_cancel _ (by decide)]

/-- The frame at which the transcoder of a build is reset. -/
def resetFrame (w : Window) : ℤ :=
  if w.segmentIdx = 0 then -1 else 48 * audioDecodeStartMs w.segmentStartMs / 1024

theorem resetPts_eq {w : Window} {t : AacTranscoder δ ε α} (hpadding : t.initialPadding = 1024) :
    resetPts w t = resetFrame w * 1024 := by
  rw [resetPts, resetFrame]
  split
  · rw [hpadding]
    rfl
  · rw [audioEncodeStartPts, audioFrameIndexForPts_msToAudioPts]

theorem startFrame_eq {w : Window} {t : AacTranscoder δ ε α} (hpadding : t.initialPadding = 1024) :
    startFrame t w = if w.segmentIdx = 0 then -1 else 48 * w.segmentStartMs / 1024 := by
  split
  · next hidx =>
      rw [startFrame, outputStartFrame, if_pos hidx, hpadding, audioFrameIndexForPts,
        floorDiv_eq_ediv]
      rfl
  · next hidx => exact startFrame_of_ne_zero t hidx

/-- From the reset frame to a requested one it is at most the window, the preroll and
a frame; the lookahead has room for two more frames. -/
theorem requestedFrames_withinReach {w : Window} {t : AacTranscoder δ ε α}
    (hpadding : t.initialPadding = 1024)
    (hidx : 1 ≤ w.segmentIdx ∨ w.segmentIdx = 0 ∧ w.segmentStartMs = 0)
    (hstart : 0 ≤ w.segmentStartMs) (hend : w.segmentStartMs ≤ w.segmentEndMs) {j : ℤ}
    (hj : j ∈ requestedFrames t w) :
    -1 ≤ resetFrame w ∧ resetFrame w ≤ j ∧
      1024 * (j - resetFrame w + 2) ≤
        48 * (w.segmentEndMs - audioDecodeStartMs w.segmentStartMs) + 7200 ∧
      1024 * (j + 2) ≤ 48 * (w.segmentEndMs + kAudioLookaheadMs) := by
  obtain ⟨hlow, hhigh⟩ := mem_requestedFrames.mp hj
  rw [endFrame_eq] at hhigh
  rw [startFrame_eq hpadding] at hlow hhigh
  rw [resetFrame, audioDecodeStartMs, kAudioPrerollMs, kAudioLookaheadMs]
  rcases hidx with hidx | ⟨hidx, hzero⟩
  · have hne : w.segmentIdx ≠ 0 := by omega
    rw [if_neg hne] at hlow hhigh ⊢
    omega
  · rw [if_pos hidx] at hlow hhigh ⊢
    omega

/-- Every requested frame is one that the encoder of this build provides, so none is
missing and none is taken from the session's cache. -/
theorem requestedFrames_thisBuild {c : AacCodec δ ε α} {w : Window} {vid aud : AVStream}
    {d : Demuxer} {s : Session δ ε α} {t : AacTranscoder δ ε α} {start : AVPacket → ℤ}
    {len : AVPacket → ℕ} {source : List AVPacket} (haac : s.aac = some t)
    (hpadding : t.initialPadding = 1024)
    (hidx : 1 ≤ w.segmentIdx ∨ w.segmentIdx = 0 ∧ w.segmentStartMs = 0)
    (hstart : 0 ≤ w.segmentStartMs) (hend : w.segmentStartMs ≤ w.segmentEndMs)
    (hstream : 0 ≤ d.audioStreamIdx) (hne : d.audioStreamIdx ≠ d.videoStreamIdx)
    (hdecode : ∀ decoder pkt, (c.decode decoder pkt).2.length = len pkt)
    (hholds : AacTranscoder.HoldsBackOne c)
    (hcovers : CoversWindow w aud (buildInputs w vid (some aud) d) start len source d.packets) :
    (∀ j ∈ requestedFrames t w, j ∈ thisBuildFrames c w vid (some aud) (afterSeek c w d s)) ∧
      ∀ cache, outputAudioFrames (thisBuildFrames c w vid (some aud) (afterSeek c w d s)) cache
          (requestedFrames t w) =
        (requestedFrames t w).map fun j ↦ audioSample j
          (((thisBuildFrames c w vid (some aud) (afterSeek c w d s)).lookup j).getD []) := by
  have hbuilt : ∀ j ∈ requestedFrames t w,
      j ∈ thisBuildFrames c w vid (some aud) (afterSeek c w d s) := by
    intro j hj
    obtain ⟨hfirst, hle, hreach, hroom⟩ :=
      requestedFrames_withinReach hpadding hidx hstart hend hj
    have hsamples := samples_acceptedAudio hstream hne hcovers
    have hpackets : buildPackets c w vid (some aud) (afterSeek c w d s) =
        ((t.reset c (resetFrame w * 1024)).transcode c (audioCutoffPts w.segmentEndMs)
          (acceptedAudio (buildInputs w vid (some aud) d) d.packets)).2.2 := by
      rw [← resetPts_eq hpadding, buildPackets, afterSeek, haac]
      rfl
    rw [thisBuildFrames_eq c w vid (some aud) (leftQueue_afterSeek c w d s), mem_ownFrames,
      hpackets]
    refine mem_frameIndices_of_samples hholds hdecode t hfirst hle (hreach.trans hsamples) ?_
    rwa [audioCutoffPts, msToAudioPts_eq]
  refine ⟨hbuilt, fun cache ↦ ?_⟩
  rw [outputAudioFrames, ← List.filterMap_eq_map]
  apply List.filterMap_congr
  intro j hj
  obtain ⟨payload, hpayload⟩ := Option.isSome_iff_exists.mp (AList.lookup_isSome.mpr (hbuilt j hj))
  rw [Function.comp_apply, hpayload]
  rfl

/-! Half a second of audio in five packets, the keyframes of the video between them, and
an encoder that gives a frame out when it gets the next one. -/

def halfSecond : List AVPacket :=
  [⟨1, 0, 0, 4800, true, [1]⟩, ⟨1, 100, 100, 4800, true, [2]⟩, ⟨1, 200, 200, 4800, true, [3]⟩,
    ⟨1, 300, 300, 4800, true, [4]⟩, ⟨1, 400, 400, 4800, true, [5]⟩]

def interleaved : Demuxer where
  packets := [⟨1, 0, 0, 4800, true, [1]⟩, ⟨0, 100, 100, 100, true, [8]⟩,
    ⟨1, 100, 100, 4800, true, [2]⟩, ⟨0, 200, 200, 100, true, [9]⟩,
    ⟨1, 200, 200, 4800, true, [3]⟩, ⟨1, 300, 300, 4800, true, [4]⟩,
    ⟨1, 400, 400, 4800, true, [5]⟩]
  videoStreamIdx := 0
  audioStreamIdx := 1

def framePacket (frame : AacFrame ℤ) : AVPacket := ⟨0, frame.pts, frame.pts, 0, true, [7]⟩

def delayingCodec : AacCodec Unit (Option AVPacket) ℤ where
  openCodec := fun _ ↦ .error "AacTranscoder: source decoder not found"
  decode := fun _ pkt ↦ ((), List.replicate (durationLen pkt) (0, 0))
  flushDecoder := id
  encode := fun held frame ↦ (some (framePacket frame), held.toList)
  flushEncoder := fun _ ↦ none

theorem encodeAll_delayingCodec (held : Option AVPacket) (frames : List (AacFrame ℤ))
    (last : AacFrame ℤ) :
    AacTranscoder.encodeAll delayingCodec held (frames ++ [last]) =
      held.toList ++ frames.map framePacket := by
  induction frames generalizing held with
  | nil => rfl
  | cons frame frames ih =>
      rw [List.cons_append, AacTranscoder.encodeAll]
      dsimp only [delayingCodec]
      rw [← delayingCodec, ih]
      rfl

theorem holdsBackOne_delayingCodec : AacTranscoder.HoldsBackOne delayingCodec := by
  intro encoder frames last frame hframe
  refine ⟨framePacket frame, ?_, rfl, by simp [framePacket]⟩
  rw [encodeAll_delayingCodec]
  exact List.mem_append_right _ (List.mem_map_of_mem hframe)

def delayingTranscoder : AacTranscoder Unit (Option AVPacket) ℤ :=
  AacTranscoder.ofOpened ⟨(), none, 1024, (millisecondStream .audio).codecpar⟩

def delayingSession : Session Unit (Option AVPacket) ℤ where
  demuxer := {}
  aac := some delayingTranscoder

theorem coversWindow_interleaved :
    CoversWindow ⟨1, 100, 200⟩ (millisecondStream .audio)
      (buildInputs ⟨1, 100, 200⟩ (millisecondStream .video) (some (millisecondStream .audio))
        interleaved)
      (fun pkt ↦ 48 * pkt.pts) durationLen halfSecond interleaved.packets where
  covered := by
    intro x hlow hhigh
    simp only [audioDecodeStartMs, kAudioPrerollMs, kAudioLookaheadMs] at hlow hhigh
    simp [halfSecond, durationLen]
    omega
  short := by decide
  timed := by decide
  read := by decide
  ordered := by decide

theorem requestedFrames_thisBuild_interleaved :
    (∀ j ∈ requestedFrames delayingTranscoder ⟨1, 100, 200⟩,
        j ∈ thisBuildFrames delayingCodec ⟨1, 100, 200⟩ (millisecondStream .video)
          (some (millisecondStream .audio))
          (afterSeek delayingCodec ⟨1, 100, 200⟩ interleaved delayingSession)) ∧
      ∀ cache, outputAudioFrames
          (thisBuildFrames delayingCodec ⟨1, 100, 200⟩ (millisecondStream .video)
            (some (millisecondStream .audio))
            (afterSeek delayingCodec ⟨1, 100, 200⟩ interleaved delayingSession)) cache
          (requestedFrames delayingTranscoder ⟨1, 100, 200⟩) =
        (requestedFrames delayingTranscoder ⟨1, 100, 200⟩).map fun j ↦ audioSample j
          (((thisBuildFrames delayingCodec ⟨1, 100, 200⟩ (millisecondStream .video)
            (some (millisecondStream .audio))
            (afterSeek delayingCodec ⟨1, 100, 200⟩ interleaved delayingSession)).lookup j).getD
              []) :=
  requestedFrames_thisBuild rfl rfl (.inl le_rfl) (by decide) (by decide) (by decide) (by decide)
    (fun _ _ ↦ List.length_replicate) holdsBackOne_delayingCodec coversWindow_interleaved

end Session

end Fmp4Packager
