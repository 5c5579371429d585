import Fmp4Packager.CacheBounds
import Fmp4Packager.SegmentFields
import Fmp4Packager.TimeOrigin

/-!
# The segments that requests build

A request that finds nothing cached and returns a segment has built it.  Its tracks
are the video samples of the run and the requested audio frames that this build's
encoder or the session's cache has; the others are skipped.
-/

namespace Fmp4Packager

namespace Session

open Fmp4Writer IsoBox

variable {δ ε α : Type}

/-- The request builds a segment from the packets of `d`. -/
structure Builds (m : Media) (reopen : Reopen) (w : Window) (s : Session δ ε α) (d : Demuxer)
    (vid : AVStream) (aud : Option AVStream) : Prop where
  init : HasInit s
  miss : s.segmentCache.lookup w.segmentIdx = none
  seek : s.demuxer.seekToMs m reopen (audioDecodeStartMs w.segmentStartMs) = (.ok (), d)
  video : d.videoStream = .ok (some vid)
  audio : d.audioStream = .ok aud
  samples : runSamples w vid aud d ≠ []

/-- What the request returns has the fields `f`. -/
structure Built (m : Media) (c : AacCodec δ ε α) (reopen : Reopen) (w : Window)
    (s : Session δ ε α) (d : Demuxer) (vid : AVStream) (aud : Option AVStream)
    (f : SegmentFields) : Prop extends Builds m reopen w s d vid aud where
  response : ∃ bytes, (s.generateSegment m c reopen w).1 = .ok bytes ∧
    readSegmentFields 0xB05
      ((builtTracks c w vid aud (afterSeek c w d s)).map fun input ↦ input.2.1.length) bytes =
        some f

section Requests

variable {m : Media} {reopen : Reopen} {w : Window} {s : Session δ ε α} {d : Demuxer}
  {vid : AVStream} {aud : Option AVStream}

theorem Builds.generateSegment_fst (c : AacCodec δ ε α) (h : Builds m reopen w s d vid aud) :
    (s.generateSegment m c reopen w).1 =
      .ok (Fmp4Writer.segmentBytes (UInt32.ofInt (w.segmentIdx + 1))
        (builtTracks c w vid aud (afterSeek c w d s))) := by
  rcases generateSegment_cases m c reopen w s with
    ⟨built, bytes, ⟨stop, hnot, hinit, -⟩ | ⟨-, hsegment⟩⟩
  · rcases h.init with hbuilt | ⟨data, hdata⟩
    · cases hnot.symm.trans hbuilt
    · cases hinit.symm.trans hdata
  · have hfst := buildSegmentLocked_fst (s := { s with initBuilt := built, initCache := bytes }) c
      h.miss h.seek h.video h.audio
    rw [hsegment, hfst]
    have houtcome : buildOutcome c w vid aud
        (afterSeek c w d { s with initBuilt := built, initCache := bytes }) =
        buildOutcome c w vid aud (afterSeek c w d s) := rfl
    have hne : runSamples w vid aud (afterSeek c w d s).demuxer ≠ [] := h.samples
    rw [houtcome, buildOutcome, segmentOutcome, if_neg hne, segmentBytes_eq_layout]
    rfl

theorem Builds.built (c : AacCodec δ ε α) (h : Builds m reopen w s d vid aud) :
    Built m c reopen w s d vid aud (fieldsView (UInt32.ofInt (w.segmentIdx + 1))
      (builtTracks c w vid aud (afterSeek c w d s))) :=
  ⟨h, _, h.generateSegment_fst c, readSegmentFields_segmentBytes _ _⟩

theorem Built.eq_fieldsView {c : AacCodec δ ε α} {f : SegmentFields}
    (h : Built m c reopen w s d vid aud f) :
    f = fieldsView (UInt32.ofInt (w.segmentIdx + 1))
      (builtTracks c w vid aud (afterSeek c w d s)) := by
  obtain ⟨bytes, hbytes, hread⟩ := h.response
  cases hbytes.symm.trans (h.toBuilds.generateSegment_fst c)
  exact (Option.some.inj (hread.symm.trans (readSegmentFields_segmentBytes _ _)))

theorem hasInit_of_ok {c : AacCodec δ ε α} {bytes : List UInt8}
    (hok : (s.generateSegment m c reopen w).1 = .ok bytes) : HasInit s := by
  rw [generateSegment] at hok
  cases hbuilt : s.initBuilt with
  | true => exact .inl hbuilt
  | false =>
      rcases hinit : s.generateInitSegment with ⟨stop | data, s'⟩
      · rw [hbuilt, hinit] at hok
        cases hok
      · exact .inr ⟨data, by rw [hinit]⟩

/-- Every segment that is returned without being cached has been built. -/
theorem exists_built {c : AacCodec δ ε α} (hmiss : s.segmentCache.lookup w.segmentIdx = none)
    {bytes : List UInt8} (hok : (s.generateSegment m c reopen w).1 = .ok bytes) :
    ∃ d vid aud f, Built m c reopen w s d vid aud f := by
  have hinit := hasInit_of_ok hok
  rcases generateSegment_cases m c reopen w s with
    ⟨built, data, ⟨stop, -, -, hsegment⟩ | ⟨-, hsegment⟩⟩
  · rw [hsegment] at hok
    cases hok
  · rw [hsegment] at hok
    have hstep := buildSegmentLocked_buildStep m c reopen w
      { s with initBuilt := built, initCache := data }
    generalize buildSegmentLocked m c reopen w _ = result at hstep hok
    obtain ⟨outcome, s'⟩ := result
    cases hstep with
    | cached bytes hhit => cases hhit.symm.trans hmiss
    | seekFails stop d hmiss hseek => cases hok
    | streamFails stop d hmiss hseek hstreams => cases hok
    | builds d vid aud hmiss hseek hvid haud =>
        obtain ⟨packets, hbuild⟩ := buildFromPackets_eq c w vid aud
          (afterSeek c w d { s with initBuilt := built, initCache := data })
          (leftQueue_afterSeek c w d _)
        rw [hbuild] at hok
        have hsamples : runSamples w vid aud d ≠ [] :=
          (segmentOutcome_eq_ok_iff ..).mp ⟨bytes, hok⟩
        have hbuilds : Builds m reopen w s d vid aud := ⟨hinit, hmiss, hseek, hvid, haud, hsamples⟩
        exact ⟨d, vid, aud, _, hbuilds.built c⟩

end Requests

/-- The packets that the encoder of this build gives. -/
def encoded (c : AacCodec δ ε α) (w : Window) (s : Session δ ε α) (d : Demuxer) (vid : AVStream)
    (aud : Option AVStream) : List AVPacket :=
  buildPackets c w vid aud (afterSeek c w d s)

/-- The requested frames that the output loop writes, with their payloads. -/
def writtenFrames (c : AacCodec δ ε α) (w : Window) (s : Session δ ε α) (d : Demuxer)
    (vid : AVStream) (aud : Option AVStream) : List (ℤ × List UInt8) :=
  (outputFrames (s.aac.map AacTranscoder.initialPadding) w).filterMap fun j ↦
    (((ownFrames (encoded c w s d vid aud)).lookup j).or
      (((encoded c w s d vid aud).foldl keepFrame s.audioFrameCache).lookup j)).map fun payload ↦
        (j, payload)

/-- The frame is one of this build's encoder, or of the session's cache. -/
def Available (c : AacCodec δ ε α) (w : Window) (s : Session δ ε α) (d : Demuxer)
    (vid : AVStream) (aud : Option AVStream) (j : ℤ) : Prop :=
  j ∈ frameIndices (encoded c w s d vid aud) ∨ j ∈ s.audioFrameCache

instance (c : AacCodec δ ε α) (w : Window) (s : Session δ ε α) (d : Demuxer)
    (vid : AVStream) (aud : Option AVStream) (j : ℤ) : Decidable (Available c w s d vid aud j) :=
  inferInstanceAs (Decidable (_ ∨ _))

def audioInput (codecpar : Option AVCodecParameters) (frames : List (ℤ × List UInt8)) :
    TrackInput :=
  ({ trackId := 2, timescale := kAudioOutTb, codecpar := codecpar },
    frames.map (fun p ↦ audioSample p.1 p.2),
    (frames.head?.map fun p ↦ Int64.ofInt (p.1 * 1024)).getD 0)

section Audio

variable (c : AacCodec δ ε α) (w : Window) (s : Session δ ε α) (d : Demuxer) (vid : AVStream)
  (aud : Option AVStream)

theorem padding_afterSeek : (afterSeek c w d s).aac.map AacTranscoder.initialPadding =
    s.aac.map AacTranscoder.initialPadding := by
  rw [afterSeek, Option.map_map]
  rfl

theorem audioOutput_afterSeek :
    audioOutput (afterSeek c w d s).aac.isSome (buildPackets c w vid aud (afterSeek c w d s))
        (afterSeek c w d s).audioFrameCache
        (outputFrames ((afterSeek c w d s).aac.map AacTranscoder.initialPadding) w) =
      if s.aac.isSome then
        (writtenFrames c w s d vid aud).map fun p ↦ audioSample p.1 p.2
      else [] := by
  rw [padding_afterSeek, audioOutput, writtenFrames, List.map_filterMap]
  have hisSome : (afterSeek c w d s).aac.isSome = s.aac.isSome := Option.isSome_map
  rw [hisSome]
  congr 1
  apply List.filterMap_congr
  intro j _
  rw [Option.map_map]
  rfl

theorem builtTracks_afterSeek :
    builtTracks c w vid aud (afterSeek c w d s) =
      videoInput vid (fixVideoDurations (runSamples w vid aud d)) ::
        if s.aac.isSome ∧ s.aacCodecpar.isSome ∧ writtenFrames c w s d vid aud ≠ [] then
          [audioInput s.aacCodecpar (writtenFrames c w s d vid aud)]
        else [] := by
  have hisSome : (afterSeek c w d s).aac.isSome = s.aac.isSome := Option.isSome_map
  rw [builtTracks, audioOutput_afterSeek, hisSome, segmentTracks]
  congr 1
  by_cases haac : s.aac.isSome = true
  · have hhead : ∀ frames : List (ℤ × List UInt8),
        (frames.map fun p ↦ audioSample p.1 p.2).head?.map Sample.dts =
          frames.head?.map fun p ↦ Int64.ofInt (p.1 * 1024) := by
      intro frames
      rw [List.head?_map, Option.map_map]
      rfl
    simp only [haac, if_true, true_and, ne_eq, List.map_eq_nil_iff, hhead]
    rfl
  · rw [if_neg fun h ↦ haac h.1, if_neg fun h ↦ haac h.1]

theorem outputSample_isSome_iff {encPkts : List AVPacket} {cache : KeyedCache ℤ (List UInt8)}
    {j : ℤ} : (((ownFrames encPkts).lookup j).or
      ((encPkts.foldl keepFrame cache).lookup j)).isSome = true ↔
        j ∈ frameIndices encPkts ∨ j ∈ cache := by
  rw [Option.isSome_or, Bool.or_eq_true, AList.lookup_isSome, AList.lookup_isSome,
    mem_ownFrames, mem_foldl_keepFrame]
  tauto

theorem map_fst_filterMap {β γ : Type} (f : β → Option γ) (xs : List β) :
    (xs.filterMap fun x ↦ (f x).map fun y ↦ (x, y)).map Prod.fst =
      xs.filter fun x ↦ (f x).isSome := by
  induction xs with
  | nil => rfl
  | cons x xs ih =>
      rw [List.filter_cons, List.filterMap_cons]
      cases f x with
      | none => exact ih
      | some y => exact congrArg (x :: ·) ih

theorem map_fst_writtenFrames :
    (writtenFrames c w s d vid aud).map Prod.fst =
      (outputFrames (s.aac.map AacTranscoder.initialPadding) w).filter fun j ↦
        Available c w s d vid aud j := by
  rw [writtenFrames, map_fst_filterMap]
  apply List.filter_congr
  intro j _
  rw [Bool.eq_iff_iff, outputSample_isSome_iff, decide_eq_true_iff]
  rfl

end Audio

end Session

end Fmp4Packager
