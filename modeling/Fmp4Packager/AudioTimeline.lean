import Fmp4Packager.AudioReach
import Fmp4Packager.General.GaplessList
import Fmp4Packager.RequestHistory

/-!
# The audio times within a segment

A track fragment cannot express that a frame is left out: every sample is decoded when
the one before it ends.  The audio samples are at the times of their frames exactly when
the frames that the session has kept join those that the audio of the build reaches.
-/

namespace Fmp4Packager

namespace Session

open AacTranscoder Demuxer Fmp4Writer IsoBox GaplessList

variable {δ ε α : Type}

/-- Every audio sample of the segment that the call builds, if it builds one, is decoded
at the time of its frame.  The reader takes a tfdt for the number `time` of it. -/
def OnFrames (time : ℕ → ℤ) (m : Media) (c : AacCodec δ ε α) : Call → Session δ ε α → Prop
  | .generateSegment reopen w, s => ∀ d vid aud f, Built m c reopen w s d vid aud f →
      ∀ traf ∈ f.moof.content.trafs, traf.content.tfhd.content = 2 →
        ∀ j p, (writtenFrames c w s d vid aud)[j]? = some p →
          traf.content.decodeTime time j = 1024 * p.1
  | _, _ => True

/-- The requested frames that the session has before the call join those that the audio
accepted for it reaches: they go on where it ends. -/
def KeptFramesJoin (m : Media) {c : AacCodec δ ε α} (q : EncoderQueue c) (len : AVPacket → ℕ) :
    Call → Session δ ε α → Prop
  | .generateSegment reopen w, s => ∀ d vid aud, Builds m reopen w s d vid aud →
      ∀ aac ∈ s.aac, s.aacCodecpar.isSome →
        let samples := decodedSamples len w vid aud d
        Joins (requestedFrames aac w) (firstReached q w aac) (reachEnd q w aac samples)
          (Kept q w aac samples s)
  | _, _ => True

/-- The audio reaches no requested frame from before time zero, and none is kept. -/
def NoneBeforeZero (m : Media) {c : AacCodec δ ε α} (q : EncoderQueue c) (len : AVPacket → ℕ) :
    Call → Session δ ε α → Prop
  | .generateSegment reopen w, s => ∀ d vid aud, Builds m reopen w s d vid aud →
      ∀ aac ∈ s.aac, s.aacCodecpar.isSome → ∀ j ∈ requestedFrames aac w, j < 0 →
        let samples := decodedSamples len w vid aud d
        ¬(firstReached q w aac ≤ j ∧ j < reachEnd q w aac samples) ∧ ¬Kept q w aac samples s j
  | _, _ => True

/-- The audio times of the window fit the type in which they are computed. -/
def Call.TimesFit : Call → Prop
  | .generateSegment _ w =>
      FitsInt64 (msToAudioPts w.segmentStartMs) ∧ FitsInt64 (msToAudioPts w.segmentEndMs)
  | _ => True

def PaddingFits (s : Session δ ε α) : Prop :=
  ∀ padding ∈ s.aac.map AacTranscoder.initialPadding, padding < 2 ^ 31

theorem pairwise_frameRange (start end_ : ℤ) : (frameRange start end_).Pairwise (· < ·) := by
  rw [frameRange, List.pairwise_map]
  exact List.pairwise_lt_range.imp fun h ↦ by omega

theorem gapless_frameRange (start end_ : ℤ) : Gapless (frameRange start end_) := by
  intro a ha b hb k hak hkb
  rw [mem_frameRange] at ha hb ⊢
  omega

theorem fitsInt64_of_mem_requestedFrames {aac : AacTranscoder δ ε α} {w : Window}
    (hpadding : aac.initialPadding < 2 ^ 31)
    (hstart : FitsInt64 (msToAudioPts w.segmentStartMs))
    (hend : FitsInt64 (msToAudioPts w.segmentEndMs)) {j : ℤ}
    (hj : j ∈ requestedFrames aac w) : FitsInt64 (j * 1024) := by
  rw [mem_requestedFrames, endFrame_eq] at hj
  rw [msToAudioPts_eq, FitsInt64] at hstart hend
  have hpos := aac.initialPadding_pos
  have hfirst : -2 ^ 63 ≤ startFrame aac w * 1024 ∧ startFrame aac w * 1024 < 2 ^ 63 := by
    by_cases hidx : w.segmentIdx = 0
    · rw [startFrame, outputStartFrame, if_pos hidx, audioFrameIndexForPts, floorDiv_eq_ediv]
      omega
    · rw [startFrame_of_ne_zero aac hidx]
      omega
  rw [FitsInt64]
  omega

theorem durations_audioInput (dataOffset : ℕ) (codecpar : Option AVCodecParameters)
    (frames : List (ℤ × List UInt8)) :
    (trafFieldsView dataOffset (audioInput codecpar frames)).durations =
      List.replicate frames.length 1024 := by
  rw [TrafFields.durations, trafFieldsView]
  cases frames with
  | nil => rfl
  | cons p frames =>
      rw [List.eq_replicate_iff]
      refine ⟨by simp [audioInput, SizedBox.written, trunFieldsView], fun duration hmem ↦ ?_⟩
      simp only [audioInput, List.map_cons, List.isEmpty_cons, Bool.false_eq_true, if_false,
        SizedBox.written, trunFieldsView, List.map_map] at hmem
      rcases List.mem_cons.mp hmem with rfl | hmem
      · rfl
      · obtain ⟨q, -, rfl⟩ := List.mem_map.mp hmem
        rfl

theorem decodeTime_audioInput (time : ℕ → ℤ) (dataOffset : ℕ)
    (codecpar : Option AVCodecParameters) (first : ℤ × List UInt8)
    (rest : List (ℤ × List UInt8)) {j : ℕ} (hj : j < (first :: rest).length) :
    (trafFieldsView dataOffset (audioInput codecpar (first :: rest))).decodeTime time j =
      time (Int64.ofInt (first.1 * 1024)).toUInt64.toNat + 1024 * j := by
  have hsum : ((List.replicate (first :: rest).length 1024).take j).sum = 1024 * j := by
    rw [List.take_replicate, Nat.min_eq_left hj.le, List.sum_replicate_nat,
      Nat.mul_comm]
  rw [TrafFields.decodeTime, durations_audioInput, hsum]
  push_cast
  rfl

/-- Samples of 1024 ticks from `start` on are at the times of their frames exactly when
the first one is and the frames have no gap. -/
theorem times_onFrames_iff (start : ℤ) {first : ℤ × List UInt8} {rest : List (ℤ × List UInt8)}
    (hsorted : ((first :: rest).map Prod.fst).Pairwise (· < ·)) :
    (∀ (j : ℕ) (p : ℤ × List UInt8), (first :: rest)[j]? = some p →
        start + 1024 * j = 1024 * p.1) ↔
      start = 1024 * first.1 ∧ Gapless ((first :: rest).map Prod.fst) := by
  have hcounts := counts_iff_gapless hsorted
  constructor
  · intro htimes
    have hstart : start = 1024 * first.1 := by
      have hfirst := htimes 0 first rfl
      rwa [Nat.cast_zero, mul_zero, add_zero] at hfirst
    refine ⟨hstart, hcounts.mp fun j frame hframe ↦ ?_⟩
    rw [← List.map_cons, List.getElem?_map, Option.map_eq_some_iff] at hframe
    obtain ⟨p, hp, rfl⟩ := hframe
    have hj := htimes j p hp
    omega
  · rintro ⟨rfl, hgap⟩ j p hp
    have hj := hcounts.mpr hgap j p.1 (by
      rw [← List.map_cons, List.getElem?_map, hp]
      rfl)
    omega

section Build

variable {m : Media} {c : AacCodec δ ε α} {reopen : Reopen} {w : Window} {s : Session δ ε α}
  {d : Demuxer} {vid : AVStream} {aud : Option AVStream}

theorem map_fst_writtenFrames_of_some {aac : AacTranscoder δ ε α} (haac : s.aac = some aac) :
    (writtenFrames c w s d vid aud).map Prod.fst =
      (requestedFrames aac w).filter fun j ↦ Available c w s d vid aud j := by
  rw [map_fst_writtenFrames, haac]
  rfl

theorem pairwise_writtenFrames {aac : AacTranscoder δ ε α} (haac : s.aac = some aac) :
    ((writtenFrames c w s d vid aud).map Prod.fst).Pairwise (· < ·) := by
  rw [map_fst_writtenFrames_of_some haac]
  exact (pairwise_frameRange _ _).filter _

theorem gapless_writtenFrames_iff (q : EncoderQueue c) {len : AVPacket → ℕ}
    (hdecode : ∀ decoder pkt, (c.decode decoder pkt).2.length = len pkt)
    {aac : AacTranscoder δ ε α} (haac : s.aac = some aac) (hpadding : aac.initialPadding < 2 ^ 31) :
    Gapless ((writtenFrames c w s d vid aud).map Prod.fst) ↔
      Joins (requestedFrames aac w) (firstReached q w aac)
        (reachEnd q w aac (decodedSamples len w vid aud d))
        (Kept q w aac (decodedSamples len w vid aud d) s) := by
  have hrange : Gapless (requestedFrames aac w) := gapless_frameRange _ _
  rw [map_fst_writtenFrames_of_some haac]
  refine gapless_filter_iff_joins hrange fun k ↦ ?_
  rw [decide_eq_true_iff]
  exact available_iff_reached q hdecode haac hpadding d vid aud k

theorem audioTraf_of_built {f : SegmentFields} (h : Built m c reopen w s d vid aud f)
    {traf : SizedBox TrafFields} (htraf : traf ∈ f.moof.content.trafs)
    (hid : traf.content.tfhd.content = 2) :
    ∃ aac dataOffset, s.aac = some aac ∧ s.aacCodecpar.isSome ∧
      writtenFrames c w s d vid aud ≠ [] ∧
        traf.content =
          trafFieldsView dataOffset (audioInput s.aacCodecpar (writtenFrames c w s d vid aud)) := by
  rw [h.eq_fieldsView, builtTracks_afterSeek] at htraf
  obtain ⟨⟨dataOffset, input⟩, hp, rfl⟩ := List.mem_map.mp htraf
  obtain ⟨-, hinput⟩ := List.of_mem_zip hp
  rcases List.mem_cons.mp hinput with rfl | hinput
  · cases hid
  · split at hinput
    · next haudio =>
        obtain ⟨haac, hpar, hne⟩ := haudio
        obtain ⟨aac, haac⟩ := Option.isSome_iff_exists.mp haac
        obtain rfl := List.mem_singleton.mp hinput
        exact ⟨aac, dataOffset, haac, hpar, hne, rfl⟩
    · cases hinput

theorem exists_audioTraf (h : Builds m reopen w s d vid aud) {aac : AacTranscoder δ ε α}
    (haac : s.aac = some aac) (hpar : s.aacCodecpar.isSome)
    (hne : writtenFrames c w s d vid aud ≠ []) :
    ∃ f traf dataOffset, Built m c reopen w s d vid aud f ∧ traf ∈ f.moof.content.trafs ∧
      traf.content.tfhd.content = 2 ∧
        traf.content =
          trafFieldsView dataOffset (audioInput s.aacCodecpar (writtenFrames c w s d vid aud)) := by
  have hinput : (builtTracks c w vid aud (afterSeek c w d s))[1]? =
      some (audioInput s.aacCodecpar (writtenFrames c w s d vid aud)) := by
    rw [builtTracks_afterSeek, if_pos ⟨by rw [haac]; rfl, hpar, hne⟩]
    rfl
  obtain ⟨dataOffset, htraf⟩ :=
    getElem?_trafs_fieldsView (UInt32.ofInt (w.segmentIdx + 1)) hinput
  exact ⟨_, _, dataOffset, h.built c, List.mem_of_getElem? htraf, rfl, rfl⟩

theorem build_onFrames_iff (time : ℕ → ℤ) (h : Builds m reopen w s d vid aud)
    {aac : AacTranscoder δ ε α} (haac : s.aac = some aac) (hpar : s.aacCodecpar.isSome) :
    (∀ f, Built m c reopen w s d vid aud f →
        ∀ traf ∈ f.moof.content.trafs, traf.content.tfhd.content = 2 →
          ∀ (j : ℕ) (p : ℤ × List UInt8), (writtenFrames c w s d vid aud)[j]? = some p →
            traf.content.decodeTime time j = 1024 * p.1) ↔
      (∀ first ∈ (writtenFrames c w s d vid aud).head?,
          time (Int64.ofInt (first.1 * 1024)).toUInt64.toNat = 1024 * first.1) ∧
        Gapless ((writtenFrames c w s d vid aud).map Prod.fst) := by
  have hsorted : ((writtenFrames c w s d vid aud).map Prod.fst).Pairwise (· < ·) :=
    pairwise_writtenFrames haac
  have hexists := exists_audioTraf (c := c) h haac hpar
  have htraf : ∀ f traf, Built m c reopen w s d vid aud f → traf ∈ f.moof.content.trafs →
      traf.content.tfhd.content = 2 → ∃ dataOffset, traf.content =
        trafFieldsView dataOffset (audioInput s.aacCodecpar (writtenFrames c w s d vid aud)) := by
    intro f traf hf hmem hid
    obtain ⟨-, dataOffset, -, -, -, hview⟩ := audioTraf_of_built hf hmem hid
    exact ⟨dataOffset, hview⟩
  generalize hframes : writtenFrames c w s d vid aud = frames at hsorted hexists htraf ⊢
  rcases frames with _ | ⟨first, rest⟩
  · refine iff_of_true (fun f hf traf hmem hid j p hp ↦ by cases hp) ⟨by simp, by simp [Gapless]⟩
  · have htimes : ∀ dataOffset, (∀ (j : ℕ) (p : ℤ × List UInt8), (first :: rest)[j]? = some p →
        (trafFieldsView dataOffset (audioInput s.aacCodecpar (first :: rest))).decodeTime time j =
          1024 * p.1) ↔
        time (Int64.ofInt (first.1 * 1024)).toUInt64.toNat = 1024 * first.1 ∧
          Gapless ((first :: rest).map Prod.fst) := by
      intro dataOffset
      rw [← times_onFrames_iff _ hsorted]
      refine forall₂_congr fun j p ↦ forall_congr' fun hp ↦ ?_
      rw [decodeTime_audioInput time dataOffset _ first rest
        (List.getElem?_eq_some_iff.mp hp).1]
    simp only [List.head?_cons, Option.mem_some_iff, forall_eq']
    constructor
    · intro hall
      obtain ⟨f, traf, dataOffset, hf, hmem, hid, hview⟩ := hexists (by simp)
      have hframes := hall f hf traf hmem hid
      rw [hview] at hframes
      exact (htimes dataOffset).mp hframes
    · intro hcond f hf traf hmem hid
      obtain ⟨dataOffset, hview⟩ := htraf f traf hf hmem hid
      rw [hview]
      exact (htimes dataOffset).mpr hcond

end Build

/-! ## One call -/

section Call

variable {m : Media} {c : AacCodec δ ε α} {s : Session δ ε α}

theorem onFrames_generateSegment_iff (time : ℕ → ℤ) (reopen : Reopen) (w : Window) :
    OnFrames time m c (.generateSegment reopen w) s ↔
      ∀ d vid aud, Builds m reopen w s d vid aud → ∀ aac ∈ s.aac, s.aacCodecpar.isSome →
        (∀ first ∈ (writtenFrames c w s d vid aud).head?,
            time (Int64.ofInt (first.1 * 1024)).toUInt64.toNat = 1024 * first.1) ∧
          Gapless ((writtenFrames c w s d vid aud).map Prod.fst) := by
  constructor
  · intro honFrames d vid aud hbuilds aac haac hpar
    exact (build_onFrames_iff time hbuilds haac hpar).mp (honFrames d vid aud)
  · intro hcond d vid aud f hbuilt traf htraf hid
    obtain ⟨aac, -, haac, hpar, -, -⟩ := audioTraf_of_built hbuilt htraf hid
    have hframes := (build_onFrames_iff time hbuilt.toBuilds haac hpar).mpr
      (hcond d vid aud hbuilt.toBuilds aac haac hpar)
    exact hframes f hbuilt traf htraf hid

theorem PaddingFits.lt (hpadding : PaddingFits s) {aac : AacTranscoder δ ε α}
    (haac : s.aac = some aac) : aac.initialPadding < 2 ^ 31 :=
  hpadding aac.initialPadding (by rw [haac]; rfl)

theorem toInt_firstFrame {w : Window} (hstart : FitsInt64 (msToAudioPts w.segmentStartMs))
    (hend : FitsInt64 (msToAudioPts w.segmentEndMs)) (hpadding : PaddingFits s)
    {d : Demuxer} {vid : AVStream} {aud : Option AVStream} {aac : AacTranscoder δ ε α}
    (haac : s.aac = some aac) {first : ℤ × List UInt8}
    (hfirst : first ∈ (writtenFrames c w s d vid aud).head?) :
    (Int64.ofInt (first.1 * 1024)).toInt = first.1 * 1024 := by
  have hmem : first.1 ∈ (writtenFrames c w s d vid aud).map Prod.fst :=
    List.mem_map_of_mem (List.mem_of_head? hfirst)
  rw [map_fst_writtenFrames_of_some haac] at hmem
  obtain ⟨hlow, hhigh⟩ :=
    fitsInt64_of_mem_requestedFrames (hpadding.lt haac) hstart hend (List.mem_filter.mp hmem).1
  exact Int64.toInt_ofInt_of_le hlow hhigh

/-- A reader that takes the tfdt for a signed number has the frames at their times
exactly when those that are kept join the audio. -/
theorem onFrames_iff_keptFramesJoin (q : EncoderQueue c) {len : AVPacket → ℕ}
    (hdecode : ∀ decoder pkt, (c.decode decoder pkt).2.length = len pkt) {call : Call}
    (hfit : call.TimesFit) (hpadding : PaddingFits s) :
    OnFrames (signed 8) m c call s ↔ KeptFramesJoin m q len call s := by
  cases call with
  | getKeyframesMs => exact Iff.rfl
  | generateInitSegment => exact Iff.rfl
  | generateSegment reopen w =>
      obtain ⟨hstart, hend⟩ := hfit
      rw [onFrames_generateSegment_iff, KeptFramesJoin]
      refine forall₄_congr fun d vid aud _ ↦ forall₃_congr fun aac haac _ ↦ ?_
      rw [gapless_writtenFrames_iff q hdecode haac (hpadding.lt haac)]
      refine and_iff_right fun first hfirst ↦ ?_
      rw [signed_toUInt64, toInt_firstFrame hstart hend hpadding haac hfirst, mul_comm]

/-- The first written frame is the first requested one that is reached or kept. -/
theorem nonneg_firstFrame_iff (q : EncoderQueue c) {len : AVPacket → ℕ}
    (hdecode : ∀ decoder pkt, (c.decode decoder pkt).2.length = len pkt) {w : Window}
    (hstart : FitsInt64 (msToAudioPts w.segmentStartMs))
    (hend : FitsInt64 (msToAudioPts w.segmentEndMs)) (hpadding : PaddingFits s)
    {d : Demuxer} {vid : AVStream} {aud : Option AVStream} {aac : AacTranscoder δ ε α}
    (haac : s.aac = some aac) :
    (∀ first ∈ (writtenFrames c w s d vid aud).head?,
        0 ≤ (Int64.ofInt (first.1 * 1024)).toInt) ↔
      ∀ j ∈ requestedFrames aac w, j < 0 →
        ¬(firstReached q w aac ≤ j ∧ j < reachEnd q w aac (decodedSamples len w vid aud d)) ∧
          ¬Kept q w aac (decodedSamples len w vid aud d) s j := by
  have hsorted : ((writtenFrames c w s d vid aud).map Prod.fst).Pairwise (· < ·) :=
    pairwise_writtenFrames haac
  have hleast : (∀ first ∈ (writtenFrames c w s d vid aud).head?, 0 ≤ first.1) ↔
      ∀ j ∈ requestedFrames aac w, Available c w s d vid aud j → 0 ≤ j := by
    have hle := le_head_iff hsorted 0
    rw [List.head?_map, map_fst_writtenFrames_of_some haac] at hle
    simpa using hle
  have hvalue : (∀ first ∈ (writtenFrames c w s d vid aud).head?,
      0 ≤ (Int64.ofInt (first.1 * 1024)).toInt) ↔
        ∀ first ∈ (writtenFrames c w s d vid aud).head?, 0 ≤ first.1 := by
    refine forall₂_congr fun first hfirst ↦ ?_
    rw [toInt_firstFrame hstart hend hpadding haac hfirst]
    omega
  rw [hvalue, hleast]
  refine forall₂_congr fun j _ ↦ ?_
  rw [available_iff_reached q hdecode haac (hpadding.lt haac) d vid aud j, ← not_or]
  exact ⟨fun h hneg hfound ↦ absurd (h hfound) (not_le.mpr hneg),
    fun h hfound ↦ not_lt.mp fun hneg ↦ h hneg hfound⟩

/-- One that takes it for an unsigned number also needs the first frame not to be from
before time zero. -/
theorem onFrames_iff_join_noneBeforeZero (q : EncoderQueue c) {len : AVPacket → ℕ}
    (hdecode : ∀ decoder pkt, (c.decode decoder pkt).2.length = len pkt) {call : Call}
    (hfit : call.TimesFit) (hpadding : PaddingFits s) :
    OnFrames (fun n ↦ n) m c call s ↔
      KeptFramesJoin m q len call s ∧ NoneBeforeZero m q len call s := by
  cases call with
  | getKeyframesMs => simp [OnFrames, KeptFramesJoin, NoneBeforeZero]
  | generateInitSegment => simp [OnFrames, KeptFramesJoin, NoneBeforeZero]
  | generateSegment reopen w =>
      obtain ⟨hstart, hend⟩ := hfit
      rw [onFrames_generateSegment_iff, KeptFramesJoin, NoneBeforeZero]
      simp only [← forall_and]
      refine forall₄_congr fun d vid aud _ ↦ forall₃_congr fun aac haac _ ↦ ?_
      rw [gapless_writtenFrames_iff q hdecode haac (hpadding.lt haac), and_comm]
      refine and_congr_right fun _ ↦ ?_
      rw [← nonneg_firstFrame_iff q hdecode hstart hend hpadding haac]
      refine forall₂_congr fun first hfirst ↦ ?_
      rw [← natCast_toUInt64_eq_iff, toInt_firstFrame hstart hend hpadding haac hfirst, mul_comm]

theorem available_iff_ownPackets {reopen : Reopen} {w : Window} {s₀ : Session δ ε α} {d : Demuxer}
    {vid : AVStream} {aud : Option AVStream} (hflush : FlushForgets c) (hlike : LikeNew m s₀ s)
    (hsame : SameFile m reopen) (hbuilds : Builds m reopen w s d vid aud) (j : ℤ) :
    Available c w s d vid aud j ↔
      j ∈ frameIndices (ownPackets m c s₀ w) ∨ j ∈ s.audioFrameCache := by
  obtain ⟨hd, -, -⟩ := hlike.demuxer.seekToMs_eq hsame hbuilds.seek
  obtain rfl : d = fileAt m w := hd
  rw [Available, encoded, buildPackets_fileAt hflush hlike w hbuilds.video hbuilds.audio]

theorem exists_builds {s₀ : Session δ ε α} {w : Window} (hflush : FlushForgets c)
    (hopened : Opened m s₀ s) (haudio : HasAudio m) (hbuildable : Buildable m w)
    (hmiss : s.segmentCache.lookup w.segmentIdx = none) :
    ∃ d vid aud, Builds m (.opened m.context) w s d vid aud := by
  obtain ⟨hresponse, -, -⟩ :=
    hopened.generateSegment_eq hflush hbuildable.video hbuildable.cues haudio hmiss
  obtain ⟨bytes, hbytes⟩ := outcomeWith_eq_ok c s₀ hbuildable s.audioFrameCache
  obtain ⟨d, vid, aud, f, hbuilt⟩ := exists_built hmiss (hresponse.trans hbytes)
  exact ⟨d, vid, aud, hbuilt.toBuilds⟩

/-! ## Runs -/

theorem paddingFits_create {reopen : Reopen} {s : Session δ ε α}
    (hopen : ∀ codecpar o, c.openCodec codecpar = .ok o → o.initialPadding < 2 ^ 31)
    (hcreate : create c reopen = .ok s) : PaddingFits s := by
  obtain ⟨d, -, ⟨-, rfl⟩ | ⟨aud, o, -, ho, rfl⟩⟩ := create_cases hcreate
  · rintro padding ⟨⟩
  · rintro padding ⟨⟩
    rw [AacTranscoder.ofOpened]
    split
    · exact hopen _ o ho
    · exact (by norm_num : (1024 : ℤ) < 2 ^ 31)

theorem padding_generateSegment (reopen : Reopen) (w : Window) :
    (s.generateSegment m c reopen w).2.aac.map AacTranscoder.initialPadding =
      s.aac.map AacTranscoder.initialPadding := by
  rcases generateSegment_cases m c reopen w s with
    ⟨built, bytes, ⟨stop, -, -, hsegment⟩ | ⟨-, hsegment⟩⟩
  · rw [hsegment]
  · rw [hsegment]
    have hstep := buildSegmentLocked_buildStep m c reopen w
      { s with initBuilt := built, initCache := bytes }
    generalize buildSegmentLocked m c reopen w _ = result at hstep
    obtain ⟨outcome, s'⟩ := result
    cases hstep with
    | cached bytes hhit => rfl
    | seekFails stop d hmiss hseek => rfl
    | streamFails stop d hmiss hseek hstreams => exact padding_afterSeek c w _ d
    | builds d vid aud hmiss hseek hvid haud =>
        obtain ⟨packets, hbuild⟩ := buildFromPackets_eq c w vid aud
          (afterSeek c w d { s with initBuilt := built, initCache := bytes })
          (leftQueue_afterSeek c w d _)
        rw [hbuild, ← padding_afterSeek c w s d]
        rw [Option.map_map]
        congr 1
        funext t
        exact AacTranscoder.transcode_initialPadding ..

theorem padding_perform (m : Media) (call : Call) :
    (perform m c call s).2.aac.map AacTranscoder.initialPadding =
      s.aac.map AacTranscoder.initialPadding := by
  cases call with
  | getKeyframesMs => rfl
  | generateInitSegment =>
      obtain ⟨built, bytes, hframe, -, -⟩ := generateInitSegment_frame s
      rw [perform, hframe]
  | generateSegment reopen w => exact padding_generateSegment reopen w

theorem PaddingFits.perform (hpadding : PaddingFits s) (call : Call) :
    PaddingFits (perform m c call s).2 := by
  rw [PaddingFits, padding_perform]
  exact hpadding

end Call

def secondThenFirst : List Call :=
  [.generateSegment (.opened lateAudioFile.context) ⟨1, 10000, 20000⟩,
    .generateSegment (.opened lateAudioFile.context) ⟨0, 0, 10000⟩]

theorem initialPadding_silentCodec (codecpar : AVCodecParameters) (o : OpenedCodec Unit Unit)
    (ho : silentCodec.openCodec codecpar = .ok o) : o.initialPadding < 2 ^ 31 := by
  cases ho
  exact (by decide : (1024 : ℤ) < 2 ^ 31)

theorem paddingFits_lateAudio : PaddingFits lateAudioSession :=
  paddingFits_create initialPadding_silentCodec create_lateAudio

theorem encodeAll_silentCodec (encoder : Unit) (frames : List (AacFrame ℤ)) :
    encodeAll silentCodec encoder frames =
      frames.map fun frame ↦ ⟨1, frame.pts, frame.pts, 1024, true, [9]⟩ := by
  induction frames with
  | nil => rfl
  | cons frame frames ih => exact congrArg _ ih

/-- Every frame comes out at once. -/
def silentQueue : EncoderQueue silentCodec where
  lag := 0
  held := fun _ ↦ []
  shift := fun _ ↦ 0
  held_ne := fun _ ↦ List.not_mem_nil
  length_held := fun _ ↦ le_rfl
  shift_nonpos := fun _ ↦ le_rfl
  lt_shift := fun _ ↦ by norm_num
  packets := by
    intro encoder frames _
    simp [encodeAll_silentCodec, Function.comp_def]
  data_ne := by
    intro encoder frames pkt hpkt
    rw [encodeAll_silentCodec] at hpkt
    obtain ⟨frame, -, rfl⟩ := List.mem_map.mp hpkt
    exact List.cons_ne_nil _ _

theorem length_decode_silentCodec (decoder : Unit) (pkt : AVPacket) :
    (silentCodec.decode decoder pkt).2.length = 1024 := List.length_replicate

/-- The build of the first segment, with the frame that its own encoder gives it. -/
theorem exists_builds_lateAudio {s : Session Unit Unit ℤ}
    (hopened : Opened lateAudioFile lateAudioSession s)
    (hmiss : s.segmentCache.lookup 0 = none) :
    ∃ d vid aud aac,
      Builds lateAudioFile (.opened lateAudioFile.context) ⟨0, 0, 10000⟩ s d vid aud ∧
        s.aac = some aac ∧ aac.initialPadding = 1024 ∧ s.aacCodecpar.isSome ∧
          ∀ j, Available silentCodec ⟨0, 0, 10000⟩ s d vid aud j ↔
            j = -1 ∨ j ∈ s.audioFrameCache := by
  have hsame : SameFile lateAudioFile (.opened lateAudioFile.context) := rfl
  obtain ⟨-, haudio, -⟩ := create_opened create_lateAudio
  obtain ⟨d, vid, aud, hbuilds⟩ := exists_builds (w := ⟨0, 0, 10000⟩) flushForgets_silentCodec
    hopened haudio buildable_lateAudio hmiss
  obtain ⟨aac, haac, hpadding⟩ := Option.map_eq_some_iff.mp hopened.initialPadding
  refine ⟨d, vid, aud, aac, hbuilds, haac, hpadding, by rw [hopened.codecpar]; rfl, fun j ↦ ?_⟩
  have hown : frameIndices
      (ownPackets lateAudioFile silentCodec lateAudioSession ⟨0, 0, 10000⟩) = [-1] := by
    decide +kernel
  rw [available_iff_ownPackets flushForgets_silentCodec hopened.toLikeNew hsame hbuilds, hown,
    List.mem_singleton]

theorem not_onFrames_lateAudio {s : Session Unit Unit ℤ}
    (hopened : Opened lateAudioFile lateAudioSession s)
    (hmiss : s.segmentCache.lookup 0 = none)
    (hcache : s.audioFrameCache =
      cacheAfter true (ownPackets lateAudioFile silentCodec lateAudioSession ⟨1, 10000, 20000⟩) ∅) :
    ¬ OnFrames (signed 8) lateAudioFile silentCodec
      (.generateSegment (.opened lateAudioFile.context) ⟨0, 0, 10000⟩) s := by
  intro hframes
  obtain ⟨d, vid, aud, aac, hbuilds, haac, hpadding, hpar, havailable⟩ :=
    exists_builds_lateAudio hopened hmiss
  simp only [hcache, ← AList.lookup_isSome] at havailable
  have hrequested : -1 ∈ requestedFrames aac ⟨0, 0, 10000⟩ ∧
      375 ∈ requestedFrames aac ⟨0, 0, 10000⟩ := by
    rw [requestedFrames, hpadding]
    decide +kernel
  have hcached : ((cacheAfter true (ownPackets lateAudioFile silentCodec lateAudioSession
      ⟨1, 10000, 20000⟩) ∅).lookup 375).isSome = true := by
    decide +kernel
  have hgap := ((onFrames_generateSegment_iff _ _ _).mp hframes d vid aud hbuilds aac haac hpar).2
  simp only [map_fst_writtenFrames_of_some haac, Gapless, List.mem_filter,
    decide_eq_true_iff] at hgap
  -- frame 0 is between two frames that are found
  have hzero := hgap (-1) ⟨hrequested.1, (havailable (-1)).mpr (.inl rfl)⟩ 375
    ⟨hrequested.2, (havailable 375).mpr (.inr hcached)⟩ 0 (by decide) (by decide)
  have hnot : ¬ ((0 : ℤ) = -1 ∨ ((cacheAfter true (ownPackets lateAudioFile silentCodec
      lateAudioSession ⟨1, 10000, 20000⟩) ∅).lookup 0).isSome = true) := by
    decide +kernel
  exact hnot ((havailable 0).mp hzero.2)

end Session

end Fmp4Packager
