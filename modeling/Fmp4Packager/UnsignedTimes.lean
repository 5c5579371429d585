import Fmp4Packager.AudioTimeline
import Fmp4Packager.EarliestTime

/-!
# Signed times in unsigned fields

Decode and presentation times are written as signed numbers into fields that are read as
unsigned ones.  They survive when they are not negative, and the only negative time that
a build comes to is that of a frame from before time zero, in the first segment.
-/

namespace Fmp4Packager

namespace Fmp4Writer

open IsoBox

def firstSample (inputs : List TrackInput) (i : ℕ) : Option Sample :=
  inputs[i]?.bind fun input ↦ input.2.1.head?

/-- The unsigned times of every box are those of the first sample of its track. -/
structure TimesSurvive (inputs : List TrackInput) (f : SegmentFields) : Prop where
  decode : ∀ (i : ℕ) (traf : SizedBox TrafFields), f.moof.content.trafs[i]? = some traf →
    ∃ first, firstSample inputs i = some first ∧
      (traf.content.tfdt.content : ℤ) = first.dts.toInt
  presentation : ∀ (i : ℕ) (sidx : SizedBox SidxFields), f.sidxs[i]? = some sidx →
    ∃ first, firstSample inputs i = some first ∧
      (sidx.content.earliestPresentationTime : ℤ) = first.presentationTime

/-- The track starts with a sample that is decoded at its tfdt, and presented no
earlier. -/
structure StartsWith (input : TrackInput) (first : Sample) : Prop where
  head : input.2.1.head? = some first
  tfdt : input.2.2 = first.dts
  offset : 0 ≤ first.ctsOffset.toInt
  fits : FitsInt64 first.presentationTime

theorem natCast_earliestPresentationTime_eq {input : TrackInput} {first : Sample}
    (h : StartsWith input first) (hnonneg : 0 ≤ first.dts.toInt) :
    ((earliestPresentationTime input.2.1 input.2.2).toUInt64.toNat : ℤ) =
      first.presentationTime := by
  obtain ⟨rest, hcons⟩ := List.head?_eq_some_iff.mp h.head
  have htime := toInt_earliestPresentationTime rest input.2.2 h.fits
  have hoffset := h.offset
  rw [hcons, ← htime, natCast_toUInt64_eq_iff, htime, Sample.presentationTime]
  omega

theorem exists_input_of_trafs {sequenceNumber : UInt32} {inputs : List TrackInput} {i : ℕ}
    {traf : SizedBox TrafFields}
    (htraf : (fieldsView sequenceNumber inputs).moof.content.trafs[i]? = some traf) :
    ∃ input dataOffset, inputs[i]? = some input ∧
      traf.content = trafFieldsView dataOffset input := by
  obtain ⟨hi, -⟩ := List.getElem?_eq_some_iff.mp htraf
  have hlen : (fieldsView sequenceNumber inputs).moof.content.trafs.length = inputs.length := by
    simp [fieldsView, moofFieldsView, SizedBox.written, length_dataOffsets]
  have hinput : inputs[i]? = some inputs[i] := List.getElem?_eq_getElem (hlen ▸ hi)
  obtain ⟨dataOffset, hview⟩ := getElem?_trafs_fieldsView sequenceNumber hinput
  obtain rfl := Option.some.inj (htraf.symm.trans hview)
  exact ⟨inputs[i], dataOffset, hinput, rfl⟩

theorem timesSurvive_fieldsView_iff (sequenceNumber : UInt32) {inputs : List TrackInput}
    (hinputs : ∀ input ∈ inputs, ∃ first, StartsWith input first) :
    TimesSurvive inputs (fieldsView sequenceNumber inputs) ↔
      ∀ input ∈ inputs, 0 ≤ input.2.2.toInt := by
  have hfirst : ∀ i input, inputs[i]? = some input → ∃ first, StartsWith input first ∧
      firstSample inputs i = some first := by
    intro i input hinput
    obtain ⟨first, hstarts⟩ := hinputs input (List.mem_of_getElem? hinput)
    refine ⟨first, hstarts, ?_⟩
    rw [firstSample, hinput, Option.bind_some, hstarts.head]
  constructor
  · intro h input hmem
    obtain ⟨i, hinput⟩ := List.getElem?_of_mem hmem
    obtain ⟨first, hstarts, hfirst⟩ := hfirst i input hinput
    obtain ⟨dataOffset, htraf⟩ := getElem?_trafs_fieldsView sequenceNumber hinput
    obtain ⟨first', hfirst', htime⟩ := h.decode i _ htraf
    obtain rfl := Option.some.inj (hfirst.symm.trans hfirst')
    rw [← hstarts.tfdt] at htime
    exact (natCast_toUInt64_eq_iff input.2.2).mp htime
  · intro hnonneg
    constructor
    · intro i traf htraf
      obtain ⟨input, dataOffset, hinput, hview⟩ := exists_input_of_trafs htraf
      obtain ⟨first, hstarts, hfirst⟩ := hfirst i input hinput
      refine ⟨first, hfirst, ?_⟩
      rw [hview, ← hstarts.tfdt]
      exact (natCast_toUInt64_eq_iff input.2.2).mpr (hnonneg input (List.mem_of_getElem? hinput))
    · intro i sidx hsidx
      simp only [fieldsView, List.getElem?_map, Option.map_eq_some_iff] at hsidx
      obtain ⟨input, hinput, rfl⟩ := hsidx
      obtain ⟨first, hstarts, hfirst⟩ := hfirst i input hinput
      refine ⟨first, hfirst, natCast_earliestPresentationTime_eq hstarts ?_⟩
      rw [← hstarts.tfdt]
      exact hnonneg input (List.mem_of_getElem? hinput)

end Fmp4Writer

namespace Session

open AacTranscoder Demuxer Fmp4Writer IsoBox Server

variable {δ ε α : Type}

/-- The times of the segment that the call builds survive, if it builds one. -/
def UnsignedTimes (m : Media) (c : AacCodec δ ε α) : Call → Session δ ε α → Prop
  | .generateSegment reopen w, s => ∀ d vid aud f, Built m c reopen w s d vid aud f →
      TimesSurvive (builtTracks c w vid aud (afterSeek c w d s)) f
  | _, _ => True

/-- The audio accepted for the first segment ends before the first requested frame, and
no frame from before time zero is kept. -/
def FirstAudioTooShort (m : Media) {c : AacCodec δ ε α} (q : EncoderQueue c)
    (len : AVPacket → ℕ) : Call → Session δ ε α → Prop
  | .generateSegment reopen w, s => w.segmentIdx = 0 →
      ∀ d vid aud, Builds m reopen w s d vid aud → ∀ aac ∈ s.aac, s.aacCodecpar.isSome →
        let samples := decodedSamples len w vid aud d
        reachEnd q w aac samples ≤ startFrame aac w ∧
          ∀ j ∈ requestedFrames aac w, j < 0 → ¬Kept q w aac samples s j
  | _, _ => True

/-- The window of a request is that of its index. -/
def Call.Accepted (keyframes : List ℤ) : Call → Prop
  | .generateSegment _ w => segmentWindow keyframes w.segmentIdx = some w
  | _ => True

/-- The timestamps of a video packet are not negative, and its time in the units of the
video track leaves room for an offset. -/
structure FromZero (vid : AVStream) (pkt : AVPacket) : Prop where
  dts : pkt.dts ≠ avNoptsValue → 0 ≤ subtractStartTime vid pkt.dts
  pts : pkt.pts ≠ avNoptsValue → 0 ≤ subtractStartTime vid pkt.pts
  room : videoTicks vid (decodeTime vid pkt) < 2 ^ 63 - 2 ^ 31

/-- The video that the call reads is from time zero on. -/
def VideoFromZero (m : Media) : Call → Session δ ε α → Prop
  | .generateSegment reopen w, s => ∀ d vid aud, Builds m reopen w s d vid aud →
      (0 < vid.timeBase.num ∧ 0 < vid.timeBase.den) ∧
        ∀ pkt ∈ d.packets, pkt.streamIndex = d.videoStreamIdx → FromZero vid pkt
  | _, _ => True

theorem exists_fixGaps_cons (s : Sample) (rest : List Sample) :
    ∃ duration tail, fixGaps (s :: rest) = { s with duration := duration } :: tail := by
  cases rest with
  | nil => exact ⟨s.duration, [], rfl⟩
  | cons next rest => exact ⟨_, _, fixGaps_cons_cons s next rest⟩

theorem exists_fixLast_cons (s : Sample) (rest : List Sample) :
    ∃ duration tail, fixLast (s :: rest) = { s with duration := duration } :: tail := by
  match rest with
  | [] =>
      rw [fixLast]
      split
      · exact ⟨_, [], rfl⟩
      · exact ⟨s.duration, [], rfl⟩
  | [last] => exact ⟨s.duration, _, rfl⟩
  | next :: last :: rest => exact ⟨s.duration, _, rfl⟩

theorem exists_fixVideoDurations_cons (s : Sample) (rest : List Sample) :
    ∃ duration tail, fixVideoDurations (s :: rest) = { s with duration := duration } :: tail := by
  obtain ⟨duration, tail, hgaps⟩ := exists_fixGaps_cons s rest
  obtain ⟨duration', tail', hlast⟩ := exists_fixLast_cons { s with duration := duration } tail
  exact ⟨duration', tail', by rw [fixVideoDurations, hgaps, hlast]⟩

theorem avRescaleQ_nonneg {a : ℤ} (ha : 0 ≤ a) {bq cq : AVRational} (hb : 0 ≤ bq.num * cq.den)
    (hc : 0 < cq.num * bq.den) : 0 ≤ avRescaleQ a bq cq := by
  have hzero : avRescaleQ 0 bq cq = 0 := by
    simp only [avRescaleQ]
    rw [if_neg (by omega), if_neg (by omega), zero_mul, zero_add]
    exact Int.ediv_eq_zero_of_lt (by omega) (by omega)
  rw [← hzero]
  exact avRescaleQ_le_avRescaleQ bq cq ha

theorem FromZero.decodeTime_nonneg {vid : AVStream} {pkt : AVPacket} (h : FromZero vid pkt)
    (htime : decodeTime vid pkt ≠ avNoptsValue) : 0 ≤ decodeTime vid pkt := by
  have hmissing : subtractStartTime vid avNoptsValue = avNoptsValue := by simp [subtractStartTime]
  simp only [decodeTime] at htime ⊢
  split at htime
  · next hdts =>
      rw [if_pos hdts]
      exact h.pts fun hpts ↦ htime (by rw [hpts, hmissing])
  · next hdts =>
      rw [if_neg hdts]
      exact h.dts fun heq ↦ hdts (by rw [heq, hmissing])

theorem FromZero.startsWith {vid : AVStream} (hnum : 0 < vid.timeBase.num)
    (hden : 0 < vid.timeBase.den) {pkt : AVPacket} (h : FromZero vid pkt)
    (htime : decodeTime vid pkt ≠ avNoptsValue) (rest : List Sample) :
    (∃ first, StartsWith
      (videoInput vid (fixVideoDurations (packetSample vid pkt :: rest))) first) ∧
      0 ≤ (videoInput vid (fixVideoDurations (packetSample vid pkt :: rest))).2.2.toInt := by
  have hnonneg : 0 ≤ videoTicks vid (decodeTime vid pkt) :=
    avRescaleQ_nonneg (h.decodeTime_nonneg htime)
      (mul_nonneg hnum.le (by decide : (0 : ℤ) ≤ kVideoOutTb.den))
      (mul_pos (by decide : (0 : ℤ) < kVideoOutTb.num) hden)
  have hroom := h.room
  have hdts : (packetSample vid pkt).dts.toInt = videoTicks vid (decodeTime vid pkt) :=
    toInt_dts_packetSample (by omega) (by omega)
  have hoffset : 0 ≤ (packetSample vid pkt).ctsOffset.toInt := by
    rw [toInt_ctsOffset_eq_max]
    exact le_max_left _ _
  have hfits : FitsInt64 (packetSample vid pkt).presentationTime := by
    have hlt := (packetSample vid pkt).ctsOffset.toInt_lt
    rw [FitsInt64, Sample.presentationTime]
    omega
  rw [← hdts] at hnonneg
  obtain ⟨duration, tail, hcons⟩ := exists_fixVideoDurations_cons (packetSample vid pkt) rest
  rw [hcons]
  exact ⟨⟨{ packetSample vid pkt with duration := duration }, rfl, rfl, hoffset, hfits⟩, hnonneg⟩

section Build

variable {m : Media} {c : AacCodec δ ε α} {reopen : Reopen} {w : Window} {s : Session δ ε α}
  {d : Demuxer} {vid : AVStream} {aud : Option AVStream}

/-- The first sample of a build is that of a video packet that it reads. -/
theorem exists_runSamples_cons (h : Builds m reopen w s d vid aud) :
    ∃ pkt rest, runSamples w vid aud d = packetSample vid pkt :: rest ∧ pkt ∈ d.packets ∧
      pkt.streamIndex = d.videoStreamIdx ∧ decodeTime vid pkt ≠ avNoptsValue := by
  obtain ⟨first, rest, hcons⟩ := List.exists_cons_of_ne_nil h.samples
  have hmem : first ∈ runSamples w vid aud d := by
    rw [hcons]
    exact List.mem_cons_self
  rw [runSamples, samplesOf, List.mem_filterMap] at hmem
  obtain ⟨pkt, hpkt, hsample⟩ := hmem
  obtain ⟨hrun, hvideo⟩ := List.mem_filter.mp hpkt
  rw [videoSample_eq] at hsample
  split at hsample
  · cases hsample
  · next htime =>
      obtain rfl := Option.some.inj hsample
      exact ⟨pkt, rest, hcons, ListCut.mem_of_mem_between hrun, of_decide_eq_true hvideo, htime⟩

theorem audioInput_startsWith (codecpar : Option AVCodecParameters) (first : ℤ × List UInt8)
    (rest : List (ℤ × List UInt8)) :
    StartsWith (audioInput codecpar (first :: rest)) (audioSample first.1 first.2) := by
  refine ⟨rfl, rfl, Int32.toInt_zero.ge, ?_⟩
  have htime : (audioSample first.1 first.2).presentationTime =
      (Int64.ofInt (first.1 * 1024)).toInt := by
    rw [Sample.presentationTime, audioSample, Int32.toInt_zero, add_zero]
  rw [htime]
  exact ⟨Int64.le_toInt _, Int64.toInt_lt _⟩

/-- The times of a built segment survive exactly when its audio does not start before
zero. -/
theorem build_timesSurvive_iff (hbuilds : Builds m reopen w s d vid aud)
    (hvideo : VideoFromZero m (.generateSegment reopen w) s) :
    TimesSurvive (builtTracks c w vid aud (afterSeek c w d s))
        (fieldsView (UInt32.ofInt (w.segmentIdx + 1))
          (builtTracks c w vid aud (afterSeek c w d s))) ↔
      (s.aac.isSome → s.aacCodecpar.isSome → ∀ first ∈ (writtenFrames c w s d vid aud).head?,
        0 ≤ (Int64.ofInt (first.1 * 1024)).toInt) := by
  obtain ⟨⟨hnum, hden⟩, hfromZero⟩ := hvideo d vid aud hbuilds
  obtain ⟨pkt, rest, hsamples, hpkt, hstream, htime⟩ := exists_runSamples_cons hbuilds
  obtain ⟨hstarts, hnonneg⟩ := (hfromZero pkt hpkt hstream).startsWith hnum hden htime rest
  rw [builtTracks_afterSeek, hsamples]
  generalize videoInput vid (fixVideoDurations (packetSample vid pkt :: rest)) = video
    at hstarts hnonneg
  split
  · next haudio =>
      obtain ⟨haac, hpar, hne⟩ := haudio
      obtain ⟨first, frames, hframes⟩ := List.exists_cons_of_ne_nil hne
      have hstartsAudio := audioInput_startsWith s.aacCodecpar first frames
      have htfdt : (audioInput s.aacCodecpar (first :: frames)).2.2 =
          Int64.ofInt (first.1 * 1024) := rfl
      rw [hframes]
      generalize audioInput s.aacCodecpar (first :: frames) = audio at hstartsAudio htfdt
      rw [timesSurvive_fieldsView_iff, List.head?_cons]
      · simp only [List.forall_mem_cons, hnonneg, htfdt, haac, hpar, true_and, forall_true_left,
          Option.mem_some_iff, forall_eq']
        exact and_iff_left fun input hinput ↦ absurd hinput List.not_mem_nil
      · simp only [List.forall_mem_cons]
        exact ⟨hstarts, ⟨_, hstartsAudio⟩, fun input hinput ↦ absurd hinput List.not_mem_nil⟩
  · next haudio =>
      rw [timesSurvive_fieldsView_iff]
      · refine iff_of_true ?_ fun haac hpar first hfirst ↦ ?_
        · rw [List.forall_mem_singleton]
          exact hnonneg
        · exact absurd ⟨haac, hpar, fun hnil ↦ by rw [hnil] at hfirst; cases hfirst⟩ haudio
      · rw [List.forall_mem_singleton]
        exact hstarts

end Build

/-! ## One call -/

section Call

variable {m : Media} {c : AacCodec δ ε α} {s : Session δ ε α} {call : Call}

theorem unsignedTimes_iff_noneBeforeZero (q : EncoderQueue c) {len : AVPacket → ℕ}
    (hdecode : ∀ decoder pkt, (c.decode decoder pkt).2.length = len pkt) (hfit : call.TimesFit)
    (hpadding : PaddingFits s) (hvideo : VideoFromZero m call s) :
    UnsignedTimes m c call s ↔ NoneBeforeZero m q len call s := by
  cases call with
  | getKeyframesMs => exact Iff.rfl
  | generateInitSegment => exact Iff.rfl
  | generateSegment reopen w =>
      obtain ⟨hstart, hend⟩ := hfit
      rw [UnsignedTimes, NoneBeforeZero]
      constructor
      · intro htimes d vid aud hbuilds aac haac hpar
        have hsurvive := htimes d vid aud _ (hbuilds.built c)
        exact (nonneg_firstFrame_iff q hdecode hstart hend hpadding haac).mp
          ((build_timesSurvive_iff hbuilds hvideo).mp hsurvive (Option.isSome_of_mem haac) hpar)
      · intro hnone d vid aud f hbuilt
        rw [hbuilt.eq_fieldsView, build_timesSurvive_iff hbuilt.toBuilds hvideo]
        intro haac hpar
        obtain ⟨aac, haac⟩ := Option.isSome_iff_exists.mp haac
        exact (nonneg_firstFrame_iff q hdecode hstart hend hpadding haac).mpr
          (hnone d vid aud hbuilt.toBuilds aac haac hpar)

theorem Call.Accepted.timesFit {keyframes : List ℤ} (h : call.Accepted keyframes)
    (hkeyframes : ∀ ms ∈ keyframes, 0 ≤ ms ∧ FitsInt64 (msToAudioPts ms)) : call.TimesFit := by
  cases call with
  | getKeyframesMs => trivial
  | generateInitSegment => trivial
  | generateSegment reopen w =>
      obtain ⟨-, -, hstart, hend⟩ := segmentWindow_eq_some.mp h
      exact ⟨(hkeyframes _ (List.mem_of_getElem? hstart)).2,
        (hkeyframes _ (List.mem_of_getElem? hend)).2⟩

theorem mem_requestedFrames_startFrame (aac : AacTranscoder δ ε α) (w : Window) :
    startFrame aac w ∈ requestedFrames aac w := by
  rw [mem_requestedFrames, endFrame_eq]
  omega

/-- The first requested frame of the first segment is not before the frame with which the
audio starts. -/
theorem firstReached_le_startFrame (q : EncoderQueue c) (aac : AacTranscoder δ ε α) {w : Window}
    (hidx : w.segmentIdx = 0) : firstReached q w aac ≤ startFrame aac w := by
  have hshift := q.shift_nonpos (c.flushEncoder aac.encoder)
  rw [firstReached, resetPts, if_pos hidx, startFrame, outputStartFrame, if_pos hidx,
    audioFrameIndexForPts, audioFrameIndexForPts, floorDiv_eq_ediv, floorDiv_eq_ediv]
  omega

/-- Only the first segment requests frames from before time zero. -/
theorem noneBeforeZero_iff_firstAudioTooShort (q : EncoderQueue c) {len : AVPacket → ℕ}
    {keyframes : List ℤ} (h : call.Accepted keyframes)
    (hkeyframes : ∀ ms ∈ keyframes, 0 ≤ ms ∧ FitsInt64 (msToAudioPts ms)) :
    NoneBeforeZero m q len call s ↔ FirstAudioTooShort m q len call s := by
  cases call with
  | getKeyframesMs => exact Iff.rfl
  | generateInitSegment => exact Iff.rfl
  | generateSegment reopen w =>
      rw [NoneBeforeZero, FirstAudioTooShort]
      by_cases hidx : w.segmentIdx = 0
      · simp only [hidx, forall_true_left]
        refine forall₄_congr fun d vid aud _ ↦ forall₃_congr fun aac _ _ ↦ ?_
        have hfirst := firstReached_le_startFrame q aac hidx
        constructor
        · intro hnone
          have hstart := (hnone _ (mem_requestedFrames_startFrame aac w)
            (startFrame_neg aac hidx)).1
          exact ⟨by omega, fun j hj hneg ↦ (hnone j hj hneg).2⟩
        · rintro ⟨hend, hkept⟩ j hj hneg
          rw [mem_requestedFrames] at hj
          exact ⟨by omega, hkept j (mem_requestedFrames.mpr hj) hneg⟩
      · refine iff_of_true (fun d vid aud _ aac _ _ j hj hneg ↦ ?_) fun hzero ↦ absurd hzero hidx
        obtain ⟨-, -, hstart, -⟩ := segmentWindow_eq_some.mp h
        have hnonneg := (hkeyframes _ (List.mem_of_getElem? hstart)).1
        rw [mem_requestedFrames, startFrame_of_ne_zero aac hidx] at hj
        omega

end Call

/-! ## Runs -/

def firstRequest : List Call := [.generateSegment (.opened lateAudioFile.context) ⟨0, 0, 10000⟩]

theorem accepted_firstRequest : ∀ call ∈ firstRequest, call.Accepted [0, 10000, 20000] := by
  intro call hcall
  rw [List.mem_singleton.mp hcall]
  rfl

theorem videoFromZero_lateAudio : VideoFromZero lateAudioFile
    (.generateSegment (.opened lateAudioFile.context) ⟨0, 0, 10000⟩) lateAudioSession := by
  intro d vid aud hbuilds
  obtain ⟨hopened, -, -⟩ := create_opened create_lateAudio
  have hsame : SameFile lateAudioFile (.opened lateAudioFile.context) := rfl
  obtain ⟨hd, -, -⟩ := hopened.demuxer.seekToMs_eq hsame hbuilds.seek
  obtain rfl : d = fileAt lateAudioFile ⟨0, 0, 10000⟩ := hd
  obtain ⟨hvid, -⟩ := fileStreams_of_ok hbuilds.video hbuilds.audio
  have hstream : (fileVideo lateAudioFile).map (fun vid ↦ (vid.timeBase, vid.startTime)) =
      some (kMsTb, 0) := by
    decide +kernel
  rw [hvid, Option.map_some, Option.some.injEq, Prod.mk.injEq] at hstream
  obtain ⟨htb, hstart⟩ := hstream
  have hpackets : (fileAt lateAudioFile ⟨0, 0, 10000⟩).packets = lateAudio := by
    decide +kernel
  rw [htb, hpackets]
  refine ⟨by decide, fun pkt hpkt _ ↦ ?_⟩
  have hvalues : ∀ pkt ∈ lateAudio, 0 ≤ pkt.dts ∧ 0 ≤ pkt.pts ∧ pkt.dts ≤ 20000 := by decide
  obtain ⟨hdts, hpts, hlast⟩ := hvalues pkt hpkt
  have hsubtract : ∀ ts, subtractStartTime vid ts = ts := by
    intro ts
    rw [subtractStartTime, if_neg (by omega)]
  have hdecode : decodeTime vid pkt = pkt.dts := by
    simp only [decodeTime, hsubtract]
    rw [if_neg (by rw [avNoptsValue]; omega)]
  refine ⟨fun _ ↦ by rwa [hsubtract], fun _ ↦ by rwa [hsubtract], ?_⟩
  rw [hdecode, videoTicks_of_ms htb]
  omega

end Session

end Fmp4Packager
