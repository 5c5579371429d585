import Fmp4Packager.CInt
import Fmp4Packager.SegmentRoundTrip
import Fmp4Packager.VideoSeams

/-!
# The times of the video samples

A sample is decoded when the durations of the samples before it have passed since
the tfdt, and presented its composition offset later.  The durations are the gaps
between the decode times of the packets, where these gaps are positive.
-/

namespace Fmp4Packager

namespace Session

open Fmp4Writer IsoBox

/-- The DTS of a packet, or its PTS where the DTS is missing. -/
def decodeTime (vid : AVStream) (pkt : AVPacket) : ℤ :=
  let dts := subtractStartTime vid pkt.dts
  if dts = avNoptsValue then subtractStartTime vid pkt.pts else dts

/-- The PTS of a packet, or its DTS where the PTS is missing. -/
def presentationTime (vid : AVStream) (pkt : AVPacket) : ℤ :=
  let pts := subtractStartTime vid pkt.pts
  if pts = avNoptsValue then decodeTime vid pkt else pts

/-- A time of the stream in the units of the video track. -/
def videoTicks (vid : AVStream) (time : ℤ) : ℤ := avRescaleQ time vid.timeBase kVideoOutTb

/-- The duration that the packet itself gives to its sample. -/
def ownDuration (vid : AVStream) (pkt : AVPacket) : UInt32 :=
  if 0 < pkt.duration then UInt32.ofInt (videoTicks vid pkt.duration) else 0

def packetSample (vid : AVStream) (pkt : AVPacket) : Sample where
  data := some pkt.data
  size := UInt32.ofNat pkt.data.length
  dts := Int64.ofInt (videoTicks vid (decodeTime vid pkt))
  duration := ownDuration vid pkt
  ctsOffset :=
    let ctsOff := Int32.ofInt
      (videoTicks vid (presentationTime vid pkt) - videoTicks vid (decodeTime vid pkt))
    if ctsOff < 0 then 0 else ctsOff
  isKeyframe := pkt.key

theorem videoSample_eq (vid : AVStream) (pkt : AVPacket) :
    videoSample vid pkt =
      if decodeTime vid pkt = avNoptsValue then none else some (packetSample vid pkt) := by
  have hdts : (if subtractStartTime vid pkt.dts = avNoptsValue ∧
      subtractStartTime vid pkt.pts ≠ avNoptsValue then subtractStartTime vid pkt.pts
      else subtractStartTime vid pkt.dts) = decodeTime vid pkt := by
    simp only [decodeTime]
    split <;> split <;> simp_all
  simp only [videoSample]
  rw [hdts]
  rfl

theorem filterMap_videoSample {vid : AVStream} {packets : List AVPacket}
    (htime : ∀ pkt ∈ packets, decodeTime vid pkt ≠ avNoptsValue) :
    packets.filterMap (videoSample vid) = packets.map (packetSample vid) := by
  rw [← List.filterMap_eq_map]
  apply List.filterMap_congr
  intro pkt hpkt
  rw [videoSample_eq, if_neg (htime pkt hpkt), Function.comp_apply]

/-- The samples of a build are those of the packets of its run. -/
theorem runSamples_of_seeksBefore {δ ε α : Type} {m : Media} (c : AacCodec δ ε α)
    {reopen : Reopen} {stream : List AVPacket} {videoIdx : ℤ} {vid : AVStream} {w : Window}
    {s : Session δ ε α} {d : Demuxer} {aud : Option AVStream}
    (hseek : SeeksBefore m reopen stream videoIdx vid w s d aud)
    (hmiss : s.segmentCache.lookup w.segmentIdx = none)
    (htime : ∀ pkt ∈ stream, pkt.streamIndex = videoIdx → decodeTime vid pkt ≠ avNoptsValue) :
    runSamples w vid aud d =
        (videoStretch videoIdx vid w.segmentStartMs w.segmentEndMs stream).map
          (packetSample vid) ∧
      ∃ audioSamples, (buildSegmentLocked m c reopen w s).1 =
        segmentOutcome w vid s.aacCodecpar s.aac.isSome (runSamples w vid aud d)
          audioSamples := by
  refine ⟨?_, exists_audioSamples c hseek hmiss⟩
  rw [runSamples, between_of_seeksBefore hseek, hseek.videoStreamIdx]
  refine filterMap_videoSample fun pkt hpkt ↦ ?_
  obtain ⟨hbetween, hvideo⟩ := List.mem_filter.mp hpkt
  exact htime pkt (ListCut.mem_of_mem_between hbetween) (isVideo_iff.mp hvideo)

def videoInput (vid : AVStream) (samples : List Sample) : TrackInput :=
  ({ trackId := 1, timescale := kVideoOutTb, codecpar := some vid.codecpar }, samples,
    (samples.head?.map Sample.dts).getD 0)

theorem head?_segmentTracks (vid : AVStream) (aacCodecpar : Option AVCodecParameters)
    (hasAac : Bool) (videoSamples audioSamples : List Sample) :
    (segmentTracks vid aacCodecpar hasAac videoSamples audioSamples).head? =
      some (videoInput vid videoSamples) :=
  rfl

def presentedFrom (time : ℤ) (samples : List Sample) : List ℤ :=
  presentationTimesFrom time (samples.map fun s ↦
    (some s.duration.toNat, some s.size.toNat, some s.ctsOffset.toInt))

theorem presentedFrom_cons (time : ℤ) (s : Sample) (samples : List Sample) :
    presentedFrom time (s :: samples) =
      (time + s.ctsOffset.toInt) :: presentedFrom (time + s.duration.toNat) samples :=
  rfl

theorem startTime_trafView (dataOffset : ℕ) (input : TrackInput) :
    (trafView dataOffset input).startTime = input.2.2.toInt :=
  signed_toUInt64 input.2.2

theorem presentationTimes_trafView (dataOffset : ℕ) (input : TrackInput) :
    (trafView dataOffset input).presentationTimes =
      presentedFrom input.2.2.toInt input.2.1 := by
  rw [Traf.presentationTimes, startTime_trafView, samples_trafView, presentedFrom]

theorem endTime_trafView (dataOffset : ℕ) (input : TrackInput) :
    (trafView dataOffset input).endTime =
      input.2.2.toInt + (input.2.1.map fun s ↦ (s.duration.toNat : ℤ)).sum := by
  rw [Traf.endTime, startTime_trafView, samples_trafView, List.map_map]
  rfl

/-- The duration of a sample that another one follows. -/
def gapDuration (s next : Sample) : UInt32 :=
  if 0 < next.dts - s.dts then UInt32.ofInt (next.dts - s.dts).toInt else s.duration

theorem fixGaps_cons_cons (s next : Sample) (rest : List Sample) :
    fixGaps (s :: next :: rest) =
      { s with duration := gapDuration s next } :: fixGaps (next :: rest) := by
  rw [fixGaps, gapDuration]
  split <;> rfl

theorem fixGaps_singleton (s : Sample) : fixGaps [s] = [s] := rfl

theorem head?_fixGaps (samples : List Sample) :
    (fixGaps samples).head?.map Sample.dts = samples.head?.map Sample.dts := by
  match samples with
  | [] => rfl
  | [_] => rfl
  | s :: next :: rest =>
      rw [fixGaps_cons_cons]
      rfl

theorem head?_presentedFrom_fixGaps (time : ℤ) (s : Sample) (rest : List Sample) :
    (presentedFrom time (fixGaps (s :: rest))).head? = some (time + s.ctsOffset.toInt) := by
  cases rest with
  | nil => rfl
  | cons next rest =>
      rw [fixGaps_cons_cons]
      rfl

theorem fixLast_spec (samples : List Sample) :
    (fixLast samples).head?.map Sample.dts = samples.head?.map Sample.dts ∧
      ∀ time, presentedFrom time (fixLast samples) = presentedFrom time samples := by
  fun_induction fixLast samples with
  | case1 => exact ⟨rfl, fun _ ↦ rfl⟩
  | case2 s =>
      split
      · exact ⟨rfl, fun _ ↦ rfl⟩
      · exact ⟨rfl, fun _ ↦ rfl⟩
  | case3 s last => exact ⟨rfl, fun _ ↦ rfl⟩
  | case4 s rest hne hne' ih =>
      refine ⟨rfl, fun time ↦ ?_⟩
      rw [presentedFrom_cons, presentedFrom_cons, ih.2]

theorem videoInput_tfdt (vid : AVStream) (samples : List Sample) :
    (videoInput vid (fixVideoDurations samples)).2.2 =
      (samples.head?.map Sample.dts).getD 0 := by
  rw [videoInput, fixVideoDurations, (fixLast_spec _).1, head?_fixGaps]

theorem presentedFrom_fixVideoDurations (time : ℤ) (samples : List Sample) :
    presentedFrom time (fixVideoDurations samples) = presentedFrom time (fixGaps samples) :=
  (fixLast_spec _).2 time

theorem toInt_dts_packetSample {vid : AVStream} {pkt : AVPacket}
    (hlow : -2 ^ 63 ≤ videoTicks vid (decodeTime vid pkt))
    (hhigh : videoTicks vid (decodeTime vid pkt) < 2 ^ 63) :
    (packetSample vid pkt).dts.toInt = videoTicks vid (decodeTime vid pkt) :=
  Int64.toInt_ofInt_of_le hlow hhigh

theorem toInt_ctsOffset_eq_max (vid : AVStream) (pkt : AVPacket) :
    (packetSample vid pkt).ctsOffset.toInt =
      max 0 ((videoTicks vid (presentationTime vid pkt) -
        videoTicks vid (decodeTime vid pkt)).bmod (2 ^ 32)) := by
  simp only [packetSample, Int32.lt_iff_toInt_lt, Int32.toInt_zero]
  have hoffset := Int32.toInt_ofInt (n := videoTicks vid (presentationTime vid pkt) -
    videoTicks vid (decodeTime vid pkt))
  rw [show Int32.size = 2 ^ 32 from rfl] at hoffset
  split
  · rw [Int32.toInt_zero]
    omega
  · omega

theorem toInt_ctsOffset_packetSample {vid : AVStream} {pkt : AVPacket}
    (hlow : videoTicks vid (decodeTime vid pkt) ≤ videoTicks vid (presentationTime vid pkt))
    (hhigh : videoTicks vid (presentationTime vid pkt) - videoTicks vid (decodeTime vid pkt) <
      2 ^ 31) :
    (packetSample vid pkt).ctsOffset.toInt =
      videoTicks vid (presentationTime vid pkt) - videoTicks vid (decodeTime vid pkt) := by
  rw [toInt_ctsOffset_eq_max, Int.bmod_eq_of_le (by omega) (by omega)]
  omega

/-- From the decode time of a packet to that of the next one, in the units of the
video track. -/
def gapTicks (vid : AVStream) (pkt next : AVPacket) : ℤ :=
  videoTicks vid (decodeTime vid next) - videoTicks vid (decodeTime vid pkt)

theorem toNat_gapDuration (vid : AVStream) (pkt next : AVPacket) :
    ((gapDuration (packetSample vid pkt) (packetSample vid next)).toNat : ℤ) =
      if 0 < (gapTicks vid pkt next).bmod (2 ^ 64) then gapTicks vid pkt next % 2 ^ 32
      else ((ownDuration vid pkt).toNat : ℤ) := by
  have hgap : ((packetSample vid next).dts - (packetSample vid pkt).dts).toInt =
      (gapTicks vid pkt next).bmod (2 ^ 64) := by
    rw [packetSample, packetSample, ← Int64.ofInt_sub, Int64.toInt_ofInt]
    rfl
  simp only [gapDuration, Int64.lt_iff_toInt_lt, Int64.toInt_zero, hgap]
  split
  · rw [toNat_uint32, Int.bmod_def]
    split
    · omega
    · omega
  · rfl

/-- A sample lasts until the next one is decoded exactly when that one is decoded
later, or at once and the packet gives the sample no duration. -/
theorem toNat_gapDuration_eq_iff {vid : AVStream} {pkt next : AVPacket}
    (hfits : |gapTicks vid pkt next| < 2 ^ 31) :
    ((gapDuration (packetSample vid pkt) (packetSample vid next)).toNat : ℤ) =
        gapTicks vid pkt next ↔
      0 < gapTicks vid pkt next ∨ gapTicks vid pkt next = 0 ∧ ownDuration vid pkt = 0 := by
  rw [abs_lt] at hfits
  have hmod : (gapTicks vid pkt next).bmod (2 ^ 64) = gapTicks vid pkt next :=
    Int.bmod_eq_of_le (by omega) (by omega)
  rw [toNat_gapDuration, hmod, ← UInt32.toNat_inj, UInt32.toNat_zero]
  split
  · omega
  · omega

/-- One wrong duration moves all samples behind it, so the samples are presented on
time exactly when the first one is decoded on time and every duration is right. -/
theorem presentedFrom_fixGaps_iff {vid : AVStream} {first : AVPacket} {rest : List AVPacket}
    (hoffsets : ∀ pkt ∈ first :: rest, (packetSample vid pkt).ctsOffset.toInt =
      videoTicks vid (presentationTime vid pkt) - videoTicks vid (decodeTime vid pkt))
    (hgaps : (first :: rest).IsChain fun pkt next ↦ |gapTicks vid pkt next| < 2 ^ 31) (time : ℤ) :
    presentedFrom time (fixGaps ((first :: rest).map (packetSample vid))) =
        (first :: rest).map (fun pkt ↦ videoTicks vid (presentationTime vid pkt)) ↔
      time = videoTicks vid (decodeTime vid first) ∧
        (first :: rest).IsChain fun pkt next ↦
          0 < gapTicks vid pkt next ∨ gapTicks vid pkt next = 0 ∧ ownDuration vid pkt = 0 := by
  have hfirst := hoffsets first List.mem_cons_self
  induction rest generalizing first time with
  | nil =>
      rw [List.map_singleton, fixGaps_singleton, presentedFrom_cons, List.map_singleton,
        List.cons.injEq, hfirst]
      simp only [presentedFrom, List.map_nil, presentationTimesFrom, and_true,
        List.isChain_singleton]
      omega
  | cons next rest ih =>
      obtain ⟨hgap, hgaps⟩ := List.isChain_cons_cons.mp hgaps
      have hrest := ih (fun pkt hpkt ↦ hoffsets pkt (List.mem_cons_of_mem first hpkt)) hgaps
        (time + (gapDuration (packetSample vid first) (packetSample vid next)).toNat)
        (hoffsets next (List.mem_cons_of_mem first List.mem_cons_self))
      have hstep := toNat_gapDuration_eq_iff hgap
      have hcons : presentedFrom time (fixGaps ((first :: next :: rest).map (packetSample vid))) =
          (time + (packetSample vid first).ctsOffset.toInt) ::
            presentedFrom
              (time + (gapDuration (packetSample vid first) (packetSample vid next)).toNat)
              (fixGaps ((next :: rest).map (packetSample vid))) := by
        rw [List.map_cons, List.map_cons, fixGaps_cons_cons]
        rfl
      rw [hcons, List.map_cons (a := first), List.cons.injEq, List.isChain_cons_cons, ← hstep,
        hfirst, gapTicks]
      constructor
      · rintro ⟨htime, hpresented⟩
        obtain ⟨hnext, hchain⟩ := hrest.mp hpresented
        exact ⟨by omega, by omega, hchain⟩
      · rintro ⟨htime, hduration, hchain⟩
        exact ⟨by omega, hrest.mpr ⟨by omega, hchain⟩⟩

/-! ## Streams that count milliseconds -/

theorem videoTicks_of_ms {vid : AVStream} (htb : vid.timeBase = kMsTb) (time : ℤ) :
    videoTicks vid time = 16 * time := by
  have hb : kMsTb.num * kVideoOutTb.den = 16000 := rfl
  have hc : kVideoOutTb.num * kMsTb.den = 1000 := rfl
  simp only [videoTicks, htb, avRescaleQ, hb, hc]
  rw [if_neg (by decide)]
  split <;> omega

def sourceTime (vid : AVStream) (pkt : AVPacket) : ℤ :=
  if vid.startTime = avNoptsValue then pkt.pts else pkt.pts - vid.startTime

theorem presentationTime_of_carriesPts {vid : AVStream} {pkt : AVPacket}
    (h : CarriesPts vid pkt) : presentationTime vid pkt = subtractStartTime vid pkt.pts := by
  simp only [presentationTime]
  rw [if_neg (subtractStartTime_ne h)]

theorem decodeTime_le_presentationTime {vid : AVStream} {pkt : AVPacket}
    (h : CarriesPts vid pkt) (hle : pkt.dts ≤ pkt.pts) :
    decodeTime vid pkt ≤ presentationTime vid pkt := by
  rw [presentationTime_of_carriesPts h]
  have hpts := h.1
  simp only [decodeTime, subtractStartTime]
  split <;> split <;> split <;> omega

theorem decodeTime_ne_of_carriesPts {vid : AVStream} {pkt : AVPacket} (h : CarriesPts vid pkt) :
    decodeTime vid pkt ≠ avNoptsValue := by
  have hpts := subtractStartTime_ne h
  simp only [decodeTime]
  split
  · exact hpts
  · assumption

theorem gapTicks_of_ms {vid : AVStream} (htb : vid.timeBase = kMsTb) (pkt next : AVPacket) :
    gapTicks vid pkt next = 16 * (decodeTime vid next - decodeTime vid pkt) := by
  rw [gapTicks, videoTicks_of_ms htb, videoTicks_of_ms htb]
  omega

theorem gapTicks_pos_iff {vid : AVStream} (htb : vid.timeBase = kMsTb) {pkt next : AVPacket} :
    0 < gapTicks vid pkt next ↔ decodeTime vid pkt < decodeTime vid next := by
  rw [gapTicks_of_ms htb]
  omega

theorem gapTicks_eq_zero_iff {vid : AVStream} (htb : vid.timeBase = kMsTb)
    {pkt next : AVPacket} :
    gapTicks vid pkt next = 0 ↔ decodeTime vid pkt = decodeTime vid next := by
  rw [gapTicks_of_ms htb]
  omega

/-- The start time is taken off the presentation time unless it is negative. -/
theorem presentationTime_eq_sourceTime_iff {vid : AVStream} {pkt : AVPacket}
    (h : CarriesPts vid pkt) :
    presentationTime vid pkt = sourceTime vid pkt ↔
      vid.startTime = avNoptsValue ∨ 0 ≤ vid.startTime := by
  have hpts := h.1
  rw [presentationTime_of_carriesPts h, subtractStartTime, sourceTime]
  split <;> split <;> omega

/-- The samples of a segment are presented when their packets are, exactly when the
start time of the stream is not negative and the decode times of the packets
increase; two of them may be equal if the first packet has no duration. -/
theorem presentationTimes_eq_source_iff {vid : AVStream} {packets : List AVPacket}
    (htb : vid.timeBase = kMsTb) (hne : packets ≠ [])
    (hpts : ∀ pkt ∈ packets, CarriesPts vid pkt) (hle : ∀ pkt ∈ packets, pkt.dts ≤ pkt.pts)
    (hrange : ∀ pkt ∈ packets, -2 ^ 63 ≤ videoTicks vid (decodeTime vid pkt) ∧
      videoTicks vid (decodeTime vid pkt) < 2 ^ 63)
    (hoffsets : ∀ pkt ∈ packets,
      videoTicks vid (presentationTime vid pkt) - videoTicks vid (decodeTime vid pkt) < 2 ^ 31)
    (hgaps : packets.IsChain fun pkt next ↦ |gapTicks vid pkt next| < 2 ^ 31)
    (aacCodecpar : Option AVCodecParameters) (hasAac : Bool) (audioSamples : List Sample)
    (dataOffset : ℕ) :
    ∃ input,
      (segmentTracks vid aacCodecpar hasAac
          (fixVideoDurations (packets.filterMap (videoSample vid))) audioSamples).head? =
        some input ∧
      ((trafView dataOffset input).presentationTimes =
          packets.map (fun pkt ↦ videoTicks vid (sourceTime vid pkt)) ↔
        (vid.startTime = avNoptsValue ∨ 0 ≤ vid.startTime) ∧
          packets.IsChain fun pkt next ↦ decodeTime vid pkt < decodeTime vid next ∨
            decodeTime vid pkt = decodeTime vid next ∧ ownDuration vid pkt = 0) := by
  obtain ⟨first, rest, rfl⟩ := List.exists_cons_of_ne_nil hne
  refine ⟨_, head?_segmentTracks .., ?_⟩
  have hcts : ∀ pkt ∈ first :: rest, (packetSample vid pkt).ctsOffset.toInt =
      videoTicks vid (presentationTime vid pkt) - videoTicks vid (decodeTime vid pkt) := by
    intro pkt hpkt
    apply toInt_ctsOffset_packetSample _ (hoffsets pkt hpkt)
    rw [videoTicks_of_ms htb, videoTicks_of_ms htb]
    have := decodeTime_le_presentationTime (hpts pkt hpkt) (hle pkt hpkt)
    omega
  have htfdt : (packetSample vid first).dts.toInt = videoTicks vid (decodeTime vid first) := by
    obtain ⟨hlow, hhigh⟩ := hrange first List.mem_cons_self
    exact toInt_dts_packetSample hlow hhigh
  have hpresented : (trafView dataOffset (videoInput vid (fixVideoDurations
      ((first :: rest).filterMap (videoSample vid))))).presentationTimes =
      presentedFrom (videoTicks vid (decodeTime vid first))
        (fixGaps ((first :: rest).map (packetSample vid))) := by
    rw [presentationTimes_trafView, videoInput_tfdt, videoInput, presentedFrom_fixVideoDurations,
      filterMap_videoSample fun pkt hpkt ↦ decodeTime_ne_of_carriesPts (hpts pkt hpkt)]
    exact congrArg (presentedFrom · _) htfdt
  have hiff := presentedFrom_fixGaps_iff hcts hgaps (videoTicks vid (decodeTime vid first))
  rw [hpresented]
  by_cases hstart : vid.startTime = avNoptsValue ∨ 0 ≤ vid.startTime
  · have hsource : (first :: rest).map (fun pkt ↦ videoTicks vid (presentationTime vid pkt)) =
        (first :: rest).map (fun pkt ↦ videoTicks vid (sourceTime vid pkt)) := by
      apply List.map_congr_left
      intro pkt hpkt
      rw [(presentationTime_eq_sourceTime_iff (hpts pkt hpkt)).mpr hstart]
    rw [← hsource, hiff]
    simp only [gapTicks_pos_iff htb, gapTicks_eq_zero_iff htb, hstart]
  · refine iff_of_false (fun heq ↦ hstart ?_) fun h ↦ hstart h.1
    have hcarries := hpts first List.mem_cons_self
    have hhead := congrArg List.head? heq
    rw [List.map_cons, head?_presentedFrom_fixGaps, List.map_cons, List.head?_cons,
      Option.some.injEq, hcts first List.mem_cons_self, videoTicks_of_ms htb, videoTicks_of_ms htb,
      videoTicks_of_ms htb] at hhead
    exact (presentationTime_eq_sourceTime_iff hcarries).mp (by omega)

/-! Packets of which the second has no DTS: its PTS stands in for it, and that may be
past the DTS of the packet behind it. -/

def secondWithoutDts (pts : ℤ) : List AVPacket :=
  [⟨0, 80, 0, 40, true, [1]⟩, ⟨0, pts, avNoptsValue, 40, false, [2]⟩,
    ⟨0, 120, 80, 40, false, [3]⟩]

theorem presentationTimes_eq_source_iff_secondWithoutDts :
    ∃ input,
      (segmentTracks (millisecondStream .video) none false (fixVideoDurations
          ((secondWithoutDts 40).filterMap (videoSample (millisecondStream .video)))) []).head? =
        some input ∧
      ((trafView 0 input).presentationTimes =
          (secondWithoutDts 40).map (fun pkt ↦
            videoTicks (millisecondStream .video) (sourceTime (millisecondStream .video) pkt)) ↔
        ((millisecondStream .video).startTime = avNoptsValue ∨
            0 ≤ (millisecondStream .video).startTime) ∧
          (secondWithoutDts 40).IsChain fun pkt next ↦
            decodeTime (millisecondStream .video) pkt <
                decodeTime (millisecondStream .video) next ∨
              decodeTime (millisecondStream .video) pkt =
                  decodeTime (millisecondStream .video) next ∧
                ownDuration (millisecondStream .video) pkt = 0) :=
  presentationTimes_eq_source_iff rfl (by decide)
    (by simp [secondWithoutDts, CarriesPts, millisecondStream, avNoptsValue])
    (by decide) (by decide) (by decide) (by decide) none false [] 0

/-- The sample behind a missing DTS is not presented when its packet is. -/
theorem not_presentationTimes_eq_source :
    ¬∀ (vid : AVStream) (packets : List AVPacket), vid.timeBase = kMsTb → packets ≠ [] →
      (∀ pkt ∈ packets, CarriesPts vid pkt) → (∀ pkt ∈ packets, pkt.dts ≤ pkt.pts) →
      ((packets.map AVPacket.dts).filter (· ≠ avNoptsValue)).Pairwise (· < ·) →
      (∀ pkt ∈ packets, -2 ^ 63 ≤ videoTicks vid (decodeTime vid pkt) ∧
        videoTicks vid (decodeTime vid pkt) < 2 ^ 63) →
      (∀ pkt ∈ packets,
        videoTicks vid (presentationTime vid pkt) - videoTicks vid (decodeTime vid pkt) <
          2 ^ 31) →
      (packets.IsChain fun pkt next ↦ |gapTicks vid pkt next| < 2 ^ 31) →
      ∀ input,
        (segmentTracks vid none false
            (fixVideoDurations (packets.filterMap (videoSample vid))) []).head? = some input →
          (trafView 0 input).presentationTimes =
            packets.map fun pkt ↦ videoTicks vid (sourceTime vid pkt) := by
  intro h
  have htimes := h (millisecondStream .video) (secondWithoutDts 160) rfl (by decide)
    (by simp [secondWithoutDts, CarriesPts, millisecondStream, avNoptsValue])
    (by decide) (by decide) (by decide) (by decide) (by decide) _ rfl
  revert htimes
  decide

end Session

end Fmp4Packager
