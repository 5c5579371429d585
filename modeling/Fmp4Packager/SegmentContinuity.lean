import Fmp4Packager.VideoTimeline

/-!
# The video timeline across segments

The last duration of a segment is that of the sample before it, while the tfdt of
the next segment is the decode time of its own first packet.  The two segments join
exactly when the packets are equally spaced there.
-/

namespace Fmp4Packager

namespace Session

open Fmp4Writer IsoBox Server

/-- The packet has a DTS, also when the start time of its stream is taken off. -/
def CarriesDts (vid : AVStream) (pkt : AVPacket) : Prop :=
  avNoptsValue < pkt.dts ∧ avNoptsValue < pkt.dts - vid.startTime

/-- The samples of `run` last until the DTS of `next`: two packets or more if no two
neighbours are too far apart for a duration, and the last one is as far from
`next` as from the packet before it; a single packet if it says so itself. -/
def LastsUntil (next : AVPacket) : List AVPacket → Prop
  | [] => False
  | [pkt] => 0 < pkt.duration ∧ 16 * pkt.duration % 2 ^ 32 = 16 * (next.dts - pkt.dts)
  | [prev, last] =>
      16 * (last.dts - prev.dts) < 2 ^ 32 ∧ next.dts - last.dts = last.dts - prev.dts
  | pkt :: later :: rest =>
      16 * (later.dts - pkt.dts) < 2 ^ 32 ∧ LastsUntil next (later :: rest)

theorem lastsUntil_cons (next pkt later third : AVPacket) (rest : List AVPacket) :
    LastsUntil next (pkt :: later :: third :: rest) ↔
      16 * (later.dts - pkt.dts) < 2 ^ 32 ∧ LastsUntil next (later :: third :: rest) :=
  Iff.rfl

/-- When the samples of packets end. -/
def runEnd (vid : AVStream) (first : AVPacket) (rest : List AVPacket) : ℤ :=
  videoTicks vid (decodeTime vid first) +
    ((fixVideoDurations ((first :: rest).map (packetSample vid))).map fun s ↦
      (s.duration.toNat : ℤ)).sum

theorem runEnd_pair (vid : AVStream) (prev last : AVPacket) :
    runEnd vid prev [last] = videoTicks vid (decodeTime vid prev) +
      2 * (gapDuration (packetSample vid prev) (packetSample vid last)).toNat := by
  have hfixed : fixVideoDurations ([prev, last].map (packetSample vid)) =
      [{ packetSample vid prev with
          duration := gapDuration (packetSample vid prev) (packetSample vid last) },
        { packetSample vid last with
          duration := gapDuration (packetSample vid prev) (packetSample vid last) }] := by
    rw [List.map_cons, List.map_singleton, fixVideoDurations, fixGaps_cons_cons,
      fixGaps_singleton]
    rfl
  rw [runEnd, hfixed]
  simp only [List.map_cons, List.map_nil, List.sum_cons, List.sum_nil]
  ring

theorem runEnd_cons (vid : AVStream) (pkt later third : AVPacket) (rest : List AVPacket) :
    runEnd vid pkt (later :: third :: rest) = runEnd vid later (third :: rest) -
      gapTicks vid pkt later +
      (gapDuration (packetSample vid pkt) (packetSample vid later)).toNat := by
  have hfixed : fixVideoDurations ((pkt :: later :: third :: rest).map (packetSample vid)) =
      { packetSample vid pkt with
          duration := gapDuration (packetSample vid pkt) (packetSample vid later) } ::
        fixVideoDurations ((later :: third :: rest).map (packetSample vid)) := by
    simp only [List.map_cons, fixVideoDurations, fixGaps_cons_cons]
    cases rest with
    | nil => rfl
    | cons fourth rest =>
        simp only [List.map_cons, fixGaps_cons_cons]
        rfl
  rw [runEnd, runEnd, hfixed, List.map_cons, List.sum_cons, gapTicks]
  ring

/-- A duration is the gap to the next packet, or falls short of it by at least the
range of a duration. -/
theorem gapDuration_or_short {vid : AVStream} {pkt next : AVPacket}
    (hpos : 0 < gapTicks vid pkt next) :
    gapTicks vid pkt next < 2 ^ 32 ∧
        ((gapDuration (packetSample vid pkt) (packetSample vid next)).toNat : ℤ) =
          gapTicks vid pkt next ∨
      2 ^ 32 ≤ gapTicks vid pkt next ∧
        ((gapDuration (packetSample vid pkt) (packetSample vid next)).toNat : ℤ) + 2 ^ 32 ≤
          gapTicks vid pkt next := by
  have hown := (ownDuration vid pkt).toNat_lt
  rw [toNat_gapDuration, Int.bmod_def]
  split
  · split
    · omega
    · omega
  · split
    · omega
    · omega

/-- The second packet is decoded later, and by the difference of the DTS. -/
def DecodedAfter (vid : AVStream) (pkt later : AVPacket) : Prop :=
  pkt.dts < later.dts ∧ gapTicks vid pkt later = 16 * (later.dts - pkt.dts)

theorem DecodedAfter.pos {vid : AVStream} {pkt later : AVPacket} (h : DecodedAfter vid pkt later) :
    0 < gapTicks vid pkt later := by
  obtain ⟨hlt, hgap⟩ := h
  omega

/-- A gap that is too large for a duration leaves the run behind by more than its
last duration can make up for. -/
theorem runEnd_spec {vid : AVStream} {next : AVPacket} {pkt later : AVPacket}
    {rest : List AVPacket}
    (hchain : (pkt :: later :: (rest ++ [next])).IsChain (DecodedAfter vid)) :
    runEnd vid pkt (later :: rest) < videoTicks vid (decodeTime vid next) + 2 ^ 32 ∧
      (runEnd vid pkt (later :: rest) = videoTicks vid (decodeTime vid next) ↔
        LastsUntil next (pkt :: later :: rest)) := by
  obtain ⟨hfirst, hrest⟩ := List.isChain_cons_cons.mp hchain
  have hdts := hfirst.2
  induction rest generalizing pkt later with
  | nil =>
      obtain ⟨hlast, -⟩ := List.isChain_cons_cons.mp hrest
      have hpos := hlast.pos
      have hnext := hlast.2
      have hlt := (gapDuration (packetSample vid pkt) (packetSample vid later)).toNat_lt
      rw [runEnd_pair, LastsUntil, ← hdts]
      rcases gapDuration_or_short hfirst.pos with ⟨hshort, hduration⟩ | ⟨hlong, hduration⟩
      · simp only [gapTicks] at *
        omega
      · simp only [gapTicks] at *
        omega
  | cons third rest ih =>
      obtain ⟨hsecond, -⟩ := List.isChain_cons_cons.mp hrest
      have htail := ih hrest hsecond (List.isChain_cons_cons.mp hrest).2 hsecond.2
      obtain ⟨hbound, hiff⟩ := htail
      rw [runEnd_cons, lastsUntil_cons, ← hiff, ← hdts]
      rcases gapDuration_or_short hfirst.pos with ⟨hshort, hduration⟩ | ⟨hlong, hduration⟩
      · omega
      · omega

theorem runEnd_singleton {vid : AVStream} (htb : vid.timeBase = kMsTb) {pkt next : AVPacket}
    (h : DecodedAfter vid pkt next) :
    runEnd vid pkt [] = videoTicks vid (decodeTime vid next) ↔ LastsUntil next [pkt] := by
  have hpos := h.pos
  have hgap := h.2
  have hown : ((ownDuration vid pkt).toNat : ℤ) =
      if 0 < pkt.duration then 16 * pkt.duration % 2 ^ 32 else 0 := by
    rw [ownDuration]
    split
    · rw [toNat_uint32, videoTicks_of_ms htb]
    · rfl
  have hend : runEnd vid pkt [] = videoTicks vid (decodeTime vid pkt) +
      if ownDuration vid pkt = 0 then 533 else ((ownDuration vid pkt).toNat : ℤ) := by
    rw [runEnd, List.map_singleton, fixVideoDurations, fixGaps_singleton, fixLast]
    have hduration : (packetSample vid pkt).duration = ownDuration vid pkt := rfl
    rw [hduration]
    split
    · rfl
    · simp [hduration]
  rw [hend, LastsUntil]
  simp only [← UInt32.toNat_inj, UInt32.toNat_zero]
  simp only [gapTicks] at hpos hgap
  split at hown
  · split <;> omega
  · split <;> omega

/-! ## Two consecutive segments -/

theorem decodeTime_of_carriesDts {vid : AVStream} {pkt : AVPacket} (h : CarriesDts vid pkt) :
    decodeTime vid pkt = subtractStartTime vid pkt.dts ∧ decodeTime vid pkt ≠ avNoptsValue := by
  obtain ⟨hdts, hshifted⟩ := h
  have hne : subtractStartTime vid pkt.dts ≠ avNoptsValue := by
    rw [subtractStartTime]
    split <;> omega
  simp only [decodeTime]
  rw [if_neg hne]
  exact ⟨rfl, hne⟩

theorem decodedAfter_of_lt {vid : AVStream} (htb : vid.timeBase = kMsTb) {pkt later : AVPacket}
    (hpkt : CarriesDts vid pkt) (hlater : CarriesDts vid later) (hlt : pkt.dts < later.dts) :
    DecodedAfter vid pkt later := by
  refine ⟨hlt, ?_⟩
  have hdts := hpkt.1
  have hdts' := hlater.1
  rw [gapTicks_of_ms htb, (decodeTime_of_carriesDts hpkt).1, (decodeTime_of_carriesDts hlater).1]
  simp only [subtractStartTime]
  split <;> split <;> omega

/-- The stretches of two consecutive windows follow each other in the stream. -/
theorem videoStretch_append_isInfix {videoIdx : ℤ} {vid : AVStream} {startMs seamMs : ℤ}
    {stream : List AVPacket} (hne : videoStretch videoIdx vid startMs seamMs stream ≠ [])
    (endMs : ℤ) :
    videoStretch videoIdx vid startMs seamMs stream ++
        videoStretch videoIdx vid seamMs endMs stream <:+:
      stream.filter (isVideo videoIdx) := by
  have hle : startMs ≤ seamMs := by
    by_contra hlt
    have hseam : seamMs ≤ startMs := by omega
    have hcuts : ∀ pkt, keyframeFrom videoIdx vid startMs pkt →
        keyframeFrom videoIdx vid seamMs pkt := fun pkt ↦ keyframeFrom_of_le hseam
    have hnil := ListCut.between_eq_nil hcuts stream
    exact hne (by rw [videoStretch, hnil, List.filter_nil])
  have hinitial : ListCut.between (keyframeFrom videoIdx vid) startMs seamMs stream ++
      ListCut.between (keyframeFrom videoIdx vid) seamMs endMs stream <:+:
        ListCut.onwards (keyframeFrom videoIdx vid) startMs stream := by
    rw [← ListCut.between_append_onwards (fun pkt ↦ keyframeFrom_of_le hle) stream]
    exact (List.prefix_append_right_inj _).mpr (List.takeWhile_prefix _) |>.isInfix
  rw [videoStretch, videoStretch, ← List.filter_append]
  exact (hinitial.trans (List.dropWhile_suffix _).isInfix).filter _

/-- The video track that a build puts into its segment. -/
def videoTrack (w : Window) (vid : AVStream) (aud : Option AVStream) (d : Demuxer) : TrackInput :=
  videoInput vid (fixVideoDurations (runSamples w vid aud d))

theorem startTime_videoTrack {w : Window} {vid : AVStream} {aud : Option AVStream} {d : Demuxer}
    {first : AVPacket} {rest : List AVPacket}
    (hsamples : runSamples w vid aud d = (first :: rest).map (packetSample vid))
    (hlow : -2 ^ 63 ≤ videoTicks vid (decodeTime vid first))
    (hhigh : videoTicks vid (decodeTime vid first) < 2 ^ 63) (dataOffset : ℕ) :
    (trafView dataOffset (videoTrack w vid aud d)).startTime =
      videoTicks vid (decodeTime vid first) := by
  rw [startTime_trafView, videoTrack, videoInput_tfdt, hsamples]
  exact toInt_dts_packetSample hlow hhigh

theorem endTime_videoTrack {w : Window} {vid : AVStream} {aud : Option AVStream} {d : Demuxer}
    {first : AVPacket} {rest : List AVPacket}
    (hsamples : runSamples w vid aud d = (first :: rest).map (packetSample vid))
    (hlow : -2 ^ 63 ≤ videoTicks vid (decodeTime vid first))
    (hhigh : videoTicks vid (decodeTime vid first) < 2 ^ 63) (dataOffset : ℕ) :
    (trafView dataOffset (videoTrack w vid aud d)).endTime = runEnd vid first rest := by
  have hstart := startTime_videoTrack hsamples hlow hhigh dataOffset
  rw [startTime_trafView] at hstart
  rw [endTime_trafView, hstart, runEnd, ← hsamples]
  rfl

variable {δ ε α : Type}

/-- The first segment ends where the next one starts exactly when its samples last
until the first packet of the next one. -/
theorem segments_continuous_iff {m : Media} (c : AacCodec δ ε α) (stream : List AVPacket)
    {videoIdx : ℤ} {vid : AVStream} (keyframes : List ℤ) (segmentIdx : ℤ) {w w' : Window}
    {s s' : Session δ ε α} {reopen reopen' : Reopen} {d d' : Demuxer} {aud aud' : Option AVStream}
    (htb : vid.timeBase = kMsTb)
    (hdts : ∀ pkt ∈ stream, pkt.streamIndex = videoIdx → CarriesDts vid pkt)
    (hincreasing : ((stream.filter (isVideo videoIdx)).map AVPacket.dts).Pairwise (· < ·))
    (hrange : ∀ pkt ∈ stream, pkt.streamIndex = videoIdx →
      -2 ^ 63 ≤ videoTicks vid (decodeTime vid pkt) ∧
        videoTicks vid (decodeTime vid pkt) < 2 ^ 63)
    (hw : segmentWindow keyframes segmentIdx = some w)
    (hw' : segmentWindow keyframes (segmentIdx + 1) = some w')
    (hmiss : s.segmentCache.lookup w.segmentIdx = none)
    (hmiss' : s'.segmentCache.lookup w'.segmentIdx = none)
    (hseek : SeeksBefore m reopen stream videoIdx vid w s d aud)
    (hseek' : SeeksBefore m reopen' stream videoIdx vid w' s' d' aud')
    (hvideo : videoStretch videoIdx vid w.segmentStartMs w.segmentEndMs stream ≠ [])
    (hvideo' : videoStretch videoIdx vid w'.segmentStartMs w'.segmentEndMs stream ≠ []) :
    (∃ audioSamples, (buildSegmentLocked m c reopen w s).1 = segmentOutcome w vid s.aacCodecpar
        s.aac.isSome (runSamples w vid aud d) audioSamples) ∧
      (∃ audioSamples, (buildSegmentLocked m c reopen' w' s').1 = segmentOutcome w' vid
        s'.aacCodecpar s'.aac.isSome (runSamples w' vid aud' d') audioSamples) ∧
      ∀ dataOffset dataOffset',
        (trafView dataOffset (videoTrack w vid aud d)).endTime =
            (trafView dataOffset' (videoTrack w' vid aud' d')).startTime ↔
          LastsUntil
            ((videoStretch videoIdx vid w'.segmentStartMs w'.segmentEndMs stream).head hvideo')
            (videoStretch videoIdx vid w.segmentStartMs w.segmentEndMs stream) := by
  have hseam : w'.segmentStartMs = w.segmentEndMs := by
    obtain ⟨hidx, -, -, hend⟩ := segmentWindow_eq_some.mp hw
    obtain ⟨-, -, hstart, -⟩ := segmentWindow_eq_some.mp hw'
    rw [show (segmentIdx + 1).toNat = segmentIdx.toNat + 1 by omega, hend] at hstart
    exact (Option.some.inj hstart).symm
  have htime : ∀ pkt ∈ stream, pkt.streamIndex = videoIdx → decodeTime vid pkt ≠ avNoptsValue :=
    fun pkt hpkt hvideo ↦ (decodeTime_of_carriesDts (hdts pkt hpkt hvideo)).2
  obtain ⟨hsamples, hbuild⟩ := runSamples_of_seeksBefore c hseek hmiss htime
  obtain ⟨hsamples', hbuild'⟩ := runSamples_of_seeksBefore c hseek' hmiss' htime
  refine ⟨hbuild, hbuild', fun dataOffset dataOffset' ↦ ?_⟩
  have hpart := videoStretch_append_isInfix hvideo w'.segmentEndMs
  rw [← hseam] at hpart hvideo hsamples ⊢
  obtain ⟨first, rest, hrun⟩ := List.exists_cons_of_ne_nil hvideo
  obtain ⟨next, rest', hrun'⟩ := List.exists_cons_of_ne_nil hvideo'
  simp only [hrun, hrun', List.head_cons] at hpart hsamples hsamples' ⊢
  have hvideoPkt : ∀ pkt ∈ first :: rest ++ next :: rest',
      pkt ∈ stream ∧ pkt.streamIndex = videoIdx := by
    intro pkt hpkt
    obtain ⟨hmem, hvideo⟩ := List.mem_filter.mp (hpart.subset hpkt)
    exact ⟨hmem, isVideo_iff.mp hvideo⟩
  have hcarries : ∀ pkt ∈ first :: rest ++ next :: rest', CarriesDts vid pkt := fun pkt hpkt ↦
    hdts pkt (hvideoPkt pkt hpkt).1 (hvideoPkt pkt hpkt).2
  have hrangePkt := fun pkt hpkt ↦ hrange pkt (hvideoPkt pkt hpkt).1 (hvideoPkt pkt hpkt).2
  have hchain : (first :: (rest ++ [next])).IsChain (DecodedAfter vid) := by
    have hpairwise := (List.pairwise_map.mp hincreasing).sublist hpart.sublist
    have hafter : (first :: rest ++ next :: rest').Pairwise (DecodedAfter vid) :=
      hpairwise.imp_of_mem fun hpkt hlater hlt ↦
        decodedAfter_of_lt htb (hcarries _ hpkt) (hcarries _ hlater) hlt
    refine (hafter.sublist ?_).isChain
    simp
  obtain ⟨hlow, hhigh⟩ := hrangePkt first (by simp)
  obtain ⟨hlow', hhigh'⟩ := hrangePkt next (by simp)
  rw [endTime_videoTrack hsamples hlow hhigh, startTime_videoTrack hsamples' hlow' hhigh']
  cases rest with
  | nil => exact runEnd_singleton htb (List.isChain_pair.mp hchain)
  | cons later rest => exact (runEnd_spec hchain).2

/-! Four packets, of which the last two are keyframes; the seam lies before the third
one, which may be further from the second than that is from the first. -/

def packetsAround (seam : ℤ) : List AVPacket :=
  [⟨0, 0, 0, 40, true, [1]⟩, ⟨0, 40, 40, 40, false, [2]⟩, ⟨0, seam, seam, 40, true, [3]⟩,
    ⟨0, 200, 200, 40, true, [4]⟩]

def soughtDemuxer (packets : List AVPacket) : Demuxer :=
  { (openedSession (videoFile packets)).demuxer with packets := packets }

theorem segments_continuous_iff_evenly :
    (∃ audioSamples, (buildSegmentLocked (videoFile (packetsAround 80)) noCodec
        (.opened (videoFile (packetsAround 80)).context) ⟨0, 0, 80⟩
        (openedSession (videoFile (packetsAround 80)))).1 =
      segmentOutcome ⟨0, 0, 80⟩ (millisecondStream .video) none false
        (runSamples ⟨0, 0, 80⟩ (millisecondStream .video) none
          (soughtDemuxer (packetsAround 80))) audioSamples) ∧
      (∃ audioSamples, (buildSegmentLocked (videoFile (packetsAround 80)) noCodec
          (.opened (videoFile (packetsAround 80)).context) ⟨1, 80, 200⟩
          (openedSession (videoFile (packetsAround 80)))).1 =
        segmentOutcome ⟨1, 80, 200⟩ (millisecondStream .video) none false
          (runSamples ⟨1, 80, 200⟩ (millisecondStream .video) none
            (soughtDemuxer (packetsAround 80))) audioSamples) ∧
      ∀ dataOffset dataOffset',
        (trafView dataOffset (videoTrack ⟨0, 0, 80⟩ (millisecondStream .video) none
            (soughtDemuxer (packetsAround 80)))).endTime =
          (trafView dataOffset' (videoTrack ⟨1, 80, 200⟩ (millisecondStream .video) none
            (soughtDemuxer (packetsAround 80)))).startTime ↔
          LastsUntil
            ((videoStretch 0 (millisecondStream .video) 80 200 (packetsAround 80)).head
              (by decide))
            (videoStretch 0 (millisecondStream .video) 0 80 (packetsAround 80)) :=
  segments_continuous_iff noCodec (packetsAround 80) [0, 80, 200] 0 rfl
    (by simp [packetsAround, CarriesDts, millisecondStream, avNoptsValue]) (by decide)
    (by decide) rfl rfl rfl rfl ⟨rfl, rfl, rfl, rfl, [], rfl, by simp⟩
    ⟨rfl, rfl, rfl, rfl, [], rfl, by simp⟩ (by decide) (by decide)

/-- With a wider gap at the seam the first segment ends too early. -/
theorem not_segments_continuous :
    ¬∀ (m : Media) (stream : List AVPacket) (videoIdx : ℤ) (vid : AVStream) (keyframes : List ℤ)
        (segmentIdx : ℤ) (w w' : Window) (s s' : Session Unit Unit Unit) (reopen reopen' : Reopen)
        (d d' : Demuxer) (aud aud' : Option AVStream),
      vid.timeBase = kMsTb →
      (∀ pkt ∈ stream, pkt.streamIndex = videoIdx → CarriesDts vid pkt) →
      ((stream.filter (isVideo videoIdx)).map AVPacket.dts).Pairwise (· < ·) →
      (∀ pkt ∈ stream, pkt.streamIndex = videoIdx →
        -2 ^ 63 ≤ videoTicks vid (decodeTime vid pkt) ∧
          videoTicks vid (decodeTime vid pkt) < 2 ^ 63) →
      segmentWindow keyframes segmentIdx = some w →
      segmentWindow keyframes (segmentIdx + 1) = some w' →
      s.segmentCache.lookup w.segmentIdx = none → s'.segmentCache.lookup w'.segmentIdx = none →
      SeeksBefore m reopen stream videoIdx vid w s d aud →
      SeeksBefore m reopen' stream videoIdx vid w' s' d' aud' →
      videoStretch videoIdx vid w.segmentStartMs w.segmentEndMs stream ≠ [] →
      videoStretch videoIdx vid w'.segmentStartMs w'.segmentEndMs stream ≠ [] →
      (trafView 0 (videoTrack w vid aud d)).endTime =
        (trafView 0 (videoTrack w' vid aud' d')).startTime := by
  intro h
  have hends := h (videoFile (packetsAround 100)) (packetsAround 100) 0 (millisecondStream .video)
    [0, 100, 200] 0 ⟨0, 0, 100⟩ ⟨1, 100, 200⟩ (openedSession (videoFile (packetsAround 100)))
    (openedSession (videoFile (packetsAround 100)))
    (.opened (videoFile (packetsAround 100)).context)
    (.opened (videoFile (packetsAround 100)).context) (soughtDemuxer (packetsAround 100))
    (soughtDemuxer (packetsAround 100)) none none rfl
    (by simp [packetsAround, CarriesDts, millisecondStream, avNoptsValue]) (by decide)
    (by decide) rfl rfl rfl rfl ⟨rfl, rfl, rfl, rfl, [], rfl, by simp⟩
    ⟨rfl, rfl, rfl, rfl, [], rfl, by simp⟩ (by decide) (by decide)
  revert hends
  decide

end Session

end Fmp4Packager
