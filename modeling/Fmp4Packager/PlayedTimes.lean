import Fmp4Packager.Playback

/-!
# The times at which a player shows the video

Each segment starts at the decode time of its first packet and goes on by the gaps between
its packets.  Where the decode times of a stream increase, a player that fetches every
segment decodes and presents each packet at its own time, however the stream is cut.
-/

namespace Fmp4Packager

open IsoBox

namespace Fmp4Writer

/-- The samples of the video track of a segment, as a player cuts them out, with the times
at which it decodes and presents them. -/
def videoFrames (bytes : List UInt8) : Option (List (ℤ × ℤ × List UInt8)) := do
  let f ← readFragment bytes
  let traf ← f.trafs.find? fun t ↦ t.tfhd.trackId = 1
  some (traf.decodeTimes.zip (traf.presentationTimes.zip (traf.payloads bytes f.moof.start)))

end Fmp4Writer

namespace Session

open Fmp4Writer

def decodedFrom (time : ℤ) (samples : List Sample) : List ℤ :=
  decodeTimesFrom time (samples.map fun s ↦
    (some s.duration.toNat, some s.size.toNat, some s.ctsOffset.toInt))

theorem decodedFrom_cons (time : ℤ) (s : Sample) (samples : List Sample) :
    decodedFrom time (s :: samples) = time :: decodedFrom (time + s.duration.toNat) samples :=
  rfl

theorem decodeTimes_trafView (dataOffset : ℕ) (input : TrackInput) :
    (trafView dataOffset input).decodeTimes = decodedFrom input.2.2.toInt input.2.1 := by
  rw [Traf.decodeTimes, startTime_trafView, samples_trafView, decodedFrom]

/-- The duration of the last sample moves no sample. -/
theorem decodedFrom_fixLast (time : ℤ) (samples : List Sample) :
    decodedFrom time (fixLast samples) = decodedFrom time samples := by
  fun_induction fixLast samples generalizing time with
  | case1 => rfl
  | case2 s => split <;> rfl
  | case3 s last => rfl
  | case4 s rest hne hne' ih => rw [decodedFrom_cons, decodedFrom_cons, ih]

/-- The next packet is decoded later, by a gap that a duration can hold. -/
def DecodedNext (vid : AVStream) (pkt next : AVPacket) : Prop :=
  0 < gapTicks vid pkt next ∧ gapTicks vid pkt next < 2 ^ 31

instance (vid : AVStream) : DecidableRel (DecodedNext vid) :=
  fun _ _ ↦ inferInstanceAs (Decidable (_ ∧ _))

theorem DecodedNext.toNat_gapDuration {vid : AVStream} {pkt next : AVPacket}
    (h : DecodedNext vid pkt next) :
    ((gapDuration (packetSample vid pkt) (packetSample vid next)).toNat : ℤ) =
      gapTicks vid pkt next := by
  obtain ⟨hpos, hfits⟩ := h
  exact (toNat_gapDuration_eq_iff (abs_lt.mpr ⟨by omega, hfits⟩)).mpr (.inl hpos)

theorem decodedFrom_fixGaps {vid : AVStream} {first : AVPacket} {rest : List AVPacket}
    (hnext : (first :: rest).IsChain (DecodedNext vid)) :
    decodedFrom (videoTicks vid (decodeTime vid first))
        (fixGaps ((first :: rest).map (packetSample vid))) =
      (first :: rest).map fun pkt ↦ videoTicks vid (decodeTime vid pkt) := by
  induction rest generalizing first with
  | nil => rfl
  | cons next rest ih =>
      obtain ⟨hgap, hrest⟩ := List.isChain_cons_cons.mp hnext
      have hduration := hgap.toNat_gapDuration
      have htime : videoTicks vid (decodeTime vid first) +
          ((gapDuration (packetSample vid first) (packetSample vid next)).toNat : ℤ) =
            videoTicks vid (decodeTime vid next) := by
        rw [hduration, gapTicks]
        omega
      have htail := ih hrest
      rw [List.map_cons] at htail
      rw [List.map_cons, List.map_cons, fixGaps_cons_cons, decodedFrom_cons, htime, htail]
      rfl

/-- A packet of the video with its times, in the units of the video track. -/
def timedPacket (vid : AVStream) (pkt : AVPacket) : ℤ × ℤ × List UInt8 :=
  (videoTicks vid (decodeTime vid pkt), videoTicks vid (presentationTime vid pkt), pkt.data)

/-- The times of a packet fit the fields of a segment. -/
structure FitsFields (vid : AVStream) (pkt : AVPacket) : Prop where
  low : -2 ^ 63 ≤ videoTicks vid (decodeTime vid pkt)
  high : videoTicks vid (decodeTime vid pkt) < 2 ^ 63
  decodedFirst : videoTicks vid (decodeTime vid pkt) ≤ videoTicks vid (presentationTime vid pkt)
  offset : videoTicks vid (presentationTime vid pkt) - videoTicks vid (decodeTime vid pkt) <
    2 ^ 31

/-- A file whose packets are decoded one after the other, each before it is presented. -/
structure WellTimed (m : Media) (stream : List AVPacket) (vid : AVStream) : Prop
    extends WellFormed m stream vid where
  fits : ∀ pkt ∈ stream, pkt.streamIndex = m.context.bestVideo → FitsFields vid pkt
  next : (stream.filter (isVideo m.context.bestVideo)).IsChain (DecodedNext vid)

theorem videoStretch_isInfix (videoIdx : ℤ) (vid : AVStream) (startMs endMs : ℤ)
    (stream : List AVPacket) :
    videoStretch videoIdx vid startMs endMs stream <:+: stream.filter (isVideo videoIdx) :=
  ((List.takeWhile_prefix _).isInfix.trans (List.dropWhile_suffix _).isInfix).filter _

theorem tfdt_packetSamples {vid : AVStream} {first : AVPacket} (hfirst : FitsFields vid first)
    (rest : List AVPacket) :
    (videoInput vid (fixVideoDurations ((first :: rest).map (packetSample vid)))).2.2.toInt =
      videoTicks vid (decodeTime vid first) := by
  rw [videoInput_tfdt]
  exact toInt_dts_packetSample hfirst.low hfirst.high

theorem presentedFrom_packetSamples {vid : AVStream} {first : AVPacket} {rest : List AVPacket}
    (hfits : ∀ pkt ∈ first :: rest, FitsFields vid pkt)
    (hnext : (first :: rest).IsChain (DecodedNext vid)) :
    presentedFrom (videoTicks vid (decodeTime vid first))
        (fixVideoDurations ((first :: rest).map (packetSample vid))) =
      (first :: rest).map fun pkt ↦ videoTicks vid (presentationTime vid pkt) := by
  have hoffsets : ∀ pkt ∈ first :: rest, (packetSample vid pkt).ctsOffset.toInt =
      videoTicks vid (presentationTime vid pkt) - videoTicks vid (decodeTime vid pkt) :=
    fun pkt hpkt ↦ toInt_ctsOffset_packetSample (hfits pkt hpkt).decodedFirst
      (hfits pkt hpkt).offset
  rw [presentedFrom_fixVideoDurations]
  refine (presentedFrom_fixGaps_iff hoffsets (hnext.imp fun pkt next h ↦ ?_) _).mpr
    ⟨rfl, hnext.imp fun pkt next h ↦ .inl h.1⟩
  obtain ⟨hpos, hlt⟩ := h
  exact abs_lt.mpr ⟨by omega, hlt⟩

/-- The samples of packets that are decoded one after the other, read back. -/
theorem videoFrames_segmentBytes (sequenceNumber : UInt32) {vid : AVStream}
    {packets : List AVPacket} (hne : packets ≠ []) (hfits : ∀ pkt ∈ packets, FitsFields vid pkt)
    (hnext : packets.IsChain (DecodedNext vid))
    (hlength : ∀ pkt ∈ packets, pkt.data.length < 2 ^ 32) (others : List TrackInput) :
    let video := videoInput vid (fixVideoDurations (packets.map (packetSample vid)))
    (Fmp4Writer.segmentBytes sequenceNumber (video :: others)).length < 2 ^ 31 →
      videoFrames (Fmp4Writer.segmentBytes sequenceNumber (video :: others)) =
        some (packets.map (timedPacket vid)) := by
  intro video hsize
  obtain ⟨first, rest, rfl⟩ := List.exists_cons_of_ne_nil hne
  have hstart : video.2.2.toInt = videoTicks vid (decodeTime vid first) :=
    tfdt_packetSamples (hfits first List.mem_cons_self) rest
  have hdecoded : decodedFrom (videoTicks vid (decodeTime vid first)) video.2.1 =
      (first :: rest).map fun pkt ↦ videoTicks vid (decodeTime vid pkt) :=
    (decodedFrom_fixLast _ _).trans (decodedFrom_fixGaps hnext)
  have hpresented : presentedFrom (videoTicks vid (decodeTime vid first)) video.2.1 =
      (first :: rest).map fun pkt ↦ videoTicks vid (presentationTime vid pkt) :=
    presentedFrom_packetSamples hfits hnext
  obtain ⟨hholds, hdata⟩ := packetSamples_payload vid hlength
  have hpayloads : (trafView (firstDataOffset (video :: others)) video).payloads
      (Fmp4Writer.segmentBytes sequenceNumber (video :: others)) (moofStart (video :: others)) =
        (first :: rest).map AVPacket.data := by
    refine (payloads_trafView sequenceNumber [] video others
      (holds_fixVideoDurations hholds)).trans ?_
    exact (map_sampleData_fixVideoDurations _).trans hdata
  have hframes : (trafView (firstDataOffset (video :: others)) video).decodeTimes.zip
      ((trafView (firstDataOffset (video :: others)) video).presentationTimes.zip
        ((trafView (firstDataOffset (video :: others)) video).payloads
          (Fmp4Writer.segmentBytes sequenceNumber (video :: others))
          (moofStart (video :: others)))) = (first :: rest).map (timedPacket vid) := by
    rw [decodeTimes_trafView, presentationTimes_trafView, hstart, hdecoded, hpresented, hpayloads,
      List.zip_map', List.zip_map']
    rfl
  rw [videoFrames, readFragment_segmentBytes sequenceNumber hsize]
  simp only [Option.bind_eq_bind, Option.bind_some]
  rw [find?_trafs_video sequenceNumber others rfl, Option.bind_some]
  exact congrArg some hframes

theorem SegmentOf.videoFrames {δ ε α : Type} {m : Media} {c : AacCodec δ ε α}
    {s₀ : Session δ ε α} {w : Window} {bytes : List UInt8} (h : SegmentOf m c s₀ w bytes)
    {stream : List AVPacket} {vid : AVStream} (hfile : WellTimed m stream vid)
    (hstart : 0 ≤ w.segmentStartMs) (hsize : bytes.length < 2 ^ 31) :
    Fmp4Writer.videoFrames bytes =
      some ((videoStretch m.context.bestVideo vid w.segmentStartMs w.segmentEndMs stream).map
        (timedPacket vid)) := by
  obtain ⟨samples, others, hne, hsamples, rfl⟩ :=
    h.exists_segmentBytes hfile.toWellFormed hstart
  rw [samplesOf_between hfile.pts] at hsamples
  subst hsamples
  have hnext : (videoStretch m.context.bestVideo vid w.segmentStartMs w.segmentEndMs
      stream).IsChain (DecodedNext vid) :=
    List.IsChain.infix hfile.next (videoStretch_isInfix ..)
  exact videoFrames_segmentBytes _ (fun hnil ↦ hne (by rw [hnil, List.map_nil]))
    (fun pkt hpkt ↦ (mem_of_mem_videoStretch hpkt).elim (hfile.fits pkt)) hnext
    (fun pkt hpkt ↦ hfile.size pkt (mem_of_mem_videoStretch hpkt).1) others hsize

end Session

namespace Server

open EbmlParser Session

variable {δ ε α : Type} {files : List Char → Media} {c : AacCodec δ ε α}

/-- In every run, whichever openings fail and in whichever order the handlers proceed:
whoever gets a playlist of a well-timed file and fetches what it lists decodes and presents
every video packet between the first and the last boundary at its own time. -/
theorem playlist_times_video {infohash : List Char} {stream : List AVPacket} {vid : AVStream}
    (hfile : WellTimed (files infohash) stream vid) (faults : Set String) (now : ℤ)
    (moves : List Move)
    (hopens : CallRun.Always (serverStep files c)
      (ThreadPool.Meets (OpensFiles files faults)) moves (startUp now)) :
    let threads := (CallRun.finalState (serverStep files c) moves (startUp now)).threads
    ∀ h ∈ threads, AsksManifest h.path infohash →
      ∀ body, h.stage.got "application/vnd.apple.mpegurl" = some body →
        ∃ p, readPlaylist body = some p ∧
          ∀ replies, Fetched threads h.path p replies →
            ∃ frames : List (List (ℤ × ℤ × List UInt8)),
              replies.map Fmp4Writer.videoFrames = frames.map some ∧
                ∀ first ∈ (fileBoundaries (files infohash)).head?,
                  ∀ last ∈ (fileBoundaries (files infohash)).getLast?, frames.flatten =
                    (videoStretch (files infohash).context.bestVideo vid first last stream).map
                      (timedPacket vid) := by
  intro threads h hmem hasks body hgot
  have hholds : ServingHolds files c faults _ :=
    ThreadPool.Holds.finalState (serving_keeps files c faults) (servingHolds_startUp now) hopens
  obtain ⟨hsorted, hnonneg⟩ := hfile.boundaries
  obtain ⟨p, hread, hsegments⟩ := hholds.segmentsOf hmem hasks hgot hsorted
  refine ⟨p, hread, fun replies hfetched ↦ ?_⟩
  obtain ⟨hlength, hreplies⟩ := hsegments replies hfetched
  refine stretch_of_replies (timedPacket vid) hsorted hlength fun i bytes hi ↦ ?_
  obtain ⟨hsize, s₀, w, hw, -, hsegment⟩ := hreplies i bytes hi
  have hstart := List.mem_of_getElem? (segmentWindow_eq_some.mp hw).2.2.1
  exact ⟨w, hw, hsegment.videoFrames hfile (hnonneg _ hstart) hsize⟩

theorem wellTimed_threeCueFile : WellTimed threeCueFile threeKeyframes threeCueStream where
  toWellFormed := wellFormed_threeCueFile
  fits := by
    have hfits : ∀ pkt ∈ threeKeyframes, decodeTime threeCueStream pkt = pkt.dts ∧
        presentationTime threeCueStream pkt = pkt.dts ∧ 0 ≤ pkt.dts ∧ pkt.dts ≤ 20000 := by decide
    intro pkt hpkt _
    obtain ⟨hdts, hpts, hnonneg, hle⟩ := hfits pkt hpkt
    have hticks : videoTicks threeCueStream pkt.dts = 16 * pkt.dts := videoTicks_of_ms rfl pkt.dts
    have hdecoded : videoTicks threeCueStream (decodeTime threeCueStream pkt) = 16 * pkt.dts := by
      rw [hdts, hticks]
    have hpresented : videoTicks threeCueStream (presentationTime threeCueStream pkt) =
        16 * pkt.dts := by
      rw [hpts, hticks]
    constructor <;> omega
  next := by decide

theorem playlist_times_video_two_segments :
    let threads := (CallRun.finalState (serverStep (fun _ ↦ threeCueFile) noCodec)
      threeCueRun (startUp 0)).threads
    ∃ h ∈ threads, ∃ p replies, Fetched threads h.path p replies ∧
      ∃ frames : List (List (ℤ × ℤ × List UInt8)),
        replies.map Fmp4Writer.videoFrames = frames.map some ∧
          frames.flatten.map Prod.fst = [0, 160000] := by
  intro threads
  obtain ⟨body, p, replies, hgot, hread, hfetched⟩ := fetched_threeCueRun
  have hplaylist := List.mem_of_getElem? playlist_threeCueRun
  obtain ⟨p', hread', htimes⟩ := @playlist_times_video Unit Unit Unit (fun _ ↦ threeCueFile) noCodec
    (sampleInfohash.map Char.toLower) threeKeyframes threeCueStream wellTimed_threeCueFile ∅ 0
    threeCueRun opensFiles_threeCueRun _ hplaylist asksManifest_threeCuePlaylist body hgot
  obtain rfl : p = p' := Option.some.inj (hread.symm.trans hread')
  obtain ⟨frames, hframes, hvideo⟩ := htimes replies hfetched
  refine ⟨_, hplaylist, p, replies, hfetched, frames, hframes, ?_⟩
  rw [hvideo 0 (by rw [fileBoundaries_threeCueFile]; rfl) 20000
    (by rw [fileBoundaries_threeCueFile]; rfl)]
  decide

end Server

end Fmp4Packager
