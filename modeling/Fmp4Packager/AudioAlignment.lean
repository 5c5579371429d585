import Fmp4Packager.General.Signal
import Fmp4Packager.VideoSeams

/-!
# Where the encoded samples come from

The frames of a build after the first segment are stamped from a multiple of 1024
on, the anchor, while their samples start at the first packet that the preroll cut
lets through.  Over a track without gaps a frame holds the source samples of its
timestamp exactly when that packet starts at the anchor.
-/

namespace Fmp4Packager

/-- The frame holds the source samples from its timestamp on. -/
def AacFrame.Holds {α : Type} (source : ℤ → α × α) (frame : AacFrame α) : Prop :=
  frame.left = (Signal.stretch source frame.pts 1024).map Prod.fst ∧
    frame.right = (Signal.stretch source frame.pts 1024).map Prod.snd

namespace Session

variable {δ ε α : Type}

/-- The source sample, counted at 48 kHz, at which a packet starts. -/
def startSample (aud : AVStream) (pkt : AVPacket) : ℤ :=
  pkt.pts * aud.timeBase.num * 48000 / aud.timeBase.den

/-- Packets with `len` samples each follow one another without a gap, and their
timestamps are exact. -/
structure GapFreeTrack (aud : AVStream) (len : AVPacket → ℕ) (pkts : List AVPacket) : Prop where
  num_pos : 0 < aud.timeBase.num
  den_pos : 0 < aud.timeBase.den
  pts_ne : ∀ pkt ∈ pkts, pkt.pts ≠ avNoptsValue
  exact_pts : ∀ pkt ∈ pkts, aud.timeBase.den ∣ pkt.pts * aud.timeBase.num * 48000
  gapFree : Signal.GapFree (startSample aud) len pkts

/-- Decoder and resampler return the source samples of each packet. -/
def Transparent (c : AacCodec δ ε α) (aud : AVStream) (len : AVPacket → ℕ)
    (source : ℤ → α × α) : Prop :=
  ∀ decoder pkt,
    (c.decode decoder pkt).2 = Signal.stretch source (startSample aud pkt) (len pkt)

theorem GapFreeTrack.pts_le {aud : AVStream} {len : AVPacket → ℕ} {pkts : List AVPacket}
    (h : GapFreeTrack aud len pkts) : pkts.Pairwise fun x y ↦ x.pts ≤ y.pts := by
  refine List.Pairwise.imp_of_mem (fun {x y} hx hy hle ↦ ?_) h.gapFree.pairwise_le
  obtain ⟨q, hq⟩ := h.exact_pts x hx
  obtain ⟨r, hr⟩ := h.exact_pts y hy
  have hden := h.den_pos
  rw [startSample, startSample, hq, hr, Int.mul_ediv_cancel_left _ hden.ne',
    Int.mul_ediv_cancel_left _ hden.ne'] at hle
  have hmul : x.pts * (aud.timeBase.num * 48000) ≤ y.pts * (aud.timeBase.num * 48000) := by
    rw [← mul_assoc, ← mul_assoc, hq, hr]
    exact Int.mul_le_mul_of_nonneg_left hle hden.le
  have hnum := h.num_pos
  exact le_of_mul_le_mul_right hmul (by omega)

def audioTrack (i : BuildInputs) (packets : List AVPacket) : List AVPacket :=
  packets.filter fun pkt ↦ pkt.streamIndex = i.audioIdx

theorem filter_isAudio {i : BuildInputs} (hidx : i.audioIdx ≠ i.videoIdx)
    (packets : List AVPacket) : packets.filter (isAudio i) = audioTrack i packets := by
  apply List.filter_congr
  intro pkt _
  rw [isAudio, decide_eq_decide]
  constructor
  · exact fun h ↦ h.2
  · exact fun h ↦ ⟨h ▸ hidx, h⟩

theorem audioTrack_boundaryOnwards {i : BuildInputs} (hidx : i.audioIdx ≠ i.videoIdx)
    (packets : List AVPacket) :
    audioTrack i (boundaryOnwards i packets).tail = audioTrack i (boundaryOnwards i packets) := by
  cases hbound : boundaryOnwards i packets with
  | nil => rfl
  | cons pkt past =>
      have hvideo := (keyframeFrom_iff.mp (ListCut.cutsAt_of_onwards_eq_cons hbound)).1
      have hnot : pkt.streamIndex ≠ i.audioIdx := hvideo ▸ hidx.symm
      rw [List.tail_cons, audioTrack, audioTrack, List.filter_cons_of_neg (by simpa using hnot)]

theorem audioPastBoundary_isPrefix (i : BuildInputs) (past : List AVPacket) :
    audioPastBoundary i past <+: audioTrack i past := by
  rw [audioPastBoundary]
  split
  · exact List.takeWhile_prefix _
  · exact List.nil_prefix

theorem pastPreroll_suffix {i : BuildInputs} {aud : AVStream} (haud : i.audStream = some aud)
    {len : AVPacket → ℕ} {pkts : List AVPacket} (h : GapFreeTrack aud len pkts) :
    pastPreroll i pkts <:+ pkts := by
  have hpairs : pkts.Pairwise fun x y ↦
      x.pts ≠ avNoptsValue ∧ y.pts ≠ avNoptsValue ∧ x.pts ≤ y.pts :=
    h.pts_le.imp_of_mem fun hx hy hle ↦ ⟨h.pts_ne _ hx, h.pts_ne _ hy, hle⟩
  apply ListCut.filter_suffix hpairs
  intro x y hxy hx
  obtain ⟨hxpts, hypts, hle⟩ := hxy
  have hms := avRescaleQ_le_avRescaleQ aud.timeBase kMsTb hle
  simp only [audioPktMs, haud, if_pos hxpts, if_pos hypts, decide_eq_true_eq] at hx ⊢
  omega

theorem GapFreeTrack.of_isInfix {aud : AVStream} {len : AVPacket → ℕ} {pkts part : List AVPacket}
    (h : GapFreeTrack aud len pkts) (hpart : part <:+: pkts) : GapFreeTrack aud len part where
  num_pos := h.num_pos
  den_pos := h.den_pos
  pts_ne := fun pkt hpkt ↦ h.pts_ne pkt (hpart.subset hpkt)
  exact_pts := fun pkt hpkt ↦ h.exact_pts pkt (hpart.subset hpkt)
  gapFree := h.gapFree.of_isInfix hpart

/-- The decoded packets are a contiguous part of the track. -/
theorem acceptedAudio_isInfix {i : BuildInputs} {aud : AVStream} (haud : i.audStream = some aud)
    (hidx : i.audioIdx ≠ i.videoIdx) {len : AVPacket → ℕ} {packets : List AVPacket}
    (h : GapFreeTrack aud len (audioTrack i packets)) :
    acceptedAudio i packets <:+: audioTrack i packets := by
  have hwhole : packets =
      (beforeRun i packets ++ segmentRun i packets) ++ boundaryOnwards i packets := by
    rw [List.append_assoc, segmentRun_append_boundaryOnwards]
    exact (ListCut.before_append_onwards ..).symm
  have hread : (beforeRun i packets ++ segmentRun i packets).filter (isAudio i) ++
      audioPastBoundary i (boundaryOnwards i packets).tail <+: audioTrack i packets := by
    conv_rhs => rw [hwhole, audioTrack, List.filter_append]
    rw [filter_isAudio hidx]
    have hpast := audioPastBoundary_isPrefix i (boundaryOnwards i packets).tail
    rw [audioTrack_boundaryOnwards hidx packets] at hpast
    exact (List.prefix_append_right_inj _).mpr hpast
  exact (pastPreroll_suffix haud (h.of_isInfix hread.isInfix)).isInfix.trans hread.isInfix

/-- The frames that the build over the packets of the seek sends to the encoder. -/
def sentFrames (c : AacCodec δ ε α) (w : Window) (vid : AVStream) (aud : Option AVStream)
    (s : Session δ ε α) : List (AacFrame α) :=
  (readPackets c (buildInputs w vid aud s.demuxer) s.demuxer.packets
    { aac := s.aac, audioFrameCache := s.audioFrameCache }).1.audio.sentFrames

theorem sentFrames_eq (c : AacCodec δ ε α) (w : Window) (vid : AVStream) (aud : Option AVStream)
    {s : Session δ ε α} (hempty : ∀ t ∈ s.aac, t.leftQueue = []) :
    sentFrames c w vid aud s = framesSent c (audioCutoffPts w.segmentEndMs) s.aac
      (acceptedAudio (buildInputs w vid aud s.demuxer) s.demuxer.packets) := by
  have hdrained : Drained c (audioCutoffPts (buildInputs w vid aud s.demuxer).segmentEndMs)
      ⟨s.aac, s.audioFrameCache, ∅, []⟩ := drained_of_empty c _ hempty
  obtain ⟨-, haudio⟩ := readPackets_eq c (buildInputs w vid aud s.demuxer) s.demuxer.packets
    hdrained
  rw [sentFrames, haudio, drainAac_foldl_decodeAac]
  rfl

def trackPcm (aud : AVStream) (len : AVPacket → ℕ) (source : ℤ → α × α) (pkts : List AVPacket) :
    List (α × α) :=
  pkts.flatMap fun pkt ↦ Signal.stretch source (startSample aud pkt) (len pkt)

theorem foldl_decode_of_transparent {c : AacCodec δ ε α} {aud : AVStream} {len : AVPacket → ℕ}
    {source : ℤ → α × α} (hc : Transparent c aud len source) (pkts : List AVPacket)
    (t : AacTranscoder δ ε α) :
    (pkts.foldl (AacTranscoder.decode c) t).leftQueue =
        t.leftQueue ++ (trackPcm aud len source pkts).map Prod.fst ∧
      (pkts.foldl (AacTranscoder.decode c) t).rightQueue =
        t.rightQueue ++ (trackPcm aud len source pkts).map Prod.snd ∧
      (pkts.foldl (AacTranscoder.decode c) t).audioPts = t.audioPts := by
  induction pkts generalizing t with
  | nil => simp [trackPcm]
  | cons pkt pkts ih =>
      obtain ⟨hleft, hright, hpts⟩ := ih (t.decode c pkt)
      have hpcm := hc t.decoder pkt
      rw [List.foldl_cons, hleft, hright, hpts]
      simp [AacTranscoder.decode, trackPcm, hpcm]

/-- Packets that follow one another without a gap, the first of them at `q`,
decode to one stretch of the source. -/
theorem trackPcm_of_gapFree {aud : AVStream} {len : AVPacket → ℕ} {pkt : AVPacket}
    {pkts : List AVPacket} (h : GapFreeTrack aud len (pkt :: pkts)) (source : ℤ → α × α) :
    trackPcm aud len source (pkt :: pkts) =
      Signal.stretch source (startSample aud pkt) ((pkt :: pkts).map len).sum :=
  h.gapFree.flatMap_stretch source

/-- The `k`-th frame of a transcoder with empty queues is taken `1024 * k` samples
into the track. -/
theorem frame_of_transcode {c : AacCodec δ ε α} {aud : AVStream} {len : AVPacket → ℕ}
    {source : ℤ → α × α} (hc : Transparent c aud len source) {t : AacTranscoder δ ε α}
    (hleft : t.leftQueue = []) (hright : t.rightQueue = []) {pkt : AVPacket}
    {pkts : List AVPacket} (h : GapFreeTrack aud len (pkt :: pkts)) {cutoff : ℤ} {k : ℕ}
    {frame : AacFrame α} (hframe : (t.transcode c cutoff (pkt :: pkts)).2.1[k]? = some frame) :
    frame.pts = t.audioPts + 1024 * k ∧
      frame.left = (Signal.stretch source (startSample aud pkt + 1024 * k) 1024).map Prod.fst ∧
      frame.right = (Signal.stretch source (startSample aud pkt + 1024 * k) 1024).map Prod.snd := by
  obtain ⟨hleft', hright', hpts⟩ := foldl_decode_of_transparent hc (pkt :: pkts) t
  rw [hleft, List.nil_append, trackPcm_of_gapFree h] at hleft'
  rw [hright, List.nil_append, trackPcm_of_gapFree h] at hright'
  obtain ⟨hlen, -, rfl⟩ := AacTranscoder.frame_of_encodeUntil c cutoff k _ hframe
  rw [hleft', List.length_map, Signal.length_stretch] at hlen
  have hcut := Signal.take_drop_stretch source (startSample aud pkt) hlen
  rw [Nat.cast_mul, Nat.cast_ofNat] at hcut
  simp only [hleft', hright', hpts, ← List.map_drop, ← List.map_take, hcut, and_self]

theorem transcode_frames_ne_nil {c : AacCodec δ ε α} {aud : AVStream} {len : AVPacket → ℕ}
    {source : ℤ → α × α} (hc : Transparent c aud len source) {t : AacTranscoder δ ε α}
    (hleft : t.leftQueue = []) (hright : t.rightQueue = []) (pkts : List AVPacket) (cutoff : ℤ) :
    (t.transcode c cutoff pkts).2.1 ≠ [] ↔
      1024 ≤ (pkts.map len).sum ∧ t.audioPts + 1024 ≤ cutoff := by
  obtain ⟨hleft', hright', hpts⟩ := foldl_decode_of_transparent hc pkts t
  have hpcm : (trackPcm aud len source pkts).length = (pkts.map len).sum := by
    simp [trackPcm, List.length_flatMap]
  rw [hleft, List.nil_append] at hleft'
  rw [hright, List.nil_append] at hright'
  rw [AacTranscoder.transcode, AacTranscoder.encodeUntil_frames_ne_nil, hleft', hright', hpts,
    List.length_map, List.length_map, hpcm]
  constructor
  · exact fun hframe ↦ ⟨hframe.1, hframe.2.2⟩
  · exact fun hframe ↦ ⟨hframe.1, hframe.1, hframe.2⟩

/-! ## When every frame holds its samples -/

/-- No frame is complete before the cutoff. -/
def TooShort (w : Window) (len : AVPacket → ℕ) (pkts : List AVPacket) : Prop :=
  (pkts.map len).sum < 1024 ∨
    audioCutoffPts w.segmentEndMs < audioEncodeStartPts w.segmentStartMs + 1024

instance (w : Window) (len : AVPacket → ℕ) (pkts : List AVPacket) :
    Decidable (TooShort w len pkts) :=
  inferInstanceAs (Decidable (_ ∨ _))

/-- The first packet starts at the sample from which the frames are stamped. -/
def StartsAtAnchor (w : Window) (aud : AVStream) (pkts : List AVPacket) : Prop :=
  ∀ pkt ∈ pkts.head?, startSample aud pkt = audioEncodeStartPts w.segmentStartMs

instance (w : Window) (aud : AVStream) (pkts : List AVPacket) :
    Decidable (StartsAtAnchor w aud pkts) :=
  inferInstanceAs (Decidable (∀ pkt ∈ pkts.head?, _))

/-- Decodes every packet to the source samples it covers. -/
def trackCodec (δ ε : Type) (aud : AVStream) (len : AVPacket → ℕ) (source : ℤ → α × α) :
    AacCodec δ ε α where
  openCodec := fun _ ↦ .error "AacTranscoder: source decoder not found"
  decode := fun decoder pkt ↦
    (decoder, Signal.stretch source (startSample aud pkt) (len pkt))
  flushDecoder := id
  encode := fun encoder _ ↦ (encoder, [])
  flushEncoder := id

/-- Where frames go out from another sample than they are stamped with, some source
tells the two apart. -/
theorem exists_frame_not_holds [Nontrivial α] {t : AacTranscoder δ ε α}
    (hleft : t.leftQueue = []) (hright : t.rightQueue = []) {aud : AVStream}
    {len : AVPacket → ℕ} {pkt : AVPacket} {pkts : List AVPacket}
    (h : GapFreeTrack aud len (pkt :: pkts)) {cutoff : ℤ}
    (hlen : 1024 ≤ ((pkt :: pkts).map len).sum) (hcutoff : t.audioPts + 1024 ≤ cutoff)
    (hne : startSample aud pkt ≠ t.audioPts) :
    ∃ source : ℤ → α × α, ∃ frame ∈
      (t.transcode (trackCodec δ ε aud len source) cutoff (pkt :: pkts)).2.1,
      ¬frame.Holds source := by
  obtain ⟨f, hf⟩ := Signal.exists_stretch_ne (α := α) hne (n := 1024) (by decide)
  have hc : Transparent (trackCodec δ ε aud len fun k ↦ (f k, f k)) aud len
      fun k ↦ (f k, f k) := fun _ _ ↦ rfl
  have hsome := (transcode_frames_ne_nil hc hleft hright (pkt :: pkts) cutoff).mpr
    ⟨hlen, hcutoff⟩
  obtain ⟨frame, frames, hframes⟩ := List.exists_cons_of_ne_nil hsome
  have hfirst : (t.transcode (trackCodec δ ε aud len fun k ↦ (f k, f k)) cutoff
      (pkt :: pkts)).2.1[0]? = some frame := by
    rw [hframes]
    rfl
  obtain ⟨hpts, hframe, -⟩ := frame_of_transcode hc hleft hright h hfirst
  refine ⟨fun k ↦ (f k, f k), frame, hframes ▸ List.mem_cons_self, fun hholds ↦ hf ?_⟩
  have hstretch := hframe.symm.trans hholds.1
  rw [Signal.map_stretch, Signal.map_stretch, hpts] at hstretch
  simpa [Function.comp_def] using hstretch

theorem holds_of_startsAtAnchor {c : AacCodec δ ε α} {aud : AVStream} {len : AVPacket → ℕ}
    {source : ℤ → α × α} (hc : Transparent c aud len source) {t : AacTranscoder δ ε α}
    (hleft : t.leftQueue = []) (hright : t.rightQueue = []) {pkt : AVPacket}
    {pkts : List AVPacket} (h : GapFreeTrack aud len (pkt :: pkts)) {cutoff : ℤ}
    (hstart : startSample aud pkt = t.audioPts) {frame : AacFrame α}
    (hframe : frame ∈ (t.transcode c cutoff (pkt :: pkts)).2.1) : frame.Holds source := by
  obtain ⟨k, hk⟩ := List.mem_iff_getElem?.mp hframe
  obtain ⟨hpts, hl, hr⟩ := frame_of_transcode hc hleft hright h hk
  rw [AacFrame.Holds, hpts, ← hstart]
  exact ⟨hl, hr⟩

theorem resetPts_of_pos {w : Window} (hidx : 1 ≤ w.segmentIdx) (t : AacTranscoder δ ε α) :
    resetPts w t = audioEncodeStartPts w.segmentStartMs :=
  if_neg (by omega)

theorem sentFrames_afterSeek (c : AacCodec δ ε α) (w : Window) (vid : AVStream)
    (aud : Option AVStream) (d : Demuxer) {s : Session δ ε α} {t : AacTranscoder δ ε α}
    (haac : s.aac = some t) :
    sentFrames c w vid aud (afterSeek c w d s) =
      ((t.reset c (resetPts w t)).transcode c (audioCutoffPts w.segmentEndMs)
        (acceptedAudio (buildInputs w vid aud d) d.packets)).2.1 := by
  rw [sentFrames_eq c w vid aud (leftQueue_afterSeek c w d s), afterSeek, haac]
  rfl

theorem exists_sentFrame_not_holds [Nontrivial α] {w : Window} (hidx : 1 ≤ w.segmentIdx)
    (vid : AVStream) {aud : AVStream} {len : AVPacket → ℕ} {d : Demuxer} {s : Session δ ε α}
    {t : AacTranscoder δ ε α} (haac : s.aac = some t)
    (haccepted : GapFreeTrack aud len
      (acceptedAudio (buildInputs w vid (some aud) d) d.packets))
    (hlong : ¬TooShort w len (acceptedAudio (buildInputs w vid (some aud) d) d.packets))
    (hstart : ¬StartsAtAnchor w aud (acceptedAudio (buildInputs w vid (some aud) d) d.packets)) :
    ∃ source : ℤ → α × α, ∃ frame ∈
      sentFrames (trackCodec δ ε aud len source) w vid (some aud)
        (afterSeek (trackCodec δ ε aud len source) w d s),
      ¬frame.Holds source := by
  simp only [sentFrames_afterSeek _ w vid (some aud) d haac]
  generalize acceptedAudio (buildInputs w vid (some aud) d) d.packets = pkts at *
  rw [TooShort, not_or, not_lt, not_lt] at hlong
  obtain ⟨hlen, hcutoff⟩ := hlong
  cases pkts with
  | nil => simp at hlen
  | cons pkt pkts =>
      have hne : startSample aud pkt ≠ audioEncodeStartPts w.segmentStartMs := by
        simpa [StartsAtAnchor] using hstart
      rw [← resetPts_of_pos hidx t] at hne hcutoff
      -- the reset comes to the same for every source
      let t' : AacTranscoder δ ε α :=
        { t with leftQueue := [], rightQueue := [], audioPts := resetPts w t }
      have hleft : t'.leftQueue = [] := rfl
      exact exists_frame_not_holds hleft rfl haccepted hlen hcutoff hne

/-- Whatever the source holds and the codec keeps, every frame of a build after the
first segment holds the samples of its timestamp, if and only if no frame goes
out or the first decoded packet starts at the anchor. -/
theorem frames_holdSource_iff [Nontrivial α] {w : Window} (hidx : 1 ≤ w.segmentIdx)
    (vid : AVStream) {aud : AVStream} {len : AVPacket → ℕ} {d : Demuxer} {s : Session δ ε α}
    {t : AacTranscoder δ ε α} (haac : s.aac = some t)
    (hstreams : d.audioStreamIdx ≠ d.videoStreamIdx)
    (htrack : GapFreeTrack aud len (audioTrack (buildInputs w vid (some aud) d) d.packets)) :
    (∀ (source : ℤ → α × α) (c : AacCodec δ ε α), Transparent c aud len source →
        ∀ frame ∈ sentFrames c w vid (some aud) (afterSeek c w d s), frame.Holds source) ↔
      TooShort w len (acceptedAudio (buildInputs w vid (some aud) d) d.packets) ∨
        StartsAtAnchor w aud (acceptedAudio (buildInputs w vid (some aud) d) d.packets) := by
  have haccepted := htrack.of_isInfix (acceptedAudio_isInfix rfl hstreams htrack)
  constructor
  · intro h
    by_contra hcond
    obtain ⟨hlong, hstart⟩ := not_or.mp hcond
    obtain ⟨source, frame, hframe, hnot⟩ :=
      exists_sentFrame_not_holds hidx vid haac haccepted hlong hstart
    exact hnot (h source (trackCodec δ ε aud len source) (fun _ _ ↦ rfl) frame hframe)
  · intro hcond source c hc frame hframe
    rw [sentFrames_afterSeek c w vid (some aud) d haac] at hframe
    generalize acceptedAudio (buildInputs w vid (some aud) d) d.packets = pkts at *
    obtain ⟨hlen, hcutoff⟩ := (transcode_frames_ne_nil hc rfl rfl pkts _).mp
      (List.ne_nil_of_mem hframe)
    have hpts : (t.reset c (resetPts w t)).audioPts = audioEncodeStartPts w.segmentStartMs :=
      resetPts_of_pos hidx t
    cases pkts with
    | nil => simp at hlen
    | cons pkt pkts =>
        rcases hcond with hshort | hstart
        · rw [hpts] at hcutoff
          rcases hshort with hshort | hshort
          · exact absurd hlen (not_le.mpr hshort)
          · exact absurd hcutoff (not_le.mpr hshort)
        · exact holds_of_startsAtAnchor hc rfl rfl haccepted
            ((hstart pkt rfl).trans hpts.symm) hframe

/-! A preroll cut at 8010 ms lets the packet at sample 384480 through, while the
frames are stamped from 384000 on. -/

def sampleStream : AVStream where
  timeBase := ⟨1, 48000⟩
  startTime := 0
  codecpar := ⟨.audio, .other, [], 0, 0, 0, 48000, 2⟩

def shortFirstPacket : Demuxer where
  packets := [⟨1, 384000, 384000, 480, true, [1]⟩, ⟨1, 384480, 384480, 1024, true, [2]⟩,
    ⟨0, 10010, 10010, 10000, true, [3]⟩]
  videoStreamIdx := 0
  audioStreamIdx := 1

def durationLen (pkt : AVPacket) : ℕ := pkt.duration.toNat

def transcodingSession : Session Unit Unit ℤ where
  demuxer := {}
  aac := some (AacTranscoder.ofOpened ⟨(), (), 1024, sampleStream.codecpar⟩)

theorem gapFreeTrack_shortFirstPacket : GapFreeTrack sampleStream durationLen
    (audioTrack (buildInputs ⟨1, 10010, 20010⟩ (millisecondStream .video) (some sampleStream)
      shortFirstPacket) shortFirstPacket.packets) where
  num_pos := by decide
  den_pos := by decide
  pts_ne := by decide
  exact_pts := by decide
  gapFree := by
    rw [Signal.GapFree]
    decide

theorem frames_holdSource_iff_shortFirstPacket :
    (∀ (source : ℤ → ℤ × ℤ) (c : AacCodec Unit Unit ℤ),
        Transparent c sampleStream durationLen source →
        ∀ frame ∈ sentFrames c ⟨1, 10010, 20010⟩ (millisecondStream .video) (some sampleStream)
          (afterSeek c ⟨1, 10010, 20010⟩ shortFirstPacket transcodingSession),
        frame.Holds source) ↔
      TooShort ⟨1, 10010, 20010⟩ durationLen
          (acceptedAudio (buildInputs ⟨1, 10010, 20010⟩ (millisecondStream .video)
            (some sampleStream) shortFirstPacket) shortFirstPacket.packets) ∨
        StartsAtAnchor ⟨1, 10010, 20010⟩ sampleStream
          (acceptedAudio (buildInputs ⟨1, 10010, 20010⟩ (millisecondStream .video)
            (some sampleStream) shortFirstPacket) shortFirstPacket.packets) :=
  frames_holdSource_iff (by decide) (millisecondStream .video) rfl (by decide)
    gapFreeTrack_shortFirstPacket

theorem not_frames_holdSource :
    ¬∀ (w : Window) (d : Demuxer) (source : ℤ → ℤ × ℤ) (c : AacCodec Unit Unit ℤ),
      1 ≤ w.segmentIdx → d.audioStreamIdx ≠ d.videoStreamIdx →
      GapFreeTrack sampleStream durationLen (audioTrack
        (buildInputs w (millisecondStream .video) (some sampleStream) d) d.packets) →
      Transparent c sampleStream durationLen source →
      ∀ frame ∈ sentFrames c w (millisecondStream .video) (some sampleStream)
        (afterSeek c w d transcodingSession), frame.Holds source := by
  intro h
  have htrack := gapFreeTrack_shortFirstPacket
  have haccepted := htrack.of_isInfix (acceptedAudio_isInfix rfl (by decide) htrack)
  obtain ⟨source, frame, hframe, hnot⟩ := exists_sentFrame_not_holds (s := transcodingSession)
    (by decide) (millisecondStream .video) rfl haccepted (by decide) (by decide)
  exact hnot (h _ shortFirstPacket source (trackCodec Unit Unit sampleStream durationLen source)
    (by decide) (by decide) htrack (fun _ _ ↦ rfl) frame hframe)

end Session

end Fmp4Packager
