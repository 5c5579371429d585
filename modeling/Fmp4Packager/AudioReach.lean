import Fmp4Packager.AudioPreroll
import Fmp4Packager.BuiltSegment

/-!
# How far the audio reaches

The encoder is a queue: it first gives out what it still holds, and then a packet for each
frame but the last few.  Which frames a build has of its own thus depends on the number of
samples that it decodes alone, and the others that it writes are kept from before.
-/

namespace Fmp4Packager

namespace AacTranscoder

variable {δ ε α : Type}

/-- Of what it holds and the frames that follow one another, the encoder keeps back the
last `lag`.  It gives out the rest in order, a new frame `shift` ticks off its timestamp. -/
structure EncoderQueue (c : AacCodec δ ε α) where
  lag : ℕ
  held : ε → List ℤ
  shift : ε → ℤ
  held_ne : ∀ encoder, avNoptsValue ∉ held encoder
  length_held : ∀ encoder, (held encoder).length ≤ lag
  shift_nonpos : ∀ encoder, shift encoder ≤ 0
  lt_shift : ∀ encoder, -2 ^ 31 < shift encoder
  packets : ∀ encoder (frames : List (AacFrame α)),
    (frames.IsChain fun a b ↦ b.pts = a.pts + 1024) →
      (encodeAll c encoder frames).map AVPacket.pts =
        (held encoder ++ frames.map fun frame ↦ frame.pts + shift encoder).take
          ((held encoder).length + frames.length - lag)
  data_ne : ∀ encoder frames, ∀ pkt ∈ encodeAll c encoder frames, pkt.data ≠ []

theorem length_encodeUntil (c : AacCodec δ ε α) (cutoffPts48k : ℤ) {samples : ℕ}
    (t : AacTranscoder δ ε α) (hleft : t.leftQueue.length = samples)
    (hright : t.rightQueue.length = samples) :
    (t.encodeUntil c cutoffPts48k).2.1.length =
      min (samples / 1024) ((cutoffPts48k - t.audioPts) / 1024).toNat := by
  induction samples using Nat.strong_induction_on generalizing t with
  | _ n ih =>
      rw [encodeUntil_eq]
      split
      · have hrest := ih (n - 1024) (by omega) (t.encodeFrame c).1
          (by rw [encodeFrame_leftQueue, List.length_drop, hleft])
          (by rw [encodeFrame_rightQueue, List.length_drop, hright])
        rw [encodeFrame_audioPts] at hrest
        simp only [List.length_cons, hrest]
        omega
      · rw [List.length_nil]
        omega

theorem map_pts_encodeUntil (c : AacCodec δ ε α) (cutoffPts48k : ℤ) (t : AacTranscoder δ ε α) :
    (t.encodeUntil c cutoffPts48k).2.1.map AacFrame.pts =
      (List.range (t.encodeUntil c cutoffPts48k).2.1.length).map
        fun k : ℕ ↦ t.audioPts + 1024 * k := by
  apply List.ext_getElem (by simp)
  intro k hk _
  rw [List.length_map] at hk
  obtain ⟨-, -, hframe⟩ :=
    frame_of_encodeUntil c cutoffPts48k k t (List.getElem?_eq_getElem hk)
  rw [List.getElem_map, List.getElem_map, List.getElem_range, hframe]

theorem isChain_encodeUntil (c : AacCodec δ ε α) (cutoffPts48k : ℤ) (t : AacTranscoder δ ε α) :
    (t.encodeUntil c cutoffPts48k).2.1.IsChain fun a b ↦ b.pts = a.pts + 1024 := by
  rw [List.isChain_iff_getElem]
  intro k hk
  obtain ⟨-, -, hframe⟩ :=
    frame_of_encodeUntil c cutoffPts48k k t (List.getElem?_eq_getElem (by omega))
  obtain ⟨-, -, hnext⟩ :=
    frame_of_encodeUntil c cutoffPts48k (k + 1) t (List.getElem?_eq_getElem hk)
  rw [hframe, hnext]
  push_cast
  ring

end AacTranscoder

namespace Session

open AacTranscoder

variable {δ ε α : Type}

theorem frameOf_stampPacket {pkt : AVPacket} (hpts : pkt.pts ≠ avNoptsValue) (audioPts : ℤ) :
    frameOf (stampPacket audioPts pkt) = frameOf pkt := by
  simp only [stampPacket, if_neg hpts]
  split
  · rfl
  · rfl

theorem data_stampPacket (audioPts : ℤ) (pkt : AVPacket) :
    (stampPacket audioPts pkt).data = pkt.data := by
  simp only [stampPacket]
  split <;> split <;> rfl

theorem map_data_encodeUntil (c : AacCodec δ ε α) (cutoffPts48k : ℤ) (t : AacTranscoder δ ε α) :
    (t.encodeUntil c cutoffPts48k).2.2.map AVPacket.data =
      (encodeAll c t.encoder (t.encodeUntil c cutoffPts48k).2.1).map AVPacket.data := by
  induction hlen : t.leftQueue.length using Nat.strong_induction_on generalizing t with
  | _ n ih =>
      rw [encodeUntil_eq]
      split
      · next hfull =>
          have hrest := ih _ (by rw [encodeFrame_leftQueue, List.length_drop]; omega)
            (t.encodeFrame c).1 rfl
          have hfirst : (t.encodeFrame c).2.map AVPacket.data =
              (c.encode t.encoder t.nextFrame).2.map AVPacket.data := by
            rw [encodeFrame, List.map_map]
            exact List.map_congr_left fun pkt _ ↦ data_stampPacket t.audioPts pkt
          rw [List.map_append, hrest, hfirst, ← List.map_append]
          rfl
      · rfl

/-- Packets that carry timestamps are stored under those. -/
theorem frameIndices_encodeUntil (c : AacCodec δ ε α) (cutoffPts48k : ℤ) (t : AacTranscoder δ ε α)
    (hpts : ∀ pkt ∈ encodeAll c t.encoder (t.encodeUntil c cutoffPts48k).2.1,
      pkt.pts ≠ avNoptsValue) :
    frameIndices (t.encodeUntil c cutoffPts48k).2.2 =
      frameIndices (encodeAll c t.encoder (t.encodeUntil c cutoffPts48k).2.1) := by
  induction hlen : t.leftQueue.length using Nat.strong_induction_on generalizing t with
  | _ n ih =>
      rw [encodeUntil_eq] at hpts ⊢
      split
      · next hfull =>
          rw [if_pos hfull] at hpts
          have hrest := ih _ (by rw [encodeFrame_leftQueue, List.length_drop]; omega)
            (t.encodeFrame c).1 (fun pkt hpkt ↦ hpts pkt (List.mem_append_right _ hpkt)) rfl
          have hfirst : frameIndices (t.encodeFrame c).2 =
              frameIndices (c.encode t.encoder t.nextFrame).2 := by
            rw [frameIndices, frameIndices, encodeFrame, List.filterMap_map]
            apply List.filterMap_congr
            intro pkt hpkt
            exact frameOf_stampPacket (hpts pkt (List.mem_append_left _ hpkt)) t.audioPts
          rw [frameIndices, List.filterMap_append, ← frameIndices, ← frameIndices, hrest, hfirst,
            frameIndices, frameIndices, ← List.filterMap_append]
          rfl
      · rfl

theorem frameIndices_of_forall {pkts : List AVPacket}
    (hpkts : ∀ pkt ∈ pkts, pkt.pts ≠ avNoptsValue ∧ pkt.data ≠ []) :
    frameIndices pkts = (pkts.map AVPacket.pts).map audioFrameIndexForPts := by
  rw [frameIndices, List.map_map, ← List.filterMap_eq_map]
  apply List.filterMap_congr
  intro pkt hpkt
  exact if_pos (hpkts pkt hpkt)

/-- The number of frames that a build sends for so many samples. -/
def framesToSend (w : Window) (aac : AacTranscoder δ ε α) (samples : ℕ) : ℕ :=
  min (samples / 1024) ((audioCutoffPts w.segmentEndMs - resetPts w aac) / 1024).toNat

def decodedSamples (len : AVPacket → ℕ) (w : Window) (vid : AVStream) (aud : Option AVStream)
    (d : Demuxer) : ℕ :=
  ((acceptedAudio (buildInputs w vid aud d) d.packets).map len).sum

section Reach

variable {c : AacCodec δ ε α} (q : EncoderQueue c) (w : Window) (aac : AacTranscoder δ ε α)
  (samples : ℕ)

/-- The frames that are still in the encoder when the transcoder is reset, and come out
when it is fed. -/
def heldFrames : List ℤ :=
  let held := q.held (c.flushEncoder aac.encoder)
  (held.take (held.length + framesToSend w aac samples - q.lag)).map audioFrameIndexForPts

def firstReached : ℤ :=
  audioFrameIndexForPts (resetPts w aac + q.shift (c.flushEncoder aac.encoder))

/-- The first frame that the decoded samples are not enough for. -/
def reachEnd : ℤ := firstReached q w aac + (framesToSend w aac samples - q.lag : ℕ)

/-- The session has the frame before the call, in its cache or in the encoder. -/
def Kept (s : Session δ ε α) (j : ℤ) : Prop :=
  j ∈ s.audioFrameCache ∨ j ∈ heldFrames q w aac samples

end Reach

theorem lt_resetPts {w : Window} {aac : AacTranscoder δ ε α}
    (hpadding : aac.initialPadding < 2 ^ 31) : -2 ^ 31 < resetPts w aac := by
  rw [resetPts]
  split
  · omega
  · rw [audioEncodeStartPts, audioFrameIndexForPts_msToAudioPts, audioDecodeStartMs]
    omega

theorem pts_encodeAll {c : AacCodec δ ε α} (q : EncoderQueue c) (cutoffPts48k : ℤ)
    (t : AacTranscoder δ ε α) :
    let n := (t.encodeUntil c cutoffPts48k).2.1.length
    (encodeAll c t.encoder (t.encodeUntil c cutoffPts48k).2.1).map AVPacket.pts =
      (q.held t.encoder).take ((q.held t.encoder).length + n - q.lag) ++
        (List.range (n - q.lag)).map fun k : ℕ ↦
          t.audioPts + q.shift t.encoder + 1024 * k := by
  intro n
  have hframes : (t.encodeUntil c cutoffPts48k).2.1.map
      (fun frame ↦ frame.pts + q.shift t.encoder) =
        (List.range n).map fun k : ℕ ↦ t.audioPts + q.shift t.encoder + 1024 * k := by
    have hpts := congrArg (List.map (· + q.shift t.encoder)) (map_pts_encodeUntil c cutoffPts48k t)
    rw [List.map_map, List.map_map] at hpts
    refine hpts.trans (List.map_congr_left fun k _ ↦ ?_)
    rw [Function.comp_apply]
    ring
  have hlag : (q.held t.encoder).length + n - q.lag - (q.held t.encoder).length = n - q.lag := by
    have hheld := q.length_held t.encoder
    omega
  rw [q.packets t.encoder _ (isChain_encodeUntil c cutoffPts48k t), hframes, List.take_append,
    hlag, ← List.map_take, List.take_range, Nat.min_eq_left (Nat.sub_le ..)]

/-- The frames of a build's own are those that were held and those that its samples
reach. -/
theorem mem_frameIndices_transcode {c : AacCodec δ ε α} (q : EncoderQueue c)
    {len : AVPacket → ℕ} (hdecode : ∀ decoder pkt, (c.decode decoder pkt).2.length = len pkt)
    {w : Window} {aac : AacTranscoder δ ε α} (hpadding : aac.initialPadding < 2 ^ 31)
    (pkts : List AVPacket) {j : ℤ} :
    j ∈ frameIndices ((aac.reset c (resetPts w aac)).transcode c (audioCutoffPts w.segmentEndMs)
        pkts).2.2 ↔
      j ∈ heldFrames q w aac (pkts.map len).sum ∨
        firstReached q w aac ≤ j ∧ j < reachEnd q w aac (pkts.map len).sum := by
  obtain ⟨hleft, hright, hpts⟩ :=
    foldl_decode_queues hdecode pkts (aac.reset c (resetPts w aac))
  have hencoder := foldl_decode_encoder c pkts (aac.reset c (resetPts w aac))
  rw [transcode]
  generalize pkts.foldl (decode c) (aac.reset c (resetPts w aac)) = u at *
  simp only [AacTranscoder.reset, List.length_nil, zero_add] at hleft hright hpts hencoder
  have hsent := length_encodeUntil c (audioCutoffPts w.segmentEndMs) u hleft hright
  rw [hpts, ← framesToSend] at hsent
  have hpackets := pts_encodeAll q (audioCutoffPts w.segmentEndMs) u
  simp only [hsent, hpts] at hpackets
  -- no timestamp is a missing one, so every packet is stored under its own
  have hstamped : ∀ pkt ∈ encodeAll c u.encoder
      (u.encodeUntil c (audioCutoffPts w.segmentEndMs)).2.1, pkt.pts ≠ avNoptsValue := by
    intro pkt hpkt
    have hmem := List.mem_map_of_mem (f := AVPacket.pts) hpkt
    rw [hpackets, List.mem_append, List.mem_map] at hmem
    rcases hmem with hheld | ⟨k, -, hk⟩
    · exact fun heq ↦ q.held_ne u.encoder (heq ▸ List.mem_of_mem_take hheld)
    · have hreset := lt_resetPts (w := w) hpadding
      have hshift := q.lt_shift u.encoder
      rw [← hk, avNoptsValue]
      omega
  rw [frameIndices_encodeUntil c _ u hstamped,
    frameIndices_of_forall fun pkt hpkt ↦ ⟨hstamped pkt hpkt, q.data_ne _ _ pkt hpkt⟩, hpackets,
    List.map_append, List.mem_append, hencoder, ← heldFrames]
  refine or_congr_right ?_
  rw [reachEnd, firstReached, List.map_map]
  simp only [List.mem_map, List.mem_range, Function.comp_apply, audioFrameIndexForPts,
    floorDiv_eq_ediv]
  constructor
  · rintro ⟨k, hk, rfl⟩
    omega
  · rintro ⟨hlow, hhigh⟩
    exact ⟨(j - (resetPts w aac + q.shift (c.flushEncoder aac.encoder)) / 1024).toNat, by omega,
      by omega⟩

theorem available_iff_reached {c : AacCodec δ ε α} (q : EncoderQueue c) {len : AVPacket → ℕ}
    (hdecode : ∀ decoder pkt, (c.decode decoder pkt).2.length = len pkt) {w : Window}
    {s : Session δ ε α} {aac : AacTranscoder δ ε α} (haac : s.aac = some aac)
    (hpadding : aac.initialPadding < 2 ^ 31) (d : Demuxer) (vid : AVStream)
    (aud : Option AVStream) (j : ℤ) :
    Available c w s d vid aud j ↔
      (firstReached q w aac ≤ j ∧ j < reachEnd q w aac (decodedSamples len w vid aud d)) ∨
        Kept q w aac (decodedSamples len w vid aud d) s j := by
  have hencoded : encoded c w s d vid aud =
      ((aac.reset c (resetPts w aac)).transcode c (audioCutoffPts w.segmentEndMs)
        (acceptedAudio (buildInputs w vid aud d) d.packets)).2.2 := by
    rw [encoded, buildPackets, afterSeek, haac]
    rfl
  have hmem := mem_frameIndices_transcode q hdecode (w := w) hpadding
    (acceptedAudio (buildInputs w vid aud d) d.packets) (j := j)
  rw [Available, hencoded, hmem, ← decodedSamples, Kept]
  exact or_right_comm.trans (or_comm.trans (or_congr_right or_comm))

end Session

end Fmp4Packager
