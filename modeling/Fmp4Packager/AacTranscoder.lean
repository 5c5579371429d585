import Fmp4Packager.Libav

/-!
# The AAC transcoder

Decoded samples collect in two queues, from which whole frames of 1024 samples go
to the encoder.  Decoder (with the resampler behind it) and encoder are
parameters: state machines that turn a packet into samples and a frame into
packets.
-/

namespace Fmp4Packager

structure AacFrame (α : Type) where
  pts : ℤ
  left : List α
  right : List α
  deriving DecidableEq, Repr

/-- What the constructor of `AacTranscoder` ends up with: fresh codec states, the
encoder's `initial_padding` and the parameters copied from its context. -/
structure OpenedCodec (δ ε : Type) where
  decoder : δ
  encoder : ε
  initialPadding : ℤ
  codecpar : AVCodecParameters

/-- The decoder with the resampler, with states `δ`, and the encoder, with states
`ε`, over sample values `α`. -/
structure AacCodec (δ ε α : Type) where
  openCodec : AVCodecParameters → Except String (OpenedCodec δ ε)
  /-- `avcodec_send_packet`, then `avcodec_receive_frame` and `swr_convert` until
  there is no more: left and right samples, equally many. -/
  decode : δ → AVPacket → δ × List (α × α)
  /-- `avcodec_flush_buffers`, `swr_close` and `swr_init`. -/
  flushDecoder : δ → δ
  /-- `avcodec_send_frame`, then `avcodec_receive_packet` until there is no
  more. -/
  encode : ε → AacFrame α → ε × List AVPacket
  flushEncoder : ε → ε

/-- The constructor replaces a padding that is not positive by 1024. -/
structure AacTranscoder (δ ε α : Type) where
  decoder : δ
  encoder : ε
  initialPadding : ℤ := 1024
  initialPadding_pos : 0 < initialPadding := by decide
  leftQueue : List α := []
  rightQueue : List α := []
  audioPts : ℤ := 0

namespace AacTranscoder

variable {δ ε α : Type}

/-- The constructor, after the codecs have opened. -/
def ofOpened (o : OpenedCodec δ ε) : AacTranscoder δ ε α :=
  if h : 0 < o.initialPadding then
    { decoder := o.decoder, encoder := o.encoder, initialPadding := o.initialPadding,
      initialPadding_pos := h }
  else { decoder := o.decoder, encoder := o.encoder }

def reset (c : AacCodec δ ε α) (nextPts48k : ℤ) (t : AacTranscoder δ ε α) :
    AacTranscoder δ ε α :=
  { t with
    leftQueue := []
    rightQueue := []
    audioPts := nextPts48k
    decoder := c.flushDecoder t.decoder
    encoder := c.flushEncoder t.encoder }

def decode (c : AacCodec δ ε α) (t : AacTranscoder δ ε α) (inPkt : AVPacket) :
    AacTranscoder δ ε α :=
  let (decoder, samples) := c.decode t.decoder inPkt
  { t with
    decoder := decoder
    leftQueue := t.leftQueue ++ samples.map Prod.fst
    rightQueue := t.rightQueue ++ samples.map Prod.snd }

/-- The timestamps that `EncodeUntil` fills in on a received packet. -/
def stampPacket (audioPts : ℤ) (pkt : AVPacket) : AVPacket :=
  let pkt := if pkt.pts = avNoptsValue then { pkt with pts := audioPts } else pkt
  let pkt := if pkt.dts = avNoptsValue then { pkt with dts := pkt.pts } else pkt
  { pkt with duration := 1024 }

/-- The frame that the next round of `EncodeUntil` sends. -/
def nextFrame (t : AacTranscoder δ ε α) : AacFrame α :=
  ⟨t.audioPts, t.leftQueue.take 1024, t.rightQueue.take 1024⟩

/-- One round of `EncodeUntil`: the packets it appends to `out`. -/
def encodeFrame (c : AacCodec δ ε α) (t : AacTranscoder δ ε α) :
    AacTranscoder δ ε α × List AVPacket :=
  let (encoder, pkts) := c.encode t.encoder t.nextFrame
  ({ t with
      encoder := encoder
      leftQueue := t.leftQueue.drop 1024
      rightQueue := t.rightQueue.drop 1024
      audioPts := t.audioPts + 1024 },
    pkts.map (stampPacket t.audioPts))

/-- The loop of `EncodeUntil`, with the frames it sends and the packets it
appends.  Every round takes 1024 samples off the left queue, whose length serves
as fuel. -/
def encodeLoop (c : AacCodec δ ε α) (cutoffPts48k : ℤ) :
    ℕ → AacTranscoder δ ε α → AacTranscoder δ ε α × List (AacFrame α) × List AVPacket
  | 0, t => (t, [], [])
  | fuel + 1, t =>
      if 1024 ≤ t.leftQueue.length ∧ 1024 ≤ t.rightQueue.length then
        if cutoffPts48k < t.audioPts + 1024 then (t, [], [])
        else
          let frame := t.nextFrame
          let (t, pkts) := t.encodeFrame c
          let (t, frames, out) := encodeLoop c cutoffPts48k fuel t
          (t, frame :: frames, pkts ++ out)
      else (t, [], [])

/-- `EncodeUntil`; the source returns the number of the frames. -/
def encodeUntil (c : AacCodec δ ε α) (cutoffPts48k : ℤ) (t : AacTranscoder δ ε α) :
    AacTranscoder δ ε α × List (AacFrame α) × List AVPacket :=
  encodeLoop c cutoffPts48k t.leftQueue.length t

def transcode (c : AacCodec δ ε α) (cutoffPts48k : ℤ) (t : AacTranscoder δ ε α)
    (pkts : List AVPacket) : AacTranscoder δ ε α × List (AacFrame α) × List AVPacket :=
  (pkts.foldl (decode c) t).encodeUntil c cutoffPts48k

theorem encodeLoop_succ (c : AacCodec δ ε α) (cutoffPts48k : ℤ) (fuel : ℕ)
    (t : AacTranscoder δ ε α) :
    encodeLoop c cutoffPts48k (fuel + 1) t =
      if 1024 ≤ t.leftQueue.length ∧ 1024 ≤ t.rightQueue.length ∧
          t.audioPts + 1024 ≤ cutoffPts48k then
        let r := encodeLoop c cutoffPts48k fuel (t.encodeFrame c).1
        (r.1, t.nextFrame :: r.2.1, (t.encodeFrame c).2 ++ r.2.2)
      else (t, [], []) := by
  rw [encodeLoop]
  by_cases hfull : 1024 ≤ t.leftQueue.length ∧ 1024 ≤ t.rightQueue.length
  · by_cases hcut : cutoffPts48k < t.audioPts + 1024
    · rw [if_pos hfull, if_pos hcut, if_neg (by omega)]
    · rw [if_pos hfull, if_neg hcut, if_pos ⟨hfull.1, hfull.2, by omega⟩]
  · rw [if_neg hfull, if_neg fun h ↦ hfull ⟨h.1, h.2.1⟩]

@[simp] theorem encodeFrame_leftQueue (c : AacCodec δ ε α) (t : AacTranscoder δ ε α) :
    (t.encodeFrame c).1.leftQueue = t.leftQueue.drop 1024 := rfl

@[simp] theorem encodeFrame_rightQueue (c : AacCodec δ ε α) (t : AacTranscoder δ ε α) :
    (t.encodeFrame c).1.rightQueue = t.rightQueue.drop 1024 := rfl

@[simp] theorem encodeFrame_audioPts (c : AacCodec δ ε α) (t : AacTranscoder δ ε α) :
    (t.encodeFrame c).1.audioPts = t.audioPts + 1024 := rfl

theorem encodeLoop_eq_of_le (c : AacCodec δ ε α) (cutoffPts48k : ℤ) {fuel fuel' : ℕ}
    (hle : fuel ≤ fuel') (t : AacTranscoder δ ε α) (hfuel : t.leftQueue.length ≤ fuel) :
    encodeLoop c cutoffPts48k fuel' t = encodeLoop c cutoffPts48k fuel t := by
  induction fuel generalizing fuel' t with
  | zero =>
      have hempty : ¬1024 ≤ t.leftQueue.length := by omega
      cases fuel' with
      | zero => rfl
      | succ fuel' => rw [encodeLoop_succ, if_neg fun h ↦ hempty h.1, encodeLoop]
  | succ fuel ih =>
      obtain ⟨fuel', rfl⟩ : ∃ k, fuel' = k + 1 := ⟨fuel' - 1, by omega⟩
      rw [encodeLoop_succ, encodeLoop_succ]
      split
      · rw [ih (by omega) _ (by rw [encodeFrame_leftQueue, List.length_drop]; omega)]
      · rfl

theorem encodeUntil_eq (c : AacCodec δ ε α) (cutoffPts48k : ℤ) (t : AacTranscoder δ ε α) :
    t.encodeUntil c cutoffPts48k =
      if 1024 ≤ t.leftQueue.length ∧ 1024 ≤ t.rightQueue.length ∧
          t.audioPts + 1024 ≤ cutoffPts48k then
        let r := (t.encodeFrame c).1.encodeUntil c cutoffPts48k
        (r.1, t.nextFrame :: r.2.1, (t.encodeFrame c).2 ++ r.2.2)
      else (t, [], []) := by
  rw [encodeUntil]
  cases hlen : t.leftQueue.length with
  | zero => rw [encodeLoop, if_neg fun h ↦ absurd h.1 (by omega)]
  | succ fuel =>
      have hfuel : (t.encodeFrame c).1.leftQueue.length ≤ fuel := by
        rw [encodeFrame_leftQueue, List.length_drop]
        omega
      rw [encodeLoop_succ, hlen]
      split
      · rw [encodeLoop_eq_of_le c cutoffPts48k hfuel _ le_rfl]
        rfl
      · rfl

theorem encodeUntil_of_empty (c : AacCodec δ ε α) (cutoffPts48k : ℤ) {t : AacTranscoder δ ε α}
    (hempty : t.leftQueue = []) : t.encodeUntil c cutoffPts48k = (t, [], []) := by
  rw [encodeUntil_eq, if_neg fun h ↦ absurd h.1 (by simp [hempty])]

/-- Decoding puts new samples behind the old, so a frame that is complete goes out
the same. -/
theorem encodeFrame_decode (c : AacCodec δ ε α) (pkt : AVPacket) {t : AacTranscoder δ ε α}
    (hleft : 1024 ≤ t.leftQueue.length) (hright : 1024 ≤ t.rightQueue.length) :
    (t.decode c pkt).nextFrame = t.nextFrame ∧
      (t.decode c pkt).encodeFrame c =
        ((t.encodeFrame c).1.decode c pkt, (t.encodeFrame c).2) := by
  simp only [nextFrame, encodeFrame, decode, List.take_append_of_le_length hleft,
    List.take_append_of_le_length hright, List.drop_append_of_le_length hleft,
    List.drop_append_of_le_length hright, and_self]

/-- Draining before a packet is decoded and again after it comes to the same as
draining once after it. -/
theorem encodeUntil_decode (c : AacCodec δ ε α) (cutoffPts48k : ℤ) (pkt : AVPacket)
    (t : AacTranscoder δ ε α) :
    (t.decode c pkt).encodeUntil c cutoffPts48k =
      let r := t.encodeUntil c cutoffPts48k
      let r' := (r.1.decode c pkt).encodeUntil c cutoffPts48k
      (r'.1, r.2.1 ++ r'.2.1, r.2.2 ++ r'.2.2) := by
  induction hlen : t.leftQueue.length using Nat.strong_induction_on generalizing t with
  | _ n ih =>
      by_cases hfull : 1024 ≤ t.leftQueue.length ∧ 1024 ≤ t.rightQueue.length ∧
          t.audioPts + 1024 ≤ cutoffPts48k
      · obtain ⟨hleft, hright, hcut⟩ := hfull
        obtain ⟨hframe, hencode⟩ := encodeFrame_decode c pkt hleft hright
        have hfull' : 1024 ≤ (t.decode c pkt).leftQueue.length ∧
            1024 ≤ (t.decode c pkt).rightQueue.length ∧
            (t.decode c pkt).audioPts + 1024 ≤ cutoffPts48k := by
          simp only [decode, List.length_append]
          omega
        have hrest := ih _ (by rw [encodeFrame_leftQueue, List.length_drop]; omega)
          (t.encodeFrame c).1 rfl
        rw [encodeUntil_eq c cutoffPts48k (t.decode c pkt), if_pos hfull', hframe, hencode,
          encodeUntil_eq c cutoffPts48k t, if_pos ⟨hleft, hright, hcut⟩]
        simp only [hrest, List.append_assoc, List.cons_append]
      · rw [encodeUntil_eq c cutoffPts48k t, if_neg hfull]
        rfl

theorem encodeUntil_encodeUntil (c : AacCodec δ ε α) (cutoffPts48k : ℤ)
    (t : AacTranscoder δ ε α) :
    (t.encodeUntil c cutoffPts48k).1.encodeUntil c cutoffPts48k =
      ((t.encodeUntil c cutoffPts48k).1, [], []) := by
  induction hlen : t.leftQueue.length using Nat.strong_induction_on generalizing t with
  | _ n ih =>
      by_cases hfull : 1024 ≤ t.leftQueue.length ∧ 1024 ≤ t.rightQueue.length ∧
          t.audioPts + 1024 ≤ cutoffPts48k
      · rw [encodeUntil_eq c cutoffPts48k t, if_pos hfull]
        exact ih _ (by rw [encodeFrame_leftQueue, List.length_drop]; omega) (t.encodeFrame c).1 rfl
      · have hstop : t.encodeUntil c cutoffPts48k = (t, [], []) := by
          rw [encodeUntil_eq, if_neg hfull]
        rw [hstop, hstop]

/-- The frames go out in order: the `k`-th is stamped 1024 times `k` after the
first, and holds as many samples of either queue from there on. -/
theorem frame_of_encodeUntil (c : AacCodec δ ε α) (cutoffPts48k : ℤ) (k : ℕ)
    {frame : AacFrame α} (t : AacTranscoder δ ε α)
    (hframe : (t.encodeUntil c cutoffPts48k).2.1[k]? = some frame) :
    1024 * k + 1024 ≤ t.leftQueue.length ∧ 1024 * k + 1024 ≤ t.rightQueue.length ∧
      frame = ⟨t.audioPts + 1024 * k, (t.leftQueue.drop (1024 * k)).take 1024,
        (t.rightQueue.drop (1024 * k)).take 1024⟩ := by
  induction k generalizing t with
  | zero =>
      rw [encodeUntil_eq] at hframe
      split at hframe
      · next hfull =>
          refine ⟨by omega, by omega, ?_⟩
          simpa [nextFrame] using hframe.symm
      · simp at hframe
  | succ k ih =>
      rw [encodeUntil_eq] at hframe
      split at hframe
      · obtain ⟨hleft, hright, rfl⟩ := ih _ hframe
        rw [encodeFrame_leftQueue, List.length_drop] at hleft
        rw [encodeFrame_rightQueue, List.length_drop] at hright
        refine ⟨by omega, by omega, ?_⟩
        have hshift : 1024 + 1024 * k = 1024 * (k + 1) := by omega
        rw [encodeFrame_leftQueue, encodeFrame_rightQueue, encodeFrame_audioPts, List.drop_drop,
          List.drop_drop, hshift]
        congr 1
        push_cast
        omega
      · simp at hframe

theorem encodeUntil_frames_ne_nil (c : AacCodec δ ε α) (cutoffPts48k : ℤ)
    (t : AacTranscoder δ ε α) :
    (t.encodeUntil c cutoffPts48k).2.1 ≠ [] ↔
      1024 ≤ t.leftQueue.length ∧ 1024 ≤ t.rightQueue.length ∧
        t.audioPts + 1024 ≤ cutoffPts48k := by
  rw [encodeUntil_eq]
  split <;> simp_all

@[simp] theorem decode_initialPadding (c : AacCodec δ ε α) (pkt : AVPacket)
    (t : AacTranscoder δ ε α) : (t.decode c pkt).initialPadding = t.initialPadding := rfl

@[simp] theorem encodeUntil_initialPadding (c : AacCodec δ ε α) (cutoffPts48k : ℤ)
    (t : AacTranscoder δ ε α) :
    (t.encodeUntil c cutoffPts48k).1.initialPadding = t.initialPadding := by
  induction hlen : t.leftQueue.length using Nat.strong_induction_on generalizing t with
  | _ n ih =>
      rw [encodeUntil_eq]
      split
      · exact ih _ (by rw [encodeFrame_leftQueue, List.length_drop]; omega) (t.encodeFrame c).1 rfl
      · rfl

@[simp] theorem transcode_initialPadding (c : AacCodec δ ε α) (cutoffPts48k : ℤ)
    (t : AacTranscoder δ ε α) (pkts : List AVPacket) :
    (t.transcode c cutoffPts48k pkts).1.initialPadding = t.initialPadding := by
  rw [transcode, encodeUntil_initialPadding]
  induction pkts generalizing t with
  | nil => rfl
  | cons pkt pkts ih => rw [List.foldl_cons, ih, decode_initialPadding]

end AacTranscoder

end Fmp4Packager
