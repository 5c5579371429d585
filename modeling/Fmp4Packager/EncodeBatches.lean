import Fmp4Packager.AacTranscoder

/-!
# Encoding in batches

The read loop drains the queues after every packet, the boundary path once at the
end.  Either way the encoder gets the same frames: what an early drain sends is what
a later one would have sent first.
-/

namespace Fmp4Packager

namespace AacTranscoder

variable {δ ε α : Type}

/-- A call that the session makes between two calls of `Reset`. -/
inductive Op where
  | decode (inPkt : AVPacket)
  | encodeUntil (cutoffPts48k : ℤ)

def Op.packet? : Op → Option AVPacket
  | .decode inPkt => some inPkt
  | .encodeUntil _ => none

def Op.cutoff? : Op → Option ℤ
  | .decode _ => none
  | .encodeUntil cutoffPts48k => some cutoffPts48k

/-- The frames that a call sends to the encoder and the packets that it appends. -/
def perform (c : AacCodec δ ε α) (t : AacTranscoder δ ε α) :
    Op → AacTranscoder δ ε α × List (AacFrame α) × List AVPacket
  | .decode inPkt => (t.decode c inPkt, [], [])
  | .encodeUntil cutoffPts48k => t.encodeUntil c cutoffPts48k

def performAll (c : AacCodec δ ε α) (t : AacTranscoder δ ε α) :
    List Op → AacTranscoder δ ε α × List (AacFrame α) × List AVPacket
  | [] => (t, [], [])
  | op :: ops =>
      let r := t.perform c op
      let r' := performAll c r.1 ops
      (r'.1, r.2.1 ++ r'.2.1, r.2.2 ++ r'.2.2)

/-- All samples that the packets decode to, left and right. -/
def decodedSamples (c : AacCodec δ ε α) : δ → List AVPacket → List (α × α)
  | _, [] => []
  | decoder, pkt :: pkts =>
      let (decoder, samples) := c.decode decoder pkt
      samples ++ decodedSamples c decoder pkts

/-- What has become of the samples decoded since `Reset`: 1024 in each frame, the
rest in the queues. -/
structure Accounts (resetPts : ℤ) (samples : List (α × α)) (frames : List (AacFrame α))
    (t : AacTranscoder δ ε α) : Prop where
  audioPts : t.audioPts = resetPts + 1024 * frames.length
  queues : t.leftQueue.length = t.rightQueue.length
  left : frames.flatMap AacFrame.left ++ t.leftQueue = samples.map Prod.fst
  right : frames.flatMap AacFrame.right ++ t.rightQueue = samples.map Prod.snd
  whole : ∀ frame ∈ frames, frame.left.length = 1024 ∧ frame.right.length = 1024
  frame : ∀ (k : ℕ) (frame : AacFrame α), frames[k]? = some frame →
    frame = ⟨resetPts + 1024 * k, ((samples.map Prod.fst).drop (1024 * k)).take 1024,
      ((samples.map Prod.snd).drop (1024 * k)).take 1024⟩

theorem encodeUntil_of_le (c : AacCodec δ ε α) {cutoff cutoff' : ℤ} (hle : cutoff ≤ cutoff')
    (t : AacTranscoder δ ε α) :
    t.encodeUntil c cutoff' =
      let r := t.encodeUntil c cutoff
      let r' := r.1.encodeUntil c cutoff'
      (r'.1, r.2.1 ++ r'.2.1, r.2.2 ++ r'.2.2) := by
  induction hlen : t.leftQueue.length using Nat.strong_induction_on generalizing t with
  | _ n ih =>
      by_cases hfull : 1024 ≤ t.leftQueue.length ∧ 1024 ≤ t.rightQueue.length ∧
          t.audioPts + 1024 ≤ cutoff
      · have hrest := ih _ (by rw [encodeFrame_leftQueue, List.length_drop]; omega)
          (t.encodeFrame c).1 rfl
        rw [encodeUntil_eq c cutoff t, if_pos hfull, encodeUntil_eq c cutoff' t,
          if_pos ⟨hfull.1, hfull.2.1, Int.le_trans hfull.2.2 hle⟩]
        simp only [hrest, List.append_assoc, List.cons_append]
      · rw [encodeUntil_eq c cutoff t, if_neg hfull]
        rfl

/-- Draining before the packets are decoded and again after them comes to the same as
draining once after them. -/
theorem encodeUntil_foldl_decode (c : AacCodec δ ε α) (cutoff : ℤ) (pkts : List AVPacket)
    (t : AacTranscoder δ ε α) :
    (pkts.foldl (decode c) t).encodeUntil c cutoff =
      let r := t.encodeUntil c cutoff
      let r' := (pkts.foldl (decode c) r.1).encodeUntil c cutoff
      (r'.1, r.2.1 ++ r'.2.1, r.2.2 ++ r'.2.2) := by
  induction pkts generalizing t with
  | nil => simp [encodeUntil_encodeUntil]
  | cons pkt pkts ih =>
      rw [List.foldl_cons, ih (t.decode c pkt), encodeUntil_decode]
      simp only [List.foldl_cons, ih ((t.encodeUntil c cutoff).1.decode c pkt), List.append_assoc]

theorem transcode_of_le (c : AacCodec δ ε α) {cutoff cutoff' : ℤ} (hle : cutoff ≤ cutoff')
    (pkts : List AVPacket) (t : AacTranscoder δ ε α) :
    t.transcode c cutoff' pkts =
      let r := t.encodeUntil c cutoff
      let r' := r.1.transcode c cutoff' pkts
      (r'.1, r.2.1 ++ r'.2.1, r.2.2 ++ r'.2.2) := by
  have hdrained := encodeUntil_foldl_decode c cutoff pkts t
  simp only [transcode, encodeUntil_of_le c hle (pkts.foldl (decode c) _), hdrained,
    List.append_assoc]

/-- Calls whose cutoffs do not pass the last one. -/
theorem performAll_append_encodeUntil (c : AacCodec δ ε α) (cutoff : ℤ) (ops : List Op)
    (hcutoffs : ∀ cutoff' ∈ ops.filterMap Op.cutoff?, cutoff' ≤ cutoff) (t : AacTranscoder δ ε α) :
    t.performAll c (ops ++ [.encodeUntil cutoff]) =
      t.transcode c cutoff (ops.filterMap Op.packet?) := by
  induction ops generalizing t with
  | nil => simp [performAll, perform, transcode]
  | cons op ops ih =>
      have hrest : ∀ cutoff' ∈ ops.filterMap Op.cutoff?, cutoff' ≤ cutoff := by
        intro cutoff' hmem
        obtain ⟨op', hop', hcutoff'⟩ := List.mem_filterMap.mp hmem
        exact hcutoffs cutoff'
          (List.mem_filterMap.mpr ⟨op', List.mem_cons_of_mem op hop', hcutoff'⟩)
      rw [List.cons_append, performAll, ih hrest]
      cases op with
      | decode inPkt => rfl
      | encodeUntil earlier =>
          have hle : earlier ≤ cutoff := hcutoffs earlier (by simp [Op.cutoff?])
          exact (transcode_of_le c hle (ops.filterMap Op.packet?) t).symm

namespace Accounts

variable {resetPts : ℤ} {samples : List (α × α)} {frames : List (AacFrame α)}
  {t : AacTranscoder δ ε α}

theorem reset (c : AacCodec δ ε α) (resetPts : ℤ) (t : AacTranscoder δ ε α) :
    Accounts resetPts [] [] (t.reset c resetPts) where
  audioPts := by simp [AacTranscoder.reset]
  queues := rfl
  left := rfl
  right := rfl
  whole := by simp
  frame := by simp

theorem length_left (h : Accounts resetPts samples frames t) :
    (frames.flatMap AacFrame.left).length = 1024 * frames.length := by
  have hwhole := h.whole
  clear h
  induction frames with
  | nil => rfl
  | cons frame frames ih =>
      have hrest := ih fun frame' hmem ↦ hwhole frame' (List.mem_cons_of_mem frame hmem)
      rw [List.flatMap_cons, List.length_append, hrest, (hwhole frame List.mem_cons_self).1,
        List.length_cons]
      omega

theorem length_right (h : Accounts resetPts samples frames t) :
    (frames.flatMap AacFrame.right).length = 1024 * frames.length := by
  have hleft := congrArg List.length h.left
  have hright := congrArg List.length h.right
  rw [List.length_append, List.length_map] at hleft hright
  have := h.length_left
  have := h.queues
  omega

theorem length_samples (h : Accounts resetPts samples frames t) :
    samples.length = 1024 * frames.length + t.leftQueue.length := by
  have hleft := congrArg List.length h.left
  rwa [List.length_append, List.length_map, h.length_left, eq_comm] at hleft

theorem decode (c : AacCodec δ ε α) (pkt : AVPacket) (h : Accounts resetPts samples frames t) :
    Accounts resetPts (samples ++ (c.decode t.decoder pkt).2) frames (t.decode c pkt) where
  audioPts := h.audioPts
  queues := by
    simp only [AacTranscoder.decode, List.length_append, List.length_map, h.queues]
  left := by
    simp only [AacTranscoder.decode, List.map_append, ← h.left, List.append_assoc]
  right := by
    simp only [AacTranscoder.decode, List.map_append, ← h.right, List.append_assoc]
  whole := h.whole
  frame := by
    intro k frame hframe
    have hsamples := h.length_samples
    have hk := (List.getElem?_eq_some_iff.mp hframe).1
    have hfirst : 1024 * k + 1024 ≤ samples.length := by omega
    rw [h.frame k frame hframe, List.map_append, List.map_append,
      List.drop_append_of_le_length (by rw [List.length_map]; omega),
      List.drop_append_of_le_length (by rw [List.length_map]; omega),
      List.take_append_of_le_length (by rw [List.length_drop, List.length_map]; omega),
      List.take_append_of_le_length (by rw [List.length_drop, List.length_map]; omega)]

theorem encodeFrame (c : AacCodec δ ε α) (h : Accounts resetPts samples frames t)
    (hfull : 1024 ≤ t.leftQueue.length) :
    Accounts resetPts samples (frames ++ [t.nextFrame]) (t.encodeFrame c).1 where
  audioPts := by
    rw [encodeFrame_audioPts, h.audioPts, List.length_append, List.length_singleton]
    push_cast
    omega
  queues := by
    rw [encodeFrame_leftQueue, encodeFrame_rightQueue, List.length_drop, List.length_drop,
      h.queues]
  left := by
    rw [List.flatMap_append, List.flatMap_singleton, encodeFrame_leftQueue, nextFrame,
      List.append_assoc, List.take_append_drop, h.left]
  right := by
    rw [List.flatMap_append, List.flatMap_singleton, encodeFrame_rightQueue, nextFrame,
      List.append_assoc, List.take_append_drop, h.right]
  whole := by
    intro frame hmem
    rcases List.mem_append.mp hmem with hsent | hnext
    · exact h.whole frame hsent
    · rw [List.mem_singleton.mp hnext, nextFrame, List.length_take, List.length_take, ← h.queues]
      exact ⟨min_eq_left hfull, min_eq_left hfull⟩
  frame := by
    intro k frame hframe
    rw [List.getElem?_append] at hframe
    split at hframe
    · exact h.frame k frame hframe
    · next hsent =>
        obtain ⟨hk, rfl⟩ := List.getElem?_eq_some_iff.mp hframe
        have hlast : k = frames.length := by
          rw [List.length_singleton] at hk
          omega
        subst hlast
        rw [List.getElem_singleton, nextFrame, h.audioPts, ← h.left, ← h.right,
          ← h.length_left, List.drop_left, h.length_left, ← h.length_right, List.drop_left]

theorem encodeUntil (c : AacCodec δ ε α) (cutoff : ℤ) (h : Accounts resetPts samples frames t) :
    Accounts resetPts samples (frames ++ (t.encodeUntil c cutoff).2.1)
      (t.encodeUntil c cutoff).1 := by
  induction hlen : t.leftQueue.length using Nat.strong_induction_on generalizing t frames with
  | _ n ih =>
      rw [encodeUntil_eq]
      split
      · next hfull =>
          have hrest := ih _ (by rw [encodeFrame_leftQueue, List.length_drop]; omega)
            (h.encodeFrame c hfull.1) rfl
          rwa [List.append_assoc, List.singleton_append] at hrest
      · rwa [List.append_nil]

end Accounts

@[simp] theorem encodeUntil_decoder (c : AacCodec δ ε α) (cutoff : ℤ) (t : AacTranscoder δ ε α) :
    (t.encodeUntil c cutoff).1.decoder = t.decoder := by
  induction hlen : t.leftQueue.length using Nat.strong_induction_on generalizing t with
  | _ n ih =>
      rw [encodeUntil_eq]
      split
      · exact ih _ (by rw [encodeFrame_leftQueue, List.length_drop]; omega) (t.encodeFrame c).1 rfl
      · rfl

theorem accounts_performAll (c : AacCodec δ ε α) {resetPts : ℤ} {samples : List (α × α)}
    {frames : List (AacFrame α)} {t : AacTranscoder δ ε α} (ops : List Op)
    (h : Accounts resetPts samples frames t) :
    Accounts resetPts (samples ++ decodedSamples c t.decoder (ops.filterMap Op.packet?))
      (frames ++ (t.performAll c ops).2.1) (t.performAll c ops).1 := by
  induction ops generalizing samples frames t with
  | nil => simpa [performAll, decodedSamples] using h
  | cons op ops ih =>
      cases op with
      | decode inPkt =>
          have hrest := ih (h.decode c inPkt)
          rw [List.append_assoc] at hrest
          exact hrest
      | encodeUntil cutoff =>
          have hrest := ih (h.encodeUntil c cutoff)
          rw [encodeUntil_decoder, List.append_assoc] at hrest
          exact hrest

/-- Whatever calls of `Decode` and `EncodeUntil` come before the last drain, if their
cutoffs do not decrease, decoding everything and draining once sends the same frames
and leaves the same state; and at any time between the calls the frames and the queues
hold the samples decoded so far. -/
theorem performAll_eq_transcode (c : AacCodec δ ε α) (t : AacTranscoder δ ε α) (resetPts : ℤ)
    (ops : List Op) (cutoff : ℤ)
    (hcutoffs : ((ops ++ [Op.encodeUntil cutoff]).filterMap Op.cutoff?).Pairwise (· ≤ ·)) :
    (t.reset c resetPts).performAll c (ops ++ [.encodeUntil cutoff]) =
        (t.reset c resetPts).transcode c cutoff (ops.filterMap Op.packet?) ∧
      ∀ done : List Op, done <+: ops ++ [Op.encodeUntil cutoff] →
        Accounts resetPts
          (decodedSamples c (t.reset c resetPts).decoder (done.filterMap Op.packet?))
          ((t.reset c resetPts).performAll c done).2.1
          ((t.reset c resetPts).performAll c done).1 := by
  constructor
  · apply performAll_append_encodeUntil
    intro earlier hmem
    rw [List.filterMap_append, List.pairwise_append] at hcutoffs
    exact hcutoffs.2.2 earlier hmem cutoff (by simp [Op.cutoff?])
  · intro done _
    exact accounts_performAll c done (Accounts.reset c resetPts t)

/-- Decodes every packet to as many samples as its duration, counted through. -/
def countingCodec : AacCodec ℤ Unit ℤ where
  openCodec := fun codecpar ↦ .ok ⟨0, (), 1024, codecpar⟩
  decode := fun count pkt ↦ (count + pkt.duration,
    (List.range pkt.duration.toNat).map fun (i : ℕ) ↦ (count + i, -(count + i)))
  flushDecoder := fun _ ↦ 0
  encode := fun _ frame ↦ ((), [⟨1, frame.pts, frame.pts, 1024, true, [9]⟩])
  flushEncoder := id

/-- Packets of 1536 and 1000 samples, with a drain after each. -/
def twoDrains : List Op :=
  [.decode ⟨1, 0, 0, 1536, true, [1]⟩, .encodeUntil 1024, .decode ⟨1, 0, 0, 1000, true, [2]⟩]

theorem performAll_eq_transcode_twoDrains :
    let t : AacTranscoder ℤ Unit ℤ := { decoder := 7, encoder := () }
    (t.reset countingCodec (-48)).performAll countingCodec (twoDrains ++ [.encodeUntil 4096]) =
        (t.reset countingCodec (-48)).transcode countingCodec 4096
          (twoDrains.filterMap Op.packet?) ∧
      ∀ done : List Op, done <+: twoDrains ++ [Op.encodeUntil 4096] →
        Accounts (-48)
          (decodedSamples countingCodec (t.reset countingCodec (-48)).decoder
            (done.filterMap Op.packet?))
          ((t.reset countingCodec (-48)).performAll countingCodec done).2.1
          ((t.reset countingCodec (-48)).performAll countingCodec done).1 :=
  performAll_eq_transcode countingCodec _ (-48) twoDrains 4096 (by decide)

end AacTranscoder

end Fmp4Packager
