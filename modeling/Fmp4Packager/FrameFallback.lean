import Fmp4Packager.SegmentBuild
import Fmp4Packager.SegmentRoundTrip
import Mathlib.Data.List.Flatten

/-!
# Frames from the session's cache

Where its own encoder lacks a requested frame, a build falls back on the audio
frame cache of the session.  Every frame it falls back on makes the segment
longer; without any, the cache makes no difference.
-/

namespace Fmp4Packager

open Fmp4Writer

namespace Session

/-- The frame under which an encoded packet is stored. -/
def frameOf (ep : AVPacket) : Option ℤ :=
  if ep.pts ≠ avNoptsValue ∧ ep.data ≠ [] then some (audioFrameIndexForPts ep.pts) else none

def frameIndices (encPkts : List AVPacket) : List ℤ := encPkts.filterMap frameOf

theorem mem_storeFrame {frames : KeyedCache ℤ (List UInt8)} {ep : AVPacket} {j : ℤ} :
    j ∈ storeFrame frames ep ↔ j ∈ frames ∨ frameOf ep = some j := by
  rw [storeFrame, frameOf]
  split
  · rw [AList.mem_insert, Option.some.injEq, or_comm, eq_comm]
  · simp

theorem mem_keepFrame {cache : KeyedCache ℤ (List UInt8)} {ep : AVPacket} {j : ℤ} :
    j ∈ keepFrame cache ep ↔ j ∈ cache ∨ frameOf ep = some j := by
  rw [keepFrame, frameOf]
  split
  · rw [KeyedCache.mem_tryEmplace, Option.some.injEq, or_comm, eq_comm]
  · simp

theorem lookup_keepFrame {cache : KeyedCache ℤ (List UInt8)} {ep : AVPacket} {j : ℤ}
    (hj : frameOf ep ≠ some j) : (keepFrame cache ep).lookup j = cache.lookup j := by
  rw [frameOf] at hj
  rw [keepFrame]
  split
  · next hstored =>
      rw [if_pos hstored, ne_eq, Option.some.injEq] at hj
      rw [KeyedCache.lookup_tryEmplace, if_neg fun h ↦ hj h.symm]
  · rfl

theorem mem_foldl_storeFrame {encPkts : List AVPacket} {frames : KeyedCache ℤ (List UInt8)}
    {j : ℤ} : j ∈ encPkts.foldl storeFrame frames ↔ j ∈ frames ∨ j ∈ frameIndices encPkts := by
  induction encPkts generalizing frames with
  | nil => simp [frameIndices]
  | cons ep encPkts ih =>
      rw [List.foldl_cons, ih, mem_storeFrame, or_assoc]
      simp only [frameIndices, List.mem_filterMap, List.mem_cons, exists_eq_or_imp]

theorem mem_foldl_keepFrame {encPkts : List AVPacket} {cache : KeyedCache ℤ (List UInt8)}
    {j : ℤ} : j ∈ encPkts.foldl keepFrame cache ↔ j ∈ cache ∨ j ∈ frameIndices encPkts := by
  induction encPkts generalizing cache with
  | nil => simp [frameIndices]
  | cons ep encPkts ih =>
      rw [List.foldl_cons, ih, mem_keepFrame, or_assoc]
      simp only [frameIndices, List.mem_filterMap, List.mem_cons, exists_eq_or_imp]

theorem lookup_foldl_keepFrame {encPkts : List AVPacket} {cache : KeyedCache ℤ (List UInt8)}
    {j : ℤ} (hj : j ∉ frameIndices encPkts) :
    (encPkts.foldl keepFrame cache).lookup j = cache.lookup j := by
  induction encPkts generalizing cache with
  | nil => rfl
  | cons ep encPkts ih =>
      have hmem : ∀ j, j ∈ frameIndices (ep :: encPkts) ↔
          frameOf ep = some j ∨ j ∈ frameIndices encPkts := by
        intro j
        simp only [frameIndices, List.mem_filterMap, List.mem_cons, exists_eq_or_imp]
      obtain ⟨hhead, htail⟩ := not_or.mp ((hmem j).not.mp hj)
      rw [List.foldl_cons, ih htail, lookup_keepFrame hhead]

theorem mem_ownFrames {encPkts : List AVPacket} {j : ℤ} :
    j ∈ ownFrames encPkts ↔ j ∈ frameIndices encPkts := by
  rw [ownFrames, mem_foldl_storeFrame]
  simp

/-- A frame that a build leaves in the cache was there before, or is one that the
build leaves in an empty cache. -/
theorem mem_cacheAfter {hasAac : Bool} {encPkts : List AVPacket}
    {cache : KeyedCache ℤ (List UInt8)} {j : ℤ} (hj : j ∈ cacheAfter hasAac encPkts cache) :
    j ∈ cache ∨ j ∈ cacheAfter hasAac encPkts ∅ := by
  have hsub : ∀ i, i ∈ encPkts.foldl keepFrame ∅ → i ∈ encPkts.foldl keepFrame cache := by
    intro i hi
    rw [mem_foldl_keepFrame] at hi ⊢
    exact hi.imp_left fun hempty ↦ absurd hempty (by simp)
  rw [cacheAfter] at hj ⊢
  split at hj
  · next haac =>
      obtain ⟨hmem, hrank⟩ := KeyedCache.mem_evict.mp hj
      rcases mem_foldl_keepFrame.mp hmem with hold | hown
      · exact .inl hold
      · -- above it there are no more frames than in the larger cache
        have hle := KeyedCache.rank_le_rank hsub j
        rw [if_pos haac]
        exact .inr (KeyedCache.mem_evict.mpr ⟨mem_foldl_keepFrame.mpr (.inr hown), by omega⟩)
  · next haac =>
      rw [if_neg haac]
      rcases mem_foldl_keepFrame.mp hj with hold | hown
      · exact .inl hold
      · exact .inr (mem_foldl_keepFrame.mpr (.inr hown))

theorem mem_frameIndices_of_mem_cacheAfter {hasAac : Bool} {encPkts : List AVPacket} {j : ℤ}
    (hj : j ∈ cacheAfter hasAac encPkts ∅) : j ∈ frameIndices encPkts := by
  have hkept : j ∈ encPkts.foldl keepFrame ∅ := by
    rw [cacheAfter] at hj
    split at hj
    · exact (KeyedCache.mem_evict.mp hj).1
    · exact hj
  exact (mem_foldl_keepFrame.mp hkept).resolve_left (by simp)

/-- The sample of the output for a requested frame. -/
def outputSample (encPkts : List AVPacket) (cache : KeyedCache ℤ (List UInt8)) (j : ℤ) :
    Option Sample :=
  (((ownFrames encPkts).lookup j).or ((encPkts.foldl keepFrame cache).lookup j)).map
    (audioSample j)

theorem audioOutput_true (encPkts : List AVPacket) (cache : KeyedCache ℤ (List UInt8))
    (frames : List ℤ) :
    audioOutput true encPkts cache frames = frames.filterMap (outputSample encPkts cache) := rfl

theorem outputSample_of_mem {encPkts : List AVPacket} {j : ℤ} (hj : j ∈ frameIndices encPkts)
    (cache : KeyedCache ℤ (List UInt8)) :
    outputSample encPkts cache j = outputSample encPkts ∅ j := by
  obtain ⟨payload, hown⟩ :=
    Option.isSome_iff_exists.mp (AList.lookup_isSome.mpr (mem_ownFrames.mpr hj))
  rw [outputSample, outputSample, hown, Option.some_or, Option.some_or]

theorem outputSample_of_not_mem {encPkts : List AVPacket} {j : ℤ}
    (hj : j ∉ frameIndices encPkts) (cache : KeyedCache ℤ (List UInt8)) :
    outputSample encPkts cache j = (cache.lookup j).map (audioSample j) := by
  have hown : (ownFrames encPkts).lookup j = none :=
    AList.lookup_eq_none.mpr fun hmem ↦ hj (mem_ownFrames.mp hmem)
  rw [outputSample, hown, Option.none_or, lookup_foldl_keepFrame hj]

/-- Without a frame to fall back on, the cache makes no difference. -/
theorem audioOutput_eq_of_forall {hasAac : Bool} {encPkts : List AVPacket}
    {cache : KeyedCache ℤ (List UInt8)} {frames : List ℤ}
    (h : ∀ j ∈ frames, j ∉ frameIndices encPkts → j ∉ cache) :
    audioOutput hasAac encPkts cache frames = audioOutput hasAac encPkts ∅ frames := by
  cases hasAac with
  | false => rfl
  | true =>
      rw [audioOutput_true, audioOutput_true]
      apply List.filterMap_congr
      intro j hj
      by_cases hown : j ∈ frameIndices encPkts
      · exact outputSample_of_mem hown cache
      · rw [outputSample_of_not_mem hown, outputSample_of_not_mem hown,
          AList.lookup_eq_none.mpr (h j hj hown), AList.lookup_empty]

theorem filterMap_sublist {β γ : Type} {f g : β → Option γ} (h : ∀ x, f x = none ∨ f x = g x)
    (xs : List β) : (xs.filterMap f).Sublist (xs.filterMap g) := by
  induction xs with
  | nil => exact List.Sublist.refl _
  | cons x xs ih =>
      rw [List.filterMap_cons, List.filterMap_cons]
      rcases h x with hnone | heq
      · rw [hnone]
        cases g x with
        | none => exact ih
        | some y => exact ih.cons y
      · rw [heq]
        cases g x with
        | none => exact ih
        | some y => exact ih.cons_cons y

theorem audioOutput_sublist (encPkts : List AVPacket) (cache : KeyedCache ℤ (List UInt8))
    (frames : List ℤ) :
    (audioOutput true encPkts ∅ frames).Sublist (audioOutput true encPkts cache frames) := by
  rw [audioOutput_true, audioOutput_true]
  apply filterMap_sublist
  intro j
  by_cases hown : j ∈ frameIndices encPkts
  · exact .inr (outputSample_of_mem hown cache).symm
  · rw [outputSample_of_not_mem hown, AList.lookup_empty]
    exact .inl rfl

/-- Each requested frame that only the cache has is one sample more. -/
theorem length_audioOutput_lt {encPkts : List AVPacket} {cache : KeyedCache ℤ (List UInt8)}
    {frames : List ℤ} {j : ℤ} (hj : j ∈ frames) (hown : j ∉ frameIndices encPkts)
    (hcache : j ∈ cache) :
    (audioOutput true encPkts ∅ frames).length <
      (audioOutput true encPkts cache frames).length := by
  obtain ⟨before, after, rfl⟩ := List.append_of_mem hj
  obtain ⟨payload, hpayload⟩ := Option.isSome_iff_exists.mp (AList.lookup_isSome.mpr hcache)
  have hbefore := (audioOutput_sublist encPkts cache before).length_le
  have hafter := (audioOutput_sublist encPkts cache after).length_le
  have hlost : outputSample encPkts ∅ j = none := by
    rw [outputSample_of_not_mem hown, AList.lookup_empty]
    rfl
  have hkept : outputSample encPkts cache j = some (audioSample j payload) := by
    rw [outputSample_of_not_mem hown, hpayload]
    rfl
  rw [audioOutput_true, audioOutput_true] at hbefore hafter ⊢
  rw [List.filterMap_append, List.filterMap_append, List.filterMap_cons_none hlost,
    List.filterMap_cons_some hkept, List.length_append, List.length_append, List.length_cons]
  omega

def trackCost (input : TrackInput) : ℕ :=
  52 + trafSize input + (trackData input.2.1).length

theorem length_segmentBytes_eq (sequenceNumber : UInt32) (inputs : List TrackInput) :
    (Fmp4Writer.segmentBytes sequenceNumber inputs).length =
      56 + (inputs.map trackCost).sum := by
  have hcost : (inputs.map trackCost).sum =
      52 * inputs.length + (inputs.map trafSize).sum + (mdatPayload inputs).length := by
    induction inputs with
    | nil => rfl
    | cons input inputs ih =>
        rw [List.map_cons, List.sum_cons, ih, trackCost]
        simp only [mdatPayload, List.flatMap_cons, List.length_append, List.length_cons,
          List.map_cons, List.sum_cons]
        omega
  rw [length_segmentBytes, moofStart, mediaSize, firstDataOffset, moofSize, hcost]
  omega

theorem segmentBytes_eq_layout (w : Window) (vid : AVStream)
    (aacCodecpar : Option AVCodecParameters) (hasAac : Bool)
    (videoSamples audioSamples : List Sample) :
    segmentBytes w vid aacCodecpar hasAac videoSamples audioSamples =
      .ok (Fmp4Writer.segmentBytes (UInt32.ofInt (w.segmentIdx + 1))
        (segmentTracks vid aacCodecpar hasAac videoSamples audioSamples)) := by
  rw [segmentBytes, buildSegment_eq _ (by simp) (by simp), List.zip_map', List.zip_map']
  simp

theorem trackCost_lt {input input' : TrackInput} (hsub : input.2.1.Sublist input'.2.1)
    (hlt : input.2.1.length < input'.2.1.length) : trackCost input < trackCost input' := by
  have hdata := (hsub.flatMap sampleData).length_le
  have hne : input'.2.1.isEmpty = false := by
    rw [List.isEmpty_eq_false_iff]
    exact List.ne_nil_of_length_pos (by omega)
  simp only [trackCost, trafSize, trackData, hne, Bool.false_eq_true, if_false]
  split <;> omega

theorem length_segmentBytes_lt (w : Window) (vid : AVStream)
    {aacCodecpar : Option AVCodecParameters} (hcodecpar : aacCodecpar.isSome)
    (videoSamples : List Sample)
    {audioSamples audioSamples' : List Sample} (hsub : audioSamples.Sublist audioSamples')
    (hlt : audioSamples.length < audioSamples'.length) {bytes bytes' : List UInt8}
    (hbytes : segmentBytes w vid aacCodecpar true videoSamples audioSamples = .ok bytes)
    (hbytes' : segmentBytes w vid aacCodecpar true videoSamples audioSamples' = .ok bytes') :
    bytes.length < bytes'.length := by
  have hne : audioSamples' ≠ [] := by
    rintro rfl
    simp at hlt
  rw [segmentBytes_eq_layout] at hbytes hbytes'
  cases hbytes
  cases hbytes'
  rw [length_segmentBytes_eq, length_segmentBytes_eq, segmentTracks, segmentTracks,
    if_pos (show true = true ∧ aacCodecpar.isSome = true ∧ audioSamples' ≠ [] from
      ⟨rfl, hcodecpar, hne⟩)]
  split
  · simp only [List.map_cons, List.map_nil, List.sum_cons, List.sum_nil, Nat.add_zero]
    exact Nat.add_lt_add_left (Nat.add_lt_add_left (trackCost_lt hsub hlt) _) _
  · simp only [List.map_cons, List.map_nil, List.sum_cons, List.sum_nil, trackCost]
    omega

end Session

end Fmp4Packager
