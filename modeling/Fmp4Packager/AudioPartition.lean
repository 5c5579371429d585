import Fmp4Packager.General.RangeChain
import Fmp4Packager.Keyframes
import Fmp4Packager.Server

/-!
# The audio frames of the segments

Each segment requests a half-open range of 1024-sample frames.  The ranges follow
one another without a gap.  They overlap exactly where both boundaries of a segment
lie in the same frame: the one frame that such a segment has to request is the
frame that begins the next segment.
-/

namespace Fmp4Packager

namespace Session

open Server

variable {δ ε α : Type}

theorem floorDiv_eq_ediv (num : ℤ) : floorDiv num 1024 = num / 1024 := by
  simp only [floorDiv]
  have hdiv := Int.mul_tdiv_add_tmod num 1024
  have hlow := Int.tmod_lt_of_pos num (b := 1024) (by omega)
  have hhigh := Int.tmod_lt_of_pos (-num) (b := 1024) (by omega)
  rw [Int.neg_tmod] at hhigh
  have hsign : num.tmod 1024 < 0 → num < 0 := by
    intro hr
    by_contra hnum
    have hnonneg := Int.tmod_nonneg 1024 (a := num) (by omega)
    omega
  split
  · next h =>
      simp at h
      omega
  · next h =>
      simp at h
      omega

theorem msToAudioPts_eq (ms : ℤ) : msToAudioPts ms = 48 * ms := by
  have hb : kMsTb.num * kAudioOutTb.den = 48000 := rfl
  have hc : kAudioOutTb.num * kMsTb.den = 1000 := rfl
  simp only [msToAudioPts, avRescaleQ, hb, hc]
  rw [if_neg (by decide)]
  split <;> omega

theorem audioFrameIndexForPts_msToAudioPts (ms : ℤ) :
    audioFrameIndexForPts (msToAudioPts ms) = 48 * ms / 1024 := by
  rw [audioFrameIndexForPts, floorDiv_eq_ediv, msToAudioPts_eq]

theorem mem_frameRange {start end_ frame : ℤ} :
    frame ∈ frameRange start end_ ↔ start ≤ frame ∧ frame < end_ := by
  rw [frameRange, List.mem_map]
  constructor
  · rintro ⟨k, hk, rfl⟩
    have hk := List.mem_range.mp hk
    omega
  · rintro ⟨hlow, hhigh⟩
    exact ⟨(frame - start).toNat, List.mem_range.mpr (by omega), by omega⟩

def startFrame (aac : AacTranscoder δ ε α) (w : Window) : ℤ :=
  outputStartFrame (some aac.initialPadding) w.segmentIdx w.segmentStartMs

def endFrame (aac : AacTranscoder δ ε α) (w : Window) : ℤ :=
  outputEndFrame (some aac.initialPadding) w.segmentIdx w.segmentStartMs w.segmentEndMs

def requestedFrames (aac : AacTranscoder δ ε α) (w : Window) : List ℤ :=
  outputFrames (some aac.initialPadding) w

/-- The segment of that index, if there is one, requests the frame. -/
def Requests (aac : AacTranscoder δ ε α) (keyframes : List ℤ) (segmentIdx frame : ℤ) : Prop :=
  ∃ w, segmentWindow keyframes segmentIdx = some w ∧ frame ∈ requestedFrames aac w

/-- The ranges are consecutive and disjoint, and each frame of their span is
requested by exactly one segment. -/
structure PartitionFrames (aac : AacTranscoder δ ε α) (keyframes : List ℤ) : Prop where
  consecutive : ∀ idx w next, segmentWindow keyframes idx = some w →
    segmentWindow keyframes (idx + 1) = some next → endFrame aac w = startFrame aac next
  disjoint : ∀ idx idx' w w', idx ≠ idx' → segmentWindow keyframes idx = some w →
    segmentWindow keyframes idx' = some w' →
    (requestedFrames aac w).Disjoint (requestedFrames aac w')
  exactlyOne : ∀ idx first last, segmentWindow keyframes 0 = some first →
    segmentWindow keyframes idx = some last → ∀ frame, startFrame aac first ≤ frame →
    frame < endFrame aac last → ∃! idx, Requests aac keyframes idx frame

/-- Both boundaries of a segment after the first lie in one frame. -/
def WithinFrame (w : Window) : Prop :=
  w.segmentIdx ≠ 0 ∧
    audioFrameIndexForPts (msToAudioPts w.segmentStartMs) =
      audioFrameIndexForPts (msToAudioPts w.segmentEndMs)

instance (w : Window) : Decidable (WithinFrame w) :=
  inferInstanceAs (Decidable (_ ∧ _))

theorem mem_requestedFrames {aac : AacTranscoder δ ε α} {w : Window} {frame : ℤ} :
    frame ∈ requestedFrames aac w ↔ startFrame aac w ≤ frame ∧ frame < endFrame aac w :=
  mem_frameRange

theorem startFrame_of_ne_zero (aac : AacTranscoder δ ε α) {w : Window} (hidx : w.segmentIdx ≠ 0) :
    startFrame aac w = 48 * w.segmentStartMs / 1024 := by
  rw [startFrame, outputStartFrame, if_neg hidx, audioFrameIndexForPts_msToAudioPts]

theorem startFrame_neg (aac : AacTranscoder δ ε α) {w : Window} (hidx : w.segmentIdx = 0) :
    startFrame aac w < 0 := by
  have hpos := aac.initialPadding_pos
  rw [startFrame, outputStartFrame, if_pos hidx, audioFrameIndexForPts, floorDiv_eq_ediv]
  omega

theorem endFrame_eq (aac : AacTranscoder δ ε α) (w : Window) :
    endFrame aac w = max (startFrame aac w + 1) (48 * w.segmentEndMs / 1024) := by
  have hend : endFrame aac w =
      if audioFrameIndexForPts (msToAudioPts w.segmentEndMs) ≤ startFrame aac w then
        startFrame aac w + 1
      else audioFrameIndexForPts (msToAudioPts w.segmentEndMs) := rfl
  rw [hend, audioFrameIndexForPts_msToAudioPts]
  split <;> omega

theorem startFrame_lt_endFrame (aac : AacTranscoder δ ε α) (w : Window) :
    startFrame aac w < endFrame aac w := by
  rw [endFrame_eq]
  omega

/-- A window runs forwards from a time that is not negative. -/
def Forwards (w : Window) : Prop := 0 ≤ w.segmentStartMs ∧ w.segmentStartMs < w.segmentEndMs

theorem startFrame_le (aac : AacTranscoder δ ε α) {w : Window} (hw : Forwards w) :
    startFrame aac w ≤ 48 * w.segmentEndMs / 1024 := by
  obtain ⟨hnonneg, hlt⟩ := hw
  by_cases hidx : w.segmentIdx = 0
  · have hneg := startFrame_neg aac hidx
    omega
  · rw [startFrame_of_ne_zero aac hidx]
    omega

theorem endFrame_eq_iff (aac : AacTranscoder δ ε α) {w : Window} (hw : Forwards w) :
    endFrame aac w = 48 * w.segmentEndMs / 1024 ↔ ¬WithinFrame w := by
  have hle := startFrame_le aac hw
  rw [endFrame_eq, WithinFrame, audioFrameIndexForPts_msToAudioPts,
    audioFrameIndexForPts_msToAudioPts]
  by_cases hidx : w.segmentIdx = 0
  · have hneg := startFrame_neg aac hidx
    obtain ⟨hnonneg, hlt⟩ := hw
    simp only [hidx, ne_eq, not_true_eq_false, false_and, not_false_eq_true, iff_true]
    omega
  · have hstart := startFrame_of_ne_zero aac hidx
    simp only [ne_eq, hidx, not_false_eq_true, true_and]
    omega

theorem requestedFrames_of_withinFrame (aac : AacTranscoder δ ε α) {w : Window}
    (hw : WithinFrame w) : requestedFrames aac w = [48 * w.segmentEndMs / 1024] := by
  obtain ⟨hidx, hframe⟩ := hw
  rw [audioFrameIndexForPts_msToAudioPts, audioFrameIndexForPts_msToAudioPts] at hframe
  have hstart := (startFrame_of_ne_zero aac hidx).trans hframe
  have hend : endFrame aac w = startFrame aac w + 1 := by
    rw [endFrame_eq]
    omega
  have hrange : requestedFrames aac w = frameRange (startFrame aac w) (endFrame aac w) := rfl
  rw [hrange, hend, frameRange, add_sub_cancel_left, hstart]
  simp

def windowAt (keyframes : List ℤ) (i : ℕ) : Window :=
  ⟨i, keyframes.getD i 0, keyframes.getD (i + 1) 0⟩

theorem segmentWindow_eq_windowAt {keyframes : List ℤ} {idx : ℤ} {w : Window} :
    segmentWindow keyframes idx = some w ↔
      ∃ i : ℕ, idx = i ∧ i < keyframes.length - 1 ∧ w = windowAt keyframes i := by
  rw [segmentWindow_eq_some]
  constructor
  · rintro ⟨hnonneg, hidx, hstart, hend⟩
    obtain ⟨hlt, -⟩ := List.getElem?_eq_some_iff.mp hend
    refine ⟨idx.toNat, by omega, by omega, ?_⟩
    obtain ⟨segmentIdx, segmentStartMs, segmentEndMs⟩ := w
    simp only [windowAt, List.getD, hstart, hend, Option.getD_some]
    simp only at hidx
    rw [Window.mk.injEq]
    exact ⟨by omega, rfl, rfl⟩
  · rintro ⟨i, rfl, hi, rfl⟩
    have hstart : i < keyframes.length := by omega
    have hend : i + 1 < keyframes.length := by omega
    refine ⟨by omega, rfl, ?_, ?_⟩
    · simp [windowAt, List.getD, hstart]
    · simp [windowAt, List.getD, hend]

theorem forwards_windowAt {keyframes : List ℤ} (hsorted : keyframes.Pairwise (· < ·))
    (hnonneg : ∀ time ∈ keyframes, 0 ≤ time) {i : ℕ} (hi : i < keyframes.length - 1) :
    Forwards (windowAt keyframes i) := by
  have hstart : i < keyframes.length := by omega
  have hend : i + 1 < keyframes.length := by omega
  have hlt := List.pairwise_iff_getElem.mp hsorted i (i + 1) hstart hend (Nat.lt_succ_self i)
  have hmem := hnonneg keyframes[i] (List.getElem_mem hstart)
  simpa [Forwards, windowAt, List.getD, hstart, hend] using ⟨hmem, hlt⟩

theorem startFrame_windowAt_succ (aac : AacTranscoder δ ε α) (keyframes : List ℤ) (i : ℕ) :
    startFrame aac (windowAt keyframes (i + 1)) =
      48 * (windowAt keyframes i).segmentEndMs / 1024 :=
  startFrame_of_ne_zero aac (by simp only [windowAt]; omega)

theorem exists_requests (aac : AacTranscoder δ ε α) {keyframes : List ℤ} {first last : Window}
    {idx frame : ℤ} (hfirst : segmentWindow keyframes 0 = some first)
    (hlast : segmentWindow keyframes idx = some last) (hlow : startFrame aac first ≤ frame)
    (hhigh : frame < endFrame aac last) : ∃ idx, Requests aac keyframes idx frame := by
  obtain ⟨i, hi, -, rfl⟩ := segmentWindow_eq_windowAt.mp hfirst
  obtain rfl : 0 = i := by omega
  obtain ⟨m, -, hm, rfl⟩ := segmentWindow_eq_windowAt.mp hlast
  have hgap : ∀ i, i + 1 < keyframes.length - 1 →
      startFrame aac (windowAt keyframes (i + 1)) ≤ endFrame aac (windowAt keyframes i) := by
    intro i _
    rw [startFrame_windowAt_succ, endFrame_eq]
    omega
  obtain ⟨j, hj, hmem⟩ := RangeChain.exists_mem (fun i ↦ startFrame aac (windowAt keyframes i))
    (fun i ↦ endFrame aac (windowAt keyframes i)) hgap hm hlow hhigh
  exact ⟨j, windowAt keyframes j, segmentWindow_eq_windowAt.mpr ⟨j, rfl, by omega, rfl⟩,
    mem_requestedFrames.mpr hmem⟩

/-- No segment that has a successor lies within a frame. -/
def CrossFrames (keyframes : List ℤ) : Prop :=
  ∀ idx w next, segmentWindow keyframes idx = some w →
    segmentWindow keyframes (idx + 1) = some next → ¬WithinFrame w

theorem index_unique_of_crossFrames (aac : AacTranscoder δ ε α) {keyframes : List ℤ}
    (hsorted : keyframes.Pairwise (· < ·)) (hnonneg : ∀ time ∈ keyframes, 0 ≤ time)
    (hcross : CrossFrames keyframes) {idx idx' frame : ℤ}
    (h : Requests aac keyframes idx frame) (h' : Requests aac keyframes idx' frame) :
    idx = idx' := by
  obtain ⟨w, hw, hmem⟩ := h
  obtain ⟨w', hw', hmem'⟩ := h'
  obtain ⟨i, rfl, hi, rfl⟩ := segmentWindow_eq_windowAt.mp hw
  obtain ⟨j, rfl, hj, rfl⟩ := segmentWindow_eq_windowAt.mp hw'
  have hover : ∀ i, i + 1 < keyframes.length - 1 →
      endFrame aac (windowAt keyframes i) ≤ startFrame aac (windowAt keyframes (i + 1)) := by
    intro i hi
    have hforwards := forwards_windowAt hsorted hnonneg (i := i) (by omega)
    have hnot := hcross i _ _ (segmentWindow_eq_windowAt.mpr ⟨i, rfl, by omega, rfl⟩)
      (segmentWindow_eq_windowAt.mpr ⟨i + 1, by omega, hi, rfl⟩)
    rw [startFrame_windowAt_succ, (endFrame_eq_iff aac hforwards).mpr hnot]
  have hrange : ∀ i < keyframes.length - 1,
      startFrame aac (windowAt keyframes i) ≤ endFrame aac (windowAt keyframes i) :=
    fun i _ ↦ (startFrame_lt_endFrame aac _).le
  have hij := RangeChain.index_unique (fun i ↦ startFrame aac (windowAt keyframes i))
    (fun i ↦ endFrame aac (windowAt keyframes i)) hover hrange hi hj
    (mem_requestedFrames.mp hmem) (mem_requestedFrames.mp hmem')
  rw [hij]

theorem endFrame_eq_startFrame_iff (aac : AacTranscoder δ ε α) {keyframes : List ℤ}
    (hsorted : keyframes.Pairwise (· < ·)) (hnonneg : ∀ time ∈ keyframes, 0 ≤ time) {idx : ℤ}
    {w next : Window} (hw : segmentWindow keyframes idx = some w)
    (hnext : segmentWindow keyframes (idx + 1) = some next) :
    endFrame aac w = startFrame aac next ↔ ¬WithinFrame w := by
  obtain ⟨i, rfl, hi, rfl⟩ := segmentWindow_eq_windowAt.mp hw
  obtain ⟨j, hj, -, rfl⟩ := segmentWindow_eq_windowAt.mp hnext
  obtain rfl : i + 1 = j := by omega
  rw [startFrame_windowAt_succ, endFrame_eq_iff aac (forwards_windowAt hsorted hnonneg hi)]

theorem partitionFrames_iff (aac : AacTranscoder δ ε α) {keyframes : List ℤ}
    (hsorted : keyframes.Pairwise (· < ·)) (hnonneg : ∀ time ∈ keyframes, 0 ≤ time) :
    PartitionFrames aac keyframes ↔ CrossFrames keyframes := by
  constructor
  · intro hpart idx w next hw hnext
    have hend := hpart.consecutive idx w next hw hnext
    exact (endFrame_eq_startFrame_iff aac hsorted hnonneg hw hnext).mp hend
  · intro hcross
    constructor
    · intro idx w next hw hnext
      exact (endFrame_eq_startFrame_iff aac hsorted hnonneg hw hnext).mpr
        (hcross idx w next hw hnext)
    · intro idx idx' w w' hne hw hw' frame hmem hmem'
      exact hne (index_unique_of_crossFrames aac hsorted hnonneg hcross ⟨w, hw, hmem⟩
        ⟨w', hw', hmem'⟩)
    · intro idx first last hfirst hlast frame hlow hhigh
      obtain ⟨idx, hrequests⟩ := exists_requests aac hfirst hlast hlow hhigh
      exact ⟨idx, hrequests, fun idx' hrequests' ↦
        index_unique_of_crossFrames aac hsorted hnonneg hcross hrequests' hrequests⟩

/-- Over the boundaries that `FilterKeyframes` returns: every frame of the span is
requested, the segments partition the frames unless one that has a successor lies
within a frame, and such a segment requests the first frame of its successor. -/
theorem segments_cover_frames (aac : AacTranscoder δ ε α) (raw : List ℤ)
    (hsorted : raw.Pairwise (· < ·)) (hnonneg : ∀ time ∈ raw, 0 ≤ time) :
    (∀ idx first last frame, segmentWindow (filterKeyframes raw 10000) 0 = some first →
        segmentWindow (filterKeyframes raw 10000) idx = some last →
        startFrame aac first ≤ frame → frame < endFrame aac last →
        ∃ idx, Requests aac (filterKeyframes raw 10000) idx frame) ∧
      (PartitionFrames aac (filterKeyframes raw 10000) ↔
        CrossFrames (filterKeyframes raw 10000)) ∧
      ∀ idx w next, segmentWindow (filterKeyframes raw 10000) idx = some w →
        segmentWindow (filterKeyframes raw 10000) (idx + 1) = some next → WithinFrame w →
        requestedFrames aac w = [startFrame aac next] := by
  have hsub := filterKeyframes_sublist raw 10000
  refine ⟨?_, ?_, ?_⟩
  · intro idx first last frame hfirst hlast hlow hhigh
    exact exists_requests aac hfirst hlast hlow hhigh
  · exact partitionFrames_iff aac (hsorted.sublist hsub)
      fun time htime ↦ hnonneg time (hsub.subset htime)
  · intro idx w next hw hnext hwithin
    obtain ⟨i, rfl, -, rfl⟩ := segmentWindow_eq_windowAt.mp hw
    obtain ⟨j, hj, -, rfl⟩ := segmentWindow_eq_windowAt.mp hnext
    obtain rfl : i + 1 = j := by omega
    rw [requestedFrames_of_withinFrame aac hwithin, startFrame_windowAt_succ]

/-! Cue times of 19999 and 20000 ms both become boundaries, and the two segments
after the first both request frame 937. -/

def freshTranscoder : AacTranscoder Unit Unit Unit :=
  AacTranscoder.ofOpened ⟨(), (), 1024, ⟨.audio, .aac, [], 0, 0, 0, 48000, 2⟩⟩

theorem segments_cover_frames_closeBoundaries :
    PartitionFrames freshTranscoder (filterKeyframes [0, 19999, 20000, 40000] 10000) ↔
      CrossFrames (filterKeyframes [0, 19999, 20000, 40000] 10000) :=
  (segments_cover_frames freshTranscoder [0, 19999, 20000, 40000] (by decide) (by decide)).2.1

theorem not_partitionFrames :
    ¬∀ raw : List ℤ, raw.Pairwise (· < ·) → (∀ time ∈ raw, 0 ≤ time) →
      PartitionFrames freshTranscoder (filterKeyframes raw 10000) := by
  intro h
  have hpart := h [0, 19999, 20000, 40000] (by decide) (by decide)
  have hkeyframes : filterKeyframes [0, 19999, 20000, 40000] 10000 =
      [0, 19999, 20000, 40000] := by decide
  rw [hkeyframes] at hpart
  have hdisjoint := hpart.disjoint 1 2 ⟨1, 19999, 20000⟩ ⟨2, 20000, 40000⟩ (by decide) rfl rfl
  have hfirst : (937 : ℤ) ∈ requestedFrames freshTranscoder ⟨1, 19999, 20000⟩ := by decide
  have hsecond : (937 : ℤ) ∈ requestedFrames freshTranscoder ⟨2, 20000, 40000⟩ :=
    mem_requestedFrames.mpr (by decide)
  exact hdisjoint hfirst hsecond

end Session

end Fmp4Packager
