import Fmp4Packager.CInt
import Fmp4Packager.SegmentFields

/-!
# The start time of the segment index

The earliest presentation time of a sidx is that of the first sample in decode order.
Leading pictures of an open GOP come later and are shown before it.
-/

namespace Fmp4Packager

open IsoBox

def Sample.presentationTime (s : Sample) : ℤ := s.dts.toInt + s.ctsOffset.toInt

namespace Fmp4Writer

/-- The least presentation time; a list without samples has none. -/
def earliestTime (samples : List Sample) : Option ℤ :=
  (samples.map Sample.presentationTime).min?

theorem earliestTime_eq_some_iff (samples : List Sample) (time : ℤ) :
    earliestTime samples = some time ↔
      (∃ s ∈ samples, s.presentationTime = time) ∧
        ∀ s ∈ samples, time ≤ s.presentationTime := by
  rw [earliestTime, List.min?_eq_some_iff, List.mem_map]
  simp only [List.forall_mem_map]

theorem earliestTime_cons_eq_first_iff (first : Sample) (rest : List Sample) :
    earliestTime (first :: rest) = some first.presentationTime ↔
      ∀ s ∈ rest, first.presentationTime ≤ s.presentationTime := by
  rw [earliestTime_eq_some_iff]
  constructor
  · rintro ⟨-, hle⟩ s hs
    exact hle s (List.mem_cons_of_mem first hs)
  · intro hle
    refine ⟨⟨first, List.mem_cons_self, rfl⟩, ?_⟩
    rw [List.forall_mem_cons]
    exact ⟨le_rfl, hle⟩

theorem toInt_earliestPresentationTime {first : Sample} (rest : List Sample) (tfdt : Int64)
    (hfits : FitsInt64 first.presentationTime) :
    (earliestPresentationTime (first :: rest) tfdt).toInt = first.presentationTime := by
  have hcts : first.ctsOffset.toInt64.toInt = first.ctsOffset.toInt :=
    Int32.toInt_toInt64 first.ctsOffset
  obtain ⟨hlow, hhigh⟩ := hfits
  rw [Sample.presentationTime] at hlow hhigh
  rw [earliestPresentationTime, Int64.toInt_add, hcts]
  exact Int.bmod_eq_of_le (by omega) (by omega)

theorem earliestTime_unsigned_iff {first : Sample} {rest : List Sample} (tfdt : Int64)
    (hfits : ∀ s ∈ first :: rest, FitsInt64 s.presentationTime) :
    earliestTime (first :: rest) =
        some ((earliestPresentationTime (first :: rest) tfdt).toUInt64.toNat : ℤ) ↔
      (∀ s ∈ rest, first.presentationTime ≤ s.presentationTime) ∧
        0 ≤ first.presentationTime := by
  rw [natCast_toUInt64,
    toInt_earliestPresentationTime rest tfdt (hfits first List.mem_cons_self)]
  by_cases hnonneg : 0 ≤ first.presentationTime
  · rw [if_pos hnonneg, earliestTime_cons_eq_first_iff]
    exact (and_iff_left hnonneg).symm
  · rw [if_neg hnonneg]
    refine iff_of_false ?_ (fun h ↦ hnonneg h.2)
    intro heq
    obtain ⟨⟨s, hs, htime⟩, -⟩ := (earliestTime_eq_some_iff _ _).mp heq
    have hs' := (hfits s hs).2
    have hfirst := (hfits first List.mem_cons_self).1
    omega

/-- The sidx of every track with samples starts at the earliest sample exactly when no
sample is presented before the first; an unsigned reader also needs it not to be
presented before zero. -/
theorem earliestTime_sidx_iff (sequenceNumber : UInt32) (tracks : List Track)
    (samplesPerTrack : List (List Sample)) (tfdtPerTrack : List Int64)
    (hsamples : tracks.length = samplesPerTrack.length)
    (htfdt : tracks.length = tfdtPerTrack.length) :
    ∃ bytes f, buildSegment sequenceNumber tracks samplesPerTrack tfdtPerTrack = .ok bytes ∧
      readSegmentFields 0xB05 (samplesPerTrack.map List.length) bytes = some f ∧
      ∀ (i : ℕ) (first : Sample) (rest : List Sample), samplesPerTrack[i]? = some (first :: rest) →
        (∀ s ∈ first :: rest, FitsInt64 s.presentationTime) →
        ∃ sidx, f.sidxs[i]? = some sidx ∧
          tracks[i]?.map (fun t ↦ t.trackId.toNat) = some sidx.content.referenceId ∧
          (earliestTime (first :: rest) =
              some (signed 8 sidx.content.earliestPresentationTime) ↔
            ∀ s ∈ rest, first.presentationTime ≤ s.presentationTime) ∧
          (earliestTime (first :: rest) = some (sidx.content.earliestPresentationTime : ℤ) ↔
            (∀ s ∈ rest, first.presentationTime ≤ s.presentationTime) ∧
              0 ≤ first.presentationTime) := by
  obtain ⟨inputs, rfl, rfl, -, hbuild, hread⟩ :=
    buildSegment_fields sequenceNumber hsamples htfdt
  refine ⟨_, _, hbuild, hread, ?_⟩
  intro i first rest hi hfits
  rw [List.getElem?_map, Option.map_eq_some_iff] at hi
  obtain ⟨input, hinput, hcons⟩ := hi
  refine ⟨_, getElem?_sidxs_fieldsView sequenceNumber hinput, ?_, ?_, ?_⟩
  · simp only [List.getElem?_map, hinput, Option.map_some]
    rfl
  · simp only [SizedBox.written, sidxFieldsView, hcons, signed_toUInt64]
    rw [toInt_earliestPresentationTime rest input.2.2 (hfits first List.mem_cons_self)]
    exact earliestTime_cons_eq_first_iff first rest
  · simp only [SizedBox.written, sidxFieldsView, hcons]
    exact earliestTime_unsigned_iff input.2.2 hfits

/-- A keyframe and its leading picture, which is shown one frame before it. -/
def openGop : List Sample :=
  [⟨some [7], 1, 32000, 640, 1280, true⟩, ⟨some [8], 1, 32640, 640, 0, false⟩]

theorem earliestTime_sidx_iff_openGop :
    ∃ bytes f sidx,
      buildSegment 1 [⟨1, ⟨1, 16000⟩, none, none, 0⟩] [openGop] [32000] = .ok bytes ∧
      readSegmentFields 0xB05 [2] bytes = some f ∧ f.sidxs[0]? = some sidx ∧
      sidx.content.referenceId = 1 ∧
      (earliestTime openGop = some (signed 8 sidx.content.earliestPresentationTime) ↔
        ∀ s ∈ openGop.tail, (33280 : ℤ) ≤ s.presentationTime) := by
  obtain ⟨bytes, f, hbuild, hread, hsidxs⟩ := earliestTime_sidx_iff 1
    [⟨1, ⟨1, 16000⟩, none, none, 0⟩] [openGop] [32000] rfl rfl
  have hfits : ∀ s ∈ openGop, FitsInt64 s.presentationTime := by
    simp only [openGop, List.forall_mem_cons]
    exact ⟨⟨by decide, by decide⟩, ⟨by decide, by decide⟩, nofun⟩
  obtain ⟨sidx, hsidx, hid, hsigned, -⟩ := hsidxs 0 _ _ rfl hfits
  exact ⟨bytes, f, sidx, hbuild, hread, hsidx, (Option.some.inj hid).symm, hsigned⟩

/-- The sidx says that the segment starts with the keyframe. -/
theorem not_earliestTime_openGop :
    ∃ bytes f sidx,
      buildSegment 1 [⟨1, ⟨1, 16000⟩, none, none, 0⟩] [openGop] [32000] = .ok bytes ∧
      readSegmentFields 0xB05 [2] bytes = some f ∧ f.sidxs = [sidx] ∧
      earliestTime openGop ≠ some (signed 8 sidx.content.earliestPresentationTime) ∧
      earliestTime openGop ≠ some (sidx.content.earliestPresentationTime : ℤ) :=
  ⟨_, _, _, buildSegment_eq 1 rfl rfl, readSegmentFields_segmentBytes 1 _, rfl, by decide,
    by decide⟩

end Fmp4Writer

end Fmp4Packager
