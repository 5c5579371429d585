import Fmp4Packager.SegmentRoundTrip

/-!
# Where the segment index boxes point

Every sidx is written with `first_offset = 0` and with the size of moof and
mdat together, but the range it refers to starts at the end of its own box.
Only the last of the sidx boxes is followed by the moof.
-/

namespace Fmp4Packager

open IsoBox

namespace Fmp4Writer

/-- Every sidx refers to exactly the moof and the mdat. -/
def SidxsPointAtMedia (f : Fragment) : Prop :=
  ∀ s ∈ f.sidxs, s.mediaRange = (f.moof.start, f.mdat.finish - f.moof.start)

instance (f : Fragment) : Decidable (SidxsPointAtMedia f) :=
  inferInstanceAs (Decidable (∀ s ∈ f.sidxs, _))

theorem mediaRange_sidxView (start referencedSize : ℕ) (input : TrackInput) :
    (sidxView start referencedSize input).mediaRange = (start + 52, referencedSize) := by
  simp [Sidx.mediaRange, sidxView, RawBox.finish, RawBox.payloadStart, sidxPayload]

/-- The media of a segment are as long as the referenced size says. -/
theorem mediaSize_fragmentView (sequenceNumber : UInt32) (inputs : List TrackInput) :
    (fragmentView sequenceNumber inputs).mdat.finish -
      (fragmentView sequenceNumber inputs).moof.start = mediaSize inputs := by
  simp only [fragmentView, RawBox.finish, RawBox.payloadStart, mediaSize, firstDataOffset]
  omega

/-- Among the sidx boxes from `start` on, those that are followed by another
one miss the media. -/
theorem sidxsPointAtMedia_fragmentView (sequenceNumber : UInt32) {inputs : List TrackInput}
    (hne : inputs ≠ []) :
    SidxsPointAtMedia (fragmentView sequenceNumber inputs) ↔ inputs.length = 1 := by
  obtain ⟨input, rest, rfl⟩ := List.exists_cons_of_ne_nil hne
  rw [SidxsPointAtMedia, mediaSize_fragmentView]
  simp only [fragmentView, sidxViews, List.forall_mem_cons, mediaRange_sidxView, moofStart,
    List.length_cons, Prod.mk.injEq, and_true]
  constructor
  · rintro ⟨hfirst, _⟩
    omega
  · intro hone
    obtain rfl := List.length_eq_zero_iff.mp (by omega : rest.length = 0)
    simp [sidxViews]

/-- In a segment below two gigabytes all sidx boxes point at the media exactly
when there is one track. -/
theorem sidxsPointAtMedia_iff (sequenceNumber : UInt32) (tracks : List Track)
    (samplesPerTrack : List (List Sample)) (tfdtPerTrack : List Int64) (hne : tracks ≠ [])
    (hsamples : tracks.length = samplesPerTrack.length)
    (htfdt : tracks.length = tfdtPerTrack.length) :
    ∃ bytes, buildSegment sequenceNumber tracks samplesPerTrack tfdtPerTrack = .ok bytes ∧
      (bytes.length < 2 ^ 31 → ∃ f, readFragment bytes = some f ∧
        (SidxsPointAtMedia f ↔ tracks.length = 1)) := by
  refine ⟨_, buildSegment_eq sequenceNumber hsamples htfdt, fun hsize ↦
    ⟨_, readFragment_segmentBytes sequenceNumber hsize, ?_⟩⟩
  have hlen : (tracks.zip (samplesPerTrack.zip tfdtPerTrack)).length = tracks.length := by
    simp only [List.length_zip]
    omega
  rw [sidxsPointAtMedia_fragmentView, hlen]
  rw [ne_eq, ← List.length_eq_zero_iff, hlen, List.length_eq_zero_iff]
  exact hne

def videoTrack : Track := ⟨1, ⟨1, 16000⟩, none, none, 0⟩

def audioTrack : Track := ⟨2, ⟨1, 48000⟩, none, none, 0⟩

/-- The single-track segment of the source's tests is indexed correctly. -/
theorem sidxsPointAtMedia_iff_one_track :
    ∃ bytes, buildSegment 1 [videoTrack] [[]] [0] = .ok bytes ∧
      (bytes.length < 2 ^ 31 → ∃ f, readFragment bytes = some f ∧
        (SidxsPointAtMedia f ↔ [videoTrack].length = 1)) :=
  sidxsPointAtMedia_iff 1 [videoTrack] [[]] [0] (by simp) rfl rfl

/-- With video and audio the first sidx points at the second one. -/
theorem not_sidxsPointAtMedia_two_tracks :
    ∃ bytes f, buildSegment 1 [videoTrack, audioTrack] [[], []] [0, 0] = .ok bytes ∧
      bytes.length < 2 ^ 31 ∧ readFragment bytes = some f ∧ ¬ SidxsPointAtMedia f := by
  have hsize : (segmentBytes 1 [(videoTrack, [], 0), (audioTrack, [], 0)]).length < 2 ^ 31 := by
    rw [length_segmentBytes]
    decide
  refine ⟨_, _, buildSegment_eq 1 rfl rfl, hsize, readFragment_segmentBytes 1 hsize, ?_⟩
  rw [sidxsPointAtMedia_fragmentView 1 (by simp)]
  decide

end Fmp4Writer

end Fmp4Packager
