import Fmp4Packager.SegmentFields

/-!
# What the derived fields of a segment can hold

Sizes, offsets, counts and durations are computed with 64 bits and narrowed to fields
of 32 and 31 bits by casts and a mask.  No check stands in front of them: a segment is
always written, and its fields are exact below two gigabytes of media and `2 ^ 32` ticks
of each track, and only there.
-/

namespace Fmp4Packager

open BigEndian IsoBox

namespace Fmp4Writer

/-- The fields that are derived from lengths and sums hold the exact values.  The data
of a track start behind the moof, the header of the mdat and the data of the tracks
before it. -/
structure FieldsExact (samplesPerTrack : List (List Sample)) (f : SegmentFields) : Prop where
  styp : f.styp.Exact
  sidxs : ∀ s ∈ f.sidxs, s.Exact
  moof : f.moof.Exact
  mfhd : f.moof.content.mfhd.Exact
  trafs : ∀ t ∈ f.moof.content.trafs, t.Exact ∧ t.content.tfhd.Exact ∧ t.content.tfdt.Exact ∧
    ∀ r ∈ t.content.trun, r.Exact
  mdat : f.mdat.Exact
  dataOffsets : f.moof.content.trafs.map (fun t ↦ t.content.trun.map fun r ↦
      r.content.dataOffset) =
    ((payloadOffsets (f.moof.length + 8) samplesPerTrack).zip samplesPerTrack).map fun p ↦
      if p.2.isEmpty then none else some (p.1 : ℤ)
  referencedSizes : ∀ s ∈ f.sidxs, s.content.referencedSize = f.moof.length + f.mdat.length
  subsegmentDurations : f.sidxs.map (fun s ↦ s.content.subsegmentDuration) =
    samplesPerTrack.map fun samples ↦ (samples.map fun s ↦ s.duration.toNat).sum
  sampleCounts : f.moof.content.trafs.map (fun t ↦ t.content.trun.map fun r ↦
      r.content.sampleCount) =
    samplesPerTrack.map fun samples ↦ if samples.isEmpty then none else some samples.length

theorem toNat_subsegmentDuration (samples : List Sample) :
    (subsegmentDuration samples).toNat =
      (samples.map fun s ↦ s.duration.toNat).sum % 2 ^ 32 := by
  rw [subsegmentDuration, UInt32.toNat_ofNat']

theorem length_moof_fieldsView (sequenceNumber : UInt32) (inputs : List TrackInput) :
    (fieldsView sequenceNumber inputs).moof.length = moofSize inputs :=
  length_moofPayload sequenceNumber (length_dataOffsets inputs)

theorem length_media_fieldsView (sequenceNumber : UInt32) (inputs : List TrackInput) :
    (fieldsView sequenceNumber inputs).moof.length +
      (fieldsView sequenceNumber inputs).mdat.length = mediaSize inputs := by
  have hmdat : (fieldsView sequenceNumber inputs).mdat.length =
      8 + (mdatPayload inputs).length := rfl
  rw [length_moof_fieldsView, hmdat, mediaSize, firstDataOffset, Nat.add_assoc]

theorem length_trunPayload (dataOffset : ℕ) (samples : List Sample) :
    8 + (4 + (trunPayload dataOffset samples).length) = 24 + 12 * samples.length := by
  have hlen := length_trunBytes dataOffset samples
  rw [trunBytes, length_fullBox] at hlen
  omega

section Limits

variable {inputs : List TrackInput}

theorem samples_lt_of_mediaSize_lt (hmedia : mediaSize inputs < 2 ^ 31) {input : TrackInput}
    (hinput : input ∈ inputs) : 24 + 12 * input.2.1.length < 2 ^ 31 := by
  have htraf := trafSize_le_moofSize hinput
  have hmoof : moofSize inputs ≤ mediaSize inputs := by
    rw [mediaSize, firstDataOffset]
    omega
  by_cases hsamples : input.2.1 = []
  · simp [hsamples]
  · have hempty : input.2.1.isEmpty = false := by simpa using hsamples
    simp only [trafSize, hempty, Bool.false_eq_true, if_false] at htraf
    omega

theorem exact_traf (hmedia : mediaSize inputs < 2 ^ 31) {input : TrackInput}
    (hinput : input ∈ inputs) (dataOffset : ℕ) :
    (SizedBox.written (trafPayload dataOffset input).length
      (trafFieldsView dataOffset input)).Exact ∧
      (trafFieldsView dataOffset input).tfhd.Exact ∧
      (trafFieldsView dataOffset input).tfdt.Exact ∧
      ∀ r ∈ (trafFieldsView dataOffset input).trun, r.Exact := by
  refine ⟨?_, rfl, rfl, ?_⟩
  · have hsize := length_trafBytes dataOffset input
    have htraf := trafSize_le_moofSize hinput
    rw [trafBytes, length_box] at hsize
    rw [SizedBox.exact_written_iff, hsize]
    simp only [mediaSize, firstDataOffset] at hmedia
    omega
  · intro r hr
    have hcount := samples_lt_of_mediaSize_lt hmedia hinput
    rw [trafFieldsView] at hr
    split at hr
    · cases hr
    · cases hr
      rw [SizedBox.exact_written_iff, length_trunPayload]
      omega

/-- Offsets up to the end of the media are not changed by the narrowing. -/
theorem signed_dataOffset (hmedia : mediaSize inputs < 2 ^ 31) {offset : ℕ}
    (hoffset : offset ∈ dataOffsets inputs) : signed 4 (offset % 2 ^ 32) = offset := by
  have hle := le_of_mem_payloadOffsets hoffset
  simp only [mediaSize, mdatPayload, List.flatMap_map] at hmedia hle
  rw [Nat.mod_eq_of_lt (by omega)]
  exact if_pos (by omega)

theorem dataOffsets_fieldsView (sequenceNumber : UInt32) (hmedia : mediaSize inputs < 2 ^ 31) :
    (fieldsView sequenceNumber inputs).moof.content.trafs.map (fun t ↦
        t.content.trun.map fun r ↦ r.content.dataOffset) =
      ((dataOffsets inputs).zip (inputs.map fun input ↦ input.2.1)).map fun p ↦
        if p.2.isEmpty then none else some (p.1 : ℤ) := by
  have hzip : (dataOffsets inputs).zip (inputs.map fun input ↦ input.2.1) =
      ((dataOffsets inputs).zip inputs).map fun p ↦ (p.1, p.2.2.1) := by
    rw [List.zip_map_right]
    rfl
  rw [hzip, List.map_map]
  simp only [fieldsView, moofFieldsView, SizedBox.written, List.map_map]
  apply List.map_congr_left
  intro p hp
  obtain ⟨hoffset, -⟩ := List.of_mem_zip (a := p.1) (b := p.2) hp
  simp only [Function.comp_apply, trafFieldsView]
  split
  · rfl
  · simp only [Option.map_some, SizedBox.written, trunFieldsView,
      signed_dataOffset hmedia hoffset]

theorem sampleCounts_fieldsView (sequenceNumber : UInt32)
    (hmedia : mediaSize inputs < 2 ^ 31) :
    (fieldsView sequenceNumber inputs).moof.content.trafs.map (fun t ↦
        t.content.trun.map fun r ↦ r.content.sampleCount) =
      inputs.map fun input ↦
        if input.2.1.isEmpty then none else some input.2.1.length := by
  have hzip : inputs = ((dataOffsets inputs).zip inputs).map Prod.snd :=
    (List.map_snd_zip (length_dataOffsets inputs).ge).symm
  conv_rhs => rw [hzip, List.map_map]
  simp only [fieldsView, moofFieldsView, SizedBox.written, List.map_map]
  apply List.map_congr_left
  intro p hp
  have hcount := samples_lt_of_mediaSize_lt hmedia (List.of_mem_zip (a := p.1) (b := p.2) hp).2
  simp only [Function.comp_apply, trafFieldsView]
  split
  · rfl
  · simp only [Option.map_some, SizedBox.written, trunFieldsView]
    rw [Nat.mod_eq_of_lt (by omega)]

end Limits

/-- In a sidx the size of the media and the durations have to fit; every other field is
smaller. -/
theorem fieldsExact_fieldsView_iff (sequenceNumber : UInt32) (inputs : List TrackInput) :
    FieldsExact (inputs.map fun input ↦ input.2.1) (fieldsView sequenceNumber inputs) ↔
      mediaSize inputs < 2 ^ 31 ∧
        ∀ input ∈ inputs, (input.2.1.map fun s ↦ s.duration.toNat).sum < 2 ^ 32 := by
  constructor
  · intro h
    constructor
    · rcases inputs with _ | ⟨input, inputs⟩
      · decide
      · have hfirst := h.referencedSizes _ List.mem_cons_self
        rw [length_media_fieldsView] at hfirst
        rw [← hfirst]
        exact Nat.mod_lt _ (by norm_num)
    · intro input hinput
      have hdurations := h.subsegmentDurations
      simp only [fieldsView, SizedBox.written, List.map_map] at hdurations
      have hduration := List.map_inj_left.mp hdurations input hinput
      simp only [Function.comp_apply, sidxFieldsView, toNat_subsegmentDuration] at hduration
      rw [← hduration]
      exact Nat.mod_lt _ (by norm_num)
  · rintro ⟨hmedia, hdurations⟩
    have hsize : moofSize inputs + 8 + (mdatPayload inputs).length < 2 ^ 31 := hmedia
    exact {
      styp := rfl
      sidxs := by
        intro s hs
        obtain ⟨input, -, rfl⟩ := List.mem_map.mp hs
        rfl
      moof := by
        apply (SizedBox.exact_written_iff _ _).mpr
        rw [length_moofPayload sequenceNumber (length_dataOffsets inputs)]
        omega
      mfhd := rfl
      trafs := by
        intro t ht
        obtain ⟨p, hp, rfl⟩ := List.mem_map.mp ht
        exact exact_traf hmedia (List.of_mem_zip (a := p.1) (b := p.2) hp).2 p.1
      mdat := (SizedBox.exact_written_iff _ _).mpr (by omega)
      dataOffsets := by
        rw [length_moof_fieldsView]
        exact dataOffsets_fieldsView sequenceNumber hmedia
      referencedSizes := by
        intro s hs
        obtain ⟨input, -, rfl⟩ := List.mem_map.mp hs
        rw [length_media_fieldsView]
        exact Nat.mod_eq_of_lt hmedia
      subsegmentDurations := by
        simp only [fieldsView, SizedBox.written, List.map_map]
        apply List.map_congr_left
        intro input hinput
        simp only [Function.comp_apply, sidxFieldsView, toNat_subsegmentDuration]
        exact Nat.mod_eq_of_lt (hdurations input hinput)
      sampleCounts := by
        rw [sampleCounts_fieldsView sequenceNumber hmedia, List.map_map]
        rfl }

/-- A segment is written whatever its size, with exact fields exactly when moof and mdat
together stay below `2 ^ 31` bytes and the durations of each track below `2 ^ 32`
ticks. -/
theorem buildSegment_fieldsExact_iff (sequenceNumber : UInt32) (tracks : List Track)
    (samplesPerTrack : List (List Sample)) (tfdtPerTrack : List Int64)
    (hsamples : tracks.length = samplesPerTrack.length)
    (htfdt : tracks.length = tfdtPerTrack.length) :
    ∃ bytes f, buildSegment sequenceNumber tracks samplesPerTrack tfdtPerTrack = .ok bytes ∧
      readSegmentFields 0xB05 (samplesPerTrack.map List.length) bytes = some f ∧
      f.mdat.content = samplesPerTrack.flatMap trackData ∧
      (FieldsExact samplesPerTrack f ↔ f.moof.length + f.mdat.length < 2 ^ 31 ∧
        ∀ samples ∈ samplesPerTrack, (samples.map fun s ↦ s.duration.toNat).sum < 2 ^ 32) := by
  obtain ⟨inputs, -, rfl, -, hbuild, hread⟩ := buildSegment_fields sequenceNumber hsamples htfdt
  refine ⟨_, _, hbuild, hread, ?_, ?_⟩
  · rw [List.flatMap_map]
    rfl
  · rw [fieldsExact_fieldsView_iff, length_media_fieldsView]
    simp only [List.forall_mem_map]

theorem buildSegment_fieldsExact_iff_oneSample :
    ∃ bytes f, buildSegment 1 [⟨1, ⟨1, 16000⟩, none, none, 0⟩]
        [[⟨some [7], 1, 0, 640, 0, true⟩]] [0] = .ok bytes ∧
      readSegmentFields 0xB05 [1] bytes = some f ∧ f.mdat.content = [7] ∧
      (FieldsExact [[⟨some [7], 1, 0, 640, 0, true⟩]] f ↔
        f.moof.length + f.mdat.length < 2 ^ 31 ∧
          ∀ samples ∈ [[(⟨some [7], 1, 0, 640, 0, true⟩ : Sample)]],
            (samples.map fun s ↦ s.duration.toNat).sum < 2 ^ 32) :=
  buildSegment_fieldsExact_iff 1 [⟨1, ⟨1, 16000⟩, none, none, 0⟩]
    [[⟨some [7], 1, 0, 640, 0, true⟩]] [0] rfl rfl

def longSamples : List Sample :=
  [⟨none, 0, 0, 0x80000000, 0, true⟩, ⟨none, 0, 0x80000000, 0x80000000, 0, false⟩]

/-- The two durations add up to a sidx duration of zero. -/
theorem not_fieldsExact_longSamples :
    ∃ bytes f, buildSegment 1 [⟨1, ⟨1, 16000⟩, none, none, 0⟩] [longSamples] [0] = .ok bytes ∧
      readSegmentFields 0xB05 [2] bytes = some f ∧ ¬ FieldsExact [longSamples] f := by
  refine ⟨_, _, buildSegment_eq 1 rfl rfl, readSegmentFields_segmentBytes 1 _, ?_⟩
  intro h
  exact absurd h.subsegmentDurations (by decide)

end Fmp4Writer

end Fmp4Packager
