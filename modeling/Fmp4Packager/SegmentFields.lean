import Fmp4Packager.SegmentRoundTrip
import Fmp4Packager.Format.FieldReader

/-!
# The fields of a media segment of any size

The field reader finds every field of a written segment where it lies, with the value
that is left of it when it was narrowed to the field.
-/

namespace Fmp4Packager

open BigEndian IsoBox

namespace Fmp4Writer

def sidxFieldsView (referencedSize : ℕ) (input : TrackInput) : SidxFields where
  referenceId := input.1.trackId.toNat
  timescale := input.1.timescale.denU32.toNat
  earliestPresentationTime := (earliestPresentationTime input.2.1 input.2.2).toUInt64.toNat
  firstOffset := 0
  referencedSize := referencedSize
  subsegmentDuration := (subsegmentDuration input.2.1).toNat

theorem readSidxFields_sidxPayload {referencedSize : ℕ} (hsize : referencedSize < 2 ^ 31)
    (input : TrackInput) (rest : List UInt8) :
    readSidxFields (sidxPayload referencedSize input ++ rest) =
      some (sidxFieldsView referencedSize input, rest) := by
  have hword : referencedSize % 256 ^ 4 = referencedSize := Nat.mod_eq_of_lt (by omega)
  have hreference (rest : List UInt8) :
      readSidxReference (encode 4 referencedSize ++
        (encode 4 (subsegmentDuration input.2.1).toNat ++ (encode 4 0x90000000 ++ rest))) =
        some (⟨0, referencedSize, (subsegmentDuration input.2.1).toNat, 0x90000000⟩, rest) := by
    simp only [readSidxReference, readUInt_encode, hword, toNat_mod_u32, Option.bind_eq_bind,
      Option.bind_some, Option.pure_def]
    rw [Nat.div_eq_of_lt hsize, Nat.mod_eq_of_lt hsize]
    rfl
  simp only [readSidxFields, sidxPayload, sidxFront, List.append_assoc, readUInt_encode,
    toNat_mod_u32, toNat_mod_u64, hreference, Option.bind_eq_bind, Option.bind_some,
    Option.pure_def]
  rfl

def trunFieldsView (dataOffset : ℕ) (samples : List Sample) : TrunFields where
  sampleCount := samples.length % 2 ^ 32
  dataOffset := signed 4 (dataOffset % 2 ^ 32)
  firstSampleFlags := 0x02000000
  samples := samples.map runSampleView

theorem readTrunFields_trunPayload (dataOffset : ℕ) (samples : List Sample)
    (rest : List UInt8) :
    readTrunFields 0xB05 samples.length (trunPayload dataOffset samples ++ rest) =
      some (trunFieldsView dataOffset samples, rest) := by
  have hentries : readMany (readRunSample 1 0xB05) samples.length
      (samples.flatMap trunEntry ++ rest) = some (samples.map runSampleView, rest) :=
    readMany_flatMap trunEntry runSampleView samples
      (fun s _ rest ↦ readRunSample_trunEntry s rest) rest
  simp only [readTrunFields, trunPayload, List.append_assoc, readUInt_encode, hentries,
    Option.bind_eq_bind, Option.bind_some, Option.pure_def]
  rfl

def trafFieldsView (dataOffset : ℕ) (input : TrackInput) : TrafFields where
  tfhd := .written (4 + 4) input.1.trackId.toNat
  tfdt := .written (4 + 8) input.2.2.toUInt64.toNat
  trun :=
    if input.2.1.isEmpty then none
    else some (.written (4 + (trunPayload dataOffset input.2.1).length)
      (trunFieldsView dataOffset input.2.1))

theorem readTrafFields_trafPayload (dataOffset : ℕ) (input : TrackInput)
    (rest : List UInt8) :
    readTrafFields 0xB05 input.2.1.length (trafPayload dataOffset input ++ rest) =
      some (trafFieldsView dataOffset input, rest) := by
  have htfhd (rest : List UInt8) :
      readSizedBox ⟨'t', 'f', 'h', 'd'⟩ (readFull 0 0x020000 (readUInt 4))
        (tfhdBytes input.1.trackId ++ rest) =
          some (.written (4 + 4) input.1.trackId.toNat, rest) :=
    readSizedBox_uint (by decide) (by decide) input.1.trackId.toNat_lt rest
  have htfdt (rest : List UInt8) :
      readSizedBox ⟨'t', 'f', 'd', 't'⟩ (readFull 1 0 (readUInt 8))
        (tfdtBytes input.2.2 ++ rest) =
          some (.written (4 + 8) input.2.2.toUInt64.toNat, rest) :=
    readSizedBox_uint (by decide) (by decide) input.2.2.toUInt64.toNat_lt rest
  have htrun : readSizedBox ⟨'t', 'r', 'u', 'n'⟩
      (readFull 1 0xB05 (readTrunFields 0xB05 input.2.1.length))
      (trunBytes dataOffset input.2.1 ++ rest) =
        some (.written (4 + (trunPayload dataOffset input.2.1).length)
          (trunFieldsView dataOffset input.2.1), rest) :=
    readSizedBox_fullBox (by decide) (by decide)
      (readTrunFields_trunPayload dataOffset input.2.1 rest)
  rw [readTrafFields, trafPayload, trafFieldsView]
  by_cases hsamples : input.2.1 = []
  · simp only [hsamples, List.isEmpty_nil, if_true, List.append_nil, List.append_assoc, htfhd,
      htfdt, Option.bind_eq_bind, Option.bind_some, List.length_nil, Option.pure_def]
  · have hempty : input.2.1.isEmpty = false := by simpa using hsamples
    have hcount : input.2.1.length ≠ 0 := by simpa using hsamples
    simp only [hempty, Bool.false_eq_true, if_false, List.append_assoc, htfhd, htfdt, htrun,
      hcount, Option.bind_eq_bind, Option.bind_some, Option.pure_def]

def moofFieldsView (sequenceNumber : UInt32) (inputs : List TrackInput) : MoofFields where
  mfhd := .written (4 + 4) sequenceNumber.toNat
  trafs := ((dataOffsets inputs).zip inputs).map fun p ↦
    .written (trafPayload p.1 p.2).length (trafFieldsView p.1 p.2)

theorem readMoofFields_moofPayload (sequenceNumber : UInt32) (inputs : List TrackInput)
    (rest : List UInt8) :
    readMoofFields 0xB05 (inputs.map fun input ↦ input.2.1.length)
        (moofPayload sequenceNumber inputs (dataOffsets inputs) ++ rest) =
      some (moofFieldsView sequenceNumber inputs, rest) := by
  have hmfhd (rest : List UInt8) :
      readSizedBox ⟨'m', 'f', 'h', 'd'⟩ (readFull 0 0 (readUInt 4))
        (mfhdBytes sequenceNumber ++ rest) =
          some (.written (4 + 4) sequenceNumber.toNat, rest) :=
    readSizedBox_uint (by decide) (by decide) sequenceNumber.toNat_lt rest
  have hcounts : inputs.map (fun input ↦ input.2.1.length) =
      ((dataOffsets inputs).zip inputs).map fun p ↦ p.2.2.1.length := by
    have hzip : ((dataOffsets inputs).zip inputs).map Prod.snd = inputs :=
      List.map_snd_zip (length_dataOffsets inputs).ge
    conv_lhs => rw [← hzip, List.map_map]
    rfl
  have htraf (p : ℕ × TrackInput) (rest : List UInt8) :
      readSizedBox ⟨'t', 'r', 'a', 'f'⟩ (readTrafFields 0xB05 p.2.2.1.length)
        (trafBytes p.1 p.2 ++ rest) =
          some (.written (trafPayload p.1 p.2).length (trafFieldsView p.1 p.2), rest) :=
    readSizedBox_box (readTrafFields_trafPayload p.1 p.2 rest)
  have htrafs := readEach_flatMap
    (fun count ↦ readSizedBox ⟨'t', 'r', 'a', 'f'⟩ (readTrafFields 0xB05 count))
    (fun p : ℕ × TrackInput ↦ p.2.2.1.length) (fun p ↦ trafBytes p.1 p.2)
    (fun p ↦ SizedBox.written (trafPayload p.1 p.2).length (trafFieldsView p.1 p.2))
    ((dataOffsets inputs).zip inputs) (fun p _ rest ↦ htraf p rest) rest
  simp only [readMoofFields, moofPayload, List.append_assoc, hmfhd, hcounts, htrafs,
    Option.bind_eq_bind, Option.bind_some, Option.pure_def]
  rfl

def fieldsView (sequenceNumber : UInt32) (inputs : List TrackInput) : SegmentFields where
  styp := .written 16 (FourCC.bytes ⟨'m', 's', 'd', 'h'⟩ ++ encode 4 0 ++
    FourCC.bytes ⟨'m', 's', 'd', 'h'⟩ ++ FourCC.bytes ⟨'m', 's', 'i', 'x'⟩)
  sidxs := inputs.map fun input ↦
    .written (4 + 40) (sidxFieldsView (mediaSize inputs % 2 ^ 31) input)
  moof := .written (moofPayload sequenceNumber inputs (dataOffsets inputs)).length
    (moofFieldsView sequenceNumber inputs)
  mdat := .written (mdatPayload inputs).length (mdatPayload inputs)

theorem readSegmentFields_segmentBytes (sequenceNumber : UInt32) (inputs : List TrackInput) :
    readSegmentFields 0xB05 (inputs.map fun input ↦ input.2.1.length)
        (segmentBytes sequenceNumber inputs) =
      some (fieldsView sequenceNumber inputs) := by
  have hstyp (rest : List UInt8) :
      readSizedBox ⟨'s', 't', 'y', 'p'⟩ (readBytes 16) (stypBytes ++ rest) =
        some ((fieldsView sequenceNumber inputs).styp, rest) :=
    readSizedBox_box (readBytes_append rest (by simp))
  have hsidx (input : TrackInput) (rest : List UInt8) :
      readSizedBox ⟨'s', 'i', 'd', 'x'⟩ (readFull 1 0 readSidxFields)
        (sidxBytes (mediaSize inputs % 2 ^ 31) input ++ rest) =
          some (.written (4 + 40) (sidxFieldsView (mediaSize inputs % 2 ^ 31) input), rest) := by
    have hlen : (sidxPayload (mediaSize inputs % 2 ^ 31) input).length = 40 := by
      simp [sidxPayload]
    rw [sidxBytes, ← hlen]
    exact readSizedBox_fullBox (by decide) (by decide)
      (readSidxFields_sidxPayload (Nat.mod_lt _ (by norm_num)) input rest)
  have hsidxs (rest : List UInt8) :
      readMany (readSizedBox ⟨'s', 'i', 'd', 'x'⟩ (readFull 1 0 readSidxFields)) inputs.length
        (inputs.flatMap (sidxBytes (mediaSize inputs % 2 ^ 31)) ++ rest) =
          some ((fieldsView sequenceNumber inputs).sidxs, rest) :=
    readMany_flatMap _ _ inputs (fun input _ rest ↦ hsidx input rest) rest
  have hmoof (rest : List UInt8) :
      readSizedBox ⟨'m', 'o', 'o', 'f'⟩
        (readMoofFields 0xB05 (inputs.map fun input ↦ input.2.1.length))
        (box ⟨'m', 'o', 'o', 'f'⟩ (moofPayload sequenceNumber inputs (dataOffsets inputs)) ++
          rest) = some ((fieldsView sequenceNumber inputs).moof, rest) :=
    readSizedBox_box (readMoofFields_moofPayload sequenceNumber inputs rest)
  have hmdat : readSizedBox ⟨'m', 'd', 'a', 't'⟩ readRest
      (box ⟨'m', 'd', 'a', 't'⟩ (mdatPayload inputs)) =
        some ((fieldsView sequenceNumber inputs).mdat, []) :=
    readSizedBox_last rfl
  simp only [readSegmentFields, segmentBytes, List.append_assoc, List.length_map, hstyp, hsidxs,
    hmoof, hmdat, Option.bind_eq_bind, Option.bind_some, Option.pure_def]

theorem getElem?_sidxs_fieldsView (sequenceNumber : UInt32) {inputs : List TrackInput} {i : ℕ}
    {input : TrackInput} (hinput : inputs[i]? = some input) :
    (fieldsView sequenceNumber inputs).sidxs[i]? =
      some (.written (4 + 40) (sidxFieldsView (mediaSize inputs % 2 ^ 31) input)) := by
  simp only [fieldsView, List.getElem?_map, hinput, Option.map_some]

theorem getElem?_trafs_fieldsView (sequenceNumber : UInt32) {inputs : List TrackInput} {i : ℕ}
    {input : TrackInput} (hinput : inputs[i]? = some input) :
    ∃ dataOffset, (fieldsView sequenceNumber inputs).moof.content.trafs[i]? =
      some (.written (trafPayload dataOffset input).length
        (trafFieldsView dataOffset input)) := by
  obtain ⟨hi, -⟩ := List.getElem?_eq_some_iff.mp hinput
  rw [← length_dataOffsets] at hi
  have hzip : ((dataOffsets inputs).zip inputs)[i]? = some ((dataOffsets inputs)[i], input) :=
    List.getElem?_zip_eq_some.mpr ⟨List.getElem?_eq_getElem hi, hinput⟩
  refine ⟨(dataOffsets inputs)[i], ?_⟩
  simp only [fieldsView, moofFieldsView, SizedBox.written, List.getElem?_map, hzip,
    Option.map_some]

/-- A call with matching lists succeeds, and the fields of its segment are those of the
inputs that the lists are the columns of. -/
theorem buildSegment_fields (sequenceNumber : UInt32) {tracks : List Track}
    {samplesPerTrack : List (List Sample)} {tfdtPerTrack : List Int64}
    (hsamples : tracks.length = samplesPerTrack.length)
    (htfdt : tracks.length = tfdtPerTrack.length) :
    ∃ inputs : List TrackInput, tracks = inputs.map (fun input ↦ input.1) ∧
      samplesPerTrack = inputs.map (fun input ↦ input.2.1) ∧
      tfdtPerTrack = inputs.map (fun input ↦ input.2.2) ∧
      buildSegment sequenceNumber tracks samplesPerTrack tfdtPerTrack =
        .ok (segmentBytes sequenceNumber inputs) ∧
      readSegmentFields 0xB05 (samplesPerTrack.map List.length)
        (segmentBytes sequenceNumber inputs) = some (fieldsView sequenceNumber inputs) := by
  have hmap := map_samples_zip hsamples htfdt
  have hread := readSegmentFields_segmentBytes sequenceNumber
    (tracks.zip (samplesPerTrack.zip tfdtPerTrack))
  have hcounts : (tracks.zip (samplesPerTrack.zip tfdtPerTrack)).map
      (fun input ↦ input.2.1.length) = samplesPerTrack.map List.length := by
    conv_rhs => rw [← hmap, List.map_map]
    rfl
  rw [hcounts] at hread
  exact ⟨tracks.zip (samplesPerTrack.zip tfdtPerTrack),
    (List.map_fst_zip (by simp only [List.length_zip]; omega)).symm, hmap.symm,
    (map_tfdt_zip hsamples htfdt).symm, buildSegment_eq sequenceNumber hsamples htfdt, hread⟩

end Fmp4Writer

end Fmp4Packager
