import Fmp4Packager.SegmentLayout
import Fmp4Packager.Format.FragmentReader

/-!
# Reading a media segment back

The fragment reader applied to the writer's bytes: every box is found where it
was written, and ids, times, sample tables and payloads come back unchanged.
-/

namespace Fmp4Packager

open BigEndian IsoBox

namespace Fmp4Writer

theorem toNat_mod_u16 (v : UInt16) : v.toNat % 256 ^ 2 = v.toNat :=
  Nat.mod_eq_of_lt v.toNat_lt

theorem toNat_mod_u32 (v : UInt32) : v.toNat % 256 ^ 4 = v.toNat :=
  Nat.mod_eq_of_lt v.toNat_lt

theorem toNat_mod_u64 (v : UInt64) : v.toNat % 256 ^ 8 = v.toNat :=
  Nat.mod_eq_of_lt v.toNat_lt

/-- An unsigned reader finds a negative time beyond every time that fits. -/
theorem natCast_toUInt64 (v : Int64) :
    (v.toUInt64.toNat : ℤ) = if 0 ≤ v.toInt then v.toInt else v.toInt + 2 ^ 64 := by
  have hsigned := signed_toUInt64 v
  have hlt := v.toUInt64.toNat_lt
  rw [signed] at hsigned
  split at hsigned <;> split <;> omega

theorem natCast_toUInt64_eq_iff (v : Int64) : (v.toUInt64.toNat : ℤ) = v.toInt ↔ 0 ≤ v.toInt := by
  rw [natCast_toUInt64]
  split <;> omega

def sidxView (start referencedSize : ℕ) (input : TrackInput) : Sidx where
  box := ⟨start, 8, FourCC.bytes ⟨'s', 'i', 'd', 'x'⟩,
    encode 1 1 ++ encode 3 0 ++ sidxPayload referencedSize input⟩
  referenceId := input.1.trackId.toNat
  timescale := input.1.timescale.denU32.toNat
  earliestPresentationTime :=
    (earliestPresentationTime input.2.1 input.2.2).toUInt64.toNat
  firstOffset := 0
  references := [⟨0, referencedSize, (subsegmentDuration input.2.1).toNat, 0x90000000⟩]

theorem readSidx_sidxView (start : ℕ) {referencedSize : ℕ} (input : TrackInput)
    (hsize : referencedSize < 2 ^ 31) :
    readSidx (sidxView start referencedSize input).box =
      some (sidxView start referencedSize input) := by
  have hword : referencedSize % 256 ^ 4 = referencedSize := Nat.mod_eq_of_lt (by omega)
  simp only [readSidx, sidxView, sidxPayload, sidxFront, List.append_assoc,
    readVersionFlags_encode _ _ _ (by decide : 1 < 2 ^ 8) (by decide : 0 < 2 ^ 24),
    readUInt_encode, toNat_mod_u32, toNat_mod_u64, Option.bind_eq_bind, Option.bind_some,
    Option.pure_def, one_ne_zero, if_false]
  have hmany : readMany readSidxReference 1
      (encode 4 referencedSize ++ (encode 4 (subsegmentDuration input.2.1).toNat ++
        encode 4 0x90000000)) =
      some ([⟨0, referencedSize, (subsegmentDuration input.2.1).toNat, 0x90000000⟩], []) := by
    simp only [readMany, readSidxReference, readUInt_encode, readUInt_encode_end, hword,
      toNat_mod_u32, Option.bind_eq_bind, Option.bind_some, Option.pure_def]
    rw [Nat.div_eq_of_lt hsize, Nat.mod_eq_of_lt hsize]
    rfl
  rw [show 1 % 256 ^ 2 = 1 from rfl, hmany]
  rfl

theorem readMfhd_mfhd (start : ℕ) (sequenceNumber : UInt32) :
    readMfhd ⟨start, 8, FourCC.bytes ⟨'m', 'f', 'h', 'd'⟩,
      encode 1 0 ++ encode 3 0 ++ encode 4 sequenceNumber.toNat⟩ =
        some sequenceNumber.toNat := by
  simp only [readMfhd, List.append_assoc,
    readVersionFlags_encode _ _ _ (by decide : 0 < 2 ^ 8) (by decide : 0 < 2 ^ 24),
    readUInt_encode_end, toNat_mod_u32, Option.bind_eq_bind, Option.bind_some, Option.pure_def,
    if_true]

theorem readTfhd_tfhd (start : ℕ) (trackId : UInt32) :
    readTfhd ⟨start, 8, FourCC.bytes ⟨'t', 'f', 'h', 'd'⟩,
      encode 1 0 ++ encode 3 0x020000 ++ encode 4 trackId.toNat⟩ =
        some ⟨trackId.toNat, true, none, none, none, none⟩ := by
  simp only [readTfhd, List.append_assoc,
    readVersionFlags_encode _ _ _ (by decide : 0 < 2 ^ 8) (by decide : 0x020000 < 2 ^ 24),
    readUInt_encode_end, toNat_mod_u32, Option.bind_eq_bind, Option.bind_some]
  rfl

theorem readTfdt_tfdt (start : ℕ) (tfdt : Int64) :
    readTfdt ⟨start, 8, FourCC.bytes ⟨'t', 'f', 'd', 't'⟩,
      encode 1 1 ++ encode 3 0 ++ encode 8 tfdt.toUInt64.toNat⟩ =
        some tfdt.toUInt64.toNat := by
  simp only [readTfdt, List.append_assoc,
    readVersionFlags_encode _ _ _ (by decide : 1 < 2 ^ 8) (by decide : 0 < 2 ^ 24),
    Option.bind_eq_bind, Option.bind_some, one_ne_zero, if_false, readUInt_encode_end,
    toNat_mod_u64, Option.pure_def, if_true]

def runSampleView (s : Sample) : RunSample :=
  ⟨some s.duration.toNat, some s.size.toNat, none, some s.ctsOffset.toInt⟩

theorem readRunSample_trunEntry (s : Sample) (rest : List UInt8) :
    readRunSample 1 0xB05 (trunEntry s ++ rest) = some (runSampleView s, rest) := by
  have hduration : Nat.testBit 0xB05 8 = true := rfl
  have hsize : Nat.testBit 0xB05 9 = true := rfl
  have hflags : Nat.testBit 0xB05 10 = false := rfl
  have hcts : Nat.testBit 0xB05 11 = true := rfl
  simp only [readRunSample, trunEntry, List.append_assoc, readOptional, hduration, hsize,
    hflags, hcts, if_true, readUInt_encode, toNat_mod_u32, Option.map_some,
    Option.bind_eq_bind, Option.bind_some, Bool.false_eq_true, if_false, Option.pure_def,
    one_ne_zero, signed_toUInt32, runSampleView]

def trunView (dataOffset : ℕ) (samples : List Sample) : Trun where
  dataOffset := some dataOffset
  firstSampleFlags := some 0x02000000
  samples := samples.map runSampleView

theorem readTrun_trun (start : ℕ) {dataOffset : ℕ} {samples : List Sample}
    (hoffset : dataOffset < 2 ^ 31) (hcount : samples.length < 2 ^ 32) :
    readTrun ⟨start, 8, FourCC.bytes ⟨'t', 'r', 'u', 'n'⟩,
      encode 1 1 ++ encode 3 0xB05 ++ trunPayload dataOffset samples⟩ =
        some (trunView dataOffset samples) := by
  have hentries : readMany (readRunSample 1 0xB05) samples.length
      (samples.flatMap trunEntry) = some (samples.map runSampleView, []) := by
    simpa using readMany_flatMap trunEntry runSampleView samples
      (fun s _ rest ↦ readRunSample_trunEntry s rest) []
  have hdataOffset : Nat.testBit 0xB05 0 = true := rfl
  have hfirstFlags : Nat.testBit 0xB05 2 = true := rfl
  have hoffset' : dataOffset % 256 ^ 4 = dataOffset := Nat.mod_eq_of_lt (by omega)
  have hcount' : samples.length % 256 ^ 4 = samples.length := Nat.mod_eq_of_lt hcount
  have hsigned : signed 4 dataOffset = dataOffset := if_pos hoffset
  simp only [readTrun, trunPayload, List.append_assoc,
    readVersionFlags_encode _ _ _ (by decide : 1 < 2 ^ 8) (by decide : 0xB05 < 2 ^ 24),
    readOptional, hdataOffset, hfirstFlags, if_true, readUInt_encode, hoffset', hcount',
    Option.map_some, Option.bind_eq_bind, Option.bind_some, hentries, Option.pure_def,
    hsigned, trunView]
  rfl

def trafView (dataOffset : ℕ) (input : TrackInput) : Traf where
  tfhd := ⟨input.1.trackId.toNat, true, none, none, none, none⟩
  baseMediaDecodeTime := input.2.2.toUInt64.toNat
  truns := if input.2.1.isEmpty then [] else [trunView dataOffset input.2.1]

def trafChildren (dataOffset : ℕ) (input : TrackInput) : List (FourCC × List UInt8) :=
  [(⟨'t', 'f', 'h', 'd'⟩, encode 1 0 ++ encode 3 0x020000 ++ encode 4 input.1.trackId.toNat),
    (⟨'t', 'f', 'd', 't'⟩, encode 1 1 ++ encode 3 0 ++ encode 8 input.2.2.toUInt64.toNat)] ++
    if input.2.1.isEmpty then []
    else [(⟨'t', 'r', 'u', 'n'⟩, encode 1 1 ++ encode 3 0xB05 ++ trunPayload dataOffset input.2.1)]

theorem trafPayload_eq (dataOffset : ℕ) (input : TrackInput) :
    trafPayload dataOffset input =
      (trafChildren dataOffset input).flatMap fun b ↦ box b.1 b.2 := by
  unfold trafPayload trafChildren
  by_cases hsamples : input.2.1.isEmpty <;>
    simp [hsamples, tfhdBytes, tfdtBytes, trunBytes, fullBox]

theorem readTraf_traf (start : ℕ) {dataOffset : ℕ} {input : TrackInput}
    (hoffset : dataOffset < 2 ^ 31) (hsize : trafSize input < 2 ^ 31) :
    readTraf ⟨start, 8, FourCC.bytes ⟨'t', 'r', 'a', 'f'⟩, trafPayload dataOffset input⟩ =
      some (trafView dataOffset input) := by
  have hlen : (trafPayload dataOffset input).length < 2 ^ 31 := by
    have := length_trafBytes dataOffset input
    rw [trafBytes, length_box] at this
    omega
  have hread := readBoxes_flatMap (start + 8) (trafChildren dataOffset input) (by
    intro b hb
    have := length_le_length_flatMap_box hb
    rw [← trafPayload_eq] at this
    omega)
  have hfind : (FourCC.bytes ⟨'t', 'f', 'h', 'd'⟩ == FourCC.bytes ⟨'t', 'f', 'd', 't'⟩) =
      false := rfl
  have hdrop₁ : (FourCC.bytes ⟨'t', 'f', 'h', 'd'⟩ == FourCC.bytes ⟨'t', 'r', 'u', 'n'⟩) =
      false := rfl
  have hdrop₂ : (FourCC.bytes ⟨'t', 'f', 'd', 't'⟩ == FourCC.bytes ⟨'t', 'r', 'u', 'n'⟩) =
      false := rfl
  rw [← trafPayload_eq] at hread
  simp only [readTraf, RawBox.payloadStart, hread, Option.bind_eq_bind, Option.bind_some]
  by_cases hsamples : input.2.1.isEmpty
  · simp only [trafChildren, hsamples, if_true, List.append_nil, place, boxOfType,
      boxesOfType, List.find?_cons, List.filter_cons, List.filter_nil, beq_self_eq_true,
      hfind, hdrop₁, hdrop₂, Option.bind_some, readTfhd_tfhd, readTfdt_tfdt, trafView]
    rfl
  · have hcount : input.2.1.length < 2 ^ 32 := by
      simp only [trafSize, hsamples, Bool.false_eq_true, if_false] at hsize
      omega
    simp only [trafChildren, hsamples, Bool.false_eq_true, if_false, List.cons_append,
      List.nil_append, place, boxOfType, boxesOfType, List.find?_cons, List.filter_cons,
      List.filter_nil, beq_self_eq_true, if_true, hfind, hdrop₁, hdrop₂, Option.bind_some,
      readTfhd_tfhd, readTfdt_tfdt, List.mapM_cons, List.mapM_nil,
      readTrun_trun _ hoffset hcount, trafView, Option.bind_eq_bind, Option.pure_def]

/-! ## The whole segment -/

def sidxBoxes (referencedSize : ℕ) (inputs : List TrackInput) : List (FourCC × List UInt8) :=
  inputs.map fun input ↦ (⟨'s', 'i', 'd', 'x'⟩,
    encode 1 1 ++ encode 3 0 ++ sidxPayload referencedSize input)

def stypBox : FourCC × List UInt8 :=
  (⟨'s', 't', 'y', 'p'⟩, FourCC.bytes ⟨'m', 's', 'd', 'h'⟩ ++ encode 4 0 ++
    FourCC.bytes ⟨'m', 's', 'd', 'h'⟩ ++ FourCC.bytes ⟨'m', 's', 'i', 'x'⟩)

def segmentBoxes (sequenceNumber : UInt32) (inputs : List TrackInput) :
    List (FourCC × List UInt8) :=
  stypBox :: sidxBoxes (mediaSize inputs % 2 ^ 31) inputs ++
    [(⟨'m', 'o', 'o', 'f'⟩, moofPayload sequenceNumber inputs (dataOffsets inputs)),
      (⟨'m', 'd', 'a', 't'⟩, mdatPayload inputs)]

theorem flatMap_sidxBoxes (referencedSize : ℕ) (inputs : List TrackInput) :
    ((sidxBoxes referencedSize inputs).flatMap fun b ↦ box b.1 b.2) =
      inputs.flatMap (sidxBytes referencedSize) := by
  rw [sidxBoxes, List.flatMap_map]
  rfl

theorem segmentBytes_eq (sequenceNumber : UInt32) (inputs : List TrackInput) :
    segmentBytes sequenceNumber inputs =
      (segmentBoxes sequenceNumber inputs).flatMap fun b ↦ box b.1 b.2 := by
  simp only [segmentBytes, segmentBoxes, stypBytes, stypBox, List.cons_append,
    List.flatMap_cons, List.flatMap_append, flatMap_sidxBoxes, List.flatMap_nil,
    List.append_assoc, List.append_nil]

def trafBoxes (inputs : List TrackInput) : List (FourCC × List UInt8) :=
  ((dataOffsets inputs).zip inputs).map fun p ↦
    (⟨'t', 'r', 'a', 'f'⟩, trafPayload p.1 p.2)

def moofBoxes (sequenceNumber : UInt32) (inputs : List TrackInput) :
    List (FourCC × List UInt8) :=
  (⟨'m', 'f', 'h', 'd'⟩, encode 1 0 ++ encode 3 0 ++ encode 4 sequenceNumber.toNat) ::
    trafBoxes inputs

theorem moofPayload_eq (sequenceNumber : UInt32) (inputs : List TrackInput) :
    moofPayload sequenceNumber inputs (dataOffsets inputs) =
      (moofBoxes sequenceNumber inputs).flatMap fun b ↦ box b.1 b.2 := by
  simp [moofPayload, moofBoxes, trafBoxes, List.flatMap_map, trafBytes, mfhdBytes, fullBox]

def sidxViews (referencedSize : ℕ) : ℕ → List TrackInput → List Sidx
  | _, [] => []
  | start, input :: inputs =>
      sidxView start referencedSize input :: sidxViews referencedSize (start + 52) inputs

theorem mapM_readSidx {referencedSize : ℕ} (start : ℕ) (inputs : List TrackInput)
    (hsize : referencedSize < 2 ^ 31) :
    (place start (sidxBoxes referencedSize inputs)).mapM readSidx =
      some (sidxViews referencedSize start inputs) := by
  induction inputs generalizing start with
  | nil => rfl
  | cons input inputs ih =>
      have hlen : 8 + (encode 1 1 ++ encode 3 0 ++ sidxPayload referencedSize input).length =
          52 := by simp [sidxPayload]
      have hread := readSidx_sidxView start input hsize
      rw [sidxView] at hread
      rw [sidxBoxes] at ih
      simp only [sidxBoxes, List.map_cons, place, hlen, List.mapM_cons, hread, ih, sidxViews,
        sidxView, Option.bind_eq_bind, Option.bind_some, Option.pure_def]

def moofStart (inputs : List TrackInput) : ℕ := 24 + 52 * inputs.length

def fragmentView (sequenceNumber : UInt32) (inputs : List TrackInput) : Fragment where
  boxes := place 0 (segmentBoxes sequenceNumber inputs)
  sidxs := sidxViews (mediaSize inputs) 24 inputs
  moof := ⟨moofStart inputs, 8, FourCC.bytes ⟨'m', 'o', 'o', 'f'⟩,
    moofPayload sequenceNumber inputs (dataOffsets inputs)⟩
  sequenceNumber := sequenceNumber.toNat
  trafs := ((dataOffsets inputs).zip inputs).map fun p ↦ trafView p.1 p.2
  mdat := ⟨moofStart inputs + moofSize inputs, 8, FourCC.bytes ⟨'m', 'd', 'a', 't'⟩,
    mdatPayload inputs⟩

theorem length_segmentBytes (sequenceNumber : UInt32) (inputs : List TrackInput) :
    (segmentBytes sequenceNumber inputs).length = moofStart inputs + mediaSize inputs := by
  have hmoof := length_moofPayload sequenceNumber (length_dataOffsets inputs)
  simp only [segmentBytes, List.length_append, length_flatMap_sidxBytes, length_box, hmoof,
    stypBytes, FourCC.length_bytes, length_encode, moofStart, mediaSize, firstDataOffset]
  omega

theorem le_of_mem_payloadOffsets {start offset : ℕ} {samplesPerTrack : List (List Sample)}
    (hmem : offset ∈ payloadOffsets start samplesPerTrack) :
    offset ≤ start + (samplesPerTrack.flatMap trackData).length := by
  induction samplesPerTrack generalizing start with
  | nil => simp [payloadOffsets] at hmem
  | cons samples rest ih =>
      rcases List.mem_cons.mp hmem with rfl | hrest
      · exact Nat.le_add_right _ _
      · have := ih hrest
        simp only [List.flatMap_cons, List.length_append]
        omega

theorem boxesOfType_sidx (sequenceNumber : UInt32) (inputs : List TrackInput) :
    boxesOfType ⟨'s', 'i', 'd', 'x'⟩ (place 0 (segmentBoxes sequenceNumber inputs)) =
      place 24 (sidxBoxes (mediaSize inputs % 2 ^ 31) inputs) := by
  have hsplit : segmentBoxes sequenceNumber inputs = [stypBox] ++
      (sidxBoxes (mediaSize inputs % 2 ^ 31) inputs ++
        [(⟨'m', 'o', 'o', 'f'⟩, moofPayload sequenceNumber inputs (dataOffsets inputs)),
          (⟨'m', 'd', 'a', 't'⟩, mdatPayload inputs)]) := rfl
  have hstyp : ∀ b ∈ [stypBox], b.1.bytes ≠ FourCC.bytes ⟨'s', 'i', 'd', 'x'⟩ := by
    simp only [List.mem_singleton, forall_eq]
    decide
  have hsidx : ∀ b ∈ sidxBoxes (mediaSize inputs % 2 ^ 31) inputs,
      b.1 = ⟨'s', 'i', 'd', 'x'⟩ := by
    intro b hb
    obtain ⟨_, _, rfl⟩ := List.mem_map.mp hb
    rfl
  rw [hsplit, place_append, place_append, boxesOfType_append, boxesOfType_append,
    boxesOfType_place_nil _ hstyp, boxesOfType_place_self _ hsidx, boxesOfType_place_nil,
    List.nil_append, List.append_nil]
  · rfl
  · simp only [List.mem_cons, List.not_mem_nil, or_false, forall_eq_or_imp, forall_eq]
    decide

theorem sidxBoxes_type_ne {type : FourCC} (referencedSize : ℕ) (inputs : List TrackInput)
    (htype : FourCC.bytes ⟨'s', 'i', 'd', 'x'⟩ ≠ type.bytes) :
    ∀ b ∈ sidxBoxes referencedSize inputs, b.1.bytes ≠ type.bytes := by
  intro b hb
  obtain ⟨_, _, rfl⟩ := List.mem_map.mp hb
  exact htype

theorem boxOfType_moof (sequenceNumber : UInt32) (inputs : List TrackInput) :
    boxOfType ⟨'m', 'o', 'o', 'f'⟩ (place 0 (segmentBoxes sequenceNumber inputs)) =
      some (fragmentView sequenceNumber inputs).moof := by
  have hfront : ∀ b ∈ stypBox :: sidxBoxes (mediaSize inputs % 2 ^ 31) inputs,
      b.1.bytes ≠ FourCC.bytes ⟨'m', 'o', 'o', 'f'⟩ := by
    intro b hb
    rcases List.mem_cons.mp hb with rfl | hb
    · decide
    · exact sidxBoxes_type_ne _ inputs (by decide) b hb
  rw [segmentBoxes, boxOfType_place_append 0 _ _ hfront, List.flatMap_cons,
    List.length_append, flatMap_sidxBoxes, length_flatMap_sidxBytes]
  simp [fragmentView, moofStart, stypBox]

theorem boxOfType_mdat (sequenceNumber : UInt32) (inputs : List TrackInput) :
    boxOfType ⟨'m', 'd', 'a', 't'⟩ (place 0 (segmentBoxes sequenceNumber inputs)) =
      some (fragmentView sequenceNumber inputs).mdat := by
  have hsplit : segmentBoxes sequenceNumber inputs =
      (stypBox :: sidxBoxes (mediaSize inputs % 2 ^ 31) inputs ++
        [(⟨'m', 'o', 'o', 'f'⟩, moofPayload sequenceNumber inputs (dataOffsets inputs))]) ++
          [(⟨'m', 'd', 'a', 't'⟩, mdatPayload inputs)] := by
    simp [segmentBoxes]
  have hfront : ∀ b ∈ stypBox :: sidxBoxes (mediaSize inputs % 2 ^ 31) inputs ++
      [(⟨'m', 'o', 'o', 'f'⟩, moofPayload sequenceNumber inputs (dataOffsets inputs))],
      b.1.bytes ≠ FourCC.bytes ⟨'m', 'd', 'a', 't'⟩ := by
    intro b hb
    rcases List.mem_append.mp hb with hb | hb
    · rcases List.mem_cons.mp hb with rfl | hb
      · decide
      · exact sidxBoxes_type_ne _ inputs (by decide) b hb
    · rw [List.mem_singleton.mp hb]
      exact (by decide :
        FourCC.bytes ⟨'m', 'o', 'o', 'f'⟩ ≠ FourCC.bytes ⟨'m', 'd', 'a', 't'⟩)
  have hmoof := length_moofPayload sequenceNumber (length_dataOffsets inputs)
  rw [hsplit, boxOfType_place_append 0 _ _ hfront, List.flatMap_append, List.flatMap_cons,
    List.length_append, List.length_append, flatMap_sidxBoxes, length_flatMap_sidxBytes]
  simp [fragmentView, moofStart, stypBox, hmoof]

theorem trafSize_le_moofSize {input : TrackInput} {inputs : List TrackInput}
    (hmem : input ∈ inputs) : trafSize input ≤ moofSize inputs := by
  obtain ⟨xs, ys, rfl⟩ := List.append_of_mem hmem
  simp only [moofSize, List.map_append, List.map_cons, List.sum_append, List.sum_cons]
  omega

theorem mapM_readTraf (start : ℕ) {inputs : List TrackInput}
    (hmedia : mediaSize inputs < 2 ^ 31) :
    (place start (trafBoxes inputs)).mapM readTraf =
      some (((dataOffsets inputs).zip inputs).map fun p ↦ trafView p.1 p.2) := by
  apply mapM_place (fun p : ℕ × TrackInput ↦
    ((⟨'t', 'r', 'a', 'f'⟩ : FourCC), trafPayload p.1 p.2)) (fun p ↦ trafView p.1 p.2)
  intro start p hp
  obtain ⟨hoffset, hinput⟩ := List.of_mem_zip (a := p.1) (b := p.2) hp
  have hle := le_of_mem_payloadOffsets hoffset
  have hmoof := trafSize_le_moofSize hinput
  simp only [mediaSize, firstDataOffset, mdatPayload, List.flatMap_map] at hmedia hle
  exact readTraf_traf start (by omega) (by omega)

/-- The reader recovers the view of every segment below two gigabytes. -/
theorem readFragment_segmentBytes (sequenceNumber : UInt32) {inputs : List TrackInput}
    (hsize : (segmentBytes sequenceNumber inputs).length < 2 ^ 31) :
    readFragment (segmentBytes sequenceNumber inputs) =
      some (fragmentView sequenceNumber inputs) := by
  have hmedia : mediaSize inputs < 2 ^ 31 := by
    rw [length_segmentBytes] at hsize
    omega
  have hboxes : readBoxes 0 (segmentBytes sequenceNumber inputs) =
      some (place 0 (segmentBoxes sequenceNumber inputs)) := by
    rw [segmentBytes_eq] at hsize ⊢
    apply readBoxes_flatMap
    intro b hb
    have := length_le_length_flatMap_box hb
    omega
  have hchildren : readBoxes (moofStart inputs + 8)
      (moofPayload sequenceNumber inputs (dataOffsets inputs)) =
        some (place (moofStart inputs + 8) (moofBoxes sequenceNumber inputs)) := by
    have hmoof := length_moofPayload sequenceNumber (length_dataOffsets inputs)
    rw [moofPayload_eq] at hmoof ⊢
    apply readBoxes_flatMap
    intro b hb
    have := length_le_length_flatMap_box hb
    simp only [mediaSize, firstDataOffset] at hmedia
    omega
  have hmfhd : boxOfType ⟨'m', 'f', 'h', 'd'⟩
      (place (moofStart inputs + 8) (moofBoxes sequenceNumber inputs)) =
        some ⟨moofStart inputs + 8, 8, FourCC.bytes ⟨'m', 'f', 'h', 'd'⟩,
          encode 1 0 ++ encode 3 0 ++ encode 4 sequenceNumber.toNat⟩ :=
    boxOfType_place_append _ _ _ (List.forall_mem_nil _)
  have htrafs : boxesOfType ⟨'t', 'r', 'a', 'f'⟩
      (place (moofStart inputs + 8) (moofBoxes sequenceNumber inputs)) =
        place (moofStart inputs + 24) (trafBoxes inputs) := by
    have hsplit : moofBoxes sequenceNumber inputs =
        [(⟨'m', 'f', 'h', 'd'⟩, encode 1 0 ++ encode 3 0 ++ encode 4 sequenceNumber.toNat)] ++
          trafBoxes inputs := rfl
    have htype : ∀ b ∈ trafBoxes inputs, b.1 = ⟨'t', 'r', 'a', 'f'⟩ := by
      intro b hb
      obtain ⟨_, _, rfl⟩ := List.mem_map.mp hb
      rfl
    rw [hsplit, place_append, boxesOfType_append, boxesOfType_place_self _ htype,
      boxesOfType_place_nil]
    · simp [Nat.add_assoc]
    · simp only [List.mem_singleton, forall_eq]
      exact (by decide :
        FourCC.bytes ⟨'m', 'f', 'h', 'd'⟩ ≠ FourCC.bytes ⟨'t', 'r', 'a', 'f'⟩)
  have hsidxs := mapM_readSidx 24 inputs (Nat.mod_lt (mediaSize inputs) (by decide : 0 < 2 ^ 31))
  rw [Nat.mod_eq_of_lt hmedia] at hsidxs
  simp only [readFragment, hboxes, boxesOfType_sidx, Nat.mod_eq_of_lt hmedia, hsidxs,
    boxOfType_moof, boxOfType_mdat, Option.bind_eq_bind, Option.bind_some]
  simp only [fragmentView, RawBox.payloadStart, hchildren, Option.bind_some, hmfhd,
    readMfhd_mfhd, htrafs, mapM_readTraf _ hmedia, Option.pure_def]

theorem sampleData_of_holds {s : Sample} (h : s.Holds) :
    some (sampleData s) = s.data ∧ (sampleData s).length = s.size.toNat := by
  obtain ⟨data, hdata, hlen⟩ := h
  have htake : sampleData s = data := by
    rw [sampleData, hdata, Option.getD_some, ← hlen, List.take_length]
  exact ⟨by rw [htake, hdata], by rw [htake, hlen]⟩

theorem sizes_trunView (dataOffset : ℕ) (samples : List Sample) :
    (trunView dataOffset samples).sizes = samples.map fun s ↦ s.size.toNat := by
  simp [trunView, Trun.sizes, runSampleView]

theorem start_trunView (moofStart dataOffset : ℕ) (samples : List Sample) :
    (trunView dataOffset samples).start moofStart = moofStart + dataOffset := by
  simp [trunView, Trun.start]
  omega

theorem sizes_eq_of_holds {samples : List Sample} (h : ∀ s ∈ samples, s.Holds) :
    (samples.map fun s ↦ s.size.toNat) = samples.map fun s ↦ (sampleData s).length :=
  List.map_congr_left fun s hs ↦ (sampleData_of_holds (h s hs)).2.symm

theorem sum_sizes_of_holds {samples : List Sample} (h : ∀ s ∈ samples, s.Holds) :
    (samples.map fun s ↦ s.size.toNat).sum = (trackData samples).length := by
  rw [sizes_eq_of_holds h, trackData, List.length_flatMap]

/-- Following every run's data offset and cutting by its sizes gives the
payloads, whatever surrounds them. -/
theorem payloads_trafViews (moofStart start : ℕ) (inputs : List TrackInput)
    (before after : List UInt8) (hbefore : before.length = moofStart + start)
    (hdata : ∀ input ∈ inputs, ∀ s ∈ input.2.1, s.Holds) :
    (((payloadOffsets start (inputs.map fun input ↦ input.2.1)).zip inputs).map fun p ↦
      (trafView p.1 p.2).payloads
        (before ++ (inputs.flatMap fun input ↦ trackData input.2.1) ++ after) moofStart) =
      inputs.map fun input ↦ input.2.1.map sampleData := by
  induction inputs generalizing before start with
  | nil => rfl
  | cons input inputs ih =>
      have hholds := hdata input (by simp)
      have hfirst : (trafView start input).payloads (before ++
          ((input :: inputs).flatMap fun input ↦ trackData input.2.1) ++ after) moofStart =
          input.2.1.map sampleData := by
        by_cases hsamples : input.2.1.isEmpty
        · have hnil : input.2.1 = [] := by simpa using hsamples
          simp [trafView, Traf.payloads, hnil]
        · simp only [trafView, Traf.payloads, hsamples, Bool.false_eq_true, if_false,
            List.flatMap_cons, List.flatMap_nil, List.append_nil, start_trunView,
            sizes_trunView, sizes_eq_of_holds hholds]
          have hcut := cut_flatMap sampleData input.2.1 before
            ((inputs.flatMap fun input ↦ trackData input.2.1) ++ after) hbefore.symm
          simpa only [trackData, List.append_assoc] using hcut
      have hothers := ih (start + (trackData input.2.1).length)
        (before ++ trackData input.2.1) (by simp [hbefore, Nat.add_assoc])
        fun input hinput ↦ hdata input (by simp [hinput])
      simp only [List.map_cons, payloadOffsets, List.zip_cons_cons, hfirst]
      congr 1
      simpa only [List.flatMap_cons, List.append_assoc] using hothers

theorem tiles_trafViews (moofStart start : ℕ) (inputs : List TrackInput)
    (hdata : ∀ input ∈ inputs, ∀ s ∈ input.2.1, s.Holds) :
    Tiles (((payloadOffsets start (inputs.map fun input ↦ input.2.1)).zip inputs).flatMap
      fun p ↦ (trafView p.1 p.2).truns.map fun r ↦ r.range moofStart) (moofStart + start)
      (moofStart + start + (inputs.flatMap fun input ↦ trackData input.2.1).length) := by
  induction inputs generalizing start with
  | nil => simp [Tiles]
  | cons input inputs ih =>
      have hothers := ih (start + (trackData input.2.1).length)
        fun input hinput ↦ hdata input (by simp [hinput])
      rw [← Nat.add_assoc] at hothers
      simp only [List.map_cons, payloadOffsets, List.zip_cons_cons, List.flatMap_cons,
        List.length_append]
      rw [← Nat.add_assoc]
      by_cases hsamples : input.2.1.isEmpty
      · have hnil : input.2.1 = [] := by simpa using hsamples
        simpa [trafView, hnil, trackData] using hothers
      · simp only [trafView, hsamples, Bool.false_eq_true, if_false, List.map_cons,
          List.map_nil, List.cons_append, List.nil_append, Trun.range, start_trunView,
          sizes_trunView, sum_sizes_of_holds (hdata input (by simp)), Tiles]
        exact ⟨trivial, Nat.le_add_right _ _, hothers⟩

/-! ## Recovering the input -/

/-- What a reader has to find in `bytes` for the segment's input to be
recovered. -/
structure Recovers (bytes : List UInt8) (f : Fragment) (sequenceNumber : UInt32)
    (tracks : List Track) (samplesPerTrack : List (List Sample))
    (tfdtPerTrack : List Int64) : Prop where
  boxTypes : f.boxes.map RawBox.type = FourCC.bytes ⟨'s', 't', 'y', 'p'⟩ ::
    List.replicate tracks.length (FourCC.bytes ⟨'s', 'i', 'd', 'x'⟩) ++
      [FourCC.bytes ⟨'m', 'o', 'o', 'f'⟩, FourCC.bytes ⟨'m', 'd', 'a', 't'⟩]
  boxesTile : Tiles (f.boxes.map fun b ↦ (b.start, b.finish)) 0 bytes.length
  sidxTracks : f.sidxs.map Sidx.referenceId = tracks.map fun t ↦ t.trackId.toNat
  sidxDurations : (f.sidxs.map fun s ↦ s.references.map SidxReference.subsegmentDuration) =
    samplesPerTrack.map fun samples ↦ [(samples.map fun s ↦ s.duration.toNat).sum]
  sequence : f.sequenceNumber = sequenceNumber.toNat
  trackIds : (f.trafs.map fun t ↦ t.tfhd.trackId) = tracks.map fun t ↦ t.trackId.toNat
  baseIsMoof : ∀ t ∈ f.trafs, t.tfhd.defaultBaseIsMoof = true ∧ t.tfhd.baseDataOffset = none
  tfdts : (f.trafs.map fun t ↦ (UInt64.ofNat t.baseMediaDecodeTime).toInt64) = tfdtPerTrack
  samples : f.trafs.map Traf.samples = samplesPerTrack.map fun samples ↦
    samples.map fun s ↦ (some s.duration.toNat, some s.size.toNat, some s.ctsOffset.toInt)
  payloads : (f.trafs.map fun t ↦ (t.payloads bytes f.moof.start).map some) =
    samplesPerTrack.map fun samples ↦ samples.map Sample.data
  payloadsTile : Tiles (f.trafs.flatMap fun t ↦ t.truns.map fun r ↦ r.range f.moof.start)
    f.mdat.payloadStart f.mdat.finish

theorem map_sidxViews {α : Type*} {g : Sidx → α} {h : TrackInput → α} (referencedSize : ℕ)
    (hgh : ∀ start input, g (sidxView start referencedSize input) = h input)
    (start : ℕ) (inputs : List TrackInput) :
    (sidxViews referencedSize start inputs).map g = inputs.map h := by
  induction inputs generalizing start with
  | nil => rfl
  | cons input inputs ih => simp [sidxViews, hgh, ih]

theorem map_trafViews {α : Type*} {g : Traf → α} {h : TrackInput → α}
    (hgh : ∀ dataOffset input, g (trafView dataOffset input) = h input)
    (inputs : List TrackInput) :
    (((dataOffsets inputs).zip inputs).map fun p ↦ trafView p.1 p.2).map g = inputs.map h := by
  have hcongr : (((dataOffsets inputs).zip inputs).map fun p ↦ trafView p.1 p.2).map g =
      (((dataOffsets inputs).zip inputs).map Prod.snd).map h := by
    simp [hgh]
  rw [hcongr, List.map_snd_zip (by simp [dataOffsets])]

theorem samples_trafView (dataOffset : ℕ) (input : TrackInput) :
    (trafView dataOffset input).samples = input.2.1.map fun s ↦
      (some s.duration.toNat, some s.size.toNat, some s.ctsOffset.toInt) := by
  unfold trafView Traf.samples
  by_cases hsamples : input.2.1.isEmpty
  · have hnil : input.2.1 = [] := by simpa using hsamples
    simp [hnil]
  · simp [hsamples, trunView, runSampleView]

theorem payloads_segmentBytes (sequenceNumber : UInt32) {inputs : List TrackInput}
    (hdata : ∀ input ∈ inputs, ∀ s ∈ input.2.1, s.Holds) :
    (((dataOffsets inputs).zip inputs).map fun p ↦ (trafView p.1 p.2).payloads
      (segmentBytes sequenceNumber inputs) (moofStart inputs)) =
      inputs.map fun input ↦ input.2.1.map sampleData := by
  let before := stypBytes ++ inputs.flatMap (sidxBytes (mediaSize inputs % 2 ^ 31)) ++
    box ⟨'m', 'o', 'o', 'f'⟩ (moofPayload sequenceNumber inputs (dataOffsets inputs)) ++
    (encode 4 (8 + (mdatPayload inputs).length) ++ FourCC.bytes ⟨'m', 'd', 'a', 't'⟩)
  have hbytes : segmentBytes sequenceNumber inputs =
      before ++ (inputs.flatMap fun input ↦ trackData input.2.1) ++ [] := by
    simp [before, segmentBytes, box, mdatPayload]
  have hbefore : before.length = moofStart inputs + firstDataOffset inputs := by
    have hmoof := length_moofPayload sequenceNumber (length_dataOffsets inputs)
    simp only [before, List.length_append, length_flatMap_sidxBytes, length_box, hmoof, stypBytes,
      length_encode, FourCC.length_bytes, moofStart, firstDataOffset]
    omega
  have hviews := payloads_trafViews (moofStart inputs) (firstDataOffset inputs) inputs before []
    hbefore hdata
  rw [hbytes]
  exact hviews

theorem recovers_fragmentView (sequenceNumber : UInt32) {inputs : List TrackInput}
    (hdata : ∀ input ∈ inputs, ∀ s ∈ input.2.1, s.Holds)
    (hduration : ∀ input ∈ inputs, (input.2.1.map fun s ↦ s.duration.toNat).sum < 2 ^ 32) :
    Recovers (segmentBytes sequenceNumber inputs) (fragmentView sequenceNumber inputs)
      sequenceNumber (inputs.map fun input ↦ input.1) (inputs.map fun input ↦ input.2.1)
      (inputs.map fun input ↦ input.2.2) where
  boxTypes := by
    simp only [fragmentView, map_type_place, segmentBoxes, sidxBoxes, stypBox]
    simp [Function.comp_def, List.map_const']
  boxesTile := by
    have h := tiles_place 0 (segmentBoxes sequenceNumber inputs)
    rwa [← segmentBytes_eq, Nat.zero_add] at h
  sidxTracks := by
    rw [List.map_map]
    exact map_sidxViews _ (fun _ _ ↦ rfl) _ _
  sidxDurations := by
    have hview := map_sidxViews
      (g := fun s ↦ s.references.map SidxReference.subsegmentDuration)
      (h := fun input ↦ [(subsegmentDuration input.2.1).toNat]) (mediaSize inputs)
      (fun _ _ ↦ rfl) 24 inputs
    rw [fragmentView, hview, List.map_map]
    apply List.map_congr_left
    intro input hinput
    have hlt := hduration input hinput
    simp only [subsegmentDuration, Function.comp_apply, UInt32.toNat_ofNat']
    rw [Nat.mod_eq_of_lt hlt]
  sequence := rfl
  trackIds := by
    rw [List.map_map]
    exact map_trafViews (fun _ _ ↦ rfl) inputs
  baseIsMoof := by
    intro t ht
    obtain ⟨p, _, rfl⟩ := List.mem_map.mp ht
    exact ⟨rfl, rfl⟩
  tfdts := by
    apply map_trafViews
    intro dataOffset input
    simp [trafView]
  samples := by
    rw [List.map_map]
    exact map_trafViews samples_trafView inputs
  payloads := by
    calc
      _ = (((dataOffsets inputs).zip inputs).map fun p ↦ (trafView p.1 p.2).payloads
            (segmentBytes sequenceNumber inputs) (moofStart inputs)).map (List.map some) := by
        simp only [fragmentView, List.map_map, Function.comp_def]
      _ = (inputs.map fun input ↦ input.2.1.map sampleData).map (List.map some) := by
        rw [payloads_segmentBytes sequenceNumber hdata]
      _ = _ := by
        simp only [List.map_map]
        apply List.map_congr_left
        intro input hinput
        simp only [Function.comp_apply, List.map_map]
        exact List.map_congr_left fun s hs ↦
          (sampleData_of_holds (hdata input hinput s hs)).1
  payloadsTile := by
    have htiles := tiles_trafViews (moofStart inputs) (firstDataOffset inputs) inputs hdata
    simp only [fragmentView, RawBox.payloadStart, RawBox.finish, List.flatMap_map]
    rw [firstDataOffset, ← Nat.add_assoc] at htiles
    exact htiles

/-- A player recovers everything a segment was built from. -/
theorem buildSegment_recovers (sequenceNumber : UInt32) (tracks : List Track)
    (samplesPerTrack : List (List Sample)) (tfdtPerTrack : List Int64)
    (hsamples : tracks.length = samplesPerTrack.length)
    (htfdt : tracks.length = tfdtPerTrack.length)
    (hdata : ∀ samples ∈ samplesPerTrack, ∀ s ∈ samples, s.Holds)
    (hduration : ∀ samples ∈ samplesPerTrack,
      (samples.map fun s ↦ s.duration.toNat).sum < 2 ^ 32) :
    ∃ bytes, buildSegment sequenceNumber tracks samplesPerTrack tfdtPerTrack = .ok bytes ∧
      (bytes.length < 2 ^ 31 → ∃ f, readFragment bytes = some f ∧
        Recovers bytes f sequenceNumber tracks samplesPerTrack tfdtPerTrack) := by
  refine ⟨_, buildSegment_eq sequenceNumber hsamples htfdt, fun hsize ↦
    ⟨_, readFragment_segmentBytes sequenceNumber hsize, ?_⟩⟩
  have hmap := map_samples_zip hsamples htfdt
  have htracks : (tracks.zip (samplesPerTrack.zip tfdtPerTrack)).map (fun input ↦ input.1) =
      tracks := List.map_fst_zip (by simp; omega)
  have htfdts : (tracks.zip (samplesPerTrack.zip tfdtPerTrack)).map
      (fun input ↦ input.2.2) = tfdtPerTrack := map_tfdt_zip hsamples htfdt
  have hmem : ∀ input ∈ tracks.zip (samplesPerTrack.zip tfdtPerTrack),
      input.2.1 ∈ samplesPerTrack := by
    intro input hinput
    rw [← hmap]
    exact List.mem_map_of_mem (f := fun input : TrackInput ↦ input.2.1) hinput
  have hrecovers := recovers_fragmentView sequenceNumber
    (fun input hinput ↦ hdata _ (hmem input hinput))
    (fun input hinput ↦ hduration _ (hmem input hinput))
  rwa [hmap, htracks, htfdts] at hrecovers

/-- Two tracks, one of them without samples, and samples of different
sizes. -/
theorem buildSegment_recovers_two_tracks :
    let video : Track := ⟨1, ⟨1, 16000⟩, none, none, 0⟩
    let audio : Track := ⟨2, ⟨1, 48000⟩, none, none, 0⟩
    let samples : List Sample :=
      [⟨some [7, 8, 9], 3, 640, 640, 320, true⟩, ⟨some [5], 1, 1280, 640, -320, false⟩]
    ∃ bytes f, buildSegment 9 [video, audio] [samples, []] [640, -1024] = .ok bytes ∧
      readFragment bytes = some f ∧
        Recovers bytes f 9 [video, audio] [samples, []] [640, -1024] := by
  intro video audio samples
  obtain ⟨bytes, hbytes, hrecovers⟩ := buildSegment_recovers 9 [video, audio] [samples, []]
    [640, -1024] rfl rfl
    (by
      simp only [List.mem_cons, List.not_mem_nil, or_false, forall_eq_or_imp, forall_eq,
        samples, IsEmpty.forall_iff, implies_true, and_true]
      exact ⟨⟨[7, 8, 9], rfl, rfl⟩, ⟨[5], rfl, rfl⟩⟩)
    (by decide)
  have hlayout := Except.ok.inj (hbytes.symm.trans (buildSegment_eq 9 rfl rfl))
  have hsize : bytes.length < 2 ^ 31 := by
    rw [hlayout, length_segmentBytes]
    decide
  obtain ⟨f, hread, hf⟩ := hrecovers hsize
  exact ⟨bytes, f, hbytes, hread, hf⟩

end Fmp4Writer

end Fmp4Packager
