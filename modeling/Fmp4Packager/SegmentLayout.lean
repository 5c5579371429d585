import Fmp4Packager.Fmp4Writer

/-!
# The layout of a media segment

The bytes of `buildSegment` in closed form: a plain concatenation of
serialised boxes, with the patched fields already in place.  The builder's
placeholders, recorded offsets and patches disappear here; every later result
about a segment starts from `buildSegment_eq`.
-/

namespace Fmp4Packager

open BigEndian IsoBox BoxBuilder

namespace Fmp4Writer

def stypBytes : List UInt8 :=
  box ⟨'s', 't', 'y', 'p'⟩ (FourCC.bytes ⟨'m', 's', 'd', 'h'⟩ ++ encode 4 0 ++
    FourCC.bytes ⟨'m', 's', 'd', 'h'⟩ ++ FourCC.bytes ⟨'m', 's', 'i', 'x'⟩)

/-- The fields of a sidx before its `referenced_size`. -/
def sidxFront (input : TrackInput) : List UInt8 :=
  encode 4 input.1.trackId.toNat ++ encode 4 input.1.timescale.denU32.toNat ++
    encode 8 (earliestPresentationTime input.2.1 input.2.2).toUInt64.toNat ++
    encode 8 0 ++ encode 2 0 ++ encode 2 1

def sidxPayload (referencedSize : ℕ) (input : TrackInput) : List UInt8 :=
  sidxFront input ++ encode 4 referencedSize ++
    (encode 4 (subsegmentDuration input.2.1).toNat ++ encode 4 0x90000000)

def sidxBytes (referencedSize : ℕ) (input : TrackInput) : List UInt8 :=
  fullBox ⟨'s', 'i', 'd', 'x'⟩ 1 0 (sidxPayload referencedSize input)

def mfhdBytes (sequenceNumber : UInt32) : List UInt8 :=
  fullBox ⟨'m', 'f', 'h', 'd'⟩ 0 0 (encode 4 sequenceNumber.toNat)

def tfhdBytes (trackId : UInt32) : List UInt8 :=
  fullBox ⟨'t', 'f', 'h', 'd'⟩ 0 0x020000 (encode 4 trackId.toNat)

def tfdtBytes (tfdt : Int64) : List UInt8 :=
  fullBox ⟨'t', 'f', 'd', 't'⟩ 1 0 (encode 8 tfdt.toUInt64.toNat)

def trunEntry (s : Sample) : List UInt8 :=
  encode 4 s.duration.toNat ++ encode 4 s.size.toNat ++ encode 4 s.ctsOffset.toUInt32.toNat

def trunPayload (dataOffset : ℕ) (samples : List Sample) : List UInt8 :=
  encode 4 samples.length ++ encode 4 dataOffset ++
    (encode 4 0x02000000 ++ samples.flatMap trunEntry)

def trunBytes (dataOffset : ℕ) (samples : List Sample) : List UInt8 :=
  fullBox ⟨'t', 'r', 'u', 'n'⟩ 1 0xB05 (trunPayload dataOffset samples)

/-- A traf holds a trun only when its track has samples. -/
def trafPayload (dataOffset : ℕ) (input : TrackInput) : List UInt8 :=
  tfhdBytes input.1.trackId ++ tfdtBytes input.2.2 ++
    if input.2.1.isEmpty then [] else trunBytes dataOffset input.2.1

def trafBytes (dataOffset : ℕ) (input : TrackInput) : List UInt8 :=
  box ⟨'t', 'r', 'a', 'f'⟩ (trafPayload dataOffset input)

/-- The bytes a sample contributes to the mdat. -/
def sampleData (s : Sample) : List UInt8 := (s.data.getD []).take s.size.toNat

def trackData (samples : List Sample) : List UInt8 := samples.flatMap sampleData

/-- Where each track's payload starts, when the first starts at `start`. -/
def payloadOffsets : ℕ → List (List Sample) → List ℕ
  | _, [] => []
  | start, samples :: rest =>
      start :: payloadOffsets (start + (trackData samples).length) rest

def moofPayload (sequenceNumber : UInt32) (inputs : List TrackInput) (offsets : List ℕ) :
    List UInt8 :=
  mfhdBytes sequenceNumber ++ (offsets.zip inputs).flatMap fun p ↦ trafBytes p.1 p.2

def mdatPayload (inputs : List TrackInput) : List UInt8 :=
  inputs.flatMap fun input ↦ trackData input.2.1

@[simp] theorem length_sidxFront (input : TrackInput) : (sidxFront input).length = 28 := by
  simp [sidxFront]

@[simp] theorem length_sidxBytes (referencedSize : ℕ) (input : TrackInput) :
    (sidxBytes referencedSize input).length = 52 := by
  simp [sidxBytes, sidxPayload]

theorem length_flatMap_sidxBytes (referencedSize : ℕ) (inputs : List TrackInput) :
    (inputs.flatMap (sidxBytes referencedSize)).length = 52 * inputs.length := by
  induction inputs with
  | nil => rfl
  | cons input inputs ih =>
      rw [List.flatMap_cons, List.length_append, length_sidxBytes, ih, List.length_cons]
      omega

@[simp] theorem length_trunBytes (dataOffset : ℕ) (samples : List Sample) :
    (trunBytes dataOffset samples).length = 24 + 12 * samples.length := by
  have hentries : (samples.flatMap trunEntry).length = 12 * samples.length := by
    induction samples with
    | nil => rfl
    | cons s samples ih =>
        simp only [List.flatMap_cons, List.length_append, ih, List.length_cons]
        simp only [trunEntry, List.length_append, length_encode]
        omega
  simp only [trunBytes, trunPayload, length_fullBox, List.length_append, length_encode, hentries]
  omega

def trafSize (input : TrackInput) : ℕ :=
  44 + if input.2.1.isEmpty then 0 else 24 + 12 * input.2.1.length

@[simp] theorem length_trafBytes (dataOffset : ℕ) (input : TrackInput) :
    (trafBytes dataOffset input).length = trafSize input := by
  unfold trafBytes trafPayload trafSize
  split
  · simp [tfhdBytes, tfdtBytes]
  · simp only [length_box, List.length_append, tfhdBytes, tfdtBytes, length_fullBox,
      length_encode, length_trunBytes]
    omega

@[simp] theorem length_payloadOffsets (start : ℕ) (samplesPerTrack : List (List Sample)) :
    (payloadOffsets start samplesPerTrack).length = samplesPerTrack.length := by
  induction samplesPerTrack generalizing start with
  | nil => rfl
  | cons samples rest ih => simp [payloadOffsets, ih]

def moofSize (inputs : List TrackInput) : ℕ := 24 + (inputs.map trafSize).sum

theorem length_trafs (sequenceNumber : UInt32) (inputs : List TrackInput) :
    8 + (mfhdBytes sequenceNumber ++ inputs.flatMap (trafBytes 0)).length =
      moofSize inputs := by
  have htrafs : inputs.map (fun input ↦ (trafBytes 0 input).length) = inputs.map trafSize :=
    List.map_congr_left fun input _ ↦ length_trafBytes 0 input
  simp only [mfhdBytes, moofSize, List.length_append, length_fullBox, length_encode,
    List.length_flatMap, htrafs]
  omega

theorem length_moofPayload (sequenceNumber : UInt32) {inputs : List TrackInput}
    {offsets : List ℕ} (hlen : offsets.length = inputs.length) :
    8 + (moofPayload sequenceNumber inputs offsets).length = moofSize inputs := by
  have htrafs : ((offsets.zip inputs).flatMap fun p ↦ trafBytes p.1 p.2).length =
      (inputs.map trafSize).sum := by
    induction inputs generalizing offsets with
    | nil => simp
    | cons input inputs ih =>
        rcases offsets with _ | ⟨offset, offsets⟩
        · simp at hlen
        · simp [ih (by simpa using hlen)]
  simp only [moofPayload, mfhdBytes, moofSize, List.length_append, length_fullBox,
    length_encode, htrafs]
  omega

def firstDataOffset (inputs : List TrackInput) : ℕ := moofSize inputs + 8

def dataOffsets (inputs : List TrackInput) : List ℕ :=
  payloadOffsets (firstDataOffset inputs) (inputs.map fun input ↦ input.2.1)

theorem length_dataOffsets (inputs : List TrackInput) :
    (dataOffsets inputs).length = inputs.length := by
  simp [dataOffsets]

def mediaSize (inputs : List TrackInput) : ℕ :=
  firstDataOffset inputs + (mdatPayload inputs).length

def segmentBytes (sequenceNumber : UInt32) (inputs : List TrackInput) : List UInt8 :=
  stypBytes ++ inputs.flatMap (sidxBytes (mediaSize inputs % 2 ^ 31)) ++
    box ⟨'m', 'o', 'o', 'f'⟩ (moofPayload sequenceNumber inputs (dataOffsets inputs)) ++
    box ⟨'m', 'd', 'a', 't'⟩ (mdatPayload inputs)

theorem buf_writeStyp (b : BoxBuilder) : (writeStyp b).buf = b.buf ++ stypBytes := by
  simp only [writeStyp, beginBox_snd]
  rw [stypBytes, buf_endBox (b := b)]
  simp

theorem buf_writeTrackSidx (b : BoxBuilder) (input : TrackInput) :
    (writeTrackSidx b input).1.buf = b.buf ++ sidxBytes 0 input := by
  simp only [writeTrackSidx, writeSidx, beginFullBox_snd]
  apply buf_endFullBox 1 0
  simp [sidxPayload, sidxFront]

theorem writeTrackSidx_snd (b : BoxBuilder) (input : TrackInput) :
    (writeTrackSidx b input).2 = b.buf.length + 40 := by
  simp [writeTrackSidx, writeSidx, pos]

theorem buf_writeMfhd (b : BoxBuilder) (sequenceNumber : UInt32) :
    (writeMfhd b sequenceNumber).buf = b.buf ++ mfhdBytes sequenceNumber := by
  simp only [writeMfhd, beginFullBox_snd]
  apply buf_endFullBox 0 0
  simp

theorem buf_writeTfhd (b : BoxBuilder) (trackId : UInt32) :
    (writeTfhd b trackId).buf = b.buf ++ tfhdBytes trackId := by
  simp only [writeTfhd, beginFullBox_snd]
  apply buf_endFullBox 0 0x020000
  simp

theorem buf_writeTfdt (b : BoxBuilder) (tfdt : Int64) :
    (writeTfdt b tfdt).buf = b.buf ++ tfdtBytes tfdt := by
  simp only [writeTfdt, beginFullBox_snd]
  apply buf_endFullBox 1 0
  simp

theorem buf_writeTrunEntries (b : BoxBuilder) (samples : List Sample) :
    (samples.foldl writeTrunEntry b).buf = b.buf ++ samples.flatMap trunEntry := by
  induction samples generalizing b with
  | nil => simp
  | cons s samples ih =>
      rw [List.foldl_cons, ih, List.flatMap_cons]
      simp [writeTrunEntry, trunEntry]

theorem buf_writeTrun (b : BoxBuilder) (samples : List Sample) :
    (writeTrun b samples).1.buf = b.buf ++ trunBytes 0 samples := by
  have hcount : encode 4 (UInt32.ofNat samples.length).toNat = encode 4 samples.length := by
    rw [UInt32.toNat_ofNat']
    exact encode_mod 4 samples.length
  have hzero : (Int32.toUInt32 0).toNat = 0 := rfl
  simp only [writeTrun, beginFullBox_snd]
  apply buf_endFullBox 1 kTrunFlags
  simp only [buf_writeTrunEntries, buf_u32, buf_s32, buf_beginFullBox, hcount, hzero,
    trunPayload, kSampleFlagsKey, List.append_assoc]
  rfl

theorem writeTrun_snd (b : BoxBuilder) (samples : List Sample) :
    (writeTrun b samples).2 = b.buf.length + 16 := by
  simp [writeTrun, pos]

theorem buf_writeTraf (b : BoxBuilder) (input : TrackInput) :
    (writeTraf b input).1.buf = b.buf ++ trafBytes 0 input := by
  simp only [writeTraf, beginBox_snd]
  rw [trafBytes]
  apply buf_endBox
  by_cases hsamples : input.2.1.isEmpty
  · simp [trafPayload, hsamples, buf_writeTfhd, buf_writeTfdt]
  · simp [trafPayload, hsamples, buf_writeTfhd, buf_writeTfdt, buf_writeTrun]

theorem writeTraf_snd (b : BoxBuilder) (input : TrackInput) :
    (writeTraf b input).2 = if input.2.1.isEmpty then 0 else b.buf.length + 60 := by
  unfold writeTraf
  by_cases hsamples : input.2.1.isEmpty
  · simp [hsamples]
  · simp [hsamples, writeTrun_snd, buf_writeTfhd, buf_writeTfdt, tfhdBytes, tfdtBytes]

theorem buf_writeSampleData (b : BoxBuilder) (s : Sample) :
    (writeSampleData b s).buf = b.buf ++ sampleData s := by
  unfold writeSampleData sampleData
  cases hdata : s.data with
  | none => simp
  | some data =>
      by_cases hsize : 0 < s.size
      · simp [hsize]
      · have hzero : s.size.toNat = 0 := by
          simpa [UInt32.lt_iff_toNat_lt] using hsize
        simp [hsize, hzero]

theorem buf_writeTrackData (b : BoxBuilder) (samples : List Sample) :
    (samples.foldl writeSampleData b).buf = b.buf ++ trackData samples := by
  induction samples generalizing b with
  | nil => simp [trackData]
  | cons s samples ih =>
      rw [List.foldl_cons, ih, buf_writeSampleData]
      simp [trackData]

/-- The mdat loop appends the payloads and returns where each starts. -/
theorem writePayloads_spec (b : BoxBuilder) (moofStart : ℕ)
    (samplesPerTrack : List (List Sample)) (hstart : moofStart ≤ b.buf.length) :
    (writePayloads b moofStart samplesPerTrack).1.buf =
        b.buf ++ samplesPerTrack.flatMap trackData ∧
      (writePayloads b moofStart samplesPerTrack).2 =
        payloadOffsets (b.buf.length - moofStart) samplesPerTrack := by
  induction samplesPerTrack generalizing b with
  | nil => simp [writePayloads, payloadOffsets]
  | cons samples rest ih =>
      have hbuf := buf_writeTrackData b samples
      have hlen : (samples.foldl writeSampleData b).buf.length =
          b.buf.length + (trackData samples).length := by simp [hbuf]
      obtain ⟨hrest, hoffs⟩ := ih (samples.foldl writeSampleData b) (by omega)
      constructor
      · simp [writePayloads, hrest, hbuf]
      · simp only [writePayloads, hoffs, payloadOffsets, pos, hlen]
        rw [Nat.sub_add_comm hstart]

theorem sidxBytes_split (input : TrackInput) :
    ∃ front after : List UInt8, front.length = 40 ∧
      ∀ referencedSize, sidxBytes referencedSize input =
        front ++ encode 4 referencedSize ++ after := by
  refine ⟨encode 4 52 ++ FourCC.bytes ⟨'s', 'i', 'd', 'x'⟩ ++
    (encode 1 1 ++ encode 3 0) ++ sidxFront input,
    encode 4 (subsegmentDuration input.2.1).toNat ++ encode 4 0x90000000, by simp, ?_⟩
  intro referencedSize
  simp [sidxBytes, fullBox, box, sidxPayload]

theorem trafBytes_split {input : TrackInput} (hsamples : input.2.1.isEmpty = false) :
    ∃ front after : List UInt8, front.length = 60 ∧
      ∀ dataOffset, trafBytes dataOffset input = front ++ encode 4 dataOffset ++ after := by
  have hsize (dataOffset : ℕ) : 8 + (trafPayload dataOffset input).length = trafSize input := by
    rw [← length_trafBytes dataOffset input, trafBytes, length_box]
  have htrun (dataOffset : ℕ) :
      8 + (encode 1 1 ++ encode 3 0xB05 ++ trunPayload dataOffset input.2.1).length =
        24 + 12 * input.2.1.length := by
    rw [← length_trunBytes dataOffset, trunBytes, fullBox, length_box]
  refine ⟨encode 4 (trafSize input) ++ FourCC.bytes ⟨'t', 'r', 'a', 'f'⟩ ++
    tfhdBytes input.1.trackId ++ tfdtBytes input.2.2 ++
    (encode 4 (24 + 12 * input.2.1.length) ++ FourCC.bytes ⟨'t', 'r', 'u', 'n'⟩) ++
    (encode 1 1 ++ encode 3 0xB05) ++ encode 4 input.2.1.length,
    encode 4 0x02000000 ++ input.2.1.flatMap trunEntry, by simp [tfhdBytes, tfdtBytes], ?_⟩
  intro dataOffset
  rw [trafBytes, box, hsize]
  simp only [trafPayload, hsamples, Bool.false_eq_true, if_false, trunBytes, fullBox]
  rw [box, htrun]
  simp [trunPayload]

/-- The sidx loop and, later, its patches: whatever follows the sidx boxes by
then, every `referenced_size` ends up holding the patched value. -/
theorem writeSidxs_spec (b : BoxBuilder) (inputs : List TrackInput) :
    (writeSidxs b inputs).1.buf = b.buf ++ inputs.flatMap (sidxBytes 0) ∧
      ∀ (c : BoxBuilder) (before after : List UInt8) (value : UInt32),
        before.length = b.buf.length →
        c.buf = before ++ inputs.flatMap (sidxBytes 0) ++ after →
        ((writeSidxs b inputs).2.foldl (fun c off ↦ c.patch32 off value) c).buf =
          before ++ inputs.flatMap (sidxBytes value.toNat) ++ after := by
  induction inputs generalizing b with
  | nil => simp [writeSidxs]
  | cons input inputs ih =>
      have hbuf := buf_writeTrackSidx b input
      have hoff := writeTrackSidx_snd b input
      obtain ⟨hrest, hpatch⟩ := ih (writeTrackSidx b input).1
      constructor
      · simp [writeSidxs, hrest, hbuf]
      · intro c before after value hbefore hc
        obtain ⟨front, back, hfront, hsplit⟩ := sidxBytes_split input
        -- The first patch hits the placeholder of the first sidx ...
        have hfirst : (c.patch32 (b.buf.length + 40) value).buf =
            (before ++ sidxBytes value.toNat input) ++ inputs.flatMap (sidxBytes 0) ++
              after := by
          have hhole : c.buf = (before ++ front) ++ encode 4 0 ++
              (back ++ inputs.flatMap (sidxBytes 0) ++ after) := by
            rw [hc, List.flatMap_cons, hsplit]
            simp only [List.append_assoc]
          rw [buf_patch32 value hhole (length_encode 4 0) (by simp [hbefore, hfront]),
            hsplit value.toNat]
          simp only [List.append_assoc]
        -- ... and the others are those of the remaining boxes.
        have hothers := hpatch _ (before ++ sidxBytes value.toNat input) after
          value (by simp [hbuf, hbefore]) hfirst
        simp only [writeSidxs, List.foldl_cons, hoff]
        rw [hothers]
        simp

/-- Patching the position returned for one traf sets its data offset; a traf
without samples has none and is left alone. -/
theorem buf_patchDataOffset {b c : BoxBuilder} {input : TrackInput}
    {before after : List UInt8} (offset : ℕ) (hbefore : before.length = b.buf.length)
    (hc : c.buf = before ++ trafBytes 0 input ++ after) :
    (patchDataOffset c ((writeTraf b input).2, offset)).buf =
      before ++ trafBytes offset input ++ after := by
  rw [patchDataOffset, writeTraf_snd]
  by_cases hsamples : input.2.1.isEmpty
  · simpa [hsamples, trafBytes, trafPayload] using hc
  · obtain ⟨front, back, hfront, hsplit⟩ := trafBytes_split (by simpa using hsamples)
    have hhole : c.buf = (before ++ front) ++ encode 4 0 ++ (back ++ after) := by
      rw [hc, hsplit]
      simp only [List.append_assoc]
    have hvalue : encode 4 (UInt32.ofNat offset).toNat = encode 4 offset := by
      rw [UInt32.toNat_ofNat']
      exact encode_mod 4 offset
    simp only [hsamples, Bool.false_eq_true, if_false, Nat.add_eq_zero_iff,
      OfNat.ofNat_ne_zero, and_false]
    rw [buf_patch32 _ hhole (length_encode 4 0) (by simp [hbefore, hfront]), hvalue, hsplit]
    simp only [List.append_assoc]

/-- The traf loop and, later, its patches. -/
theorem writeTrafs_spec (b : BoxBuilder) (inputs : List TrackInput) :
    (writeTrafs b inputs).1.buf = b.buf ++ inputs.flatMap (trafBytes 0) ∧
      ∀ (c : BoxBuilder) (before after : List UInt8) (offsets : List ℕ),
        before.length = b.buf.length → offsets.length = inputs.length →
        c.buf = before ++ inputs.flatMap (trafBytes 0) ++ after →
        (((writeTrafs b inputs).2.zip offsets).foldl patchDataOffset c).buf =
          before ++ ((offsets.zip inputs).flatMap fun p ↦ trafBytes p.1 p.2) ++ after := by
  induction inputs generalizing b with
  | nil =>
      refine ⟨by simp [writeTrafs], ?_⟩
      intro c before after offsets _ hlen hc
      obtain rfl := List.length_eq_zero_iff.mp hlen
      simpa using hc
  | cons input inputs ih =>
      have hbuf := buf_writeTraf b input
      obtain ⟨hrest, hpatch⟩ := ih (writeTraf b input).1
      constructor
      · simp [writeTrafs, hrest, hbuf]
      · intro c before after offsets hbefore hlen hc
        rcases offsets with _ | ⟨offset, offsets⟩
        · simp at hlen
        · have hsplit : c.buf =
              before ++ trafBytes 0 input ++ (inputs.flatMap (trafBytes 0) ++ after) := by
            simp [hc]
          have hfirst := buf_patchDataOffset offset hbefore hsplit
          have hothers := hpatch _ (before ++ trafBytes offset input) after offsets
            (by simp [hbuf, hbefore]) (by simpa using hlen)
            (by rw [hfirst]; simp only [List.append_assoc])
          simp only [writeTrafs, List.zip_cons_cons, List.foldl_cons]
          rw [hothers]
          simp

/-! ## The whole segment -/

theorem moofBox_eq (sequenceNumber : UInt32) {inputs : List TrackInput}
    {offsets : List ℕ} (hlen : offsets.length = inputs.length) :
    box ⟨'m', 'o', 'o', 'f'⟩ (moofPayload sequenceNumber inputs offsets) =
      encode 4 (moofSize inputs) ++ FourCC.bytes ⟨'m', 'o', 'o', 'f'⟩ ++
        mfhdBytes sequenceNumber ++
        (offsets.zip inputs).flatMap fun p ↦ trafBytes p.1 p.2 := by
  rw [box, length_moofPayload sequenceNumber hlen, moofPayload]
  simp only [List.append_assoc]

section ZippedInputs

variable {tracks : List Track} {samplesPerTrack : List (List Sample)}
  {tfdtPerTrack : List Int64}

theorem map_snd_zip_inputs (hsamples : tracks.length = samplesPerTrack.length) :
    (tracks.zip (samplesPerTrack.zip tfdtPerTrack)).map Prod.snd =
      samplesPerTrack.zip tfdtPerTrack :=
  List.map_snd_zip (by simp only [List.length_zip]; omega)

theorem map_samples_zip (hsamples : tracks.length = samplesPerTrack.length)
    (htfdt : tracks.length = tfdtPerTrack.length) :
    (tracks.zip (samplesPerTrack.zip tfdtPerTrack)).map (fun input ↦ input.2.1) =
      samplesPerTrack := by
  calc
    _ = ((tracks.zip (samplesPerTrack.zip tfdtPerTrack)).map Prod.snd).map Prod.fst := by
      rw [List.map_map]
      rfl
    _ = samplesPerTrack := by
      rw [map_snd_zip_inputs hsamples, List.map_fst_zip (by omega)]

theorem map_tfdt_zip (hsamples : tracks.length = samplesPerTrack.length)
    (htfdt : tracks.length = tfdtPerTrack.length) :
    (tracks.zip (samplesPerTrack.zip tfdtPerTrack)).map (fun input ↦ input.2.2) =
      tfdtPerTrack := by
  calc
    _ = ((tracks.zip (samplesPerTrack.zip tfdtPerTrack)).map Prod.snd).map Prod.snd := by
      rw [List.map_map]
      rfl
    _ = tfdtPerTrack := by
      rw [map_snd_zip_inputs hsamples, List.map_snd_zip (by omega)]

end ZippedInputs

theorem toNat_referencedSize (n : ℕ) :
    (UInt32.ofNat n &&& 0x7FFFFFFF).toNat = n % 2 ^ 31 := by
  have hmask : (0x7FFFFFFF : UInt32).toNat = 2 ^ 31 - 1 := rfl
  rw [UInt32.toNat_and, hmask, Nat.and_two_pow_sub_one_eq_mod, UInt32.toNat_ofNat']
  omega

/-- The moof as it is closed, with the placeholders still in its trun boxes. -/
def writtenMoof (sequenceNumber : UInt32) (inputs : List TrackInput) : List UInt8 :=
  box ⟨'m', 'o', 'o', 'f'⟩ (mfhdBytes sequenceNumber ++ inputs.flatMap (trafBytes 0))

theorem length_writtenMoof (sequenceNumber : UInt32) (inputs : List TrackInput) :
    (writtenMoof sequenceNumber inputs).length = moofSize inputs := by
  rw [writtenMoof, length_box, length_trafs]

/-- The patches turn the placeholders into the fields of the layout. -/
theorem buf_patchSegment (sequenceNumber : UInt32) (b₁ b₂ b₃ : BoxBuilder)
    (inputs : List TrackInput) (mdat : List UInt8) (referencedSize : UInt32)
    (hb₂ : b₂.buf.length = (b₁.buf ++ inputs.flatMap (sidxBytes 0) ++
      (encode 4 (moofSize inputs) ++ FourCC.bytes ⟨'m', 'o', 'o', 'f'⟩ ++
        mfhdBytes sequenceNumber)).length)
    (hb₃ : b₃.buf = b₁.buf ++ inputs.flatMap (sidxBytes 0) ++
      writtenMoof sequenceNumber inputs ++ mdat) :
    ((writeSidxs b₁ inputs).2.foldl (fun b off ↦ b.patch32 off referencedSize)
      (((writeTrafs b₂ inputs).2.zip (dataOffsets inputs)).foldl patchDataOffset b₃)).buf =
      b₁.buf ++ inputs.flatMap (sidxBytes referencedSize.toNat) ++
        (box ⟨'m', 'o', 'o', 'f'⟩ (moofPayload sequenceNumber inputs (dataOffsets inputs)) ++
          mdat) := by
  have hlen : (dataOffsets inputs).length = inputs.length := by simp [dataOffsets]
  have htrafs := (writeTrafs_spec b₂ inputs).2 b₃ _ mdat (dataOffsets inputs) hb₂.symm hlen
    (by
      rw [hb₃, writtenMoof, box, length_trafs]
      simp only [List.append_assoc])
  apply (writeSidxs_spec b₁ inputs).2 _ _ _ referencedSize rfl
  rw [htrafs, moofBox_eq sequenceNumber hlen]
  simp only [List.append_assoc]

theorem buildSegment_eq (sequenceNumber : UInt32) {tracks : List Track}
    {samplesPerTrack : List (List Sample)} {tfdtPerTrack : List Int64}
    (hsamples : tracks.length = samplesPerTrack.length)
    (htfdt : tracks.length = tfdtPerTrack.length) :
    buildSegment sequenceNumber tracks samplesPerTrack tfdtPerTrack =
      .ok (segmentBytes sequenceNumber (tracks.zip (samplesPerTrack.zip tfdtPerTrack))) := by
  have hmap := map_samples_zip hsamples htfdt
  simp only [buildSegment, beginBox_snd, pos]
  rw [if_neg (by simp [hsamples, ← htfdt])]
  generalize tracks.zip (samplesPerTrack.zip tfdtPerTrack) = inputs at hmap ⊢
  -- Written so far: styp, the sidx boxes, mfhd, the trafs, ...
  have hstyp : (writeStyp {}).buf = stypBytes := buf_writeStyp {}
  generalize writeStyp {} = b₁ at hstyp ⊢
  have hsidx := (writeSidxs_spec b₁ inputs).1
  generalize hb₂ : (writeSidxs b₁ inputs).1 = b₂ at hsidx ⊢
  have hmfhd := buf_writeMfhd (b₂.beginBox ⟨'m', 'o', 'o', 'f'⟩).1 sequenceNumber
  generalize writeMfhd _ sequenceNumber = b₃ at hmfhd ⊢
  have htraf := (writeTrafs_spec b₃ inputs).1
  have hmoof : ((writeTrafs b₃ inputs).1.endBox b₂.buf.length).buf =
      b₂.buf ++ writtenMoof sequenceNumber inputs := by
    apply buf_endBox
    simp [htraf, hmfhd]
  generalize (writeTrafs b₃ inputs).1.endBox b₂.buf.length = b₄ at hmoof ⊢
  have hmoofLen : b₄.buf.length = b₂.buf.length + moofSize inputs := by
    rw [hmoof, List.length_append, length_writtenMoof]
  -- ... and the mdat, whose loop also returns the data offsets.
  obtain ⟨hdata, hoffsets⟩ := writePayloads_spec (b₄.beginBox ⟨'m', 'd', 'a', 't'⟩).1
    b₂.buf.length samplesPerTrack (by simp [hmoof])
  have hfirst : (b₄.beginBox ⟨'m', 'd', 'a', 't'⟩).1.buf.length - b₂.buf.length =
      firstDataOffset inputs := by
    simp only [buf_beginBox, List.length_append, length_encode, FourCC.length_bytes]
    rw [firstDataOffset, hmoofLen]
    omega
  rw [hfirst, ← hmap] at hoffsets
  rw [← hmap, List.flatMap_map] at hdata
  rw [← hmap]
  generalize writePayloads _ _ _ = data at hdata hoffsets ⊢
  have hmdat : (data.1.endBox b₄.buf.length).buf =
      b₄.buf ++ box ⟨'m', 'd', 'a', 't'⟩ (mdatPayload inputs) := by
    apply buf_endBox
    simp [hdata, mdatPayload]
  generalize data.1.endBox b₄.buf.length = b₅ at hmdat ⊢
  have hmediaLen : b₅.buf.length - b₂.buf.length = mediaSize inputs := by
    simp only [hmdat, List.length_append, length_box]
    rw [mediaSize, firstDataOffset, hmoofLen]
    omega
  have hpatched := buf_patchSegment sequenceNumber b₁ b₃ b₅ inputs
    (box ⟨'m', 'd', 'a', 't'⟩ (mdatPayload inputs))
    (UInt32.ofNat (mediaSize inputs) &&& 0x7FFFFFFF) (by simp [hmfhd, hsidx])
    (by rw [hmdat, hmoof, hsidx])
  rw [hoffsets, ← dataOffsets, hmediaLen, hpatched, toNat_referencedSize, hstyp, segmentBytes]
  simp only [List.append_assoc]

end Fmp4Writer

end Fmp4Packager
