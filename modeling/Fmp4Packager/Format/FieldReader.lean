import Fmp4Packager.Format.FragmentReader

/-!
# A reader for the fields of a media segment

Reads the fields of a segment with one sidx and one track fragment for each track
where they lie, given how many samples each track has.  Unlike a player it does not
follow the sizes and counts that the segment declares: it reports them beside the
lengths that it finds, so that it reads a segment even when they are wrong.
-/

namespace IsoBox

open BigEndian

/-- A box, the size that it declares and the length that it has. -/
structure SizedBox (α : Type) where
  declared : ℕ
  length : ℕ
  content : α
  deriving DecidableEq, Repr

/-- The box at the front, with the contents that `body` reads. -/
def readSizedBox {α : Type} (type : FourCC) (body : List UInt8 → Option (α × List UInt8))
    (bytes : List UInt8) : Option (SizedBox α × List UInt8) := do
  let (declared, rest) ← readUInt 4 bytes
  let (name, rest) ← readBytes 4 rest
  if name = type.bytes then
    let (content, rest) ← body rest
    return (⟨declared, bytes.length - rest.length, content⟩, rest)
  else none

/-- Contents behind the given version and flags. -/
def readFull {α : Type} (version flags : ℕ) (body : List UInt8 → Option (α × List UInt8))
    (bytes : List UInt8) : Option (α × List UInt8) := do
  let (version', flags', rest) ← readVersionFlags bytes
  if version' = version ∧ flags' = flags then body rest else none

/-- One item for each argument. -/
def readEach {α β : Type} (item : α → List UInt8 → Option (β × List UInt8)) :
    List α → List UInt8 → Option (List β × List UInt8)
  | [], bytes => some ([], bytes)
  | a :: as, bytes => do
      let (first, bytes) ← item a bytes
      let (others, bytes) ← readEach item as bytes
      return (first :: others, bytes)

def readRest (bytes : List UInt8) : Option (List UInt8 × List UInt8) := some (bytes, [])

structure SidxFields where
  referenceId : ℕ
  timescale : ℕ
  earliestPresentationTime : ℕ
  firstOffset : ℕ
  referencedSize : ℕ
  subsegmentDuration : ℕ
  deriving DecidableEq, Repr

structure TrunFields where
  sampleCount : ℕ
  dataOffset : ℤ
  firstSampleFlags : ℕ
  samples : List RunSample
  deriving DecidableEq, Repr

structure TrafFields where
  tfhd : SizedBox ℕ
  tfdt : SizedBox ℕ
  trun : Option (SizedBox TrunFields)
  deriving DecidableEq, Repr

structure MoofFields where
  mfhd : SizedBox ℕ
  trafs : List (SizedBox TrafFields)
  deriving DecidableEq, Repr

structure SegmentFields where
  styp : SizedBox (List UInt8)
  sidxs : List (SizedBox SidxFields)
  moof : SizedBox MoofFields
  mdat : SizedBox (List UInt8)
  deriving DecidableEq, Repr

/-- A version 1 sidx with one reference to media. -/
def readSidxFields (bytes : List UInt8) : Option (SidxFields × List UInt8) := do
  let (referenceId, rest) ← readUInt 4 bytes
  let (timescale, rest) ← readUInt 4 rest
  let (ept, rest) ← readUInt 8 rest
  let (firstOffset, rest) ← readUInt 8 rest
  let (_, rest) ← readUInt 2 rest
  let (count, rest) ← readUInt 2 rest
  let (reference, rest) ← readSidxReference rest
  if count = 1 ∧ reference.referenceType = 0 then
    return (⟨referenceId, timescale, ept, firstOffset, reference.referencedSize,
      reference.subsegmentDuration⟩, rest)
  else none

/-- A version 1 trun with `count` samples whose entries have the fields of `flags`. -/
def readTrunFields (flags count : ℕ) (bytes : List UInt8) : Option (TrunFields × List UInt8) := do
  let (sampleCount, rest) ← readUInt 4 bytes
  let (dataOffset, rest) ← readUInt 4 rest
  let (firstSampleFlags, rest) ← readUInt 4 rest
  let (samples, rest) ← readMany (readRunSample 1 flags) count rest
  return (⟨sampleCount, signed 4 dataOffset, firstSampleFlags, samples⟩, rest)

/-- A traf whose data offset counts from the moof; without samples it has no trun. -/
def readTrafFields (trunFlags count : ℕ) (bytes : List UInt8) :
    Option (TrafFields × List UInt8) := do
  let (tfhd, rest) ← readSizedBox ⟨'t', 'f', 'h', 'd'⟩ (readFull 0 0x020000 (readUInt 4)) bytes
  let (tfdt, rest) ← readSizedBox ⟨'t', 'f', 'd', 't'⟩ (readFull 1 0 (readUInt 8)) rest
  if count = 0 then return (⟨tfhd, tfdt, none⟩, rest)
  else
    let (trun, rest) ← readSizedBox ⟨'t', 'r', 'u', 'n'⟩
      (readFull 1 trunFlags (readTrunFields trunFlags count)) rest
    return (⟨tfhd, tfdt, some trun⟩, rest)

def readMoofFields (trunFlags : ℕ) (counts : List ℕ) (bytes : List UInt8) :
    Option (MoofFields × List UInt8) := do
  let (mfhd, rest) ← readSizedBox ⟨'m', 'f', 'h', 'd'⟩ (readFull 0 0 (readUInt 4)) bytes
  let (trafs, rest) ←
    readEach (fun count ↦ readSizedBox ⟨'t', 'r', 'a', 'f'⟩ (readTrafFields trunFlags count))
      counts rest
  return (⟨mfhd, trafs⟩, rest)

/-- The fields of a segment whose tracks have `counts` samples; the mdat takes all
bytes behind the moof. -/
def readSegmentFields (trunFlags : ℕ) (counts : List ℕ) (bytes : List UInt8) :
    Option SegmentFields := do
  let (styp, rest) ← readSizedBox ⟨'s', 't', 'y', 'p'⟩ (readBytes 16) bytes
  let (sidxs, rest) ←
    readMany (readSizedBox ⟨'s', 'i', 'd', 'x'⟩ (readFull 1 0 readSidxFields)) counts.length rest
  let (moof, rest) ← readSizedBox ⟨'m', 'o', 'o', 'f'⟩ (readMoofFields trunFlags counts) rest
  let (mdat, _) ← readSizedBox ⟨'m', 'd', 'a', 't'⟩ readRest rest
  return ⟨styp, sidxs, moof, mdat⟩

structure TrexFields where
  trackId : ℕ
  defaultSampleDuration : ℕ
  defaultSampleSize : ℕ
  defaultSampleFlags : ℕ
  deriving DecidableEq, Repr

def readTrexFields (bytes : List UInt8) : Option (TrexFields × List UInt8) := do
  let (trackId, rest) ← readUInt 4 bytes
  let (_, rest) ← readUInt 4 rest
  let (duration, rest) ← readUInt 4 rest
  let (size, rest) ← readUInt 4 rest
  let (flags, rest) ← readUInt 4 rest
  return (⟨trackId, duration, size, flags⟩, rest)

/-- The `count` trex boxes of a movie whose mvex stands right behind the mvhd; what
follows the mvex is left unread. -/
def readMoovTrexs (count : ℕ) (bytes : List UInt8) :
    Option (List (SizedBox TrexFields) × List UInt8) := do
  let (_, rest) ← readSizedBox ⟨'m', 'v', 'h', 'd'⟩ (readFull 1 0 (readBytes 108)) bytes
  let (mvex, _) ← readSizedBox ⟨'m', 'v', 'e', 'x'⟩
    (readMany (readSizedBox ⟨'t', 'r', 'e', 'x'⟩ (readFull 0 0 readTrexFields)) count) rest
  return (mvex.content, [])

/-- The trex boxes of an init segment with an ftyp of three brands. -/
def readInitTrexs (count : ℕ) (bytes : List UInt8) : Option (List TrexFields) := do
  let (_, rest) ← readSizedBox ⟨'f', 't', 'y', 'p'⟩ (readBytes 20) bytes
  let (moov, _) ← readSizedBox ⟨'m', 'o', 'o', 'v'⟩ (readMoovTrexs count) rest
  return moov.content.map SizedBox.content

/-- The flags of the samples of a run: those of the entry, else those of the first
sample, else the default of the track. -/
def TrunFields.sampleFlags (defaultFlags : ℕ) (t : TrunFields) : List ℕ :=
  match t.samples with
  | [] => []
  | first :: rest => first.flags.getD t.firstSampleFlags ::
      rest.map fun s ↦ s.flags.getD defaultFlags

def TrafFields.sampleFlags (defaultFlags : ℕ) (t : TrafFields) : List ℕ :=
  match t.trun with
  | none => []
  | some trun => trun.content.sampleFlags defaultFlags

/-- `sample_is_non_sync_sample` is not set. -/
def isSync (flags : ℕ) : Bool := !flags.testBit 16

def TrafFields.durations (t : TrafFields) : List ℕ :=
  match t.trun with
  | none => []
  | some trun => trun.content.samples.map fun s ↦ s.duration.getD 0

/-- When the `j`-th sample is decoded, by a reader that takes the tfdt for the number
`time` of it. -/
def TrafFields.decodeTime (time : ℕ → ℤ) (t : TrafFields) (j : ℕ) : ℤ :=
  time t.tfdt.content + (t.durations.take j).sum

/-- The declared size is the length. -/
def SizedBox.Exact {α : Type} (b : SizedBox α) : Prop := b.declared = b.length

/-- A box with a payload of `length` bytes that declares what fits the field. -/
def SizedBox.written {α : Type} (length : ℕ) (content : α) : SizedBox α :=
  ⟨(8 + length) % 2 ^ 32, 8 + length, content⟩

theorem SizedBox.exact_written_iff {α : Type} (length : ℕ) (content : α) :
    (SizedBox.written length content).Exact ↔ 8 + length < 2 ^ 32 := by
  constructor
  · intro h
    have hmod : (8 + length) % 2 ^ 32 = 8 + length := h
    rw [← hmod]
    exact Nat.mod_lt _ (by norm_num)
  · exact fun h ↦ Nat.mod_eq_of_lt h

/-- A serialised box is read as what it is, however long. -/
theorem readSizedBox_box {α : Type} {type : FourCC}
    {body : List UInt8 → Option (α × List UInt8)} {payload rest : List UInt8} {content : α}
    (hbody : body (payload ++ rest) = some (content, rest)) :
    readSizedBox type body (box type payload ++ rest) =
      some (.written payload.length content, rest) := by
  have hsize : readUInt 4 (box type payload ++ rest) =
      some ((8 + payload.length) % 2 ^ 32, type.bytes ++ (payload ++ rest)) := by
    rw [box, List.append_assoc, List.append_assoc, readUInt_encode,
      show (2 : ℕ) ^ 32 = 256 ^ 4 from rfl]
  have htype : readBytes 4 (type.bytes ++ (payload ++ rest)) =
      some (type.bytes, payload ++ rest) := readBytes_append _ type.length_bytes
  have hlen : (box type payload ++ rest).length - rest.length = 8 + payload.length := by
    rw [List.length_append, length_box, Nat.add_sub_cancel]
  simp only [readSizedBox, hsize, htype, hbody, Option.bind_eq_bind, Option.bind_some, if_true,
    Option.pure_def, hlen]
  rfl

theorem readFull_encode {α : Type} {version flags : ℕ} (hversion : version < 2 ^ 8)
    (hflags : flags < 2 ^ 24) (body : List UInt8 → Option (α × List UInt8))
    (payload rest : List UInt8) :
    readFull version flags body (encode 1 version ++ encode 3 flags ++ payload ++ rest) =
      body (payload ++ rest) := by
  simp only [readFull, List.append_assoc, readVersionFlags_encode _ _ _ hversion hflags,
    Option.bind_eq_bind, Option.bind_some, and_self, if_true]

theorem readSizedBox_fullBox {α : Type} {type : FourCC} {version flags : ℕ}
    (hversion : version < 2 ^ 8) (hflags : flags < 2 ^ 24)
    {body : List UInt8 → Option (α × List UInt8)} {payload rest : List UInt8} {content : α}
    (hbody : body (payload ++ rest) = some (content, rest)) :
    readSizedBox type (readFull version flags body) (fullBox type version flags payload ++ rest) =
      some (.written (4 + payload.length) content, rest) := by
  have hread : readSizedBox type (readFull version flags body)
      (fullBox type version flags payload ++ rest) =
        some (.written (encode 1 version ++ encode 3 flags ++ payload).length content, rest) :=
    readSizedBox_box ((readFull_encode hversion hflags body payload rest).trans hbody)
  rw [List.length_append, List.length_append, length_encode, length_encode] at hread
  exact hread

theorem readSizedBox_uint {type : FourCC} {version flags n v : ℕ} (hversion : version < 2 ^ 8)
    (hflags : flags < 2 ^ 24) (hv : v < 256 ^ n) (rest : List UInt8) :
    readSizedBox type (readFull version flags (readUInt n))
      (fullBox type version flags (encode n v) ++ rest) = some (.written (4 + n) v, rest) := by
  have hread : readSizedBox type (readFull version flags (readUInt n))
      (fullBox type version flags (encode n v) ++ rest) =
        some (.written (4 + (encode n v).length) v, rest) :=
    readSizedBox_fullBox hversion hflags (readUInt_encode_of_lt hv rest)
  rwa [length_encode] at hread

theorem readSizedBox_last {α : Type} {type : FourCC}
    {body : List UInt8 → Option (α × List UInt8)} {payload : List UInt8} {content : α}
    (hbody : body payload = some (content, [])) :
    readSizedBox type body (box type payload) =
      some (.written payload.length content, []) := by
  have hread : readSizedBox type body (box type payload ++ []) =
      some (.written payload.length content, []) :=
    readSizedBox_box (by rw [List.append_nil, hbody])
  rwa [List.append_nil] at hread

theorem readEach_flatMap {α β γ : Type} (item : α → List UInt8 → Option (β × List UInt8))
    (arg : γ → α) (write : γ → List UInt8) (view : γ → β) (xs : List γ)
    (hitem : ∀ x ∈ xs, ∀ rest, item (arg x) (write x ++ rest) = some (view x, rest))
    (rest : List UInt8) :
    readEach item (xs.map arg) (xs.flatMap write ++ rest) = some (xs.map view, rest) := by
  induction xs with
  | nil => rfl
  | cons x xs ih =>
      have hx := hitem x List.mem_cons_self (xs.flatMap write ++ rest)
      have hxs := ih fun y hy ↦ hitem y (List.mem_cons_of_mem x hy)
      simp only [List.map_cons, List.flatMap_cons, List.append_assoc, readEach, hx, hxs,
        Option.bind_eq_bind, Option.bind_some, Option.pure_def]

end IsoBox
