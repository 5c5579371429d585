import Fmp4Packager.Format.Box

/-!
# A reader for fragmented segments

Reads a media segment the way a player does: the top-level boxes, every sidx,
the movie fragment with its track fragments, and the sample bytes that the
track runs point at.  Optional fields are read when the flags announce them
and unknown boxes are skipped, so the reader owes nothing to one particular
writer.
-/

namespace IsoBox

open BigEndian

/-- A two's complement value of `n` bytes. -/
def signed (n v : ℕ) : ℤ := if v < 2 ^ (8 * n - 1) then v else v - 2 ^ (8 * n)

theorem signed_toUInt32 (v : Int32) : signed 4 v.toUInt32.toNat = v.toInt := by
  have h : v.toInt = v.toBitVec.toInt := rfl
  have hnat : v.toUInt32.toNat = v.toBitVec.toNat := rfl
  rw [h, hnat, BitVec.toInt_eq_toNat_cond, signed]
  have := v.toBitVec.isLt
  split <;> split <;> omega

theorem signed_toUInt64 (v : Int64) : signed 8 v.toUInt64.toNat = v.toInt := by
  have h : v.toInt = v.toBitVec.toInt := rfl
  have hnat : v.toUInt64.toNat = v.toBitVec.toNat := rfl
  rw [h, hnat, BitVec.toInt_eq_toNat_cond, signed]
  have := v.toBitVec.isLt
  split <;> split <;> omega

/-- A field that is only there when its flag is set. -/
def readOptional (present : Bool) (n : ℕ) (bytes : List UInt8) :
    Option (Option ℕ × List UInt8) :=
  if present then (readUInt n bytes).map fun (value, rest) ↦ (some value, rest)
  else some (none, bytes)

/-- Version and flags of a full box. -/
def readVersionFlags (bytes : List UInt8) : Option (ℕ × ℕ × List UInt8) := do
  let (version, rest) ← readUInt 1 bytes
  let (flags, rest) ← readUInt 3 rest
  return (version, flags, rest)

theorem readVersionFlags_encode (version flags : ℕ) (rest : List UInt8)
    (hversion : version < 2 ^ 8) (hflags : flags < 2 ^ 24) :
    readVersionFlags (encode 1 version ++ (encode 3 flags ++ rest)) =
      some (version, flags, rest) := by
  simp only [readVersionFlags, readUInt_encode, Option.bind_eq_bind, Option.bind_some,
    Option.pure_def]
  rw [Nat.mod_eq_of_lt (by omega), Nat.mod_eq_of_lt (by omega)]

structure SidxReference where
  referenceType : ℕ
  referencedSize : ℕ
  subsegmentDuration : ℕ
  sap : ℕ
  deriving DecidableEq, Repr

structure Sidx where
  box : RawBox
  referenceId : ℕ
  timescale : ℕ
  earliestPresentationTime : ℕ
  firstOffset : ℕ
  references : List SidxReference
  deriving DecidableEq, Repr

def readSidxReference (bytes : List UInt8) : Option (SidxReference × List UInt8) := do
  let (word, rest) ← readUInt 4 bytes
  let (duration, rest) ← readUInt 4 rest
  let (sap, rest) ← readUInt 4 rest
  return (⟨word / 2 ^ 31, word % 2 ^ 31, duration, sap⟩, rest)

def readSidx (b : RawBox) : Option Sidx := do
  let (version, _, rest) ← readVersionFlags b.payload
  let width := if version = 0 then 4 else 8
  let (referenceId, rest) ← readUInt 4 rest
  let (timescale, rest) ← readUInt 4 rest
  let (ept, rest) ← readUInt width rest
  let (firstOffset, rest) ← readUInt width rest
  let (_, rest) ← readUInt 2 rest
  let (count, rest) ← readUInt 2 rest
  let (references, rest) ← readMany readSidxReference count rest
  if rest = [] then
    return ⟨b, referenceId, timescale, ept, firstOffset, references⟩
  else none

/-- The byte range of the first subsegment: it starts `first_offset` bytes
after the end of the sidx box. -/
def Sidx.mediaRange (s : Sidx) : ℕ × ℕ :=
  (s.box.finish + s.firstOffset, (s.references.map SidxReference.referencedSize).sum)

structure RunSample where
  duration : Option ℕ
  size : Option ℕ
  flags : Option ℕ
  ctsOffset : Option ℤ
  deriving DecidableEq, Repr

structure Trun where
  dataOffset : Option ℤ
  firstSampleFlags : Option ℕ
  samples : List RunSample
  deriving DecidableEq, Repr

structure Tfhd where
  trackId : ℕ
  defaultBaseIsMoof : Bool
  baseDataOffset : Option ℕ
  defaultSampleDuration : Option ℕ
  defaultSampleSize : Option ℕ
  defaultSampleFlags : Option ℕ
  deriving DecidableEq, Repr

structure Traf where
  tfhd : Tfhd
  baseMediaDecodeTime : ℕ
  truns : List Trun
  deriving DecidableEq, Repr

def readMfhd (b : RawBox) : Option ℕ := do
  let (_, _, rest) ← readVersionFlags b.payload
  let (sequenceNumber, rest) ← readUInt 4 rest
  if rest = [] then return sequenceNumber else none

def readTfhd (b : RawBox) : Option Tfhd := do
  let (_, flags, rest) ← readVersionFlags b.payload
  let (trackId, rest) ← readUInt 4 rest
  let (baseDataOffset, rest) ← readOptional (flags.testBit 0) 8 rest
  let (_, rest) ← readOptional (flags.testBit 1) 4 rest
  let (duration, rest) ← readOptional (flags.testBit 3) 4 rest
  let (size, rest) ← readOptional (flags.testBit 4) 4 rest
  let (sampleFlags, rest) ← readOptional (flags.testBit 5) 4 rest
  if rest = [] then
    return ⟨trackId, flags.testBit 17, baseDataOffset, duration, size, sampleFlags⟩
  else none

def readTfdt (b : RawBox) : Option ℕ := do
  let (version, _, rest) ← readVersionFlags b.payload
  let (time, rest) ← readUInt (if version = 0 then 4 else 8) rest
  if rest = [] then return time else none

/-- One entry of a trun; composition offsets are signed from version 1 on. -/
def readRunSample (version flags : ℕ) (bytes : List UInt8) :
    Option (RunSample × List UInt8) := do
  let (duration, rest) ← readOptional (flags.testBit 8) 4 bytes
  let (size, rest) ← readOptional (flags.testBit 9) 4 rest
  let (sampleFlags, rest) ← readOptional (flags.testBit 10) 4 rest
  let (cts, rest) ← readOptional (flags.testBit 11) 4 rest
  return (⟨duration, size, sampleFlags,
    cts.map fun (v : ℕ) ↦ if version = 0 then (v : ℤ) else signed 4 v⟩, rest)

def readTrun (b : RawBox) : Option Trun := do
  let (version, flags, rest) ← readVersionFlags b.payload
  let (count, rest) ← readUInt 4 rest
  let (dataOffset, rest) ← readOptional (flags.testBit 0) 4 rest
  let (firstSampleFlags, rest) ← readOptional (flags.testBit 2) 4 rest
  let (samples, rest) ← readMany (readRunSample version flags) count rest
  if rest = [] then
    return ⟨dataOffset.map (signed 4), firstSampleFlags, samples⟩
  else none

def boxesOfType (type : FourCC) (boxes : List RawBox) : List RawBox :=
  boxes.filter fun b ↦ b.type == type.bytes

def boxOfType (type : FourCC) (boxes : List RawBox) : Option RawBox :=
  boxes.find? fun b ↦ b.type == type.bytes

def readTraf (b : RawBox) : Option Traf := do
  let children ← readBoxes b.payloadStart b.payload
  let tfhd ← boxOfType ⟨'t', 'f', 'h', 'd'⟩ children
  let tfhd ← readTfhd tfhd
  let tfdt ← boxOfType ⟨'t', 'f', 'd', 't'⟩ children
  let tfdt ← readTfdt tfdt
  let truns ← (boxesOfType ⟨'t', 'r', 'u', 'n'⟩ children).mapM readTrun
  return ⟨tfhd, tfdt, truns⟩

/-- What a player learns from a media segment. -/
structure Fragment where
  boxes : List RawBox
  sidxs : List Sidx
  moof : RawBox
  sequenceNumber : ℕ
  trafs : List Traf
  mdat : RawBox
  deriving DecidableEq, Repr

def readFragment (bytes : List UInt8) : Option Fragment := do
  let boxes ← readBoxes 0 bytes
  let sidxs ← (boxesOfType ⟨'s', 'i', 'd', 'x'⟩ boxes).mapM readSidx
  let moof ← boxOfType ⟨'m', 'o', 'o', 'f'⟩ boxes
  let children ← readBoxes moof.payloadStart moof.payload
  let mfhd ← boxOfType ⟨'m', 'f', 'h', 'd'⟩ children
  let sequenceNumber ← readMfhd mfhd
  let trafs ← (boxesOfType ⟨'t', 'r', 'a', 'f'⟩ children).mapM readTraf
  let mdat ← boxOfType ⟨'m', 'd', 'a', 't'⟩ boxes
  return ⟨boxes, sidxs, moof, sequenceNumber, trafs, mdat⟩

/-- Cut consecutive pieces of the given sizes out of `bytes`. -/
def cut (bytes : List UInt8) : ℕ → List ℕ → List (List UInt8)
  | _, [] => []
  | start, size :: sizes =>
      (bytes.drop start).take size :: cut bytes (start + size) sizes

namespace Trun

def sizes (t : Trun) : List ℕ := t.samples.map fun s ↦ s.size.getD 0

/-- The first byte of a run whose data offset counts from the moof. -/
def start (t : Trun) (moofStart : ℕ) : ℕ := (moofStart + t.dataOffset.getD 0).toNat

/-- The byte range `(start, end)` a run occupies. -/
def range (t : Trun) (moofStart : ℕ) : ℕ × ℕ :=
  (t.start moofStart, t.start moofStart + t.sizes.sum)

end Trun

/-- Duration, size and composition offset of every sample of a track. -/
def Traf.samples (t : Traf) : List (Option ℕ × Option ℕ × Option ℤ) :=
  t.truns.flatMap fun r ↦ r.samples.map fun s ↦ (s.duration, s.size, s.ctsOffset)

/-- The sample bytes of a track, located through its runs. -/
def Traf.payloads (t : Traf) (bytes : List UInt8) (moofStart : ℕ) : List (List UInt8) :=
  t.truns.flatMap fun r ↦ cut bytes (r.start moofStart) r.sizes

/-- The decode time of the first sample, as a signed number. -/
def Traf.startTime (t : Traf) : ℤ := signed 8 t.baseMediaDecodeTime

/-- When the last sample of a track ends. -/
def Traf.endTime (t : Traf) : ℤ :=
  t.startTime + (t.samples.map fun s ↦ (s.1.getD 0 : ℤ)).sum

/-- The presentation times of samples of which the first is decoded at `time`. -/
def presentationTimesFrom (time : ℤ) : List (Option ℕ × Option ℕ × Option ℤ) → List ℤ
  | [] => []
  | (duration, _, ctsOffset) :: samples =>
      (time + ctsOffset.getD 0) :: presentationTimesFrom (time + duration.getD 0) samples

def Traf.presentationTimes (t : Traf) : List ℤ := presentationTimesFrom t.startTime t.samples

/-- The decode times of samples of which the first is decoded at `time`. -/
def decodeTimesFrom (time : ℤ) : List (Option ℕ × Option ℕ × Option ℤ) → List ℤ
  | [] => []
  | (duration, _) :: samples => time :: decodeTimesFrom (time + duration.getD 0) samples

def Traf.decodeTimes (t : Traf) : List ℤ := decodeTimesFrom t.startTime t.samples

/-- Samples of one duration are decoded at equal distances. -/
theorem decodeTimesFrom_of_forall (time : ℤ) (duration : ℕ)
    {samples : List (Option ℕ × Option ℕ × Option ℤ)}
    (h : ∀ s ∈ samples, s.1 = some duration) :
    decodeTimesFrom time samples =
      (List.range samples.length).map fun i : ℕ ↦ time + duration * i := by
  induction samples generalizing time with
  | nil => rfl
  | cons s samples ih =>
      have hs : s.1.getD 0 = duration := by
        rw [h s List.mem_cons_self]
        rfl
      have htail := ih (time + duration) fun s hs ↦ h s (List.mem_cons_of_mem _ hs)
      rw [List.length_cons, List.range_succ_eq_map, List.map_cons, List.map_map,
        decodeTimesFrom, hs, htail, Nat.cast_zero, mul_zero, add_zero]
      congr 1
      apply List.map_congr_left
      intro i _
      simp only [Function.comp_apply, Nat.cast_succ]
      ring

/-- Ranges that follow each other without gap or overlap from `a` to `b`. -/
def Tiles : List (ℕ × ℕ) → ℕ → ℕ → Prop
  | [], a, b => a = b
  | (start, finish) :: ranges, a, b => start = a ∧ start ≤ finish ∧ Tiles ranges finish b

instance Tiles.decidable : ∀ (ranges : List (ℕ × ℕ)) (a b : ℕ), Decidable (Tiles ranges a b)
  | [], a, b => inferInstanceAs (Decidable (a = b))
  | (start, finish) :: ranges, a, b =>
      have := Tiles.decidable ranges finish b
      inferInstanceAs (Decidable (start = a ∧ start ≤ finish ∧ Tiles ranges finish b))

/-! ## General facts about the reader -/

theorem place_append (start : ℕ) (xs ys : List (FourCC × List UInt8)) :
    place start (xs ++ ys) =
      place start xs ++ place (start + (xs.flatMap fun b ↦ box b.1 b.2).length) ys := by
  induction xs generalizing start with
  | nil => simp [place]
  | cons x xs ih =>
      obtain ⟨type, payload⟩ := x
      simp [place, ih, Nat.add_assoc]

theorem map_type_place (start : ℕ) (bs : List (FourCC × List UInt8)) :
    (place start bs).map RawBox.type = bs.map fun b ↦ b.1.bytes := by
  induction bs generalizing start with
  | nil => rfl
  | cons b bs ih => simp [place, ih]

theorem tiles_place (start : ℕ) (bs : List (FourCC × List UInt8)) :
    Tiles ((place start bs).map fun b ↦ (b.start, b.finish)) start
      (start + (bs.flatMap fun b ↦ box b.1 b.2).length) := by
  induction bs generalizing start with
  | nil => simp [place, Tiles]
  | cons b bs ih =>
      have h := ih (start + (8 + b.2.length))
      have hfinish : RawBox.finish ⟨start, 8, b.1.bytes, b.2⟩ = start + (8 + b.2.length) := by
        simp [RawBox.finish, RawBox.payloadStart, Nat.add_assoc]
      have htotal : start + ((b :: bs).flatMap fun b ↦ box b.1 b.2).length =
          start + (8 + b.2.length) + (bs.flatMap fun b ↦ box b.1 b.2).length := by
        rw [List.flatMap_cons, List.length_append, length_box]
        omega
      rw [htotal, place, List.map_cons, hfinish]
      exact ⟨rfl, Nat.le_add_right start _, h⟩

theorem boxesOfType_append (type : FourCC) (xs ys : List RawBox) :
    boxesOfType type (xs ++ ys) = boxesOfType type xs ++ boxesOfType type ys :=
  List.filter_append xs ys

theorem boxesOfType_place_self {type : FourCC} (start : ℕ) {bs : List (FourCC × List UInt8)}
    (htype : ∀ b ∈ bs, b.1 = type) : boxesOfType type (place start bs) = place start bs := by
  apply List.filter_eq_self.mpr
  intro b hb
  have hmem : b.type ∈ (place start bs).map RawBox.type := List.mem_map_of_mem hb
  rw [map_type_place] at hmem
  obtain ⟨x, hx, hxb⟩ := List.mem_map.mp hmem
  simp [← hxb, htype x hx]

theorem boxesOfType_place_nil {type : FourCC} (start : ℕ) {bs : List (FourCC × List UInt8)}
    (htype : ∀ b ∈ bs, b.1.bytes ≠ type.bytes) : boxesOfType type (place start bs) = [] := by
  apply List.filter_eq_nil_iff.mpr
  intro b hb
  have hmem : b.type ∈ (place start bs).map RawBox.type := List.mem_map_of_mem hb
  rw [map_type_place] at hmem
  obtain ⟨x, hx, hxb⟩ := List.mem_map.mp hmem
  simp [← hxb, htype x hx]

/-- The first box of a type lies behind any run of boxes of other types. -/
theorem boxOfType_place_append {type : FourCC} (start : ℕ)
    {front : List (FourCC × List UInt8)} (payload : List UInt8)
    (rest : List (FourCC × List UInt8)) (htype : ∀ b ∈ front, b.1.bytes ≠ type.bytes) :
    boxOfType type (place start (front ++ (type, payload) :: rest)) =
      some ⟨start + (front.flatMap fun b ↦ box b.1 b.2).length, 8, type.bytes, payload⟩ := by
  induction front generalizing start with
  | nil => simp [boxOfType, place]
  | cons b front ih =>
      have hb : (b.1.bytes == type.bytes) = false := by simpa using htype b (by simp)
      have hrest := ih (start + (8 + b.2.length)) fun x hx ↦ htype x (by simp [hx])
      simp only [boxOfType, List.cons_append, place, List.find?_cons, hb] at hrest ⊢
      rw [hrest]
      simp [Nat.add_assoc]

/-- Reading a run of placed boxes, when each is read as its view wherever it
lies. -/
theorem mapM_place {α β : Type*} {read : RawBox → Option β}
    (write : α → FourCC × List UInt8) (view : α → β) (start : ℕ) (xs : List α)
    (hread : ∀ start, ∀ x ∈ xs,
      read ⟨start, 8, (write x).1.bytes, (write x).2⟩ = some (view x)) :
    (place start (xs.map write)).mapM read = some (xs.map view) := by
  induction xs generalizing start with
  | nil => rfl
  | cons x xs ih =>
      have hx := hread start x (by simp)
      have hxs := ih (start + (8 + (write x).2.length)) fun start y hy ↦
        hread start y (by simp [hy])
      simp only [List.map_cons, place, List.mapM_cons, hx, hxs, Option.bind_eq_bind,
        Option.bind_some, Option.pure_def]

theorem cut_flatMap {α : Type*} (data : α → List UInt8) (xs : List α)
    (before after : List UInt8) {start : ℕ} (hstart : start = before.length) :
    cut (before ++ xs.flatMap data ++ after) start (xs.map fun x ↦ (data x).length) =
      xs.map data := by
  subst hstart
  induction xs generalizing before with
  | nil => rfl
  | cons x xs ih =>
      have hfirst : ((before ++ (x :: xs).flatMap data ++ after).drop before.length).take
          (data x).length = data x := by
        rw [List.append_assoc, List.drop_left, List.flatMap_cons, List.append_assoc,
          List.take_left]
      have hothers := ih (before ++ data x)
      simp only [List.map_cons, cut, hfirst]
      simpa using hothers

end IsoBox
