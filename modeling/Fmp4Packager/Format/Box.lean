import Fmp4Packager.Format.BigEndian

/-!
# Size-prefixed boxes

The box framing of the ISO base media file format: serialisation of a box and
of a full box, and a reader that splits a byte string into boxes, with the
absolute offset of each.  A 32-bit size of one announces a 64-bit size and a
size of zero extends the box to the end of the data; the reader follows both
rules although the serialiser only ever emits plain 32-bit sizes.
-/

namespace IsoBox

open BigEndian

/-- A four-character box type, brand or handler name. -/
structure FourCC where
  c0 : Char
  c1 : Char
  c2 : Char
  c3 : Char
  deriving DecidableEq, Repr

def FourCC.bytes (type : FourCC) : List UInt8 :=
  [type.c0, type.c1, type.c2, type.c3].map fun c ↦ UInt8.ofNat c.toNat

@[simp] theorem FourCC.length_bytes (type : FourCC) : type.bytes.length = 4 := rfl

/-- A box: its size, its type and its payload. -/
def box (type : FourCC) (payload : List UInt8) : List UInt8 :=
  encode 4 (8 + payload.length) ++ type.bytes ++ payload

/-- A full box starts its payload with a version byte and 24 flag bits. -/
def fullBox (type : FourCC) (version flags : ℕ) (payload : List UInt8) : List UInt8 :=
  box type (encode 1 version ++ encode 3 flags ++ payload)

@[simp] theorem length_box (type : FourCC) (payload : List UInt8) :
    (box type payload).length = 8 + payload.length := by
  simp [box]
  omega

@[simp] theorem length_fullBox (type : FourCC) (version flags : ℕ) (payload : List UInt8) :
    (fullBox type version flags payload).length = 12 + payload.length := by
  simp [fullBox]
  omega

theorem length_le_length_flatMap_box {bs : List (FourCC × List UInt8)}
    {b : FourCC × List UInt8} (hb : b ∈ bs) :
    8 + b.2.length ≤ (bs.flatMap fun b ↦ box b.1 b.2).length := by
  obtain ⟨xs, ys, rfl⟩ := List.append_of_mem hb
  simp only [List.flatMap_append, List.flatMap_cons, List.length_append, length_box]
  omega

/-- Split off the first `n` bytes, when there are that many. -/
def readBytes (n : ℕ) (bytes : List UInt8) : Option (List UInt8 × List UInt8) :=
  if n ≤ bytes.length then some (bytes.take n, bytes.drop n) else none

/-- An unsigned big-endian field of `n` bytes. -/
def readUInt (n : ℕ) (bytes : List UInt8) : Option (ℕ × List UInt8) :=
  (readBytes n bytes).map fun (front, rest) ↦ (decode front, rest)

theorem readBytes_append {n : ℕ} {front : List UInt8} (rest : List UInt8)
    (hlen : front.length = n) : readBytes n (front ++ rest) = some (front, rest) := by
  subst hlen
  simp [readBytes]

theorem readBytes_self {n : ℕ} {bytes : List UInt8} (hlen : bytes.length = n) :
    readBytes n bytes = some (bytes, []) := by
  simpa using readBytes_append [] hlen

theorem readUInt_encode (n v : ℕ) (rest : List UInt8) :
    readUInt n (encode n v ++ rest) = some (v % 256 ^ n, rest) := by
  rw [readUInt, readBytes_append rest (length_encode n v)]
  simp [decode_encode]

theorem readUInt_encode_of_lt {n v : ℕ} (hv : v < 256 ^ n) (rest : List UInt8) :
    readUInt n (encode n v ++ rest) = some (v, rest) := by
  rw [readUInt_encode, Nat.mod_eq_of_lt hv]

theorem readUInt_encode_end (n v : ℕ) :
    readUInt n (encode n v) = some (v % 256 ^ n, []) := by
  simpa using readUInt_encode n v []

/-- A counted run of items, each read by `item`. -/
def readMany {α : Type*} (item : List UInt8 → Option (α × List UInt8)) :
    ℕ → List UInt8 → Option (List α × List UInt8)
  | 0, bytes => some ([], bytes)
  | n + 1, bytes => do
      let (first, bytes) ← item bytes
      let (others, bytes) ← readMany item n bytes
      return (first :: others, bytes)

/-- A run of serialised items is read back when each item is. -/
theorem readMany_flatMap {α β : Type*} {item : List UInt8 → Option (β × List UInt8)}
    (write : α → List UInt8) (view : α → β) (xs : List α)
    (hitem : ∀ x ∈ xs, ∀ rest, item (write x ++ rest) = some (view x, rest))
    (rest : List UInt8) :
    readMany item xs.length (xs.flatMap write ++ rest) = some (xs.map view, rest) := by
  induction xs with
  | nil => rfl
  | cons x xs ih =>
      have hx := hitem x (by simp) (xs.flatMap write ++ rest)
      have hxs := ih fun y hy ↦ hitem y (by simp [hy])
      simp only [List.length_cons, List.flatMap_cons, List.append_assoc, readMany, hx,
        Option.bind_eq_bind, Option.bind_some, hxs, List.map_cons]
      rfl

/-- A box found in a byte string: its absolute start, its header length, its
type and its payload. -/
structure RawBox where
  start : ℕ
  header : ℕ
  type : List UInt8
  payload : List UInt8
  deriving DecidableEq, Repr

namespace RawBox

def payloadStart (b : RawBox) : ℕ := b.start + b.header

def finish (b : RawBox) : ℕ := b.payloadStart + b.payload.length

end RawBox

/-- Header length and total size announced at the front of `bytes`. -/
def readSize (bytes : List UInt8) : Option (ℕ × ℕ) := do
  let (size, rest) ← readUInt 4 bytes
  if size = 0 then
    return (8, bytes.length)
  else if size = 1 then
    let (large, _) ← readUInt 8 (rest.drop 4)
    return (16, large)
  else
    return (8, size)

/-- One box at the front of `bytes`, and the bytes after it. -/
def readBox (start : ℕ) (bytes : List UInt8) : Option (RawBox × List UInt8) := do
  let (header, total) ← readSize bytes
  if header ≤ total ∧ total ≤ bytes.length then
    return (⟨start, header, (bytes.drop 4).take 4, (bytes.take total).drop header⟩,
      bytes.drop total)
  else none

/-- Split `bytes` into boxes; every byte has to belong to one. -/
def readBoxesAux : ℕ → ℕ → List UInt8 → Option (List RawBox)
  | _, _, [] => some []
  | 0, _, _ :: _ => none
  | fuel + 1, start, byte :: bytes => do
      let (b, rest) ← readBox start (byte :: bytes)
      let others ← readBoxesAux fuel b.finish rest
      return b :: others

/-- The boxes that tile `bytes`, the first of them at offset `start`. -/
def readBoxes (start : ℕ) (bytes : List UInt8) : Option (List RawBox) :=
  readBoxesAux bytes.length start bytes

theorem readBox_box {payload : List UInt8} (start : ℕ) (type : FourCC)
    (rest : List UInt8) (hsize : 8 + payload.length < 2 ^ 32) :
    readBox start (box type payload ++ rest) =
      some (⟨start, 8, type.bytes, payload⟩, rest) := by
  have hread : readSize (box type payload ++ rest) = some (8, 8 + payload.length) := by
    have hne : 8 + payload.length ≠ 0 ∧ 8 + payload.length ≠ 1 := by omega
    simp only [readSize, box, List.append_assoc]
    rw [readUInt_encode_of_lt (by simpa using hsize)]
    simp [hne.2]
  have hlen : (encode 4 (8 + payload.length) ++ type.bytes).length = 8 := by simp
  have hdrop4 : (box type payload ++ rest).drop 4 = type.bytes ++ (payload ++ rest) := by
    simp only [box, List.append_assoc]
    exact List.drop_left' (length_encode 4 _)
  have htake : (box type payload ++ rest).take (8 + payload.length) = box type payload :=
    List.take_left' (length_box type payload)
  have hdrop : (box type payload ++ rest).drop (8 + payload.length) = rest :=
    List.drop_left' (length_box type payload)
  have hpayload : (box type payload).drop 8 = payload := List.drop_left' hlen
  simp only [readBox, hread, Option.bind_eq_bind, Option.bind_some]
  rw [if_pos ⟨by omega, by simp⟩, hdrop4, htake, hdrop, hpayload,
    List.take_left' type.length_bytes]
  rfl

/-- Where each of a run of boxes lies when the first starts at `start`. -/
def place : ℕ → List (FourCC × List UInt8) → List RawBox
  | _, [] => []
  | start, (type, payload) :: rest =>
      ⟨start, 8, type.bytes, payload⟩ :: place (start + (8 + payload.length)) rest

theorem readBoxesAux_flatMap (fuel start : ℕ) (bs : List (FourCC × List UInt8))
    (hfuel : bs.length ≤ fuel) (hsize : ∀ b ∈ bs, 8 + b.2.length < 2 ^ 32) :
    readBoxesAux fuel start (bs.flatMap fun b ↦ box b.1 b.2) = some (place start bs) := by
  induction bs generalizing fuel start with
  | nil => cases fuel <;> rfl
  | cons b bs ih =>
      obtain ⟨type, payload⟩ := b
      rcases fuel with _ | fuel
      · simp at hfuel
      · have hb := readBox_box start type (bs.flatMap fun b ↦ box b.1 b.2)
          (hsize (type, payload) (by simp))
        have hbs := ih fuel (start + (8 + payload.length))
          (by simpa using hfuel) fun b hb ↦ hsize b (by simp [hb])
        obtain ⟨byte, tail, hcons⟩ : ∃ byte tail,
            box type payload ++ (bs.flatMap fun b ↦ box b.1 b.2) = byte :: tail := by
          apply List.exists_cons_of_length_pos
          simp
        simp only [List.flatMap_cons, hcons] at hb ⊢
        simp only [readBoxesAux, hb, Option.bind_eq_bind, Option.bind_some,
          RawBox.finish, RawBox.payloadStart, Nat.add_assoc, hbs, place]
        rfl

theorem readBoxes_flatMap (start : ℕ) (bs : List (FourCC × List UInt8))
    (hsize : ∀ b ∈ bs, 8 + b.2.length < 2 ^ 32) :
    readBoxes start (bs.flatMap fun b ↦ box b.1 b.2) = some (place start bs) := by
  apply readBoxesAux_flatMap _ _ _ _ hsize
  clear hsize
  induction bs with
  | nil => simp
  | cons b bs ih =>
      simp only [List.length_cons, List.flatMap_cons, List.length_append, length_box]
      omega

end IsoBox
