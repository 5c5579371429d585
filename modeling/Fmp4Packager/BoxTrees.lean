import Fmp4Packager.BoxBuilder
import Fmp4Packager.Format.BoxSchema

/-!
# Trees of boxes through the builder

`BeginBox` reserves the size of a box and `EndBox` patches it, while the boxes around
it are still open.  Whatever is written in between, the bytes are those of the tree, and
a reader that knows the form of the tree finds everything in it.
-/

namespace Fmp4Packager

open BigEndian IsoBox

/-- A call that appends to the builder. -/
inductive Write where
  | u8 (v : UInt8)
  | u16 (v : UInt16)
  | u24 (v : UInt32)
  | u32 (v : UInt32)
  | u64 (v : UInt64)
  | s32 (v : Int32)
  | s64 (v : Int64)
  | bytes (data : Option (List UInt8)) (len : ℕ)
  | type (fourcc : FourCC)
  | string (s : String) (nullTerminate : Bool)
  | zeros (n : ℕ)

namespace Write

def emit (b : BoxBuilder) : Write → BoxBuilder
  | u8 v => b.u8 v
  | u16 v => b.u16 v
  | u24 v => b.u24 v
  | u32 v => b.u32 v
  | u64 v => b.u64 v
  | s32 v => b.s32 v
  | s64 v => b.s64 v
  | bytes data len => b.bytes data len
  | type fourcc => b.type fourcc
  | string s nullTerminate => if nullTerminate then b.string s else b.stringBare s
  | zeros n => b.zeros n

/-- What the call says, byte by byte; `U24` takes the low 24 bits. -/
def encode : Write → List UInt8
  | u8 v => BigEndian.encode 1 v.toNat
  | u16 v => BigEndian.encode 2 v.toNat
  | u24 v => BigEndian.encode 3 v.toNat
  | u32 v => BigEndian.encode 4 v.toNat
  | u64 v => BigEndian.encode 8 v.toNat
  | s32 v => BigEndian.encode 4 v.toUInt32.toNat
  | s64 v => BigEndian.encode 8 v.toUInt64.toNat
  | bytes data len => (data.getD []).take len
  | type fourcc => fourcc.bytes
  | string s nullTerminate =>
      (s.toList.map fun c ↦ UInt8.ofNat c.toNat) ++ if nullTerminate then [0] else []
  | zeros n => List.replicate n 0

def form : Write → FieldSchema
  | u8 _ => .uint 1
  | u16 _ => .uint 2
  | u24 _ => .uint 3
  | u32 _ => .uint 4
  | u64 _ => .uint 8
  | s32 _ => .sint 4
  | s64 _ => .sint 8
  | w => .bytes w.encode.length

/-- The value that a reader finds. -/
def value : Write → BoxField
  | u8 v => .uint 1 v.toNat
  | u16 v => .uint 2 v.toNat
  | u24 v => .uint 3 (v.toNat % 2 ^ 24)
  | u32 v => .uint 4 v.toNat
  | u64 v => .uint 8 v.toNat
  | s32 v => .sint 4 v.toInt
  | s64 v => .sint 8 v.toInt
  | w => .bytes w.encode

theorem buf_emit (b : BoxBuilder) (w : Write) : (w.emit b).buf = b.buf ++ w.encode := by
  cases w with
  | u8 v => simp [emit, encode, BigEndian.encode]
  | bytes data len =>
      cases data with
      | none => simp [emit, encode, BoxBuilder.bytes]
      | some data => simp [emit, encode]
  | string s nullTerminate => cases nullTerminate <;> simp [emit, encode]
  | _ => simp [emit, encode]

theorem readField_uint {width v : ℕ} (hv : v < 256 ^ width) (rest : List UInt8) :
    readField (.uint width) (BigEndian.encode width v ++ rest) = some (.uint width v, rest) := by
  rw [readField, readUInt_encode_of_lt hv]
  rfl

theorem readField_sint {width v : ℕ} (hv : v < 256 ^ width) (rest : List UInt8) :
    readField (.sint width) (BigEndian.encode width v ++ rest) =
      some (.sint width (signed width v), rest) := by
  rw [readField, readUInt_encode_of_lt hv]
  rfl

theorem readField_bytes (data rest : List UInt8) :
    readField (.bytes data.length) (data ++ rest) = some (.bytes data, rest) := by
  rw [readField, readBytes_append rest rfl]
  rfl

theorem readField_encode (w : Write) (rest : List UInt8) :
    readField w.form (w.encode ++ rest) = some (w.value, rest) := by
  cases w with
  | u8 v => exact readField_uint v.toNat_lt rest
  | u16 v => exact readField_uint v.toNat_lt rest
  | u24 v =>
      have hmod : v.toNat % 2 ^ 24 < 256 ^ 3 := Nat.mod_lt _ (by norm_num)
      rw [form, value, encode, ← encode_mod, show 256 ^ 3 = 2 ^ 24 from rfl]
      exact readField_uint hmod rest
  | u32 v => exact readField_uint v.toNat_lt rest
  | u64 v => exact readField_uint v.toNat_lt rest
  | s32 v =>
      rw [form, value, encode, ← signed_toUInt32]
      exact readField_sint v.toUInt32.toNat_lt rest
  | s64 v =>
      rw [form, value, encode, ← signed_toUInt64]
      exact readField_sint v.toUInt64.toNat_lt rest
  | bytes data len => exact readField_bytes _ rest
  | type fourcc => exact readField_bytes _ rest
  | string s nullTerminate => exact readField_bytes _ rest
  | zeros n => exact readField_bytes _ rest

end Write

/-- A call that appends, or a box with what is written before it is closed. -/
inductive BoxItem where
  | write (w : Write)
  | box (type : FourCC) (items : List BoxItem)
  | fullBox (type : FourCC) (version : UInt8) (flags : UInt32) (items : List BoxItem)

mutual

/-- The calls for an item; a box is opened, filled and closed. -/
def BoxItem.emit (b : BoxBuilder) : BoxItem → BoxBuilder
  | .write w => w.emit b
  | .box type items =>
      let (inner, start) := b.beginBox type
      (emitItems inner items).endBox start
  | .fullBox type version flags items =>
      let (inner, start) := b.beginFullBox type version flags
      (emitItems inner items).endBox start

def emitItems (b : BoxBuilder) : List BoxItem → BoxBuilder
  | [] => b
  | item :: items => emitItems (item.emit b) items

end

mutual

def BoxItem.encode : BoxItem → List UInt8
  | .write w => w.encode
  | .box type items => IsoBox.box type (encodeItems items)
  | .fullBox type version flags items =>
      IsoBox.fullBox type version.toNat flags.toNat (encodeItems items)

def encodeItems : List BoxItem → List UInt8
  | [] => []
  | item :: items => item.encode ++ encodeItems items

end

mutual

/-- The form of an item, without the values. -/
def BoxItem.schema : BoxItem → BoxSchema
  | .write w => .field w.form
  | .box _ items => .box false (schemas items)
  | .fullBox _ _ _ items => .box true (schemas items)

def schemas : List BoxItem → List BoxSchema
  | [] => []
  | item :: items => item.schema :: schemas items

end

mutual

/-- What a reader finds of an item: of the flags, the 24 bits that a full box has. -/
def BoxItem.found : BoxItem → FoundItem
  | .write w => .field w.value
  | .box type items => .box (8 + (encodeItems items).length) type.bytes none (foundItems items)
  | .fullBox type version flags items =>
      .box (12 + (encodeItems items).length) type.bytes
        (some (version.toNat, flags.toNat % 2 ^ 24)) (foundItems items)

def foundItems : List BoxItem → List FoundItem
  | [] => []
  | item :: items => item.found :: foundItems items

end

mutual

/-- A closed box stands behind what was there before; the sizes of the boxes around it
are still open. -/
theorem BoxItem.buf_emit (b : BoxBuilder) (item : BoxItem) :
    (item.emit b).buf = b.buf ++ item.encode := by
  cases item with
  | write w => exact w.buf_emit b
  | box type items =>
      have hinner := buf_emitItems (b.beginBox type).1 items
      rw [BoxBuilder.buf_beginBox] at hinner
      exact BoxBuilder.buf_endBox hinner
  | fullBox type version flags items =>
      have hinner := buf_emitItems (b.beginFullBox type version flags).1 items
      rw [BoxBuilder.buf_beginFullBox] at hinner
      exact BoxBuilder.buf_endFullBox version flags hinner

theorem buf_emitItems (b : BoxBuilder) (items : List BoxItem) :
    (emitItems b items).buf = b.buf ++ encodeItems items := by
  cases items with
  | nil => rw [emitItems, encodeItems, List.append_nil]
  | cons item items =>
      rw [emitItems, buf_emitItems, BoxItem.buf_emit, encodeItems, List.append_assoc]

end

mutual

theorem BoxItem.readItem_encode (item : BoxItem) (hsize : item.encode.length < 2 ^ 32)
    (rest : List UInt8) : readItem item.schema (item.encode ++ rest) = some (item.found, rest) := by
  cases item with
  | write w =>
      rw [BoxItem.schema, BoxItem.encode, readItem, w.readField_encode rest]
      rfl
  | box type items =>
      rw [BoxItem.encode, length_box] at hsize
      have hitems := readItems_encodeItems items (by omega) []
      rw [List.append_nil] at hitems
      exact readItem_box hsize rfl hitems rest
  | fullBox type version flags items =>
      rw [BoxItem.encode, length_fullBox] at hsize
      have hitems := readItems_encodeItems items (by omega) []
      rw [List.append_nil] at hitems
      exact readItem_fullBox version.toNat_lt hsize hitems rest

theorem readItems_encodeItems (items : List BoxItem) (hsize : (encodeItems items).length < 2 ^ 32)
    (rest : List UInt8) :
    readItems (schemas items) (encodeItems items ++ rest) = some (foundItems items, rest) := by
  cases items with
  | nil => rfl
  | cons item items =>
      rw [encodeItems, List.length_append] at hsize
      have hitem := item.readItem_encode (by omega) (encodeItems items ++ rest)
      have hitems := readItems_encodeItems items (by omega) rest
      rw [schemas, encodeItems, List.append_assoc]
      exact readItems_cons hitem hitems

end

/-- The builder writes the items down as a tree that can be read and patched. -/
structure SerialisesTree (b : BoxBuilder) (items : List BoxItem) : Prop where
  /-- What was there before stays, and the serialisation follows. -/
  appended : (emitItems b items).buf = b.buf ++ encodeItems items
  /-- A reader that knows the form finds the values, every size and every end. -/
  readable : ∀ rest, readItems (schemas items) (encodeItems items ++ rest) =
    some (foundItems items, rest)
  /-- Whatever is written later, a patch inside changes its four bytes only. -/
  patchable : ∀ (later : List BoxItem) (offset : ℕ) (value : UInt32),
    offset + 4 ≤ (emitItems b items).buf.length →
      ((emitItems (emitItems b items) later).patch32 offset value).buf =
        (emitItems (emitItems b items) later).buf.take offset ++ encode 4 value.toNat ++
          (emitItems (emitItems b items) later).buf.drop (offset + 4)

theorem serialisesTree (b : BoxBuilder) {items : List BoxItem}
    (hsize : (encodeItems items).length < 2 ^ 32) : SerialisesTree b items where
  appended := buf_emitItems b items
  readable := readItems_encodeItems items hsize
  patchable := by
    intro later offset value hin
    apply BoxBuilder.buf_patch32_of_le
    rw [buf_emitItems, List.length_append]
    omega

/-- A fragment that holds its header and some free bytes. -/
theorem serialisesTree_moof :
    SerialisesTree ⟨[1, 2]⟩ [.box ⟨'m', 'o', 'o', 'f'⟩
      [.fullBox ⟨'m', 'f', 'h', 'd'⟩ 0 0 [.write (.u32 42)], .write (.zeros 3)]] :=
  serialisesTree _ (by decide)

end Fmp4Packager
