import Fmp4Packager.Format.FragmentReader

/-!
# Boxes read along a schema

A schema says in which order fields and boxes stand and what the boxes hold, but not
the values.  The reader takes a box by the size that it declares; what the schema lists
for the box has to end where the box ends.
-/

namespace IsoBox

/-- The form of a field. -/
inductive FieldSchema where
  | uint (width : ℕ)
  | sint (width : ℕ)
  | bytes (length : ℕ)
  deriving DecidableEq, Repr

/-- A field with its value. -/
inductive BoxField where
  | uint (width value : ℕ)
  | sint (width : ℕ) (value : ℤ)
  | bytes (data : List UInt8)
  deriving DecidableEq, Repr

inductive BoxSchema where
  | field (form : FieldSchema)
  | box (full : Bool) (items : List BoxSchema)

/-- What is found along a schema; a box comes with the size that it declares, its type
and, if it is a full box, its version and flags. -/
inductive FoundItem where
  | field (value : BoxField)
  | box (size : ℕ) (type : List UInt8) (versionFlags : Option (ℕ × ℕ)) (items : List FoundItem)

def readField : FieldSchema → List UInt8 → Option (BoxField × List UInt8)
  | .uint width, bytes => do
      let (value, rest) ← readUInt width bytes
      return (.uint width value, rest)
  | .sint width, bytes => do
      let (value, rest) ← readUInt width bytes
      return (.sint width (signed width value), rest)
  | .bytes length, bytes => do
      let (data, rest) ← readBytes length bytes
      return (.bytes data, rest)

/-- The version and flags that a full box begins with. -/
def readFullHeader (full : Bool) (bytes : List UInt8) : Option (Option (ℕ × ℕ) × List UInt8) :=
  if full then do
    let (version, flags, rest) ← readVersionFlags bytes
    return (some (version, flags), rest)
  else return (none, bytes)

mutual

def readItem : BoxSchema → List UInt8 → Option (FoundItem × List UInt8)
  | .field form, bytes => do
      let (value, rest) ← readField form bytes
      return (.field value, rest)
  | .box full items, bytes => do
      let (size, _) ← readUInt 4 bytes
      let (b, rest) ← readBox 0 bytes
      let (versionFlags, body) ← readFullHeader full b.payload
      let (found, left) ← readItems items body
      if left = [] then return (.box size b.type versionFlags found, rest) else none

def readItems : List BoxSchema → List UInt8 → Option (List FoundItem × List UInt8)
  | [], bytes => some ([], bytes)
  | item :: items, bytes => do
      let (first, rest) ← readItem item bytes
      let (others, rest) ← readItems items rest
      return (first :: others, rest)

end

open BigEndian

theorem readUInt_box {type : FourCC} {payload : List UInt8} (hsize : 8 + payload.length < 2 ^ 32)
    (rest : List UInt8) :
    readUInt 4 (box type payload ++ rest) =
      some (8 + payload.length, type.bytes ++ payload ++ rest) := by
  rw [box, List.append_assoc, List.append_assoc, readUInt_encode_of_lt hsize,
    List.append_assoc]

/-- A box is read when what it holds is. -/
theorem readItem_box {type : FourCC} {full : Bool} {schemas : List BoxSchema}
    {payload body : List UInt8} {versionFlags : Option (ℕ × ℕ)} {found : List FoundItem}
    (hsize : 8 + payload.length < 2 ^ 32)
    (hheader : readFullHeader full payload = some (versionFlags, body))
    (hitems : readItems schemas body = some (found, [])) (rest : List UInt8) :
    readItem (.box full schemas) (box type payload ++ rest) =
      some (.box (8 + payload.length) type.bytes versionFlags found, rest) := by
  simp only [readItem, readUInt_box hsize, readBox_box 0 type rest hsize, hheader, hitems,
    Option.bind_eq_bind, Option.bind_some, if_true, Option.pure_def]

/-- A full box keeps the low 24 bits of its flags. -/
theorem readItem_fullBox {type : FourCC} {version flags : ℕ} {schemas : List BoxSchema}
    {body : List UInt8} {found : List FoundItem} (hversion : version < 2 ^ 8)
    (hsize : 12 + body.length < 2 ^ 32) (hitems : readItems schemas body = some (found, []))
    (rest : List UInt8) :
    readItem (.box true schemas) (fullBox type version flags body ++ rest) =
      some (.box (12 + body.length) type.bytes (some (version, flags % 2 ^ 24)) found, rest) := by
  have hflags : flags % 2 ^ 24 < 2 ^ 24 := Nat.mod_lt _ (by norm_num)
  have hheader : readFullHeader true (encode 1 version ++ encode 3 flags ++ body) =
      some (some (version, flags % 2 ^ 24), body) := by
    rw [readFullHeader, if_pos rfl, List.append_assoc, ← encode_mod 3 flags,
      show 256 ^ 3 = 2 ^ 24 from rfl, readVersionFlags_encode version _ body hversion hflags]
    rfl
  have hlength : 8 + (encode 1 version ++ encode 3 flags ++ body).length = 12 + body.length := by
    rw [List.length_append, List.length_append, length_encode, length_encode]
    omega
  rw [fullBox, readItem_box (hlength ▸ hsize) hheader hitems rest, hlength]

theorem readItems_cons {schema : BoxSchema} {schemas : List BoxSchema}
    {bytes middle rest : List UInt8} {found : FoundItem} {others : List FoundItem}
    (hitem : readItem schema bytes = some (found, middle))
    (hitems : readItems schemas middle = some (others, rest)) :
    readItems (schema :: schemas) bytes = some (found :: others, rest) := by
  simp only [readItems, hitem, hitems, Option.bind_eq_bind, Option.bind_some, Option.pure_def]

end IsoBox
