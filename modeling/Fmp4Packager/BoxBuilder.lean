import Fmp4Packager.Format.Box

/-!
# The box builder

`BoxBuilder` appends big-endian fields to a byte buffer and back-patches box
sizes.  The first half is the source's class, method by method; the second
half describes every method by what it appends, so that later modules never
unfold a method again.
-/

namespace Fmp4Packager

open BigEndian IsoBox

structure BoxBuilder where
  buf : List UInt8 := []
  deriving DecidableEq, Repr

namespace BoxBuilder

def u8 (b : BoxBuilder) (v : UInt8) : BoxBuilder := ⟨b.buf ++ [v]⟩

def u16 (b : BoxBuilder) (v : UInt16) : BoxBuilder :=
  (b.u8 (v >>> 8).toUInt8).u8 (v &&& 0xFF).toUInt8

def u24 (b : BoxBuilder) (v : UInt32) : BoxBuilder :=
  ((b.u8 ((v >>> 16) &&& 0xFF).toUInt8).u8 ((v >>> 8) &&& 0xFF).toUInt8).u8
    (v &&& 0xFF).toUInt8

def u32 (b : BoxBuilder) (v : UInt32) : BoxBuilder :=
  (((b.u8 ((v >>> 24) &&& 0xFF).toUInt8).u8 ((v >>> 16) &&& 0xFF).toUInt8).u8
    ((v >>> 8) &&& 0xFF).toUInt8).u8 (v &&& 0xFF).toUInt8

def u64 (b : BoxBuilder) (v : UInt64) : BoxBuilder :=
  (b.u32 (v >>> 32).toUInt32).u32 (v &&& 0xFFFFFFFF).toUInt32

def s32 (b : BoxBuilder) (v : Int32) : BoxBuilder := b.u32 v.toUInt32

def s64 (b : BoxBuilder) (v : Int64) : BoxBuilder := b.u64 v.toUInt64

/-- `Bytes(data, len)`: a null pointer or an empty range writes nothing. -/
def bytes (b : BoxBuilder) (data : Option (List UInt8)) (len : ℕ) : BoxBuilder :=
  match data with
  | none => b
  | some data => if len = 0 then b else ⟨b.buf ++ data.take len⟩

def type (b : BoxBuilder) (fourcc : FourCC) : BoxBuilder := b.bytes (some fourcc.bytes) 4

/-- `String(s)`: the characters and a terminating zero. -/
def string (b : BoxBuilder) (s : String) : BoxBuilder :=
  let chars := s.toList.map fun c ↦ UInt8.ofNat c.toNat
  (b.bytes (some chars) chars.length).u8 0

/-- `String(s, false)`: the characters alone. -/
def stringBare (b : BoxBuilder) (s : String) : BoxBuilder :=
  let chars := s.toList.map fun c ↦ UInt8.ofNat c.toNat
  b.bytes (some chars) chars.length

def zeros (b : BoxBuilder) (n : ℕ) : BoxBuilder := ⟨b.buf ++ List.replicate n 0⟩

def pos (b : BoxBuilder) : ℕ := b.buf.length

/-- `BeginBox`: a zero size placeholder and the type; the start offset is
returned with the builder. -/
def beginBox (b : BoxBuilder) (fourcc : FourCC) : BoxBuilder × ℕ :=
  let start := b.pos
  let b := b.u32 0
  (b.type fourcc, start)

def beginFullBox (b : BoxBuilder) (fourcc : FourCC) (version : UInt8) (flags : UInt32) :
    BoxBuilder × ℕ :=
  let (b, start) := b.beginBox fourcc
  ((b.u8 version).u24 flags, start)

/-- `Patch32`: four stores into the buffer. -/
def patch32 (b : BoxBuilder) (offset : ℕ) (value : UInt32) : BoxBuilder :=
  ⟨(((b.buf.set offset ((value >>> 24) &&& 0xFF).toUInt8).set
    (offset + 1) ((value >>> 16) &&& 0xFF).toUInt8).set
    (offset + 2) ((value >>> 8) &&& 0xFF).toUInt8).set
    (offset + 3) (value &&& 0xFF).toUInt8⟩

/-- `EndBox`: the same four stores, of the distance from the box start. -/
def endBox (b : BoxBuilder) (start : ℕ) : BoxBuilder :=
  b.patch32 start (UInt32.ofNat (b.pos - start))

private theorem toUInt8_shift (v : UInt32) (k : ℕ) (hk : k < 32) :
    ((v >>> UInt32.ofNat k) &&& 0xFF).toUInt8 = UInt8.ofNat (v.toNat / 2 ^ k) := by
  apply UInt8.toNat_inj.mp
  have hmask : (0xFF : UInt32).toNat = 2 ^ 8 - 1 := rfl
  rw [UInt32.toNat_toUInt8, UInt32.toNat_and, UInt32.toNat_shiftRight, hmask,
    Nat.and_two_pow_sub_one_eq_mod, UInt32.toNat_ofNat', UInt8.toNat_ofNat',
    Nat.shiftRight_eq_div_pow, Nat.mod_eq_of_lt (by omega : k < 2 ^ 32),
    Nat.mod_eq_of_lt hk, Nat.mod_mod]

private theorem encode_four (v : ℕ) :
    encode 4 v = [UInt8.ofNat (v / 2 ^ 24), UInt8.ofNat (v / 2 ^ 16),
      UInt8.ofNat (v / 2 ^ 8), UInt8.ofNat v] := by
  simp [encode, Nat.div_div_eq_div_mul]

@[simp] theorem buf_u8 (b : BoxBuilder) (v : UInt8) : (b.u8 v).buf = b.buf ++ [v] := rfl

@[simp] theorem buf_u32 (b : BoxBuilder) (v : UInt32) :
    (b.u32 v).buf = b.buf ++ encode 4 v.toNat := by
  have h24 := toUInt8_shift v 24 (by omega)
  have h16 := toUInt8_shift v 16 (by omega)
  have h8 := toUInt8_shift v 8 (by omega)
  have h0 : (v &&& 0xFF).toUInt8 = UInt8.ofNat v.toNat := by
    simpa using toUInt8_shift v 0 (by omega)
  simp only [u32, buf_u8, encode_four, List.append_assoc, List.cons_append, List.nil_append]
  rw [← h24, ← h16, ← h8, h0]
  rfl

@[simp] theorem buf_u16 (b : BoxBuilder) (v : UInt16) :
    (b.u16 v).buf = b.buf ++ encode 2 v.toNat := by
  have hhigh : (v >>> 8).toUInt8 = UInt8.ofNat (v.toNat / 256) := by
    apply UInt8.toNat_inj.mp
    simp [UInt16.toNat_shiftRight, Nat.shiftRight_eq_div_pow]
  have hlow : (v &&& 0xFF).toUInt8 = UInt8.ofNat v.toNat := by
    apply UInt8.toNat_inj.mp
    have hmask : (0xFF : UInt16).toNat = 2 ^ 8 - 1 := rfl
    rw [UInt16.toNat_toUInt8, UInt16.toNat_and, hmask, Nat.and_two_pow_sub_one_eq_mod,
      UInt8.toNat_ofNat', Nat.mod_mod]
  simp [u16, hhigh, hlow, encode]

@[simp] theorem buf_u24 (b : BoxBuilder) (v : UInt32) :
    (b.u24 v).buf = b.buf ++ encode 3 v.toNat := by
  have h16 := toUInt8_shift v 16 (by omega)
  have h8 := toUInt8_shift v 8 (by omega)
  have h0 : (v &&& 0xFF).toUInt8 = UInt8.ofNat v.toNat := by
    simpa using toUInt8_shift v 0 (by omega)
  have hencode : encode 3 v.toNat = [UInt8.ofNat (v.toNat / 2 ^ 16),
      UInt8.ofNat (v.toNat / 2 ^ 8), UInt8.ofNat v.toNat] := by
    simp [encode, Nat.div_div_eq_div_mul]
  simp only [u24, buf_u8, hencode, List.append_assoc, List.cons_append, List.nil_append]
  rw [← h16, ← h8, h0]
  rfl

@[simp] theorem buf_u64 (b : BoxBuilder) (v : UInt64) :
    (b.u64 v).buf = b.buf ++ encode 8 v.toNat := by
  have hhigh : (v >>> 32).toUInt32.toNat = v.toNat / 256 ^ 4 := by
    have hlt := v.toNat_lt
    rw [UInt64.toNat_toUInt32, UInt64.toNat_shiftRight, Nat.shiftRight_eq_div_pow]
    exact Nat.mod_eq_of_lt (by simp; omega)
  have hlow : (v &&& 0xFFFFFFFF).toUInt32.toNat = v.toNat % 256 ^ 4 := by
    have hmask : (0xFFFFFFFF : UInt64).toNat = 2 ^ 32 - 1 := rfl
    rw [UInt64.toNat_toUInt32, UInt64.toNat_and, hmask, Nat.and_two_pow_sub_one_eq_mod,
      Nat.mod_mod, show (2 : ℕ) ^ 32 = 256 ^ 4 from rfl]
  rw [u64, buf_u32, buf_u32, hhigh, hlow, encode_mod, List.append_assoc,
    encode_append_encode]

@[simp] theorem buf_s32 (b : BoxBuilder) (v : Int32) :
    (b.s32 v).buf = b.buf ++ encode 4 v.toUInt32.toNat := buf_u32 b v.toUInt32

@[simp] theorem buf_s64 (b : BoxBuilder) (v : Int64) :
    (b.s64 v).buf = b.buf ++ encode 8 v.toUInt64.toNat := buf_u64 b v.toUInt64

@[simp] theorem buf_bytes (b : BoxBuilder) (data : List UInt8) (len : ℕ) :
    (b.bytes (some data) len).buf = b.buf ++ data.take len := by
  by_cases hlen : len = 0 <;> simp [bytes, hlen]

@[simp] theorem buf_type (b : BoxBuilder) (fourcc : FourCC) :
    (b.type fourcc).buf = b.buf ++ fourcc.bytes := by
  rw [type, buf_bytes, List.take_of_length_le (by simp)]

@[simp] theorem buf_string (b : BoxBuilder) (s : String) :
    (b.string s).buf = b.buf ++ ((s.toList.map fun c ↦ UInt8.ofNat c.toNat) ++ [0]) := by
  simp only [string, buf_u8, buf_bytes, List.take_length, List.append_assoc]

@[simp] theorem buf_stringBare (b : BoxBuilder) (s : String) :
    (b.stringBare s).buf = b.buf ++ s.toList.map fun c ↦ UInt8.ofNat c.toNat := by
  simp only [stringBare, buf_bytes, List.take_length]

@[simp] theorem buf_zeros (b : BoxBuilder) (n : ℕ) :
    (b.zeros n).buf = b.buf ++ List.replicate n 0 := rfl

@[simp] theorem beginBox_snd (b : BoxBuilder) (fourcc : FourCC) :
    (b.beginBox fourcc).2 = b.buf.length := rfl

@[simp] theorem buf_beginBox (b : BoxBuilder) (fourcc : FourCC) :
    (b.beginBox fourcc).1.buf = b.buf ++ (encode 4 0 ++ fourcc.bytes) := by
  simp [beginBox]

@[simp] theorem beginFullBox_snd (b : BoxBuilder) (fourcc : FourCC) (version : UInt8)
    (flags : UInt32) : (b.beginFullBox fourcc version flags).2 = b.buf.length := rfl

@[simp] theorem buf_beginFullBox (b : BoxBuilder) (fourcc : FourCC) (version : UInt8)
    (flags : UInt32) :
    (b.beginFullBox fourcc version flags).1.buf =
      b.buf ++ (encode 4 0 ++ fourcc.bytes ++
        (encode 1 version.toNat ++ encode 3 flags.toNat)) := by
  simp [beginFullBox, encode]

/-- A patch replaces exactly the four bytes at its offset. -/
theorem buf_patch32 {b : BoxBuilder} {before old after : List UInt8} {offset : ℕ}
    (value : UInt32) (hbuf : b.buf = before ++ old ++ after) (hold : old.length = 4)
    (hoffset : offset = before.length) :
    (b.patch32 offset value).buf = before ++ encode 4 value.toNat ++ after := by
  subst hoffset
  obtain ⟨p, q, r, s, rfl⟩ : ∃ p q r s, old = [p, q, r, s] := by
    match old, hold with
    | [p, q, r, s], _ => exact ⟨p, q, r, s, rfl⟩
  have h24 := toUInt8_shift value 24 (by omega)
  have h16 := toUInt8_shift value 16 (by omega)
  have h8 := toUInt8_shift value 8 (by omega)
  have h0 : (value &&& 0xFF).toUInt8 = UInt8.ofNat value.toNat := by
    simpa using toUInt8_shift value 0 (by omega)
  simp only [patch32, hbuf, encode_four, List.append_assoc]
  rw [← h24, ← h16, ← h8, ← h0]
  simp

theorem buf_patch32_of_le {b : BoxBuilder} {offset : ℕ} (hin : offset + 4 ≤ b.buf.length)
    (value : UInt32) :
    (b.patch32 offset value).buf =
      b.buf.take offset ++ encode 4 value.toNat ++ b.buf.drop (offset + 4) := by
  have hsplit : b.buf = b.buf.take offset ++ (b.buf.drop offset).take 4 ++
      b.buf.drop (offset + 4) := by
    rw [List.append_assoc, ← List.drop_drop, List.take_append_drop, List.take_append_drop]
  refine buf_patch32 value hsplit ?_ ?_
  · rw [List.length_take, List.length_drop]
    omega
  · rw [List.length_take]
    omega

/-- Closing a box that was opened on `b` and has since received `payload`
leaves the whole serialised box after the bytes of `b`. -/
theorem buf_endBox {b b' : BoxBuilder} {fourcc : FourCC} {payload : List UInt8}
    (hbuf : b'.buf = b.buf ++ (encode 4 0 ++ fourcc.bytes) ++ payload) :
    (b'.endBox b.buf.length).buf = b.buf ++ box fourcc payload := by
  have hsize : b'.pos - b.buf.length = 8 + payload.length := by
    simp [pos, hbuf]
    omega
  have hsplit : b'.buf = b.buf ++ encode 4 0 ++ (fourcc.bytes ++ payload) := by
    simp [hbuf]
  rw [endBox, buf_patch32 _ hsplit (length_encode 4 0) rfl, hsize, UInt32.toNat_ofNat']
  simp only [box, List.append_assoc]
  rw [show (2 : ℕ) ^ 32 = 256 ^ 4 from rfl, encode_mod]

theorem buf_endFullBox {b b' : BoxBuilder} {fourcc : FourCC} (version : UInt8)
    (flags : UInt32) {payload : List UInt8}
    (hbuf : b'.buf = b.buf ++ (encode 4 0 ++ fourcc.bytes ++
      (encode 1 version.toNat ++ encode 3 flags.toNat)) ++ payload) :
    (b'.endBox b.buf.length).buf =
      b.buf ++ fullBox fourcc version.toNat flags.toNat payload := by
  apply buf_endBox
  simp [hbuf]

end BoxBuilder

end Fmp4Packager
