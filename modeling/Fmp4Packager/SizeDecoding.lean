import Fmp4Packager.EbmlScan

/-!
# Decoding data sizes

A data size is read back in every width, and one that is cut off is refused.  A size
with all value bits set is reserved for an unknown size, but `ebml_read_size` takes it
for a number like any other, and the scan steps over so many bytes.
-/

namespace Fmp4Packager

open Ebml

namespace EbmlParser

/-- What the format asks of `ebml_read_size` on `bytes`, which lie at `p`. -/
structure DecodesSize (buf : List UInt8) (p : ℤ) (bytes : List UInt8) : Prop where
  /-- A size is read back, whatever follows it. -/
  known : ∀ (width size : ℕ) (rest : List UInt8), 1 ≤ width → width ≤ 8 →
    size < 2 ^ (7 * width) - 1 → bytes = sizeField width size ++ rest →
      ebmlReadSize buf p bytes.length = .ok (some (width, size))
  /-- A size that is cut off is refused. -/
  short : bytes = [] ∨ bytes.length < vintWidth bytes → ebmlReadSize buf p bytes.length = .ok none
  /-- The reserved size is one that the scan does not step over. -/
  unknown : ∀ (width : ℕ) (rest : List UInt8), 1 ≤ width → width ≤ 8 →
    bytes = unknownSize width ++ rest →
      ∃ size : ℕ, ebmlReadSize buf p bytes.length = .ok (some (width, size)) ∧ (size : ℤ) ≤ 0

def BeginsWithUnknownSize (bytes : List UInt8) : Prop :=
  ∃ width, 1 ≤ width ∧ width ≤ 8 ∧ unknownSize width <+: bytes

/-- The reserved size of every width is read as a positive number. -/
theorem ebmlReadSize_unknownSize {buf : List UInt8} {p : ℤ} {width : ℕ} {rest : List UInt8}
    (h : PointsTo buf p (unknownSize width ++ rest)) (hone : 1 ≤ width) (height : width ≤ 8) :
    ebmlReadSize buf p (unknownSize width ++ rest).length =
        .ok (some (width, 2 ^ (7 * width) - 1)) ∧
      (0 : ℤ) < (2 ^ (7 * width) - 1 : ℕ) := by
  constructor
  · rw [ebmlReadSize_of_pointsTo h, readSize_unknownSize hone height]
  · have hpow : 2 ^ 1 ≤ 2 ^ (7 * width) := Nat.pow_le_pow_right (by norm_num) (by omega)
    omega

/-- Sizes are decoded as the format defines them, but for the reserved ones. -/
theorem decodesSize_iff {buf : List UInt8} {p : ℤ} {bytes : List UInt8}
    (h : PointsTo buf p bytes) :
    DecodesSize buf p bytes ↔ ¬ BeginsWithUnknownSize bytes := by
  constructor
  · rintro hdecodes ⟨width, hone, height, rest, rfl⟩
    obtain ⟨hread, hpos⟩ := ebmlReadSize_unknownSize h hone height
    obtain ⟨size, hsize, hle⟩ := hdecodes.unknown width rest hone height rfl
    rw [hread] at hsize
    obtain ⟨-, rfl⟩ := Prod.mk.injEq .. ▸ Option.some.inj (Except.ok.inj hsize)
    omega
  · intro hknown
    rw [BeginsWithUnknownSize] at hknown
    constructor
    · rintro width size rest hone height hsize rfl
      rw [ebmlReadSize_of_pointsTo h, readSize_sizeField hone height (by omega)]
    · intro hshort
      rw [ebmlReadSize_of_pointsTo h, readSize_of_short hshort]
    · rintro width rest hone height rfl
      exact absurd ⟨width, hone, height, List.prefix_append ..⟩ hknown

theorem decodesSize_iff_five :
    DecodesSize [0xEC, 0x40, 5, 9] 1 [0x40, 5, 9] ↔ ¬ BeginsWithUnknownSize [0x40, 5, 9] :=
  decodesSize_iff ⟨[0xEC], [], rfl, rfl⟩

/-- The one-byte reserved size is taken for 127. -/
theorem not_decodesSize :
    ¬ ∀ (buf : List UInt8) (p : ℤ) (bytes : List UInt8), PointsTo buf p bytes →
      DecodesSize buf p bytes := by
  intro h
  obtain ⟨size, hread, hle⟩ :=
    (h [0xFF] 0 [0xFF] (pointsTo_self _)).unknown 1 [] le_rfl (by decide) (by decide)
  have hsize : ebmlReadSize [0xFF] 0 1 = .ok (some (1, 127)) := by decide
  obtain ⟨-, rfl⟩ := Prod.mk.injEq .. ▸ Option.some.inj (Except.ok.inj (hsize.symm.trans hread))
  exact absurd hle (by decide)

end EbmlParser

end Fmp4Packager
