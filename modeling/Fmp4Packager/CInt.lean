import Mathlib.Data.Int.Basic
import Mathlib.Tactic.NormNum

/-!
# The signed integers of the source

`int` and `int64_t` values are kept as integers.  A conversion takes the value
modulo the width of the type, and so does arithmetic that leaves its range.
-/

namespace Fmp4Packager

/-- `(int)v`: the low 32 bits, read as a signed number. -/
def toInt (v : ℤ) : ℤ :=
  let low := (v % 0x100000000).toNat
  if low < 0x80000000 then low else low - 0x100000000

/-- `(int64_t)v`: the low 64 bits, read as a signed number. -/
def toInt64 (v : ℤ) : ℤ :=
  let low := (v % 0x10000000000000000).toNat
  if low < 0x8000000000000000 then low else low - 0x10000000000000000

def FitsInt64 (v : ℤ) : Prop := -2 ^ 63 ≤ v ∧ v < 2 ^ 63

instance (v : ℤ) : Decidable (FitsInt64 v) := inferInstanceAs (Decidable (_ ∧ _))

theorem toInt_eq_self {v : ℤ} (hlow : -2 ^ 31 ≤ v) (hhigh : v < 2 ^ 31) : toInt v = v := by
  simp only [toInt]
  split <;> omega

theorem toInt_natCast {n : ℕ} (hn : n < 2 ^ 31) : toInt n = n :=
  toInt_eq_self (by omega) (by omega)

theorem toInt_add {a b : ℕ} (h : a + b < 2 ^ 31) : toInt ((a : ℤ) + b) = (a + b : ℕ) := by
  rw [← Nat.cast_add, toInt_natCast h]

theorem toInt_sub {a b : ℕ} (hle : b ≤ a) (ha : a < 2 ^ 31) :
    toInt ((a : ℤ) - b) = (a - b : ℕ) := by
  rw [← Nat.cast_sub hle, toInt_natCast (by omega)]

theorem toInt64_eq_self {v : ℤ} (hlow : -2 ^ 63 ≤ v) (hhigh : v < 2 ^ 63) :
    toInt64 v = v := by
  simp only [toInt64]
  split <;> omega

theorem le_toInt (v : ℤ) : -2 ^ 31 ≤ toInt v := by
  simp only [toInt]
  split <;> omega

theorem toInt_lt (v : ℤ) : toInt v < 2 ^ 31 := by
  simp only [toInt]
  split <;> omega

theorem le_toInt64 (v : ℤ) : -2 ^ 63 ≤ toInt64 v := by
  simp only [toInt64]
  split <;> omega

theorem toInt64_lt (v : ℤ) : toInt64 v < 2 ^ 63 := by
  simp only [toInt64]
  split <;> omega

theorem toInt64_congr {v w : ℤ} (h : v % 2 ^ 64 = w % 2 ^ 64) : toInt64 v = toInt64 w := by
  have h' : v % 0x10000000000000000 = w % 0x10000000000000000 := h
  rw [toInt64, toInt64, h']

theorem toInt64_natCast_nonneg_iff {n : ℕ} (hn : n < 2 ^ 64) : 0 ≤ toInt64 n ↔ n < 2 ^ 63 := by
  simp only [toInt64]
  split <;> omega

theorem toInt64_emod (v : ℤ) : toInt64 v % 2 ^ 64 = v % 2 ^ 64 := by
  simp only [toInt64]
  split <;> omega

/-- `(uint32_t)v`. -/
theorem toNat_uint32 (v : ℤ) : ((UInt32.ofInt v).toNat : ℤ) = v % 2 ^ 32 := by
  rw [UInt32.ofInt, UInt32.toNat_ofNat']
  omega

end Fmp4Packager
