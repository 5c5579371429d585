import Mathlib.Data.List.Induction
import Mathlib.Tactic.Ring

/-!
# Big-endian integers over byte lists

Writing a number most significant byte first, reading it back, and the
arithmetic that ties the two together.  Nothing here depends on a particular
container format.
-/

namespace BigEndian

/-- The low `n` bytes of `v`, most significant byte first. -/
def encode : ℕ → ℕ → List UInt8
  | 0, _ => []
  | n + 1, v => encode n (v / 256) ++ [UInt8.ofNat v]

/-- The number a byte string spells, continuing from the digits in `acc`. -/
def decodeFrom (acc : ℕ) (bytes : List UInt8) : ℕ :=
  bytes.foldl (fun value byte ↦ value * 256 + byte.toNat) acc

/-- The number a byte string spells. -/
def decode (bytes : List UInt8) : ℕ := decodeFrom 0 bytes

@[simp] theorem decodeFrom_nil (acc : ℕ) : decodeFrom acc [] = acc := rfl

@[simp] theorem decodeFrom_cons (acc : ℕ) (byte : UInt8) (bytes : List UInt8) :
    decodeFrom acc (byte :: bytes) = decodeFrom (acc * 256 + byte.toNat) bytes := rfl

theorem decodeFrom_append (acc : ℕ) (xs ys : List UInt8) :
    decodeFrom acc (xs ++ ys) = decodeFrom (decodeFrom acc xs) ys := by
  simp [decodeFrom, List.foldl_append]

/-- The digits in the accumulator stand above those of the byte string. -/
theorem decodeFrom_eq (acc : ℕ) (bytes : List UInt8) :
    decodeFrom acc bytes = acc * 256 ^ bytes.length + decode bytes := by
  induction bytes generalizing acc with
  | nil => simp [decode]
  | cons byte bytes ih =>
      rw [decode, decodeFrom_cons, decodeFrom_cons, ih, ih (0 * 256 + byte.toNat),
        List.length_cons, Nat.pow_succ]
      ring

@[simp] theorem length_encode (n v : ℕ) : (encode n v).length = n := by
  induction n generalizing v with
  | zero => rfl
  | succ n ih => simp [encode, ih]

/-- Reading `n` written bytes shifts the accumulator by `n` places and adds
the number, reduced to the width that was written. -/
theorem decodeFrom_encode (acc n v : ℕ) :
    decodeFrom acc (encode n v) = acc * 256 ^ n + v % 256 ^ n := by
  induction n generalizing v with
  | zero => simp [encode, Nat.mod_one]
  | succ n ih =>
      have hlow : (UInt8.ofNat v).toNat = v % 256 := by simp
      rw [encode, decodeFrom_append, ih, decodeFrom_cons, decodeFrom_nil, hlow,
        Nat.pow_succ, Nat.mul_comm (256 ^ n) 256, Nat.mod_mul]
      ring

theorem decode_encode (n v : ℕ) : decode (encode n v) = v % 256 ^ n := by
  simp [decode, decodeFrom_encode]

theorem decode_encode_of_lt {n v : ℕ} (hv : v < 256 ^ n) :
    decode (encode n v) = v := by
  rw [decode_encode, Nat.mod_eq_of_lt hv]

theorem encode_mod (n v : ℕ) : encode n (v % 256 ^ n) = encode n v := by
  induction n generalizing v with
  | zero => rfl
  | succ n ih =>
      have hdiv : v % 256 ^ (n + 1) / 256 = v / 256 % 256 ^ n := by
        rw [Nat.pow_succ, Nat.mul_comm, Nat.mod_mul_right_div_self]
      have hlow : UInt8.ofNat (v % 256 ^ (n + 1)) = UInt8.ofNat v := by
        apply UInt8.toNat_inj.mp
        rw [UInt8.toNat_ofNat', UInt8.toNat_ofNat']
        exact Nat.mod_mod_of_dvd v (Dvd.intro_left (256 ^ n) (Nat.pow_succ ..).symm)
      rw [encode, encode, hdiv, ih, hlow]

/-- The leading byte of an `n + 1` byte number is its most significant
digit. -/
theorem encode_succ_eq_cons (n v : ℕ) :
    encode (n + 1) v = UInt8.ofNat (v / 256 ^ n) :: encode n v := by
  induction n generalizing v with
  | zero => simp [encode]
  | succ n ih =>
      have hdiv : v / 256 / 256 ^ n = v / 256 ^ (n + 1) := by
        rw [Nat.div_div_eq_div_mul, Nat.pow_succ, Nat.mul_comm]
      calc
        encode (n + 1 + 1) v = encode (n + 1) (v / 256) ++ [UInt8.ofNat v] := rfl
        _ = UInt8.ofNat (v / 256 ^ (n + 1)) :: encode (n + 1) v := by
          rw [ih, hdiv]
          rfl

theorem encode_append_encode (m n v : ℕ) :
    encode m (v / 256 ^ n) ++ encode n v = encode (m + n) v := by
  induction n generalizing v with
  | zero => simp [encode]
  | succ n ih =>
      have hdiv : v / 256 ^ (n + 1) = v / 256 / 256 ^ n := by
        rw [Nat.div_div_eq_div_mul, Nat.pow_succ, Nat.mul_comm]
      rw [hdiv, encode, ← List.append_assoc, ih]
      rfl

theorem decode_lt (bytes : List UInt8) : decode bytes < 256 ^ bytes.length := by
  induction bytes using List.reverseRecOn with
  | nil => simp [decode]
  | append_singleton bytes byte ih =>
      have hbyte : byte.toNat < 256 := byte.toNat_lt
      simp only [decode, decodeFrom_append, decodeFrom_cons, decodeFrom_nil,
        List.length_append, List.length_singleton, Nat.pow_succ] at ih ⊢
      omega

theorem encode_decode (bytes : List UInt8) : encode bytes.length (decode bytes) = bytes := by
  induction bytes using List.reverseRecOn with
  | nil => rfl
  | append_singleton bytes byte ih =>
      have hdecode : decode (bytes ++ [byte]) = decode bytes * 256 + byte.toNat := by
        rw [decode, decodeFrom_append]
        rfl
      have hdiv : decode (bytes ++ [byte]) / 256 = decode bytes := by
        have := byte.toNat_lt
        omega
      have hlow : UInt8.ofNat (decode (bytes ++ [byte])) = byte := by
        apply UInt8.toNat_inj.mp
        have := byte.toNat_lt
        rw [UInt8.toNat_ofNat']
        omega
      rw [List.length_append, List.length_singleton, encode, hdiv, ih, hlow]

end BigEndian
