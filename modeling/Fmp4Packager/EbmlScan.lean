import Fmp4Packager.EbmlParser
import Fmp4Packager.Format.Ebml

/-!
# The child scan visits the elements

On a slice of the buffer the readers compute what the byte-string readers
compute, and the scan loop calls its visitor once for each element of the slice,
in order.
-/

namespace Fmp4Packager

open Ebml BigEndian

namespace EbmlParser

/-- The bytes at offset `p` of the buffer begin with `bytes`. -/
def PointsTo (buf : List UInt8) (p : ℤ) (bytes : List UInt8) : Prop :=
  ∃ pre post, buf = pre ++ bytes ++ post ∧ p = pre.length

theorem pointsTo_self (buf : List UInt8) : PointsTo buf 0 buf :=
  ⟨[], [], by simp, rfl⟩

theorem PointsTo.advance {buf : List UInt8} {p : ℤ} {xs ys : List UInt8}
    (h : PointsTo buf p (xs ++ ys)) : PointsTo buf (p + xs.length) ys := by
  obtain ⟨pre, post, rfl, rfl⟩ := h
  exact ⟨pre ++ xs, post, by simp, by simp⟩

theorem PointsTo.left {buf : List UInt8} {p : ℤ} {xs ys : List UInt8}
    (h : PointsTo buf p (xs ++ ys)) : PointsTo buf p xs := by
  obtain ⟨pre, post, rfl, rfl⟩ := h
  exact ⟨pre, ys ++ post, by simp, rfl⟩

theorem PointsTo.drop {buf : List UInt8} {p : ℤ} {bytes : List UInt8}
    (h : PointsTo buf p bytes) {n : ℕ} (hn : n ≤ bytes.length) :
    PointsTo buf (p + n) (bytes.drop n) := by
  rw [← List.take_append_drop n bytes] at h
  simpa [List.length_take, hn] using h.advance

theorem pointsTo_drop {buf : List UInt8} {p : ℤ} (hlow : 0 ≤ p) (hhigh : p ≤ buf.length) :
    PointsTo buf p (buf.drop p.toNat) := by
  have := (pointsTo_self buf).drop (n := p.toNat) (by omega)
  rwa [zero_add, Int.toNat_of_nonneg hlow] at this

theorem readByte_of_pointsTo {buf : List UInt8} {p : ℤ} {byte : UInt8} {bytes : List UInt8}
    (h : PointsTo buf p (byte :: bytes)) : readByte buf p = .ok byte := by
  obtain ⟨pre, post, rfl, rfl⟩ := h
  simp [readByte]

theorem readBigEndian_of_pointsTo {buf : List UInt8} {p : ℤ} {bytes : List UInt8}
    (h : PointsTo buf p bytes) {count : ℕ} (hcount : count ≤ bytes.length) (v : ℕ) :
    readBigEndian buf p count v = .ok (decodeFrom v (bytes.take count)) := by
  induction count generalizing p bytes v with
  | zero => simp [readBigEndian]
  | succ count ih =>
      cases bytes with
      | nil => simp at hcount
      | cons byte bytes =>
          have hcons : PointsTo buf p ([byte] ++ bytes) := h
          have hnext : PointsTo buf (p + 1) bytes := hcons.advance
          simp only [List.length_cons, Nat.add_le_add_iff_right] at hcount
          rw [readBigEndian, readByte_of_pointsTo h, List.take_succ_cons, decodeFrom_cons,
            ← ih hnext hcount]
          rfl

theorem leadWidthMask_spec (first : UInt8) :
    (leadWidthMask first).1 = leadWidth first ∧
      (first ≠ 0 → (first &&& (leadWidthMask first).2).toNat =
        first.toNat % 2 ^ (8 - leadWidth first)) := by
  have hall : ∀ n < 256, (leadWidthMask (UInt8.ofNat n)).1 = leadWidth (UInt8.ofNat n) ∧
      (UInt8.ofNat n ≠ 0 → (UInt8.ofNat n &&& (leadWidthMask (UInt8.ofNat n)).2).toNat =
        (UInt8.ofNat n).toNat % 2 ^ (8 - leadWidth (UInt8.ofNat n))) := by
    decide +kernel
  simpa using hall first.toNat first.toNat_lt

theorem leadWidth_pos {lead : UInt8} (hne : lead ≠ 0) : 1 ≤ leadWidth lead := by
  have hlog : lead.toNat.log2 < 8 := by
    refine (Nat.log2_lt ?_).mpr lead.toNat_lt
    exact fun hzero ↦ hne (UInt8.toNat_inj.mp hzero)
  rw [leadWidth, if_neg hne]
  omega

/-- What the readers of ids and sizes have in common: a lead byte that selects the width,
and a number that is read if so many bytes are left. -/
def readOfWidth (buf : List UInt8) (p len : ℤ) (number : UInt8 → Except Fault ℕ) :
    Except Fault (Option (ℕ × ℕ)) :=
  if len < 1 then .ok none
  else do
    let first ← readByte buf p
    if first = 0 then .ok none
    else
      let width := (leadWidthMask first).1
      if width = 0 then .ok none
      else if len < width then .ok none
      else do
        let value ← number first
        .ok (some (width, value))

theorem ebmlReadId_eq (buf : List UInt8) (p len : ℤ) :
    ebmlReadId buf p len =
      readOfWidth buf p len fun first ↦ readBigEndian buf p (leadWidthMask first).1 0 :=
  rfl

theorem ebmlReadSize_eq (buf : List UInt8) (p len : ℤ) :
    ebmlReadSize buf p len = readOfWidth buf p len fun first ↦
      readBigEndian buf (p + 1) ((leadWidthMask first).1 - 1)
        (first &&& (leadWidthMask first).2).toNat :=
  rfl

theorem exists_of_bind_eq_ok {α β : Type} {run : Except Fault α} {f : α → Except Fault β} {b : β}
    (h : (run >>= f) = .ok b) : ∃ a, run = .ok a ∧ f a = .ok b := by
  cases run with
  | error fault => cases h
  | ok a => exact ⟨a, rfl, h⟩

/-- A variable-length integer is no longer than what is left. -/
theorem readOfWidth_width {buf : List UInt8} {p len : ℤ} {number : UInt8 → Except Fault ℕ}
    {width value : ℕ} (h : readOfWidth buf p len number = .ok (some (width, value))) :
    width ≤ len := by
  rw [readOfWidth] at h
  split_ifs at h
  · cases h
  obtain ⟨first, -, h⟩ := exists_of_bind_eq_ok h
  dsimp only at h
  split_ifs at h with hzero hwidth hshort
  · cases h
  · cases h
  · cases h
  obtain ⟨value, -, h⟩ := exists_of_bind_eq_ok h
  obtain ⟨rfl, -⟩ := Prod.mk.injEq .. ▸ Option.some.inj (Except.ok.inj h)
  exact Int.not_lt.mp hshort

/-- On a slice the width is that of the variable-length integer which begins there. -/
theorem readOfWidth_of_pointsTo {buf : List UInt8} {p : ℤ} {first : UInt8} {bytes : List UInt8}
    (h : PointsTo buf p (first :: bytes)) (number : UInt8 → Except Fault ℕ) :
    readOfWidth buf p (first :: bytes).length number =
      if leadWidth first = 0 ∨ (first :: bytes).length < leadWidth first then .ok none
      else (number first).map fun value ↦ some (leadWidth first, value) := by
  have hbyte : readByte buf p = .ok first := readByte_of_pointsTo h
  have hwidth : (leadWidthMask first).1 = leadWidth first := (leadWidthMask_spec first).1
  have hne : ¬ ((first :: bytes).length : ℤ) < 1 := by
    rw [List.length_cons]
    omega
  rw [readOfWidth, if_neg hne, hbyte, ok_bind]
  simp only [hwidth, Nat.cast_lt]
  by_cases hzero : first = 0
  · have hlead : leadWidth first = 0 := if_pos hzero
    rw [if_pos hzero, if_pos (Or.inl hlead)]
  have hpos := leadWidth_pos hzero
  rw [if_neg hzero, if_neg (by omega)]
  by_cases hshort : (first :: bytes).length < leadWidth first
  · rw [if_pos hshort, if_pos (Or.inr hshort)]
  · rw [if_neg hshort, if_neg (by omega)]
    cases number first with
    | error fault => rfl
    | ok value => rfl

theorem ebmlReadId_of_pointsTo {buf : List UInt8} {p : ℤ} {bytes : List UInt8}
    (h : PointsTo buf p bytes) :
    ebmlReadId buf p bytes.length = .ok (readId bytes) := by
  cases bytes with
  | nil => rfl
  | cons first bytes =>
      rw [ebmlReadId_eq, readOfWidth_of_pointsTo h, readId, readVint, vintWidth]
      split_ifs with hshort
      · rfl
      · have hread := readBigEndian_of_pointsTo h (by omega : leadWidth first ≤ _) 0
        rw [(leadWidthMask_spec first).1, hread]
        rfl

/-- Clearing the marker bit of the lead byte clears it in the whole number. -/
theorem decodeFrom_mask {first : UInt8} (hne : first ≠ 0) {bytes : List UInt8}
    (hlen : bytes.length + 1 = leadWidth first) :
    decodeFrom (first &&& (leadWidthMask first).2).toNat bytes =
      decode (first :: bytes) % 2 ^ (7 * leadWidth first) := by
  have hle := leadWidth_le first
  have hpow : 2 ^ (7 * leadWidth first) = 256 ^ bytes.length * 2 ^ (8 - leadWidth first) := by
    rw [show 256 = 2 ^ 8 from rfl, ← Nat.pow_mul, ← Nat.pow_add]
    congr 1
    omega
  have hdecode : decode (first :: bytes) =
      first.toNat * 256 ^ bytes.length + decode bytes := by
    rw [decode, decodeFrom_cons, decodeFrom_eq, Nat.zero_mul, Nat.zero_add]
  have hlow : decode bytes < 256 ^ bytes.length := decode_lt bytes
  rw [decodeFrom_eq, (leadWidthMask_spec first).2 hne, hdecode, hpow, Nat.mod_mul,
    Nat.mul_add_mod_self_right, Nat.mod_eq_of_lt hlow, Nat.add_comm (first.toNat * _),
    Nat.add_mul_div_right _ _ (by positivity), Nat.div_eq_of_lt hlow, Nat.zero_add]
  ring

theorem ebmlReadSize_of_pointsTo {buf : List UInt8} {p : ℤ} {bytes : List UInt8}
    (h : PointsTo buf p bytes) :
    ebmlReadSize buf p bytes.length = .ok (readSize bytes) := by
  cases bytes with
  | nil => rfl
  | cons first bytes =>
      have hcons : PointsTo buf p ([first] ++ bytes) := h
      have hnext : PointsTo buf (p + 1) bytes := hcons.advance
      rw [ebmlReadSize_eq, readOfWidth_of_pointsTo h, readSize, readVint, vintWidth]
      split_ifs with hshort
      · rfl
      · have hzero : first ≠ 0 := fun hzero ↦ hshort (Or.inl (if_pos hzero))
        obtain ⟨n, hn⟩ : ∃ n, leadWidth first = n + 1 := ⟨leadWidth first - 1, by omega⟩
        have hnle : n ≤ bytes.length := by
          rw [List.length_cons] at hshort
          omega
        have hread := readBigEndian_of_pointsTo hnext hnle
          (first &&& (leadWidthMask first).2).toNat
        have htake : (bytes.take n).length + 1 = leadWidth first := by
          rw [List.length_take, hn]
          omega
        have hmask := decodeFrom_mask hzero htake
        rw [(leadWidthMask_spec first).1, hn, Nat.add_sub_cancel, hread, hmask, hn,
          List.take_succ_cons]
        rfl

theorem ebmlReadUint_of_pointsTo {buf : List UInt8} {p : ℤ} {bytes : List UInt8}
    (h : PointsTo buf p bytes) :
    ebmlReadUint buf p bytes.length = .ok (decode (bytes.take 8)) := by
  rw [ebmlReadUint, readBigEndian_of_pointsTo h (by omega), decode]
  congr 2
  rw [show (min (bytes.length : ℤ) 8).toNat = min 8 bytes.length by omega,
    ← List.take_take, List.take_length]

/-! ## The scan loop -/

/-- The visitor's view of an element of the slice at `p`. -/
def childAt (p childBaseOffset : ℤ) (e : Element) : Child :=
  ⟨e.id, p + e.offset, e.payload.length, e.size, childBaseOffset + e.offset⟩

theorem dataAvail_eq (size : ℕ) {rest : List UInt8} (hlen : rest.length < 2 ^ 31) :
    (if 0 < (size : ℤ) ∧ (size : ℤ) < rest.length then toInt size else rest.length) =
      (available size rest).length := by
  rw [length_available]
  by_cases hin : 0 < size ∧ size < rest.length
  · rw [if_pos hin, if_pos (by omega), toInt_natCast (by omega)]
  · rw [if_neg hin, if_neg (by omega)]

theorem toInt_behind {rest : List UInt8} {pos width : ℕ} (hlen : pos + rest.length < 2 ^ 31)
    (hwidth : width ≤ rest.length) :
    toInt ((pos : ℤ) + width) = (pos + width : ℕ) ∧
      toInt ((pos + rest.length : ℕ) - (pos + width : ℕ) : ℤ) = (rest.drop width).length := by
  constructor
  · exact toInt_add (by omega)
  · rw [toInt_sub (by omega) hlen, Nat.add_sub_add_left, List.length_drop]

/-- One round of the loop, at position `pos` of a slice of which `rest` is
left. -/
theorem scanLoop_succ {σ : Type} {buf : List UInt8} {p childBaseOffset : ℤ}
    {visitor : σ → Child → Except Fault σ} {rest : List UInt8} {pos : ℕ}
    (h : PointsTo buf (p + pos) rest) (hlen : pos + rest.length < 2 ^ 31) (fuel : ℕ) (s : σ) :
    scanLoop buf p (pos + rest.length : ℕ) childBaseOffset visitor (fuel + 1) pos s =
      (match readHeader rest with
      | none => .ok s
      | some ⟨id, size, length⟩ => do
          let s ← visitor s (childAt p childBaseOffset
            ⟨id, size, pos + length, available size (rest.drop length)⟩)
          if size = 0 ∨ (rest.drop length).length < size then .ok s
          else
            scanLoop buf p (pos + rest.length : ℕ) childBaseOffset visitor fuel
              (pos + length + size : ℕ) s) := by
  have hleft : toInt ((pos + rest.length : ℕ) - pos : ℤ) = rest.length := by
    rw [toInt_sub (by omega) (by omega), Nat.add_sub_cancel_left]
  rw [scanLoop]
  by_cases hnil : rest = []
  · subst hnil
    rw [if_pos (by simp)]
    rfl
  have hrestPos : 0 < rest.length := List.length_pos_of_ne_nil hnil
  rw [if_neg (by omega), hleft, ebmlReadId_of_pointsTo h, ok_bind]
  cases hid : readId rest with
  | none =>
      have hnone : readHeader rest = none := by simp [readHeader, hid]
      rw [hnone]
  | some idp =>
      obtain ⟨idWidth, id⟩ := idp
      obtain ⟨-, -, hidLen⟩ := readId_eq_some hid
      obtain ⟨hposId, hleftId⟩ := toInt_behind hlen hidLen
      have hId : PointsTo buf (p + (pos + idWidth : ℕ)) (rest.drop idWidth) := by
        simpa [add_assoc] using h.drop hidLen
      simp only [hposId, hleftId, ebmlReadSize_of_pointsTo hId, ok_bind]
      cases hsize : readSize (rest.drop idWidth) with
      | none =>
          have hnone : readHeader rest = none := by simp [readHeader, hid, hsize]
          rw [hnone]
          split <;> rfl
      | some sizep =>
          obtain ⟨sizeWidth, size⟩ := sizep
          obtain ⟨hsizePos, -, hsizeLen, -⟩ := readSize_eq_some hsize
          rw [List.length_drop] at hsizeLen
          have hwidths : idWidth + sizeWidth ≤ rest.length := by omega
          obtain ⟨hposSize, hleftSize⟩ := toInt_behind hlen hwidths
          rw [Nat.cast_add, ← add_assoc, ← Nat.cast_add] at hposSize
          simp only [hposSize, hleftSize]
          clear hleft hposId hleftId hposSize hleftSize
          by_cases hend : rest.length ≤ idWidth + sizeWidth
          · have hnone : readHeader rest = none := by simp [readHeader, hid, hsize, hend]
            have hempty : ((rest.drop (idWidth + sizeWidth)).length : ℤ) ≤ 0 := by
              rw [List.length_drop]
              omega
            rw [hnone, if_pos hempty, ite_self, ite_self]
          have hsome : readHeader rest = some ⟨id, size, idWidth + sizeWidth⟩ := by
            simp [readHeader, hid, hsize, hend]
          have hrest : (rest.drop (idWidth + sizeWidth)).length =
              rest.length - (idWidth + sizeWidth) := List.length_drop
          rw [hsome, if_neg (by omega), if_neg (by omega), if_neg (by omega),
            dataAvail_eq size (by omega)]
          apply bind_congr
          intro s
          by_cases hzero : size = 0
          · rw [if_pos (by omega), if_pos (.inl hzero)]
          by_cases hover : (rest.drop (idWidth + sizeWidth)).length < size
          · rw [if_neg (by omega), if_pos (by omega), if_pos (.inr hover)]
          · rw [if_neg (by omega), if_neg (by omega), if_neg (by omega),
              toInt_natCast (by omega), toInt_add (by omega)]

/-- The loop, at position `pos` of a slice of which `rest` is left, folds the
visitor over the elements of `rest`. -/
theorem scanLoop_of_pointsTo {σ : Type} {buf : List UInt8} {p : ℤ} (childBaseOffset : ℤ)
    (visitor : σ → Child → Except Fault σ) {rest : List UInt8} {pos fuel : ℕ}
    (h : PointsTo buf (p + pos) rest) (hlen : pos + rest.length < 2 ^ 31)
    (hfuel : rest.length < fuel) (s : σ) :
    scanLoop buf p (pos + rest.length : ℕ) childBaseOffset visitor fuel pos s =
      (elementsFrom pos rest).foldlM (fun s e ↦ visitor s (childAt p childBaseOffset e)) s := by
  induction fuel generalizing pos rest s with
  | zero => omega
  | succ fuel ih =>
      rw [scanLoop_succ h hlen]
      cases hread : readHeader rest with
      | none =>
          rw [elementsFrom_of_none hread, List.foldlM_nil]
          rfl
      | some header =>
          obtain ⟨htwo, hshort, -⟩ := readHeader_eq_some hread
          rw [elementsFrom_of_some hread, List.foldlM_cons]
          apply bind_congr
          intro s
          by_cases hlast :
              header.size = 0 ∨ (rest.drop header.length).length < header.size
          · rw [if_pos hlast, if_pos hlast, List.foldlM_nil]
            rfl
          · have hsize : header.size ≤ (rest.drop header.length).length := by omega
            have hnext := (h.drop hshort.le).drop hsize
            rw [add_assoc, add_assoc, ← Nat.cast_add, ← Nat.cast_add] at hnext
            rw [List.length_drop] at hsize
            have hsum : pos + rest.length = pos + header.length + header.size +
                ((rest.drop header.length).drop header.size).length := by
              simp only [List.length_drop]
              omega
            rw [if_neg hlast, if_neg hlast, hsum, ← ih (by simpa [add_assoc] using hnext)
              (by omega) (by simp only [List.length_drop]; omega)]

/-- The visitor is called once for each element of the slice. -/
theorem ebmlScanChildren_of_pointsTo {σ : Type} {buf : List UInt8} {p childBaseOffset : ℤ}
    {visitor : σ → Child → Except Fault σ} {bytes : List UInt8} (h : PointsTo buf p bytes)
    (hlen : bytes.length < 2 ^ 31) (s : σ) :
    ebmlScanChildren buf p bytes.length childBaseOffset visitor s =
      (elements bytes).foldlM (fun s e ↦ visitor s (childAt p childBaseOffset e)) s := by
  rw [ebmlScanChildren]
  by_cases hnil : bytes = []
  · subst hnil
    rw [if_pos (by simp), elements, elementsFrom_of_none rfl, List.foldlM_nil]
    rfl
  · have hpos : 0 < bytes.length := List.length_pos_of_ne_nil hnil
    have hstart : PointsTo buf (p + (0 : ℕ)) bytes := by simpa using h
    have hloop := scanLoop_of_pointsTo childBaseOffset visitor hstart (by simpa using hlen)
      (Nat.lt_succ_self _) s
    rw [if_neg (by omega), Int.toNat_natCast, elements, ← hloop]
    simp

theorem PointsTo.payload {buf : List UInt8} {p : ℤ} {bytes : List UInt8}
    (h : PointsTo buf p bytes) {e : Element} (he : e ∈ elements bytes) :
    PointsTo buf (p + e.offset) e.payload := by
  obtain ⟨pre, post, rfl, hoff, -, -⟩ := payload_of_mem_elementsFrom he
  rw [List.append_assoc] at h
  rw [hoff, zero_add]
  exact h.advance.left

theorem ebmlScanChildren_eq_foldlM {σ : Type} {buf : List UInt8} {p childBaseOffset : ℤ}
    {visitor : σ → Child → Except Fault σ} {f : σ → Element → Except Fault σ}
    {bytes : List UInt8} (h : PointsTo buf p bytes) (hlen : bytes.length < 2 ^ 31)
    (hvisit : ∀ s, ∀ e ∈ elements bytes, PointsTo buf (p + e.offset) e.payload →
      e.payload.length < 2 ^ 31 → visitor s (childAt p childBaseOffset e) = f s e) (s : σ) :
    ebmlScanChildren buf p bytes.length childBaseOffset visitor s =
      (elements bytes).foldlM f s := by
  have hsame : ∀ s, ∀ e ∈ elements bytes, visitor s (childAt p childBaseOffset e) = f s e :=
    fun s e he ↦ hvisit s e he (h.payload he)
      ((length_payload_le_of_mem_elements he).trans_lt hlen)
  rw [ebmlScanChildren_of_pointsTo h hlen]
  clear hvisit
  generalize elements bytes = es at hsame ⊢
  induction es generalizing s with
  | nil => rfl
  | cons e es ih =>
      rw [List.foldlM_cons, List.foldlM_cons, hsame s e List.mem_cons_self]
      exact bind_congr fun s ↦ ih s fun s e he ↦ hsame s e (List.mem_cons_of_mem _ he)

/-- A scan that is at `g es` when it has visited `es`. -/
theorem ebmlScanChildren_eq_ok {σ : Type} {buf : List UInt8} {p childBaseOffset : ℤ}
    {visitor : σ → Child → Except Fault σ} (g : List Element → σ) {bytes : List UInt8}
    (h : PointsTo buf p bytes) (hlen : bytes.length < 2 ^ 31)
    (hvisit : ∀ es, ∀ e ∈ elements bytes, PointsTo buf (p + e.offset) e.payload →
      e.payload.length < 2 ^ 31 →
      visitor (g es) (childAt p childBaseOffset e) = .ok (g (es ++ [e]))) :
    ebmlScanChildren buf p bytes.length childBaseOffset visitor (g []) =
      .ok (g (elements bytes)) := by
  have hstep : ∀ es, ∀ e ∈ elements bytes,
      visitor (g es) (childAt p childBaseOffset e) = .ok (g (es ++ [e])) :=
    fun es e he ↦ hvisit es e he (h.payload he)
      ((length_payload_le_of_mem_elements he).trans_lt hlen)
  have hprefix : ∀ es : List Element, (∀ e ∈ es, e ∈ elements bytes) →
      es.foldlM (fun s e ↦ visitor s (childAt p childBaseOffset e)) (g []) = .ok (g es) := by
    intro es hes
    induction es using List.reverseRecOn with
    | nil => rfl
    | append_singleton es e ih =>
        rw [List.foldlM_append, ih fun e' he' ↦ hes e' (by simp [he']), ok_bind,
          List.foldlM_cons, hstep es e (hes e (by simp)), ok_bind, List.foldlM_nil]
        rfl
  rw [ebmlScanChildren_of_pointsTo h hlen, hprefix _ fun _ he ↦ he]

end EbmlParser

end Fmp4Packager
