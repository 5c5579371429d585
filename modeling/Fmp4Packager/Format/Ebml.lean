import Fmp4Packager.Format.BigEndian
import Mathlib.Tactic.Positivity

/-!
# EBML elements over byte strings

Variable-length integers, element headers, and the list of elements that a byte
string begins with.  A byte string that was written element by element is read
back as those elements.
-/

namespace Ebml

open BigEndian

/-- The width that a lead byte announces: one more than its leading zero bits,
and `0` for the byte `0`. -/
def leadWidth (lead : UInt8) : ℕ :=
  if lead = 0 then 0 else 8 - lead.toNat.log2

/-- The width of the variable-length integer a byte string begins with. -/
def vintWidth : List UInt8 → ℕ
  | [] => 0
  | lead :: _ => leadWidth lead

/-- The bytes of a variable-length integer as one number, marker bit
included. -/
def readVint (bytes : List UInt8) : Option (ℕ × ℕ) :=
  if vintWidth bytes = 0 ∨ bytes.length < vintWidth bytes then none
  else some (vintWidth bytes, decode (bytes.take (vintWidth bytes)))

/-- An element id keeps its marker bit. -/
def readId (bytes : List UInt8) : Option (ℕ × ℕ) := readVint bytes

/-- A data size loses its marker bit. -/
def readSize (bytes : List UInt8) : Option (ℕ × ℕ) :=
  (readVint bytes).map fun p ↦ (p.1, p.2 % 2 ^ (7 * p.1))

theorem leadWidth_le (lead : UInt8) : leadWidth lead ≤ 8 := by
  rw [leadWidth]
  split <;> omega

theorem vintWidth_le (bytes : List UInt8) : vintWidth bytes ≤ 8 := by
  cases bytes with
  | nil => simp [vintWidth]
  | cons lead bytes => exact leadWidth_le lead

theorem readVint_eq_some {bytes : List UInt8} {width value : ℕ}
    (h : readVint bytes = some (width, value)) :
    1 ≤ width ∧ width ≤ 8 ∧ width ≤ bytes.length := by
  rw [readVint] at h
  split at h
  · cases h
  · next hwidth =>
      obtain ⟨rfl, rfl⟩ := Prod.mk.injEq .. ▸ Option.some.inj h
      have := vintWidth_le bytes
      omega

theorem readId_eq_some {bytes : List UInt8} {width id : ℕ}
    (h : readId bytes = some (width, id)) :
    1 ≤ width ∧ width ≤ 8 ∧ width ≤ bytes.length :=
  readVint_eq_some h

theorem readSize_eq_some {bytes : List UInt8} {width size : ℕ}
    (h : readSize bytes = some (width, size)) :
    1 ≤ width ∧ width ≤ 8 ∧ width ≤ bytes.length ∧ size < 2 ^ 56 := by
  obtain ⟨⟨w, value⟩, hvint, hpair⟩ := Option.map_eq_some_iff.mp h
  obtain ⟨rfl, rfl⟩ := Prod.mk.injEq .. ▸ hpair
  obtain ⟨hone, height, hlen⟩ := readVint_eq_some hvint
  refine ⟨hone, height, hlen, ?_⟩
  calc
    value % 2 ^ (7 * w) < 2 ^ (7 * w) := Nat.mod_lt _ (by positivity)
    _ ≤ 2 ^ 56 := Nat.pow_le_pow_right (by norm_num) (by omega)

/-- The lead byte of a number with the marker bit of width `w` announces
`w`. -/
theorem vintWidth_encode {width value : ℕ} (hone : 1 ≤ width) (height : width ≤ 8)
    (hlow : 2 ^ (7 * width) ≤ value) (hhigh : value < 2 ^ (7 * width + 1))
    (rest : List UInt8) : vintWidth (encode width value ++ rest) = width := by
  obtain ⟨n, rfl⟩ : ∃ n, width = n + 1 := ⟨width - 1, by omega⟩
  rw [encode_succ_eq_cons, List.cons_append, vintWidth]
  have hpow : 256 ^ n = 2 ^ (8 * n) := by
    rw [Nat.pow_mul]
  have hleadLow : 2 ^ (7 - n) ≤ value / 256 ^ n := by
    rw [Nat.le_div_iff_mul_le (by positivity), hpow, ← Nat.pow_add]
    rwa [show 7 - n + 8 * n = 7 * (n + 1) by omega]
  have hleadHigh : value / 256 ^ n < 2 ^ (7 - n + 1) := by
    rw [Nat.div_lt_iff_lt_mul (by positivity), hpow, ← Nat.pow_add]
    rwa [show 7 - n + 1 + 8 * n = 7 * (n + 1) + 1 by omega]
  have hbyte : value / 256 ^ n < 256 :=
    hleadHigh.trans_le (Nat.pow_le_pow_right (n := 2) (by norm_num) (by omega : 7 - n + 1 ≤ 8))
  have htoNat : (UInt8.ofNat (value / 256 ^ n)).toNat = value / 256 ^ n := by
    rw [UInt8.toNat_ofNat', Nat.mod_eq_of_lt hbyte]
  have hne : UInt8.ofNat (value / 256 ^ n) ≠ 0 := by
    intro hzero
    rw [hzero, UInt8.toNat_zero] at htoNat
    have : 0 < 2 ^ (7 - n) := by positivity
    omega
  have hlog : (value / 256 ^ n).log2 = 7 - n := by
    rw [Nat.log2_eq_iff]
    · exact ⟨hleadLow, hleadHigh⟩
    · have : 0 < 2 ^ (7 - n) := by positivity
      omega
  rw [leadWidth, if_neg hne, htoNat, hlog]
  omega

theorem readVint_encode {width value : ℕ} (hone : 1 ≤ width) (height : width ≤ 8)
    (hlow : 2 ^ (7 * width) ≤ value) (hhigh : value < 2 ^ (7 * width + 1))
    (rest : List UInt8) : readVint (encode width value ++ rest) = some (width, value) := by
  have hfits : value < 256 ^ width := by
    rw [show 256 = 2 ^ 8 from rfl, ← Nat.pow_mul]
    exact hhigh.trans_le (Nat.pow_le_pow_right (by norm_num) (by omega))
  rw [readVint, vintWidth_encode hone height hlow hhigh, if_neg (by simp; omega)]
  rw [List.take_left' (length_encode width value), decode_encode_of_lt hfits]

/-- A lead byte that announces `width` has its highest bit at `8 - width`. -/
theorem leadWidth_bounds {lead : UInt8} {width : ℕ} (h : leadWidth lead = width)
    (hpos : width ≠ 0) : 2 ^ (8 - width) ≤ lead.toNat ∧ lead.toNat < 2 ^ (8 - width + 1) := by
  rw [leadWidth] at h
  split at h
  · exact absurd h.symm hpos
  next hne =>
    have hzero : lead.toNat ≠ 0 := fun hzero ↦ hne (UInt8.toNat_inj.mp hzero)
    have hlog : lead.toNat.log2 < 8 := (Nat.log2_lt hzero).mpr lead.toNat_lt
    have hwidth : 8 - width = lead.toNat.log2 := by omega
    rw [hwidth]
    exact (Nat.log2_eq_iff hzero).mp rfl

/-- Exactly the numbers that carry the marker bit of their width are read. -/
theorem readVint_eq_some_iff {bytes : List UInt8} {width value : ℕ} :
    readVint bytes = some (width, value) ↔
      (1 ≤ width ∧ width ≤ 8 ∧ 2 ^ (7 * width) ≤ value ∧ value < 2 ^ (7 * width + 1)) ∧
        encode width value <+: bytes := by
  constructor
  · intro h
    obtain ⟨hone, height, hlen⟩ := readVint_eq_some h
    rw [readVint, Option.ite_none_left_eq_some, Option.some.injEq, Prod.mk.injEq] at h
    obtain ⟨-, hwidth, hvalue⟩ := h
    rw [hwidth] at hvalue
    have htake : encode width value = bytes.take width := by
      have hdecode := encode_decode (bytes.take width)
      rwa [List.length_take, Nat.min_eq_left hlen, hvalue] at hdecode
    refine ⟨⟨hone, height, ?_⟩, htake ▸ List.take_prefix ..⟩
    cases bytes with
    | nil => simp at hlen; omega
    | cons lead bytes =>
        obtain ⟨n, rfl⟩ : ∃ n, width = n + 1 := ⟨width - 1, by omega⟩
        obtain ⟨hlow, hhigh⟩ := leadWidth_bounds hwidth (by omega)
        have hrest := decode_lt (bytes.take n)
        rw [List.take_succ_cons, decode, decodeFrom_cons, decodeFrom_eq, Nat.zero_mul,
          Nat.zero_add] at hvalue
        rw [List.length_take, Nat.min_eq_left (by simpa using hlen)] at hvalue hrest
        have hpow : 256 ^ n = 2 ^ (8 * n) := by rw [Nat.pow_mul]
        constructor
        · calc
            2 ^ (7 * (n + 1)) = 2 ^ (8 - (n + 1)) * 256 ^ n := by
              rw [hpow, ← Nat.pow_add]
              congr 1
              omega
            _ ≤ lead.toNat * 256 ^ n := Nat.mul_le_mul_right _ hlow
            _ ≤ value := by omega
        · calc
            value < (lead.toNat + 1) * 256 ^ n := by rw [Nat.add_mul]; omega
            _ ≤ 2 ^ (8 - (n + 1) + 1) * 256 ^ n := Nat.mul_le_mul_right _ hhigh
            _ = 2 ^ (7 * (n + 1) + 1) := by
              rw [hpow, ← Nat.pow_add]
              congr 1
              omega
  · rintro ⟨⟨hone, height, hlow, hhigh⟩, rest, rfl⟩
    exact readVint_encode hone height hlow hhigh rest

theorem readVint_mono {xs ys : List UInt8} {p : ℕ × ℕ} (hpart : xs <+: ys)
    (h : readVint xs = some p) : readVint ys = some p := by
  obtain ⟨hbounds, hxs⟩ := readVint_eq_some_iff.mp h
  exact readVint_eq_some_iff.mpr ⟨hbounds, hxs.trans hpart⟩

/-- The data size `size` in `width` bytes. -/
def sizeField (width size : ℕ) : List UInt8 := encode width (2 ^ (7 * width) + size)

/-- The reserved size in `width` bytes: all value bits are set. -/
def unknownSize (width : ℕ) : List UInt8 := sizeField width (2 ^ (7 * width) - 1)

theorem readSize_sizeField {width size : ℕ} (hone : 1 ≤ width) (height : width ≤ 8)
    (hsize : size < 2 ^ (7 * width)) (rest : List UInt8) :
    readSize (sizeField width size ++ rest) = some (width, size) := by
  have hread := readVint_encode hone height (Nat.le_add_right _ size)
    (by rw [Nat.pow_succ]; omega) rest
  rw [readSize, sizeField, hread, Option.map_some, Nat.add_mod_left, Nat.mod_eq_of_lt hsize]

theorem readSize_unknownSize {width : ℕ} (hone : 1 ≤ width) (height : width ≤ 8)
    (rest : List UInt8) :
    readSize (unknownSize width ++ rest) = some (width, 2 ^ (7 * width) - 1) :=
  readSize_sizeField hone height (Nat.sub_lt (by positivity) one_pos) rest

theorem readSize_of_short {bytes : List UInt8}
    (hshort : bytes = [] ∨ bytes.length < vintWidth bytes) : readSize bytes = none := by
  rcases hshort with rfl | hshort
  · rfl
  · rw [readSize, readVint, if_pos (.inr hshort), Option.map_none]

/-! ## Elements -/

/-- What precedes the payload of an element. -/
structure Header where
  id : ℕ
  size : ℕ
  length : ℕ

/-- The header a byte string begins with, provided that a payload follows. -/
def readHeader (bytes : List UInt8) : Option Header := do
  let (idWidth, id) ← readId bytes
  let (sizeWidth, size) ← readSize (bytes.drop idWidth)
  if bytes.length ≤ idWidth + sizeWidth then none
  else some ⟨id, size, idWidth + sizeWidth⟩

/-- An element found in a byte string: where its payload starts, and as much of
the payload as is there. -/
structure Element where
  id : ℕ
  size : ℕ
  offset : ℕ
  payload : List UInt8
  deriving DecidableEq, Repr

theorem readHeader_eq_some {bytes : List UInt8} {h : Header}
    (hread : readHeader bytes = some h) :
    2 ≤ h.length ∧ h.length < bytes.length ∧ h.size < 2 ^ 56 := by
  obtain ⟨⟨idWidth, id⟩, hid, hread⟩ := Option.bind_eq_some_iff.mp hread
  obtain ⟨⟨sizeWidth, size⟩, hsize, hread⟩ := Option.bind_eq_some_iff.mp hread
  obtain ⟨hone, -, -⟩ := readId_eq_some hid
  obtain ⟨hone', -, -, hlt⟩ := readSize_eq_some hsize
  simp only [Option.ite_none_left_eq_some, Option.some.injEq] at hread
  obtain ⟨hlen, rfl⟩ := hread
  exact ⟨by simp only; omega, by simp only; omega, hlt⟩

/-- The payload bytes that are there for an element of the given size. -/
def available (size : ℕ) (rest : List UInt8) : List UInt8 :=
  if size = 0 then rest else rest.take size

/-- The elements of a byte string whose first byte has the given offset.  An
element of size zero (taken for an unknown size) or one that runs past the end
is the last. -/
def elementsFrom (offset : ℕ) (bytes : List UInt8) : List Element :=
  match _hread : readHeader bytes with
  | none => []
  | some h =>
      let rest := bytes.drop h.length
      let e : Element := ⟨h.id, h.size, offset + h.length, available h.size rest⟩
      if h.size = 0 ∨ rest.length < h.size then [e]
      else e :: elementsFrom (offset + h.length + h.size) (rest.drop h.size)
  termination_by bytes.length
  decreasing_by
    have := readHeader_eq_some _hread
    simp only [List.length_drop]
    omega

def elements (bytes : List UInt8) : List Element := elementsFrom 0 bytes

theorem elementsFrom_of_none {bytes : List UInt8} (hread : readHeader bytes = none)
    (offset : ℕ) : elementsFrom offset bytes = [] := by
  rw [elementsFrom]
  split
  · rfl
  · next h hsome => rw [hread] at hsome; cases hsome

@[simp] theorem elementsFrom_nil (offset : ℕ) : elementsFrom offset [] = [] :=
  elementsFrom_of_none rfl offset

theorem elementsFrom_of_some {bytes : List UInt8} {h : Header}
    (hread : readHeader bytes = some h) (offset : ℕ) :
    elementsFrom offset bytes =
      ⟨h.id, h.size, offset + h.length, available h.size (bytes.drop h.length)⟩ ::
        if h.size = 0 ∨ (bytes.drop h.length).length < h.size then []
        else elementsFrom (offset + h.length + h.size)
          ((bytes.drop h.length).drop h.size) := by
  rw [elementsFrom]
  split
  · next hnone => rw [hread] at hnone; cases hnone
  · next h' hsome =>
      obtain rfl := Option.some.inj (hread.symm.trans hsome)
      simp only
      split <;> rfl

theorem available_prefix (size : ℕ) (rest : List UInt8) : available size rest <+: rest := by
  rw [available]
  split
  · exact List.prefix_rfl
  · exact List.take_prefix ..

theorem length_available (size : ℕ) (rest : List UInt8) :
    (available size rest).length =
      if 0 < size ∧ size < rest.length then size else rest.length := by
  rw [available]
  split
  · simp [*]
  · rw [List.length_take]
    split <;> omega

theorem available_ne_nil {size : ℕ} {rest : List UInt8} (hrest : rest ≠ []) :
    available size rest ≠ [] := by
  rw [available]
  split
  · exact hrest
  · simp [*]

/-- The payload of an element is a non-empty piece of the byte string, at its
offset. -/
theorem payload_of_mem_elementsFrom {offset : ℕ} {bytes : List UInt8} {e : Element}
    (he : e ∈ elementsFrom offset bytes) :
    ∃ pre post, bytes = pre ++ e.payload ++ post ∧ e.offset = offset + pre.length ∧
      e.payload ≠ [] ∧ e.size < 2 ^ 56 := by
  induction hn : bytes.length using Nat.strong_induction_on generalizing offset bytes with
  | _ n ih =>
      cases hread : readHeader bytes with
      | none => simp [elementsFrom_of_none hread] at he
      | some h =>
          obtain ⟨htwo, hlen, hsize⟩ := readHeader_eq_some hread
          have hrest : bytes.drop h.length ≠ [] := by simpa using hlen
          rw [elementsFrom_of_some hread] at he
          rcases List.mem_cons.mp he with hhead | htail
          · obtain ⟨post, hpost⟩ := available_prefix h.size (bytes.drop h.length)
            refine ⟨bytes.take h.length, post, ?_, ?_, ?_, ?_⟩
            · rw [hhead, List.append_assoc, hpost, List.take_append_drop]
            · rw [hhead, List.length_take, Nat.min_eq_left hlen.le]
            · rw [hhead]
              exact available_ne_nil hrest
            · rwa [hhead]
          · split at htail
            · cases htail
            · next hgo =>
                obtain ⟨pre, post, hbytes, hoff, hne, hlt⟩ :=
                  ih _ (by simp only [List.length_drop]; omega) htail rfl
                refine ⟨bytes.take h.length ++ (bytes.drop h.length).take h.size ++ pre,
                  post, ?_, ?_, hne, hlt⟩
                · calc
                    bytes = bytes.take h.length ++ ((bytes.drop h.length).take h.size ++
                        (bytes.drop h.length).drop h.size) := by
                      rw [List.take_append_drop, List.take_append_drop]
                    _ = _ := by
                      rw [hbytes]
                      simp only [List.append_assoc]
                · simp only [List.length_append, List.length_take, List.length_drop] at hgo ⊢
                  omega

theorem length_payload_le_of_mem_elements {bytes : List UInt8} {e : Element}
    (he : e ∈ elements bytes) : e.payload.length ≤ bytes.length := by
  obtain ⟨pre, post, rfl, -⟩ := payload_of_mem_elementsFrom he
  simp
  omega

/-- The payloads follow one another without overlapping. -/
theorem pairwise_elementsFrom (offset : ℕ) (bytes : List UInt8) :
    (elementsFrom offset bytes).Pairwise fun e e' ↦ e.offset + e.payload.length ≤ e'.offset := by
  induction offset, bytes using elementsFrom.induct with
  | case1 offset bytes hread =>
      rw [elementsFrom_of_none hread]
      exact List.Pairwise.nil
  | case2 offset bytes h hread rest hlast =>
      rw [elementsFrom_of_some hread, if_pos hlast]
      exact List.pairwise_singleton ..
  | case3 offset bytes h hread rest hgo ih =>
      rw [elementsFrom_of_some hread, if_neg hgo]
      refine List.Pairwise.cons (fun e he ↦ ?_) ih
      obtain ⟨pre, post, -, hoff, -⟩ := payload_of_mem_elementsFrom he
      have havail := length_available h.size rest
      dsimp only at hgo ⊢
      rw [havail, hoff]
      split_ifs <;> omega

/-- An element takes at least three bytes. -/
theorem length_elementsFrom_le (offset : ℕ) (bytes : List UInt8) :
    3 * (elementsFrom offset bytes).length ≤ bytes.length := by
  induction offset, bytes using elementsFrom.induct with
  | case1 offset bytes hread =>
      rw [elementsFrom_of_none hread]
      exact Nat.zero_le _
  | case2 offset bytes h hread rest hlast =>
      obtain ⟨htwo, hlen, -⟩ := readHeader_eq_some hread
      rw [elementsFrom_of_some hread, if_pos hlast, List.length_singleton]
      omega
  | case3 offset bytes h hread rest hgo ih =>
      obtain ⟨htwo, hlen, -⟩ := readHeader_eq_some hread
      have hrest : rest.length = bytes.length - h.length := List.length_drop
      have hpart : (rest.drop h.size).length + 1 ≤ bytes.length - h.length := by
        rw [List.length_drop]
        omega
      have hothers := (Nat.add_le_add_right ih 1).trans hpart
      rw [elementsFrom_of_some hread, if_neg hgo, List.length_cons]
      dsimp only [rest] at hothers
      omega

def childrenWith (id : ℕ) (es : List Element) : List Element :=
  es.filter fun e ↦ e.id = id

/-- The payload read as an unsigned integer of at most eight bytes. -/
def Element.uint (e : Element) : ℕ := decode (e.payload.take 8)

/-- The value of the last element with the given id. -/
def lastUint (id : ℕ) (es : List Element) : Option ℕ :=
  (childrenWith id es).getLast?.map Element.uint

theorem childrenWith_append (id : ℕ) (xs ys : List Element) :
    childrenWith id (xs ++ ys) = childrenWith id xs ++ childrenWith id ys :=
  List.filter_append ..

theorem childrenWith_singleton (id : ℕ) (e : Element) :
    childrenWith id [e] = if e.id = id then [e] else [] := by
  simp [childrenWith, List.filter_singleton]

theorem lastUint_append (id : ℕ) (xs ys : List Element) :
    lastUint id (xs ++ ys) = (lastUint id ys).or (lastUint id xs) := by
  rw [lastUint, childrenWith_append, List.getLast?_append, Option.map_or]
  rfl

theorem lastUint_singleton (id : ℕ) (e : Element) :
    lastUint id [e] = if e.id = id then some e.uint else none := by
  rw [lastUint, childrenWith_singleton]
  split <;> rfl

theorem Element.uint_lt (e : Element) : e.uint < 2 ^ 64 := by
  have hlen : (e.payload.take 8).length ≤ 8 := by
    rw [List.length_take]
    exact min_le_left ..
  calc
    e.uint < 256 ^ (e.payload.take 8).length := decode_lt _
    _ ≤ 256 ^ 8 := Nat.pow_le_pow_right (by norm_num) hlen

theorem lastUint_lt {id v : ℕ} {es : List Element} (h : lastUint id es = some v) :
    v < 2 ^ 64 := by
  obtain ⟨e, -, rfl⟩ := Option.map_eq_some_iff.mp h
  exact e.uint_lt

/-! ## Writing elements -/

/-- An element id: a number with the marker bit of its width. -/
structure Id where
  width : ℕ
  value : ℕ
  width_pos : 1 ≤ width
  width_le : width ≤ 8
  marker_le : 2 ^ (7 * width) ≤ value
  value_lt : value < 2 ^ (7 * width + 1)

def Id.ofBounds (width value : ℕ) (h : 1 ≤ width ∧ width ≤ 8 ∧ 2 ^ (7 * width) ≤ value ∧
    value < 2 ^ (7 * width + 1)) : Id :=
  ⟨width, value, h.1, h.2.1, h.2.2.1, h.2.2.2⟩

/-- A width for a data size that can spell `size` with not all value bits set,
which would mean an unknown size. -/
structure SizeWidth (size : ℕ) where
  width : ℕ
  width_pos : 1 ≤ width
  width_le : width ≤ 8
  size_lt : size + 1 < 2 ^ (7 * width)

def SizeWidth.ofBounds {size : ℕ} (width : ℕ)
    (h : 1 ≤ width ∧ width ≤ 8 ∧ size + 1 < 2 ^ (7 * width)) : SizeWidth size :=
  ⟨width, h.1, h.2.1, h.2.2⟩

def encodeElement (id : Id) (payload : List UInt8) (sizeWidth : SizeWidth payload.length) :
    List UInt8 :=
  encode id.width id.value ++
    encode sizeWidth.width (2 ^ (7 * sizeWidth.width) + payload.length) ++ payload

/-- An element of known, non-zero size to be written. -/
structure Item where
  id : Id
  payload : List UInt8
  sizeWidth : SizeWidth payload.length
  payload_ne : payload ≠ []

def Item.encode (item : Item) : List UInt8 :=
  encodeElement item.id item.payload item.sizeWidth

/-- The bytes before the payload: the id, and the size in `width` bytes. -/
def encodeHeader (id : Id) (width size : ℕ) : List UInt8 :=
  encode id.width id.value ++ encode width (2 ^ (7 * width) + size)

/-- A header with the given id lies at the front.  A size with all value bits set
stands for an unknown size. -/
def BeginsWithHeader (id : Id) (width size : ℕ) (bytes : List UInt8) : Prop :=
  (1 ≤ width ∧ width ≤ 8 ∧ size < 2 ^ (7 * width)) ∧ encodeHeader id width size <+: bytes

theorem beginsWithHeader_iff {id : Id} {width size : ℕ} {bytes : List UInt8} :
    BeginsWithHeader id width size bytes ↔
      readId bytes = some (id.width, id.value) ∧
        readSize (bytes.drop id.width) = some (width, size) := by
  constructor
  · rintro ⟨⟨hone, height, hsize⟩, rest, rfl⟩
    rw [encodeHeader, List.append_assoc, List.drop_left' (length_encode ..)]
    constructor
    · exact readVint_encode id.width_pos id.width_le id.marker_le id.value_lt _
    · exact readSize_sizeField hone height hsize rest
  · rintro ⟨hid, hsize⟩
    obtain ⟨-, hidPrefix⟩ := readVint_eq_some_iff.mp hid
    obtain ⟨⟨w, value⟩, hvint, hpair⟩ := Option.map_eq_some_iff.mp hsize
    obtain ⟨rfl, rfl⟩ := Prod.mk.injEq .. ▸ hpair
    obtain ⟨⟨hone, height, hlow, hhigh⟩, hsizePrefix⟩ := readVint_eq_some_iff.mp hvint
    have hvalue : 2 ^ (7 * w) + value % 2 ^ (7 * w) = value := by
      rw [Nat.mod_eq_sub_mod hlow, Nat.mod_eq_of_lt (by rw [Nat.pow_succ] at hhigh; omega)]
      omega
    refine ⟨⟨hone, height, Nat.mod_lt _ (by positivity)⟩, ?_⟩
    obtain ⟨tail, rfl⟩ := hidPrefix
    rw [List.drop_left' (length_encode ..)] at hsizePrefix
    dsimp only
    rw [encodeHeader, hvalue]
    exact (List.prefix_append_right_inj _).mpr hsizePrefix

theorem length_encodeHeader (id : Id) (width size : ℕ) :
    (encodeHeader id width size).length = id.width + width := by
  simp [encodeHeader]

theorem beginsWithHeader_encodeElement (id : Id) (payload : List UInt8)
    (sizeWidth : SizeWidth payload.length) (rest : List UInt8) :
    BeginsWithHeader id sizeWidth.width payload.length
      (encodeElement id payload sizeWidth ++ rest) := by
  have hlt := sizeWidth.size_lt
  refine ⟨⟨sizeWidth.width_pos, sizeWidth.width_le, by omega⟩, ?_⟩
  rw [encodeElement, List.append_assoc]
  exact List.prefix_append ..

theorem readId_encodeElement (id : Id) (payload : List UInt8)
    (sizeWidth : SizeWidth payload.length) (rest : List UInt8) :
    readId (encodeElement id payload sizeWidth ++ rest) = some (id.width, id.value) :=
  (beginsWithHeader_iff.mp (beginsWithHeader_encodeElement id payload sizeWidth rest)).1

theorem readSize_encodeElement (id : Id) (payload : List UInt8)
    (sizeWidth : SizeWidth payload.length) (rest : List UInt8) :
    readSize ((encodeElement id payload sizeWidth ++ rest).drop id.width) =
      some (sizeWidth.width, payload.length) :=
  (beginsWithHeader_iff.mp (beginsWithHeader_encodeElement id payload sizeWidth rest)).2

theorem drop_encodeElement (id : Id) (payload : List UInt8)
    (sizeWidth : SizeWidth payload.length) (rest : List UInt8) :
    (encodeElement id payload sizeWidth ++ rest).drop (id.width + sizeWidth.width) =
      payload ++ rest := by
  rw [encodeElement, List.append_assoc, List.drop_left']
  simp

theorem length_encodeElement (id : Id) (payload : List UInt8)
    (sizeWidth : SizeWidth payload.length) :
    (encodeElement id payload sizeWidth).length =
      id.width + sizeWidth.width + payload.length := by
  simp [encodeElement, Nat.add_assoc]

theorem readHeader_of_beginsWithHeader {id : Id} {width size : ℕ} {bytes : List UInt8}
    (h : BeginsWithHeader id width size bytes) (hlen : id.width + width < bytes.length) :
    readHeader bytes = some ⟨id.value, size, id.width + width⟩ := by
  obtain ⟨hid, hsize⟩ := beginsWithHeader_iff.mp h
  simp only [readHeader, hid, hsize, Option.bind_eq_bind, Option.bind_some]
  rw [if_neg (by omega)]

theorem elementsFrom_encode (item : Item) (rest : List UInt8) (offset : ℕ) :
    elementsFrom offset (item.encode ++ rest) =
      ⟨item.id.value, item.payload.length,
        offset + (item.id.width + item.sizeWidth.width), item.payload⟩ ::
      elementsFrom (offset + item.encode.length) rest := by
  have hpos : 0 < item.payload.length := List.length_pos_of_ne_nil item.payload_ne
  have hread : readHeader (item.encode ++ rest) =
      some ⟨item.id.value, item.payload.length, item.id.width + item.sizeWidth.width⟩ := by
    apply readHeader_of_beginsWithHeader (beginsWithHeader_encodeElement ..)
    rw [List.length_append, length_encodeElement]
    omega
  rw [elementsFrom_of_some hread, Item.encode, drop_encodeElement,
    if_neg (by simp only [List.length_append]; omega), available, if_neg (by simpa using hpos.ne'),
    List.take_left, List.drop_left, length_encodeElement]
  simp only [Nat.add_assoc]

/-- The ids and payloads of elements written one after the other, and of whatever
follows them. -/
theorem map_elementsFrom_append (items : List Item) (rest : List UInt8) (offset : ℕ) :
    (elementsFrom offset (items.flatMap Item.encode ++ rest)).map (fun e ↦ (e.id, e.payload)) =
      (items.map fun item ↦ (item.id.value, item.payload)) ++
        (elementsFrom (offset + (items.flatMap Item.encode).length) rest).map
          fun e ↦ (e.id, e.payload) := by
  induction items generalizing offset with
  | nil => rfl
  | cons item items ih =>
      rw [List.flatMap_cons, List.append_assoc, elementsFrom_encode, List.map_cons, List.map_cons,
        ih, List.length_append, Nat.add_assoc]
      rfl

def payloadsWith (id : ℕ) (items : List Item) : List (List UInt8) :=
  (items.filter fun item ↦ item.id.value = id).map Item.payload

/-- The payloads of the children with an id that the cut off child at the end does
not have. -/
theorem map_payload_childrenWith_append (id : ℕ) (items : List Item) (rest : List UInt8)
    (hrest : ∀ e ∈ elementsFrom (items.flatMap Item.encode).length rest, e.id ≠ id) :
    (childrenWith id (elements (items.flatMap Item.encode ++ rest))).map Element.payload =
      payloadsWith id items := by
  have hmap := congrArg (fun ps : List (ℕ × List UInt8) ↦
    (ps.filter fun p ↦ p.1 = id).map Prod.snd) (map_elementsFrom_append items rest 0)
  have hnone : childrenWith id (elementsFrom (items.flatMap Item.encode).length rest) = [] := by
    simpa [childrenWith] using hrest
  simp only [List.filter_append, List.map_append, List.filter_map, List.map_map,
    Function.comp_def, Nat.zero_add] at hmap
  rw [← childrenWith, ← childrenWith, hnone, List.map_nil, List.append_nil] at hmap
  exact hmap

theorem map_payload_childrenWith (id : ℕ) (items : List Item) :
    (childrenWith id (elements (items.flatMap Item.encode))).map Element.payload =
      payloadsWith id items := by
  have hmap := map_payload_childrenWith_append id items []
    (by rw [elementsFrom_of_none rfl]; simp)
  rwa [List.append_nil] at hmap

/-- A header that can be read from the front of a byte string is the one that was
written there. -/
theorem eq_of_readHeader {id : Id} {width size : ℕ} {bytes full : List UInt8} {h : Header}
    (hfull : BeginsWithHeader id width size full) (hpart : bytes <+: full)
    (hread : readHeader bytes = some h) : h = ⟨id.value, size, id.width + width⟩ := by
  obtain ⟨hid, hsize⟩ := beginsWithHeader_iff.mp hfull
  obtain ⟨⟨idWidth, idValue⟩, hid', hread⟩ := Option.bind_eq_some_iff.mp hread
  obtain ⟨⟨sizeWidth, sizeValue⟩, hsize', hread⟩ := Option.bind_eq_some_iff.mp hread
  obtain ⟨-, rfl⟩ := by
    simpa only [Option.ite_none_left_eq_some, Option.some.injEq] using hread
  have hidEq : (id.width, id.value) = (idWidth, idValue) :=
    Option.some.inj (hid.symm.trans (readVint_mono hpart hid'))
  obtain ⟨rfl, rfl⟩ := Prod.mk.injEq .. ▸ hidEq
  obtain ⟨p, hvint, hp⟩ := Option.map_eq_some_iff.mp hsize'
  rw [readSize, readVint_mono (hpart.drop _) hvint, Option.map_some, hp] at hsize
  obtain ⟨rfl, rfl⟩ := Prod.mk.injEq .. ▸ Option.some.inj hsize
  rfl

/-- The elements in the first `n` bytes: an item that is cut off is found with the
part of its payload that is there, if any. -/
theorem elementsFrom_take_encode (item : Item) (rest : List UInt8) (offset n : ℕ) :
    elementsFrom offset ((item.encode ++ rest).take n) =
      if item.encode.length ≤ n then
        ⟨item.id.value, item.payload.length,
            offset + (item.id.width + item.sizeWidth.width), item.payload⟩ ::
          elementsFrom (offset + item.encode.length) (rest.take (n - item.encode.length))
      else if n ≤ item.id.width + item.sizeWidth.width then []
      else [⟨item.id.value, item.payload.length,
        offset + (item.id.width + item.sizeWidth.width),
        item.payload.take (n - (item.id.width + item.sizeWidth.width))⟩] := by
  have hlength : item.encode.length = item.id.width + item.sizeWidth.width + item.payload.length :=
    length_encodeElement ..
  by_cases hwhole : item.encode.length ≤ n
  · rw [if_pos hwhole, List.take_append, List.take_of_length_le hwhole, elementsFrom_encode]
  rw [if_neg hwhole, List.take_append_of_le_length (by omega)]
  have hbegins : BeginsWithHeader item.id item.sizeWidth.width item.payload.length
      (item.encode ++ []) := beginsWithHeader_encodeElement ..
  rw [List.append_nil] at hbegins
  have htake : (item.encode.take n).length = n := by
    rw [List.length_take]
    omega
  by_cases hcut : n ≤ item.id.width + item.sizeWidth.width
  · rw [if_pos hcut]
    cases hread : readHeader (item.encode.take n) with
    | none => exact elementsFrom_of_none hread offset
    | some h =>
        obtain rfl := eq_of_readHeader hbegins (List.take_prefix ..) hread
        obtain ⟨-, hlt, -⟩ := readHeader_eq_some hread
        dsimp only at hlt
        omega
  · have hthere : BeginsWithHeader item.id item.sizeWidth.width item.payload.length
        (item.encode.take n) := by
      refine ⟨hbegins.1, List.prefix_take_iff.mpr ⟨hbegins.2, ?_⟩⟩
      rw [length_encodeHeader]
      omega
    have hdrop : (item.encode.take n).drop (item.id.width + item.sizeWidth.width) =
        item.payload.take (n - (item.id.width + item.sizeWidth.width)) := by
      have hpayload := drop_encodeElement item.id item.payload item.sizeWidth []
      rw [List.append_nil, List.append_nil] at hpayload
      rw [List.drop_take, Item.encode, hpayload]
    have hshort : (item.payload.take (n - (item.id.width + item.sizeWidth.width))).length <
        item.payload.length := by
      rw [List.length_take]
      omega
    rw [if_neg hcut, elementsFrom_of_some (readHeader_of_beginsWithHeader hthere (by omega))]
    dsimp only
    rw [hdrop, if_pos (Or.inr hshort), available, if_neg (by omega),
      List.take_of_length_le hshort.le]

/-- In an element that fills the byte string, however little of it is there, no other
element is found. -/
theorem id_of_mem_elementsFrom_part {id : Id} {width size offset : ℕ}
    {bytes payload : List UInt8} (hwidth : 1 ≤ width ∧ width ≤ 8 ∧ size < 2 ^ (7 * width))
    (hpart : bytes <+: encodeHeader id width size ++ payload) (hcover : payload.length ≤ size)
    {e : Element} (he : e ∈ elementsFrom offset bytes) : e.id = id.value := by
  cases hread : readHeader bytes with
  | none =>
      rw [elementsFrom_of_none hread] at he
      cases he
  | some h =>
      obtain rfl := eq_of_readHeader ⟨hwidth, List.prefix_append ..⟩ hpart hread
      have hlen := hpart.length_le
      rw [List.length_append, length_encodeHeader] at hlen
      have htail : (bytes.drop (id.width + width)).drop size = [] :=
        List.drop_eq_nil_of_le (by rw [List.length_drop]; omega)
      rw [elementsFrom_of_some hread] at he
      rcases List.mem_cons.mp he with rfl | he
      · rfl
      · dsimp only at he
        rw [htail, elementsFrom_of_none rfl, ite_self] at he
        cases he

end Ebml
