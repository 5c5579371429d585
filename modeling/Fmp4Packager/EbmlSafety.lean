import Fmp4Packager.EbmlMeaning

/-!
# Reads outside the buffer

The header parsers narrow file offsets to `int` and compare them with the length
of the buffer from above only.  An offset that turns negative is read from, in
front of the buffer, or it is so far away that `len - pos` overflows.
-/

namespace Fmp4Packager

open Ebml

namespace EbmlParser

/-- The run only reads bytes of the buffer, no `int` overflows in it, and it ends. -/
def StaysInside {α : Type} (run : Except Fault α) : Prop :=
  ∃ result, run = .ok result

@[simp] theorem staysInside_ok {α : Type} (a : α) :
    StaysInside (.ok a : Except Fault α) := ⟨a, rfl⟩

@[simp] theorem not_staysInside_error {α : Type} (fault : Fault) :
    ¬ StaysInside (.error fault : Except Fault α) := by
  rintro ⟨_, ⟨⟩⟩

/-- What becomes of a read at a position in front of the buffer. -/
def faultBefore (buf : List UInt8) (pos : ℤ) : Fault :=
  if (buf.length : ℤ) - pos < 2 ^ 31 then .outOfBounds pos else .intOverflow

/-- Only a position in front of the buffer goes wrong. -/
theorem subInt_bind_ebmlReadId {β : Type} {buf : List UInt8} (hlen : buf.length < 2 ^ 31) {pos : ℤ}
    (hhigh : pos < 2 ^ 31) (k : Option (ℕ × ℕ) → Except Fault β) :
    (subInt buf.length pos >>= fun left ↦ ebmlReadId buf pos left >>= k) =
      if pos < 0 then .error (faultBefore buf pos) else k (readId (buf.drop pos.toNat)) := by
  by_cases hneg : pos < 0
  · rw [if_pos hneg, faultBefore]
    by_cases hnear : (buf.length : ℤ) - pos < 2 ^ 31
    · rw [subInt, if_pos ⟨by omega, hnear⟩, ok_bind, ebmlReadId, if_neg (by omega), readByte,
        if_pos hneg, if_pos hnear]
      rfl
    · rw [subInt, if_neg fun h ↦ hnear h.2, if_neg hnear]
      rfl
  · rw [if_neg hneg, subInt, if_pos ⟨by omega, by omega⟩, ok_bind]
    by_cases hin : pos ≤ buf.length
    · have hleft : (buf.length : ℤ) - pos = (buf.drop pos.toNat).length := by
        rw [List.length_drop]
        omega
      rw [hleft, ebmlReadId_of_pointsTo (pointsTo_drop (by omega) hin), ok_bind]
    · rw [ebmlReadId, if_pos (by omega), List.drop_eq_nil_of_le (by omega)]
      rfl

theorem ebmlReadSize_behind {buf : List UInt8} (hlen : buf.length < 2 ^ 31) {start width : ℕ}
    (hin : start + width ≤ buf.length) :
    toInt ((start : ℤ) + width) = (start + width : ℕ) ∧
      ebmlReadSize buf (start + width : ℕ) (toInt ((buf.length : ℤ) - (start + width : ℕ))) =
        .ok (readSize (buf.drop (start + width))) := by
  have hleft : toInt ((buf.length : ℤ) - (start + width : ℕ)) =
      (buf.drop (start + width)).length := by
    rw [toInt_sub hin hlen, List.length_drop]
  have hdata : PointsTo buf (start + width : ℕ) (buf.drop (start + width)) := by
    simpa using (pointsTo_self buf).drop hin
  constructor
  · exact toInt_add (by omega)
  · rw [hleft]
    exact ebmlReadSize_of_pointsTo hdata

def headerEnd (es : List Element) : ℤ :=
  ((childrenWith kEbmlIdEBMLHeader es).getLast?.map
    fun e : Element ↦ toInt ((e.offset : ℤ) + e.size)).getD 0

theorem headerEnd_scan {buf : List UInt8} (hlen : buf.length < 2 ^ 31) :
    ebmlScanChildren buf 0 buf.length 0 headerEndVisitor 0 =
      .ok (headerEnd (elements buf)) := by
  apply ebmlScanChildren_eq_ok headerEnd (pointsTo_self buf) hlen
  intro es e he _ _
  obtain ⟨pre, post, hbuf, hoff, -, hsize⟩ := payload_of_mem_elementsFrom he
  have hpre : pre.length ≤ buf.length := by
    rw [hbuf]
    simp
  have hexact : toInt64 (0 + (e.offset : ℤ) + e.size) = (e.offset : ℤ) + e.size := by
    rw [toInt64_eq_self] <;> omega
  simp only [headerEndVisitor, childAt, hexact, headerEnd, childrenWith_append,
    childrenWith_singleton, List.getLast?_append]
  split_ifs <;> simp

/-- Both header parsers look for the Segment in front of the buffer. -/
def HeaderEscapes (buf : List UInt8) : Prop :=
  32 ≤ buf.length ∧ headerEnd (elements buf) < 0

instance (buf : List UInt8) : Decidable (HeaderEscapes buf) :=
  inferInstanceAs (Decidable (_ ∧ _))

/-- Where the data of the Segment element at `pos` start. -/
def segmentDataAt (buf : List UInt8) (pos : ℕ) : Option ℕ := do
  let (idWidth, id) ← readId (buf.drop pos)
  if id ≠ kEbmlIdSegment then none
  else
    let (sizeWidth, _) ← readSize (buf.drop (pos + idWidth))
    some (pos + idWidth + sizeWidth)

/-- Where the Segment data start, if the header has the expected form. -/
def segmentData (buf : List UInt8) : Option ℕ :=
  if buf.length < 32 ∨ headerEnd (elements buf) ≤ 0 then none
  else segmentDataAt buf (headerEnd (elements buf)).toNat

theorem headerEnd_bounds (es : List Element) :
    -2 ^ 31 ≤ headerEnd es ∧ headerEnd es < 2 ^ 31 := by
  rw [headerEnd]
  cases (childrenWith kEbmlIdEBMLHeader es).getLast? with
  | none => simp
  | some e => exact ⟨le_toInt _, toInt_lt _⟩

theorem segmentData_le {buf : List UInt8} {start : ℕ} (h : segmentData buf = some start) :
    start ≤ buf.length := by
  rw [segmentData, Option.ite_none_left_eq_some, segmentDataAt] at h
  obtain ⟨⟨idWidth, id⟩, -, h⟩ := Option.bind_eq_some_iff.mp h.2
  obtain ⟨-, h⟩ := Option.ite_none_left_eq_some.mp h
  obtain ⟨⟨sizeWidth, size⟩, hsize, h⟩ := Option.bind_eq_some_iff.mp h
  obtain ⟨hone, -, hsizeLen, -⟩ := readSize_eq_some hsize
  obtain rfl := Option.some.inj h
  rw [List.length_drop] at hsizeLen
  omega

theorem findSegmentData_eq {buf : List UInt8} (hlen : buf.length < 2 ^ 31) :
    findSegmentData buf =
      if HeaderEscapes buf then .error (faultBefore buf (headerEnd (elements buf)))
      else .ok ((segmentData buf).map fun start : ℕ ↦ (start : ℤ)) := by
  obtain ⟨-, hhigh⟩ := headerEnd_bounds (elements buf)
  rw [findSegmentData, headerEnd_scan hlen, ok_bind, subInt_bind_ebmlReadId hlen hhigh]
  generalize hpos : headerEnd (elements buf) = pos at hhigh ⊢
  by_cases hshort : buf.length < 32
  · have hsafe : ¬ HeaderEscapes buf := fun h ↦ absurd h.1 (by omega)
    rw [if_pos (by omega), if_neg hsafe, segmentData, if_pos (Or.inl hshort)]
    rfl
  rw [if_neg (by omega)]
  by_cases hneg : pos < 0
  · have hheader : HeaderEscapes buf := ⟨by omega, hpos ▸ hneg⟩
    rw [if_neg (by omega), if_pos hneg, if_pos hheader]
  have hsafe : ¬ HeaderEscapes buf := fun h ↦ hneg (hpos ▸ h.2)
  rw [if_neg hneg, if_neg hsafe]
  by_cases hle : pos ≤ 0
  · have hnone : segmentData buf = none := if_pos (.inr (hpos ▸ hle))
    rw [hnone, Option.map_none]
    split_ifs <;> first | rfl | omega
  have hsome : segmentData buf = segmentDataAt buf pos.toNat := by
    rw [segmentData, hpos, if_neg (by omega)]
  rw [hsome, segmentDataAt]
  by_cases hout : buf.length ≤ pos
  · rw [if_pos (.inr hout), List.drop_eq_nil_of_le (by omega)]
    rfl
  rw [if_neg (by omega)]
  obtain ⟨start, rfl⟩ := Int.eq_ofNat_of_zero_le (by omega : 0 ≤ pos)
  rw [Int.toNat_natCast]
  cases hid : readId (buf.drop start) with
  | none => rfl
  | some idp =>
      obtain ⟨idWidth, id⟩ := idp
      obtain ⟨-, -, hidLen⟩ := readId_eq_some hid
      rw [List.length_drop] at hidLen
      by_cases hsegment : id = kEbmlIdSegment
      · have hidIn : start + idWidth ≤ buf.length := by omega
        obtain ⟨hposId, hreadSize⟩ := ebmlReadSize_behind hlen hidIn
        simp only [hsegment, ne_eq, not_true_eq_false, if_false, hposId, hreadSize, ok_bind,
          Option.bind_eq_bind, Option.bind_some]
        cases hsize : readSize (buf.drop (start + idWidth)) with
        | none => rfl
        | some sizep =>
            obtain ⟨sizeWidth, size⟩ := sizep
            obtain ⟨-, -, hsizeLen, -⟩ := readSize_eq_some hsize
            rw [List.length_drop] at hsizeLen
            have hpos : toInt ((start + idWidth : ℕ) + sizeWidth : ℤ) =
                (start + idWidth + sizeWidth : ℕ) := toInt_add (by omega)
            simp only [hpos, Option.bind_some, Option.map_some]
      · simp [hsegment]

theorem pointsTo_segmentData {buf : List UInt8} (hlen : buf.length < 2 ^ 31) {start : ℕ}
    (hstart : segmentData buf = some start) :
    PointsTo buf start (buf.drop start) ∧ (buf.drop start).length < 2 ^ 31 ∧
      toInt ((buf.length : ℤ) - start) = (buf.drop start).length := by
  have hle := segmentData_le hstart
  refine ⟨by simpa using (pointsTo_self buf).drop hle, ?_, ?_⟩
  · rw [List.length_drop]
    omega
  · rw [toInt_sub hle hlen, List.length_drop]

theorem parseSegmentInfo_eq {buf : List UInt8} (hlen : buf.length < 2 ^ 31) :
    parseSegmentInfo buf =
      if HeaderEscapes buf then .error (faultBefore buf (headerEnd (elements buf)))
      else .ok (((segmentData buf).map fun start ↦
        segmentInfoOf (elements (buf.drop start))).getD {}) := by
  rw [parseSegmentInfo, findSegmentData_eq hlen]
  by_cases hescape : HeaderEscapes buf
  · rw [if_pos hescape, if_pos hescape, error_bind]
  rw [if_neg hescape, if_neg hescape, ok_bind]
  cases hstart : segmentData buf with
  | none => rfl
  | some start =>
      obtain ⟨hdata, hdataLen, hleft⟩ := pointsTo_segmentData hlen hstart
      simp only [Option.map_some, hleft, Option.getD_some]
      exact segmentInfo_scan hdata hdataLen

theorem parseCuesLocation_eq {buf : List UInt8} (hlen : buf.length < 2 ^ 31) :
    parseCuesLocation buf =
      if HeaderEscapes buf then .error (faultBefore buf (headerEnd (elements buf)))
      else
        match segmentData buf with
        | none => .ok none
        | some start =>
            (seekPositions (elements (buf.drop start))).foldlM
              (fun _ seekPos ↦ locateCues buf start seekPos) none := by
  rw [parseCuesLocation, findSegmentData_eq hlen]
  by_cases hescape : HeaderEscapes buf
  · rw [if_pos hescape, if_pos hescape, error_bind]
  rw [if_neg hescape, if_neg hescape, ok_bind]
  cases hstart : segmentData buf with
  | none => rfl
  | some start =>
      obtain ⟨hdata, hdataLen, hleft⟩ := pointsTo_segmentData hlen hstart
      simp only [Option.map_some, hleft]
      exact cuesLocation_scan hdata hdataLen start

/-- The size of the Cues element is looked for in front of the buffer. -/
def OffsetEscapes (buf : List UInt8) (absOffset : ℤ) : Prop :=
  absOffset < buf.length ∧ toInt absOffset < 0

instance (buf : List UInt8) (absOffset : ℤ) : Decidable (OffsetEscapes buf absOffset) :=
  inferInstanceAs (Decidable (_ ∧ _))

/-- The bytes of the Cues element whose header is read from the front. -/
def cuesSize (bytes : List UInt8) : ℤ :=
  match readId bytes with
  | none => 0
  | some (idWidth, id) =>
    if id = kEbmlIdCues then
      match readSize (bytes.drop idWidth) with
      | none => 0
      | some (sizeWidth, size) => if 0 < size then idWidth + sizeWidth + size else 0
    else 0

theorem readCuesSize_eq {buf : List UInt8} (hlen : buf.length < 2 ^ 31) (absOffset : ℤ) :
    readCuesSize buf absOffset =
      if OffsetEscapes buf absOffset then .error (faultBefore buf (toInt absOffset))
      else if absOffset < buf.length then .ok (cuesSize (buf.drop (toInt absOffset).toNat))
      else .ok 0 := by
  have hhigh := toInt_lt absOffset
  rw [readCuesSize]
  by_cases hbefore : absOffset < buf.length
  swap
  · rw [if_neg hbefore, if_neg fun h ↦ hbefore h.1, if_neg hbefore]
  rw [if_pos hbefore]
  simp only [subInt_bind_ebmlReadId hlen hhigh]
  generalize hpos : toInt absOffset = pos at hhigh ⊢
  by_cases hneg : pos < 0
  · have hoffset : OffsetEscapes buf absOffset := ⟨hbefore, hpos ▸ hneg⟩
    rw [if_pos hneg, if_pos hoffset]
  have hsafe : ¬ OffsetEscapes buf absOffset := fun h ↦ hneg (hpos ▸ h.2)
  rw [if_neg hneg, if_neg hsafe, if_pos hbefore]
  obtain ⟨start, rfl⟩ := Int.eq_ofNat_of_zero_le (by omega : 0 ≤ pos)
  rw [Int.toNat_natCast, cuesSize]
  cases hid : readId (buf.drop start) with
  | none => rfl
  | some idp =>
      obtain ⟨idWidth, id⟩ := idp
      obtain ⟨hidPos, -, hidLen⟩ := readId_eq_some hid
      rw [List.length_drop] at hidLen
      have hidIn : start + idWidth ≤ buf.length := by omega
      obtain ⟨hposId, hreadSize⟩ := ebmlReadSize_behind hlen hidIn
      simp only [hposId, hreadSize, ok_bind, List.drop_drop]
      split_ifs
      · cases readSize (buf.drop (start + idWidth)) <;> rfl
      · rfl

theorem readCuesSize_staysInside_iff {buf : List UInt8} (hlen : buf.length < 2 ^ 31)
    (absOffset : ℤ) :
    StaysInside (readCuesSize buf absOffset) ↔ ¬ OffsetEscapes buf absOffset := by
  rw [readCuesSize_eq hlen]
  split_ifs with hescape hinside
  · exact iff_of_false (not_staysInside_error _) fun h ↦ h hescape
  · exact iff_of_true (staysInside_ok _) hescape
  · exact iff_of_true (staysInside_ok _) hescape

theorem foldlM_staysInside_iff {α σ : Type} (f : α → Except Fault σ) (s : σ) (xs : List α) :
    StaysInside (xs.foldlM (fun _ x ↦ f x) s) ↔ ∀ x ∈ xs, StaysInside (f x) := by
  induction xs generalizing s with
  | nil => simp [pure, Except.pure]
  | cons x xs ih =>
      rw [List.foldlM_cons, List.forall_mem_cons]
      cases hx : f x with
      | error fault => simp
      | ok s' => rw [ok_bind, ih]; simp

theorem locateCues_staysInside_iff {buf : List UInt8} (hlen : buf.length < 2 ^ 31)
    (segmentDataStart : ℤ) (seekPos : ℕ) :
    StaysInside (locateCues buf segmentDataStart seekPos) ↔
      ¬ OffsetEscapes buf (cuesOffset segmentDataStart seekPos) := by
  rw [locateCues, ← readCuesSize_staysInside_iff hlen]
  cases readCuesSize buf (cuesOffset segmentDataStart seekPos) <;> simp

/-- Neither the end of the EBML header nor an offset that a Seek entry gives for
the Cues turns negative. -/
structure OffsetsInRange (buf : List UInt8) : Prop where
  header : ¬ HeaderEscapes buf
  cues : ∀ start, segmentData buf = some start →
    ∀ seekPos ∈ seekPositions (elements (buf.drop start)),
      ¬ OffsetEscapes buf (cuesOffset start seekPos)

/-- The parsers stay inside their buffer exactly when the file offsets they
narrow stay in range; `parse_cues_data` always does. -/
theorem parsers_stayInside_iff {buf : List UInt8} (hlen : buf.length < 2 ^ 31) :
    (StaysInside (parseSegmentInfo buf) ∧ StaysInside (parseCuesLocation buf) ∧
      ∀ timestampScale videoTrackNumber segmentDataStart,
        StaysInside (parseCuesData buf timestampScale videoTrackNumber segmentDataStart)) ↔
      OffsetsInRange buf := by
  have hcues : ∀ timestampScale videoTrackNumber segmentDataStart,
      StaysInside (parseCuesData buf timestampScale videoTrackNumber segmentDataStart) :=
    fun _ _ _ ↦ ⟨_, parseCuesData_eq hlen _ _ _⟩
  rw [parseSegmentInfo_eq hlen, parseCuesLocation_eq hlen]
  by_cases hescape : HeaderEscapes buf
  · rw [if_pos hescape]
    exact iff_of_false (fun h ↦ not_staysInside_error _ h.1) fun h ↦ h.header hescape
  rw [if_neg hescape, if_neg hescape]
  constructor
  · rintro ⟨-, hlocation, -⟩
    refine ⟨hescape, fun start hstart seekPos hseek ↦ ?_⟩
    rw [hstart, foldlM_staysInside_iff] at hlocation
    exact (locateCues_staysInside_iff hlen start seekPos).mp (hlocation seekPos hseek)
  · rintro ⟨-, hoffsets⟩
    refine ⟨staysInside_ok _, ?_, hcues⟩
    cases hstart : segmentData buf with
    | none => exact staysInside_ok _
    | some start =>
        rw [foldlM_staysInside_iff]
        exact fun seekPos hseek ↦
          (locateCues_staysInside_iff hlen start seekPos).mpr (hoffsets start hstart seekPos hseek)

/-- A file that opens with an EBML header of size `2^32 - 13`, which ends at
`-1`. -/
def wrappingHeader : List UInt8 :=
  [0x1A, 0x45, 0xDF, 0xA3, 0x01, 0, 0, 0, 0xFF, 0xFF, 0xFF, 0xF3] ++ List.replicate 20 0

theorem parsers_stayInside_iff_wrappingHeader :
    wrappingHeader.length < 2 ^ 31 ∧
      ((StaysInside (parseSegmentInfo wrappingHeader) ∧
        StaysInside (parseCuesLocation wrappingHeader) ∧
        ∀ timestampScale videoTrackNumber segmentDataStart, StaysInside
          (parseCuesData wrappingHeader timestampScale videoTrackNumber segmentDataStart)) ↔
        OffsetsInRange wrappingHeader) :=
  ⟨by decide, parsers_stayInside_iff (by decide)⟩

theorem not_parsers_stayInside :
    ¬ ∀ buf : List UInt8, buf.length < 2 ^ 31 →
      StaysInside (parseSegmentInfo buf) ∧ StaysInside (parseCuesLocation buf) ∧
        ∀ timestampScale videoTrackNumber segmentDataStart,
          StaysInside (parseCuesData buf timestampScale videoTrackNumber segmentDataStart) := by
  intro h
  obtain ⟨info, hinfo⟩ := (h wrappingHeader (by decide)).1
  have hfault : parseSegmentInfo wrappingHeader = .error (.outOfBounds (-1)) := by
    decide +kernel
  rw [hfault] at hinfo
  cases hinfo

end EbmlParser

end Fmp4Packager
