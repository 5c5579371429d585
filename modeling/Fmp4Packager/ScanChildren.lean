import Fmp4Packager.EbmlScan

/-!
# The children that the scan sees

Children written end to end, with payloads that may be empty.  A size of zero is a
known size, but the scan takes it for an unknown one: it hands everything that
follows to the visitor and stops.
-/

namespace Fmp4Packager

open Ebml

namespace EbmlParser

/-- A child to be written, in a legal size width. -/
structure WrittenChild where
  id : Id
  payload : List UInt8
  sizeWidth : SizeWidth payload.length

namespace WrittenChild

def encode (w : WrittenChild) : List UInt8 := encodeElement w.id w.payload w.sizeWidth

/-- The bytes before the payload. -/
def headerLength (w : WrittenChild) : ℕ := w.id.width + w.sizeWidth.width

def toItem (w : WrittenChild) (hne : w.payload ≠ []) : Item :=
  ⟨w.id, w.payload, w.sizeWidth, hne⟩

end WrittenChild

/-- What a visitor makes of its arguments: the bytes that it is given stand for the
pointer and the number of bytes behind it. -/
structure Visit where
  id : ℕ
  bytes : List UInt8
  size : ℤ
  offset : ℤ
  deriving DecidableEq, Repr

def Child.visit (buf : List UInt8) (c : Child) : Visit :=
  ⟨c.id, (buf.drop c.data.toNat).take c.avail.toNat, c.size, c.offset⟩

/-- One visit for each child, in order; `offset` is the absolute offset of the first
byte. -/
def expectedVisits (offset : ℤ) : List WrittenChild → List Visit
  | [] => []
  | w :: ws =>
      ⟨w.id.value, w.payload, w.payload.length, offset + w.headerLength⟩ ::
        expectedVisits (offset + w.encode.length) ws

/-- The scan of the children at `p` calls its visitor, whatever that does, once for
each of them, in order. -/
def VisitsEach (buf : List UInt8) (p childBaseOffset : ℤ) (ws : List WrittenChild) : Prop :=
  ∃ calls : List Child,
    calls.map (Child.visit buf) = expectedVisits childBaseOffset ws ∧
      ∀ (σ : Type) (visitor : σ → Child → Except Fault σ) (s : σ),
        ebmlScanChildren buf p (ws.flatMap WrittenChild.encode).length childBaseOffset visitor s =
          calls.foldlM visitor s

theorem foldlM_record {α : Type} (calls log : List α) :
    calls.foldlM (m := Except Fault) (fun log call ↦ .ok (log ++ [call])) log =
      .ok (log ++ calls) := by
  induction calls generalizing log with
  | nil => simp [pure, Except.pure]
  | cons call calls ih =>
      rw [List.foldlM_cons, ok_bind, ih, List.append_assoc, List.singleton_append]

theorem visit_childAt {buf : List UInt8} {p : ℤ} {e : Element}
    (h : PointsTo buf (p + e.offset) e.payload) (childBaseOffset : ℤ) :
    (childAt p childBaseOffset e).visit buf =
      ⟨e.id, e.payload, e.size, childBaseOffset + e.offset⟩ := by
  obtain ⟨pre, post, rfl, hpre⟩ := h
  rw [Child.visit, childAt, hpre, Int.toNat_natCast, Int.toNat_natCast, List.append_assoc,
    List.drop_left, List.take_left]

theorem ebmlScanChildren_eq_foldlM_map {σ : Type} {buf : List UInt8} {p childBaseOffset : ℤ}
    {visitor : σ → Child → Except Fault σ} {bytes : List UInt8} (h : PointsTo buf p bytes)
    (hlen : bytes.length < 2 ^ 31) (s : σ) :
    ebmlScanChildren buf p bytes.length childBaseOffset visitor s =
      ((elements bytes).map (childAt p childBaseOffset)).foldlM visitor s := by
  rw [ebmlScanChildren_of_pointsTo h hlen, List.foldlM_map]

/-- The visits are those of the elements that the bytes hold. -/
theorem visitsEach_iff_elements {buf : List UInt8} {p : ℤ} {ws : List WrittenChild}
    (h : PointsTo buf p (ws.flatMap WrittenChild.encode))
    (hlen : (ws.flatMap WrittenChild.encode).length < 2 ^ 31) (childBaseOffset : ℤ) :
    VisitsEach buf p childBaseOffset ws ↔
      (elements (ws.flatMap WrittenChild.encode)).map
          (fun e ↦ (⟨e.id, e.payload, e.size, childBaseOffset + e.offset⟩ : Visit)) =
        expectedVisits childBaseOffset ws := by
  have hseen : ((elements (ws.flatMap WrittenChild.encode)).map
      (childAt p childBaseOffset)).map (Child.visit buf) =
        (elements (ws.flatMap WrittenChild.encode)).map
          (fun e ↦ (⟨e.id, e.payload, e.size, childBaseOffset + e.offset⟩ : Visit)) := by
    rw [List.map_map]
    exact List.map_congr_left fun e he ↦ visit_childAt (h.payload he) childBaseOffset
  rw [← hseen]
  constructor
  · rintro ⟨calls, hcalls, hscan⟩
    have hlog := hscan (List Child) (fun log call ↦ .ok (log ++ [call])) []
    rw [ebmlScanChildren_eq_foldlM_map h hlen, foldlM_record, foldlM_record] at hlog
    rw [List.append_cancel_left (Except.ok.inj hlog), hcalls]
  · exact fun hcalls ↦ ⟨_, hcalls, fun σ visitor s ↦ ebmlScanChildren_eq_foldlM_map h hlen s⟩

theorem map_elementsFrom_encode (childBaseOffset : ℤ) (ws : List WrittenChild)
    (hne : ∀ w ∈ ws, w.payload ≠ []) (offset : ℕ) :
    (elementsFrom offset (ws.flatMap WrittenChild.encode)).map
        (fun e ↦ (⟨e.id, e.payload, e.size, childBaseOffset + e.offset⟩ : Visit)) =
      expectedVisits (childBaseOffset + offset) ws := by
  induction ws generalizing offset with
  | nil =>
      rw [List.flatMap_nil, elementsFrom_of_none rfl]
      rfl
  | cons w ws ih =>
      have hitem : w.encode = (w.toItem (hne w List.mem_cons_self)).encode := rfl
      rw [List.flatMap_cons, hitem, elementsFrom_encode, List.map_cons, ← hitem,
        ih (fun w' hmem ↦ hne w' (List.mem_cons_of_mem w hmem)), expectedVisits]
      congr 1
      · simp only [WrittenChild.toItem, WrittenChild.headerLength]
        push_cast
        ring_nf
      · push_cast
        ring_nf

theorem exists_visit {w : WrittenChild} {ws : List WrittenChild} (hmem : w ∈ ws) (offset : ℤ) :
    ∃ visit ∈ expectedVisits offset ws, visit.bytes = w.payload := by
  induction ws generalizing offset with
  | nil => cases hmem
  | cons w' ws ih =>
      rcases List.mem_cons.mp hmem with rfl | hrest
      · exact ⟨_, List.mem_cons_self, rfl⟩
      · obtain ⟨visit, hvisit, hbytes⟩ := ih hrest (offset + w'.encode.length)
        exact ⟨visit, List.mem_cons_of_mem _ hvisit, hbytes⟩

/-- The scan sees every child exactly when none of them is empty. -/
theorem visitsEach_iff {buf : List UInt8} {p : ℤ} {ws : List WrittenChild}
    (h : PointsTo buf p (ws.flatMap WrittenChild.encode))
    (hlen : (ws.flatMap WrittenChild.encode).length < 2 ^ 31) (childBaseOffset : ℤ) :
    VisitsEach buf p childBaseOffset ws ↔ ∀ w ∈ ws, w.payload ≠ [] := by
  rw [visitsEach_iff_elements h hlen]
  constructor
  · intro hvisits w hmem
    obtain ⟨visit, hvisit, hbytes⟩ := exists_visit hmem childBaseOffset
    rw [← hvisits] at hvisit
    obtain ⟨e, he, rfl⟩ := List.mem_map.mp hvisit
    obtain ⟨-, -, -, -, hpayload, -⟩ := payload_of_mem_elementsFrom he
    rw [← hbytes]
    exact hpayload
  · intro hne
    have hvisits := map_elementsFrom_encode childBaseOffset ws hne 0
    rwa [Nat.cast_zero, add_zero] at hvisits

/-- A Void element of the given payload, in a size width of one byte. -/
def voidChild (payload : List UInt8) (hlen : payload.length + 1 < 2 ^ 7) : WrittenChild where
  id := Id.ofBounds 1 0xEC (by decide)
  payload := payload
  sizeWidth := SizeWidth.ofBounds 1 ⟨le_rfl, Nat.le_add_right 1 7, hlen⟩

theorem visitsEach_iff_two_voids :
    VisitsEach [0, 0xEC, 0x81, 5, 0xEC, 0x82, 6, 7] 1 100
        [voidChild [5] (by decide), voidChild [6, 7] (by decide)] ↔
      ∀ w ∈ [voidChild [5] (by decide), voidChild [6, 7] (by decide)], w.payload ≠ [] :=
  visitsEach_iff ⟨[0], [], by decide, rfl⟩ (by decide) 100

/-- The second of two children is lost behind an empty one. -/
theorem not_visitsEach :
    ¬ ∀ (buf : List UInt8) (p childBaseOffset : ℤ) (ws : List WrittenChild),
      PointsTo buf p (ws.flatMap WrittenChild.encode) →
        (ws.flatMap WrittenChild.encode).length < 2 ^ 31 →
          VisitsEach buf p childBaseOffset ws := by
  intro h
  have hvisits := h [0xEC, 0x80, 0xEC, 0x81, 5] 0 0
    [voidChild [] (by decide), voidChild [5] (by decide)]
    ⟨[], [], by decide, rfl⟩ (by decide)
  obtain ⟨calls, hcalls, hscan⟩ := hvisits
  have hlog := hscan (List Child) (fun log call ↦ .ok (log ++ [call])) []
  have hone : ebmlScanChildren [0xEC, 0x80, 0xEC, 0x81, 5] 0 5 0
      (fun log call ↦ .ok (log ++ [call])) [] = .ok [⟨0xEC, 2, 3, 0, 2⟩] := rfl
  rw [foldlM_record] at hlog
  have hsame : [⟨0xEC, 2, 3, 0, 2⟩] = [] ++ calls := Except.ok.inj (hone.symm.trans hlog)
  have hcount := congrArg List.length hcalls
  rw [List.length_map, ← List.nil_append calls, ← hsame] at hcount
  exact absurd hcount (by decide)

end EbmlParser

end Fmp4Packager
