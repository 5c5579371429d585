import Fmp4Packager.ScanChildren
import Mathlib.Logic.Relation

/-!
# The scan is safe on any bytes

Whatever the bytes, a scan ends, reads nothing but its slice, and hands over pieces of
it that follow one another; so do the scans that are started on these pieces.  That no
`int` overflows is said with a second loop, which traps where the first one wraps.
-/

namespace Fmp4Packager

open Ebml

namespace EbmlParser

/-- What stops a run whose `int` arithmetic is checked. -/
inductive Trap where
  | fault (fault : Fault)
  | overflow (value : ℤ)
  deriving DecidableEq, Repr

/-- The value of an `int` expression, if it is one. -/
def checkedInt (v : ℤ) : Except Trap ℤ :=
  if -0x80000000 ≤ v ∧ v < 0x80000000 then .ok v else .error (.overflow v)

def withTraps {α : Type} (run : Except Fault α) : Except Trap α := run.mapError Trap.fault

/-- The number of payload bytes that the visitor is told of. -/
def checkedAvail (sz dataRemaining : ℤ) : Except Trap ℤ :=
  if 0 < sz ∧ sz < dataRemaining then checkedInt sz else .ok dataRemaining

/-- The scan loop; an `int` expression that leaves its range is trapped. -/
def checkedScanLoop {σ : Type} (buf : List UInt8) (p len childBaseOffset : ℤ)
    (visitor : σ → Child → Except Fault σ) : ℕ → ℤ → σ → Except Trap σ
  | 0, _, _ => .error (.fault .outOfFuel)
  | fuel + 1, pos, s =>
      if pos < 0 ∨ len ≤ pos then .ok s
      else do
        let left ← checkedInt (len - pos)
        match ← withTraps (ebmlReadId buf (p + pos) left) with
        | none => .ok s
        | some (idBytes, id) => do
          let pos ← checkedInt (pos + idBytes)
          if len ≤ pos then .ok s
          else do
            let left ← checkedInt (len - pos)
            match ← withTraps (ebmlReadSize buf (p + pos) left) with
            | none => .ok s
            | some (szBytes, sz) => do
              let pos ← checkedInt (pos + szBytes)
              if len < pos then .ok s
              else do
                let dataRemaining ← checkedInt (len - pos)
                if dataRemaining ≤ 0 then .ok s
                else do
                  let dataAvail ← checkedAvail sz dataRemaining
                  let s ← withTraps
                    (visitor s ⟨id, p + pos, dataAvail, sz, childBaseOffset + pos⟩)
                  if (sz : ℤ) ≤ 0 then .ok s
                  else do
                    let left ← checkedInt (len - pos)
                    if left < (sz : ℤ) then .ok s
                    else do
                      let step ← checkedInt sz
                      let pos ← checkedInt (pos + step)
                      checkedScanLoop buf p len childBaseOffset visitor fuel pos s

def checkedScanChildren {σ : Type} (buf : List UInt8) (p len childBaseOffset : ℤ)
    (visitor : σ → Child → Except Fault σ) (s : σ) : Except Trap σ :=
  if len ≤ 0 then .ok s
  else checkedScanLoop buf p len childBaseOffset visitor (len.toNat + 1) 0 s

@[simp] theorem withTraps_ok {α : Type} (a : α) : withTraps (.ok a) = .ok a := rfl

/-- Without an overflow both kinds of arithmetic agree. -/
theorem checkedInt_eq {v : ℤ} (hlow : 0 ≤ v) (hhigh : v < 2 ^ 31) :
    checkedInt v = .ok v ∧ toInt v = v :=
  ⟨if_pos (by omega), toInt_eq_self (by omega) hhigh⟩

theorem checkedAvail_eq {sz dataRemaining : ℤ} (hhigh : dataRemaining < 2 ^ 31) :
    checkedAvail sz dataRemaining =
      .ok (if 0 < sz ∧ sz < dataRemaining then toInt sz else dataRemaining) := by
  rw [checkedAvail]
  split_ifs with hinside
  · obtain ⟨hsz, hsz'⟩ := checkedInt_eq (v := sz) (by omega) (by omega)
    rw [hsz, hsz']
  · rfl

/-- In a slice shorter than `2^31` the loop never overflows. -/
theorem checkedScanLoop_eq {σ : Type} {buf : List UInt8} {p len childBaseOffset : ℤ}
    {visitor : σ → Child → Except Fault σ} (hlen : len < 2 ^ 31) (fuel : ℕ) (pos : ℤ) (s : σ) :
    checkedScanLoop buf p len childBaseOffset visitor fuel pos s =
      withTraps (scanLoop buf p len childBaseOffset visitor fuel pos s) := by
  induction fuel generalizing pos s with
  | zero => rfl
  | succ fuel ih =>
      rw [checkedScanLoop, scanLoop]
      by_cases hout : pos < 0 ∨ len ≤ pos
      · rw [if_pos hout, if_pos hout, withTraps_ok]
      obtain ⟨hleft, hleft'⟩ := checkedInt_eq (v := len - pos) (by omega) (by omega)
      rw [if_neg hout, if_neg hout, hleft, hleft', ok_bind]
      cases hid : ebmlReadId buf (p + pos) (len - pos) with
      | error fault => rfl
      | ok found =>
      rcases found with _ | ⟨idBytes, id⟩
      · rfl
      have hidLen := readOfWidth_width hid
      obtain ⟨hpos, hpos'⟩ := checkedInt_eq (v := pos + idBytes) (by omega) (by omega)
      simp only [withTraps_ok, ok_bind, hpos, hpos']
      have hnonneg : 0 ≤ pos + idBytes := by omega
      generalize pos + (idBytes : ℤ) = sizePos at hnonneg ⊢
      by_cases hend : len ≤ sizePos
      · rw [if_pos hend, if_pos hend, withTraps_ok]
      obtain ⟨hleft, hleft'⟩ := checkedInt_eq (v := len - sizePos) (by omega) (by omega)
      rw [if_neg hend, if_neg hend, hleft, hleft', ok_bind]
      cases hsize : ebmlReadSize buf (p + sizePos) (len - sizePos) with
      | error fault => rfl
      | ok found =>
      rcases found with _ | ⟨szBytes, sz⟩
      · rfl
      have hsizeLen := readOfWidth_width hsize
      obtain ⟨hpos, hpos'⟩ := checkedInt_eq (v := sizePos + szBytes) (by omega) (by omega)
      simp only [withTraps_ok, ok_bind, hpos, hpos']
      have hdata : 0 ≤ sizePos + szBytes := by omega
      generalize sizePos + (szBytes : ℤ) = dataPos at hdata ⊢
      by_cases hover : len < dataPos
      · rw [if_pos hover, if_pos hover, withTraps_ok]
      obtain ⟨hleft, hleft'⟩ := checkedInt_eq (v := len - dataPos) (by omega) (by omega)
      simp only [if_neg hover, hleft, hleft', ok_bind]
      by_cases hempty : len - dataPos ≤ 0
      · rw [if_pos hempty, if_pos hempty, withTraps_ok]
      rw [if_neg hempty, if_neg hempty, checkedAvail_eq (by omega), ok_bind]
      generalize visitor s _ = visited
      cases visited with
      | error fault => rfl
      | ok s =>
      simp only [withTraps_ok, ok_bind]
      by_cases hzero : (sz : ℤ) ≤ 0
      · rw [if_pos hzero, if_pos hzero, withTraps_ok]
      by_cases hbeyond : len - dataPos < (sz : ℤ)
      · simp only [if_neg hzero, if_pos hbeyond, withTraps_ok]
      obtain ⟨hstep, hstep'⟩ := checkedInt_eq (v := sz) (by omega) (by omega)
      obtain ⟨hnext, hnext'⟩ := checkedInt_eq (v := dataPos + sz) (by omega) (by omega)
      simp only [if_neg hzero, if_neg hbeyond, hstep, hstep', ok_bind, hnext, hnext']
      exact ih _ _

theorem checkedScanChildren_eq {σ : Type} {buf : List UInt8} {p len childBaseOffset : ℤ}
    {visitor : σ → Child → Except Fault σ} (hlen : len < 2 ^ 31) (s : σ) :
    checkedScanChildren buf p len childBaseOffset visitor s =
      withTraps (ebmlScanChildren buf p len childBaseOffset visitor s) := by
  rw [checkedScanChildren, ebmlScanChildren]
  split_ifs
  · rfl
  · exact checkedScanLoop_eq hlen _ 0 s

/-- The `len` bytes at `p`. -/
def sliceAt (buf : List UInt8) (p len : ℤ) : List UInt8 := (buf.drop p.toNat).take len.toNat

/-- A slice of the buffer whose length is an `int`. -/
structure Scannable (buf : List UInt8) (p len : ℤ) : Prop where
  start_nonneg : 0 ≤ p
  end_le : p + len ≤ buf.length
  len_lt : len < 2 ^ 31

/-- A scan of the slice at `p` is safe, and `calls` are what it hands to its visitor. -/
structure SafeScan (buf : List UInt8) (p len childBaseOffset : ℤ) (calls : List Child) :
    Prop where
  /-- It ends and reads nothing but the slice: it does the same in any memory in which
  these bytes lie at `p`, and what the visitor does decides how it ends. -/
  runs : ∀ mem, PointsTo mem p (sliceAt buf p len) →
    ∀ (σ : Type) (visitor : σ → Child → Except Fault σ) (s : σ),
      ebmlScanChildren mem p len childBaseOffset visitor s = calls.foldlM visitor s
  /-- No `int` overflows. -/
  exact : ∀ mem (σ : Type) (visitor : σ → Child → Except Fault σ) (s : σ),
    checkedScanChildren mem p len childBaseOffset visitor s =
      withTraps (ebmlScanChildren mem p len childBaseOffset visitor s)
  inside : ∀ c ∈ calls, p ≤ c.data ∧ 0 < c.avail ∧ c.data + c.avail ≤ p + len
  ordered : calls.Pairwise fun c d ↦ c.data + c.avail ≤ d.data
  count : calls.length ≤ len.toNat / 3

theorem Scannable.length_sliceAt {buf : List UInt8} {p len : ℤ} (h : Scannable buf p len)
    (hpos : 0 < len) : ((sliceAt buf p len).length : ℤ) = len := by
  have hlow := h.start_nonneg
  have hhigh := h.end_le
  rw [sliceAt, List.length_take, List.length_drop]
  omega

theorem pointsTo_sliceAt {buf : List UInt8} {p len : ℤ} (h : Scannable buf p len)
    (hpos : 0 < len) : PointsTo buf p (sliceAt buf p len) := by
  have hdrop := pointsTo_drop h.start_nonneg (by have := h.end_le; omega : p ≤ buf.length)
  rw [← List.take_append_drop len.toNat (buf.drop p.toNat)] at hdrop
  exact hdrop.left

theorem childAt_inside {bytes : List UInt8} {e : Element} (he : e ∈ elements bytes)
    (p childBaseOffset : ℤ) :
    p ≤ (childAt p childBaseOffset e).data ∧ 0 < (childAt p childBaseOffset e).avail ∧
      (childAt p childBaseOffset e).data + (childAt p childBaseOffset e).avail ≤
        p + bytes.length := by
  obtain ⟨pre, post, rfl, hoff, hne, -⟩ := payload_of_mem_elementsFrom he
  have hpos : 0 < e.payload.length := List.length_pos_of_ne_nil hne
  simp only [childAt, List.length_append]
  omega

def handedOver (buf : List UInt8) (p len childBaseOffset : ℤ) : List Child :=
  if len ≤ 0 then [] else (elements (sliceAt buf p len)).map (childAt p childBaseOffset)

theorem safeScan_handedOver {buf : List UInt8} {p len : ℤ} (h : Scannable buf p len)
    (childBaseOffset : ℤ) :
    SafeScan buf p len childBaseOffset (handedOver buf p len childBaseOffset) := by
  have hexact : ∀ mem (σ : Type) (visitor : σ → Child → Except Fault σ) (s : σ),
      checkedScanChildren mem p len childBaseOffset visitor s =
        withTraps (ebmlScanChildren mem p len childBaseOffset visitor s) :=
    fun mem σ visitor s ↦ checkedScanChildren_eq h.len_lt s
  rw [handedOver]
  by_cases hempty : len ≤ 0
  · rw [if_pos hempty]
    refine ⟨fun mem _ σ visitor s ↦ ?_, hexact, by simp, List.Pairwise.nil, Nat.zero_le _⟩
    rw [ebmlScanChildren, if_pos hempty, List.foldlM_nil]
    rfl
  have hlength := h.length_sliceAt (by omega)
  have hshort := h.len_lt
  rw [if_neg hempty]
  constructor
  · intro mem hmem σ visitor s
    have hscan : ebmlScanChildren mem p (sliceAt buf p len).length childBaseOffset visitor s =
        _ := ebmlScanChildren_eq_foldlM_map hmem (by omega) s
    rwa [hlength] at hscan
  · exact hexact
  · intro c hc
    obtain ⟨e, he, rfl⟩ := List.mem_map.mp hc
    have hinside := childAt_inside he p childBaseOffset
    rwa [hlength] at hinside
  · rw [List.pairwise_map]
    refine (pairwise_elementsFrom 0 _).imp fun hle ↦ ?_
    simp only [childAt]
    omega
  · have hcount := length_elementsFrom_le 0 (sliceAt buf p len)
    rw [List.length_map, elements]
    omega

/-- A visitor that keeps what it is given. -/
def record (log : List Child) (c : Child) : Except Fault (List Child) := .ok (log ++ [c])

/-- A scan of the first slice hands the second one over. -/
def HandsOver (buf : List UInt8) (outer inner : ℤ × ℤ) : Prop :=
  ∃ childBaseOffset log, ebmlScanChildren buf outer.1 outer.2 childBaseOffset record [] = .ok log ∧
    ∃ c ∈ log, inner = (c.data, c.avail)

/-- A scan hands over slices that can be scanned in their turn. -/
theorem Scannable.handsOver {buf : List UInt8} {outer inner : ℤ × ℤ}
    (h : Scannable buf outer.1 outer.2) (hstep : HandsOver buf outer inner) :
    Scannable buf inner.1 inner.2 := by
  obtain ⟨childBaseOffset, log, hlog, c, hc, rfl⟩ := hstep
  have hsafe := safeScan_handedOver h childBaseOffset
  have hlow := h.start_nonneg
  have hend := h.end_le
  have hshort := h.len_lt
  by_cases hempty : outer.2 ≤ 0
  · rw [ebmlScanChildren, if_pos hempty] at hlog
    obtain rfl := Except.ok.inj hlog
    cases hc
  have hfold := hsafe.runs buf (pointsTo_sliceAt h (by omega)) _ record []
  rw [hlog, show record = fun log call ↦ .ok (log ++ [call]) from rfl, foldlM_record,
    List.nil_append] at hfold
  obtain rfl := Except.ok.inj hfold
  obtain ⟨hstart, hpos, hinside⟩ := hsafe.inside c hc
  exact ⟨by omega, by omega, by omega⟩

/-- Any scan of a slice of the buffer, and any scan within it at any depth, is safe. -/
theorem scans_are_safe {buf : List UInt8} {outer inner : ℤ × ℤ}
    (h : Scannable buf outer.1 outer.2)
    (hnested : Relation.ReflTransGen (HandsOver buf) outer inner) (childBaseOffset : ℤ) :
    ∃ calls, SafeScan buf inner.1 inner.2 childBaseOffset calls := by
  have hinner : Scannable buf inner.1 inner.2 := by
    induction hnested with
    | refl => exact h
    | tail _ hstep ih => exact ih.handsOver hstep
  exact ⟨_, safeScan_handedOver hinner childBaseOffset⟩

/-- The scan of a master element, and of the Void element in it. -/
theorem scans_are_safe_nested :
    ∃ calls, SafeScan [0xAE, 0x84, 0xEC, 0x81, 5, 0xFF] 2 4 100 calls :=
  @scans_are_safe _ (0, 6) (2, 4) ⟨by decide, by decide, by decide⟩
    (.single ⟨0, [⟨0xAE, 2, 4, 4, 2⟩], rfl, _, List.mem_cons_self, rfl⟩) 100

end EbmlParser

end Fmp4Packager
