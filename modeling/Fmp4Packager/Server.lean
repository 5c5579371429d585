import Fmp4Packager.Session

/-!
# The windows of the segment route

The handler of `/:infohash/session-:id/:segment.m4s` checks the index against the
boundaries of its session; the window that it hands on lies between two consecutive
boundaries.
-/

namespace Fmp4Packager

namespace Server

open Session

structure Response where
  status : ℕ
  body : List UInt8
  deriving DecidableEq, Repr

def bodyOfString (text : String) : List UInt8 := text.toUTF8.toList

/-- The window of an index that passes the check of the handler. -/
def segmentWindow (keyframes : List ℤ) (segmentIdx : ℤ) : Option Window :=
  if segmentIdx < 0 ∨ (keyframes.length : ℤ) - 1 ≤ segmentIdx then none
  else
    match keyframes[segmentIdx.toNat]?, keyframes[segmentIdx.toNat + 1]? with
    | some startMs, some endMs => some ⟨segmentIdx, startMs, endMs⟩
    | _, _ => none

theorem segmentWindow_eq_some {keyframes : List ℤ} {segmentIdx : ℤ} {w : Window} :
    segmentWindow keyframes segmentIdx = some w ↔
      0 ≤ segmentIdx ∧ w.segmentIdx = segmentIdx ∧
        keyframes[segmentIdx.toNat]? = some w.segmentStartMs ∧
        keyframes[segmentIdx.toNat + 1]? = some w.segmentEndMs := by
  obtain ⟨idx, startMs, endMs⟩ := w
  rw [segmentWindow]
  constructor
  · intro h
    split at h
    · simp at h
    · next hidx =>
        cases hstart : keyframes[segmentIdx.toNat]? with
        | none => simp [hstart] at h
        | some a =>
            cases hend : keyframes[segmentIdx.toNat + 1]? with
            | none => simp [hstart, hend] at h
            | some b =>
                simp only [hstart, hend, Option.some.injEq, Window.mk.injEq] at h
                obtain ⟨rfl, rfl, rfl⟩ := h
                exact ⟨by omega, rfl, rfl, rfl⟩
  · rintro ⟨hnonneg, rfl, hstart, hend⟩
    obtain ⟨hlt, -⟩ := List.getElem?_eq_some_iff.mp hend
    have hidx : ¬(idx < 0 ∨ (keyframes.length : ℤ) - 1 ≤ idx) := by
      simp only at hlt hnonneg
      omega
    simp only at hstart hend hidx ⊢
    rw [if_neg hidx, hstart, hend]

end Server

end Fmp4Packager
