import Mathlib.Algebra.Order.Round
import Mathlib.Data.Rat.Floor

/-!
# The manifest

`Generate` writes an HLS playlist for a list of segment boundaries.  A `double`
that holds a number of milliseconds divided by 1000 stands for that decimal
fraction.
-/

namespace Fmp4Packager

namespace HlsManifest

def intMin : ℤ := -2 ^ 31
def intMax : ℤ := 2 ^ 31 - 1

/-- A non-negative integer on an output stream. -/
def decimal (n : ℕ) : List Char := Nat.toDigits 10 n

/-- The same with leading zeros up to `width` digits. -/
def decimalPadded (width n : ℕ) : List Char :=
  List.replicate (width - (decimal n).length) '0' ++ decimal n

/-- `std::fixed` with `std::setprecision(6)`. -/
def fixedSix (d : ℚ) : List Char :=
  let micros := (round (d * 1000000)).natAbs
  (if d < 0 then ['-'] else []) ++ decimal (micros / 1000000) ++ '.' ::
    decimalPadded 6 (micros % 1000000)

/-- The durations of the segments in seconds. -/
def segmentDurations : List ℤ → List ℚ
  | startMs :: endMs :: rest =>
      ((endMs - startMs : ℤ) : ℚ) / 1000 :: segmentDurations (endMs :: rest)
  | _ => []

/-- `*std::max_element(..)`, over a list that is not empty. -/
def maxElement : List ℚ → ℚ
  | [] => 0
  | d :: rest => rest.foldl max d

/-- `static_cast<int>(std::ceil(max_duration))`, which has no defined value when the
result is not an `int`. -/
def ceilToInt (d : ℚ) : Option ℤ :=
  if intMin ≤ ⌈d⌉ ∧ ⌈d⌉ ≤ intMax then some ⌈d⌉ else none

/-- The lines of segment `i`. -/
def segmentLines (segmentPrefix : List Char) (i : ℕ) (duration : ℚ) : List Char :=
  "#EXTINF:".toList ++ fixedSix duration ++ ",\n".toList ++
    (segmentPrefix ++ decimal i ++ ".m4s\n".toList)

example : segmentLines ['p', '/'] 1 (11 / 2) = "#EXTINF:5.500000,\np/1.m4s\n".toList := by
  decide +kernel

/-- The loop over the durations, from segment `i` on. -/
def segmentsFrom (segmentPrefix : List Char) : ℕ → List ℚ → List Char
  | _, [] => []
  | i, d :: rest => segmentLines segmentPrefix i d ++ segmentsFrom segmentPrefix (i + 1) rest

/-- The playlist; `none` where the target duration has no defined value. -/
def generate (keyframesMs : List ℤ) (segmentPrefix : List Char) : Option (List Char) :=
  if keyframesMs.length < 2 then
    some "#EXTM3U\n#EXT-X-VERSION:7\n#EXT-X-ENDLIST\n".toList
  else
    let durations := segmentDurations keyframesMs
    (ceilToInt (maxElement durations)).map fun targetDuration ↦
      let targetDuration := if targetDuration < 1 then 1 else targetDuration
      "#EXTM3U\n".toList ++ "#EXT-X-VERSION:7\n".toList ++
        ("#EXT-X-TARGETDURATION:".toList ++ decimal targetDuration.toNat ++ ['\n']) ++
        "#EXT-X-MEDIA-SEQUENCE:0\n".toList ++ "#EXT-X-PLAYLIST-TYPE:VOD\n".toList ++
        ("#EXT-X-MAP:URI=\"".toList ++ segmentPrefix ++ "init.mp4\"\n".toList) ++
        segmentsFrom segmentPrefix 0 durations ++ "#EXT-X-ENDLIST\n".toList

theorem segmentDurations_eq_map (keyframesMs : List ℤ) :
    segmentDurations keyframesMs =
      (keyframesMs.zip keyframesMs.tail).map fun w ↦ ((w.2 - w.1 : ℤ) : ℚ) / 1000 := by
  induction keyframesMs with
  | nil => rfl
  | cons startMs rest ih =>
      cases rest with
      | nil => rfl
      | cons endMs rest =>
          rw [segmentDurations, ih]
          rfl

theorem getElem?_segmentDurations {keyframesMs : List ℤ} {i : ℕ} {d : ℚ}
    (hd : (segmentDurations keyframesMs)[i]? = some d) :
    ∃ startMs endMs, keyframesMs[i]? = some startMs ∧ keyframesMs[i + 1]? = some endMs ∧
      d = ((endMs - startMs : ℤ) : ℚ) / 1000 := by
  rw [segmentDurations_eq_map, List.getElem?_map, Option.map_eq_some_iff] at hd
  obtain ⟨⟨startMs, endMs⟩, hw, rfl⟩ := hd
  rw [List.getElem?_zip_eq_some, List.getElem?_tail] at hw
  exact ⟨startMs, endMs, hw.1, hw.2, rfl⟩

theorem forall_segmentDurations_iff (P : ℚ → Prop) (keyframesMs : List ℤ) :
    (∀ d ∈ segmentDurations keyframesMs, P d) ↔
      keyframesMs.IsChain fun startMs endMs ↦ P (((endMs - startMs : ℤ) : ℚ) / 1000) := by
  induction keyframesMs with
  | nil => simp [segmentDurations]
  | cons startMs rest ih =>
      cases rest with
      | nil => simp [segmentDurations]
      | cons endMs rest => rw [segmentDurations, List.forall_mem_cons, ih, List.isChain_cons_cons]

/-- All durations are positive exactly when the boundaries increase. -/
theorem segmentDurations_pos_iff (keyframesMs : List ℤ) :
    (∀ d ∈ segmentDurations keyframesMs, 0 < d) ↔ keyframesMs.Pairwise (· < ·) := by
  have hgap : ∀ startMs endMs : ℤ,
      (0 : ℚ) < ((endMs - startMs : ℤ) : ℚ) / 1000 ↔ startMs < endMs := by
    intro startMs endMs
    rw [div_pos_iff_of_pos_right (by norm_num), Int.cast_pos]
    omega
  rw [forall_segmentDurations_iff, ← List.isChain_iff_pairwise]
  simp only [hgap]

end HlsManifest

end Fmp4Packager
