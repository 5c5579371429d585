import Mathlib.Data.Int.Basic
import Mathlib.Data.List.Basic

/-!
# Segment boundaries

`FilterKeyframes` thins the cue times out to segment boundaries.  The result is
a sublist that starts and ends with the first and the last cue time.
-/

namespace Fmp4Packager

/-- `while (next_target <= raw[i]) next_target += target_duration_ms`. -/
def advanceTarget (targetDurationMs time : ℤ) : ℕ → ℤ → ℤ
  | 0, nextTarget => nextTarget
  | fuel + 1, nextTarget =>
      if nextTarget ≤ time then
        advanceTarget targetDurationMs time fuel (nextTarget + targetDurationMs)
      else nextTarget

/-- The loop over `raw[1..]`: the keyframes that are pushed. -/
def filterLoop (targetDurationMs : ℤ) : ℤ → List ℤ → List ℤ
  | _, [] => []
  | nextTarget, time :: rest =>
      if nextTarget ≤ time then
        time :: filterLoop targetDurationMs
          (advanceTarget targetDurationMs time ((time - nextTarget).toNat + 1) nextTarget) rest
      else filterLoop targetDurationMs nextTarget rest

def filterKeyframes (raw : List ℤ) (targetDurationMs : ℤ) : List ℤ :=
  match raw with
  | [] => []
  | [time] => [time]
  | first :: second :: rest =>
      let filtered := first :: filterLoop targetDurationMs targetDurationMs (second :: rest)
      let last := (first :: second :: rest).getLast (by simp)
      if filtered.getLast? ≠ some last then filtered ++ [last] else filtered

theorem filterLoop_sublist (targetDurationMs nextTarget : ℤ) (raw : List ℤ) :
    (filterLoop targetDurationMs nextTarget raw).Sublist raw := by
  induction raw generalizing nextTarget with
  | nil => exact List.Sublist.refl _
  | cons time rest ih =>
      rw [filterLoop]
      split
      · exact (ih _).cons_cons time
      · exact (ih _).cons time

/-- A sublist that does not end like the whole list leaves its last element
over. -/
theorem sublist_append_getLast {α : Type} {xs ys : List α} (h : xs.Sublist ys) (hne : ys ≠ [])
    (hlast : xs.getLast? ≠ some (ys.getLast hne)) : (xs ++ [ys.getLast hne]).Sublist ys := by
  have hys := List.dropLast_append_getLast hne
  obtain ⟨front, back, rfl, hfront, hback⟩ := List.sublist_append_iff.mp (hys ▸ h)
  rcases List.sublist_singleton.mp hback with rfl | rfl
  · rw [List.append_nil]
    conv_rhs => rw [← hys]
    exact hfront.append (List.Sublist.refl _)
  · exact absurd (List.getLast?_concat ..) hlast

theorem filterKeyframes_sublist (raw : List ℤ) (targetDurationMs : ℤ) :
    (filterKeyframes raw targetDurationMs).Sublist raw := by
  match raw with
  | [] => exact List.Sublist.refl _
  | [time] => exact List.Sublist.refl _
  | first :: second :: rest =>
      have hloop := (filterLoop_sublist targetDurationMs targetDurationMs
        (second :: rest)).cons_cons first
      simp only [filterKeyframes]
      split
      · next hlast => exact sublist_append_getLast hloop (by simp) hlast
      · exact hloop

theorem getLast?_filterKeyframes (raw : List ℤ) (targetDurationMs : ℤ) :
    (filterKeyframes raw targetDurationMs).getLast? = raw.getLast? := by
  match raw with
  | [] => rfl
  | [time] => rfl
  | first :: second :: rest =>
      simp only [filterKeyframes]
      split
      · rw [List.getLast?_concat, List.getLast?_eq_getLast_of_ne_nil (by simp)]
      · next hlast =>
          rw [not_not.mp hlast, List.getLast?_eq_getLast_of_ne_nil (by simp)]

end Fmp4Packager
