import Fmp4Packager.BoundaryOrder

/-!
# The boundaries that the filter picks

The comment on `FilterKeyframes` asks for the first keyframe at or after each
multiple of the target.  The loop starts at the first multiple after the first
keyframe only if that keyframe lies before the target: otherwise it counts the
multiples that the first keyframe has passed again.
-/

namespace Fmp4Packager

/-- A boundary that is asked for: the first keyframe, the last one, or the first at
or after a multiple of the target. -/
def IsBoundary (raw : List ℤ) (targetDurationMs time : ℤ) : Prop :=
  raw.head? = some time ∨ raw.getLast? = some time ∨
    ∃ m : ℤ, 1 ≤ m ∧ raw.find? (m * targetDurationMs ≤ ·) = some time

/-- `picked` is the increasing sublist of the keyframes that are asked for. -/
structure PicksBoundaries (raw : List ℤ) (targetDurationMs : ℤ) (picked : List ℤ) : Prop where
  increasing : picked.Pairwise (· < ·)
  sublist : picked.Sublist raw
  mem_iff : ∀ time, time ∈ picked ↔ IsBoundary raw targetDurationMs time

/-- The first keyframe lies before the target, or the second one is the last or lies
in a later step than the first. -/
def SecondStepsOn (targetDurationMs : ℤ) : List ℤ → Prop
  | first :: second :: rest =>
      first < targetDurationMs ∨ rest = [] ∨
        first / targetDurationMs < second / targetDurationMs
  | _ => True

/-- The loop picks, for each multiple from the target on, the first time that
reaches it. -/
theorem mem_filterLoop {step : ℤ} (hstep : 0 < step) {j time : ℤ} {times : List ℤ} :
    time ∈ filterLoop step (j * step) times ↔
      ∃ m : ℤ, j ≤ m ∧ times.find? (m * step ≤ ·) = some time := by
  induction times generalizing j with
  | nil => simp [filterLoop]
  | cons head rest ih =>
      have hnext : ∀ m : ℤ, head / step + 1 ≤ m ↔ head < m * step := by
        intro m
        rw [Int.add_one_le_iff, Int.ediv_lt_iff_lt_mul hstep]
      have hpass : ∀ m : ℤ, head < m * step →
          (head :: rest).find? (m * step ≤ ·) = rest.find? (m * step ≤ ·) := by
        intro m hm
        exact List.find?_cons_of_neg (by simpa using hm)
      by_cases hle : j * step ≤ head
      · rw [filterLoop_cons_of_le hstep hle, List.mem_cons, ih]
        constructor
        · rintro (rfl | ⟨m, hm, hfind⟩)
          · exact ⟨j, le_rfl, List.find?_cons_of_pos (by simpa using hle)⟩
          · have hlt := (hnext m).mp hm
            have hj : j * step < m * step := hle.trans_lt hlt
            exact ⟨m, (lt_of_mul_lt_mul_right hj hstep.le).le, (hpass m hlt).trans hfind⟩
        · rintro ⟨m, -, hfind⟩
          rcases le_or_gt (m * step) head with hreached | hlt
          · rw [List.find?_cons_of_pos (by simpa using hreached)] at hfind
            exact Or.inl (Option.some.inj hfind).symm
          · exact Or.inr ⟨m, (hnext m).mpr hlt, (hpass m hlt).symm.trans hfind⟩
      · rw [filterLoop_cons_of_lt (by omega), ih]
        refine exists_congr fun m ↦ and_congr_right fun hm ↦ ?_
        have hlt : head < m * step :=
          (not_le.mp hle).trans_le (mul_le_mul_of_nonneg_right hm hstep.le)
        rw [hpass m hlt]

theorem mem_filterKeyframes {first second : ℤ} {rest : List ℤ} {step time : ℤ} :
    time ∈ filterKeyframes (first :: second :: rest) step ↔
      time = first ∨ time ∈ filterLoop step step (second :: rest) ∨
        (first :: second :: rest).getLast? = some time := by
  have hlast : (first :: second :: rest).getLast? = some time ↔
      time = (first :: second :: rest).getLast (by simp) := by
    rw [List.getLast?_eq_getLast_of_ne_nil (by simp), Option.some_inj, eq_comm]
  rw [hlast, filterKeyframes]
  split
  · rw [List.mem_append, List.mem_cons, List.mem_singleton, or_assoc]
  · next hthere =>
      have hmem := List.mem_of_getLast? (not_not.mp hthere)
      rw [List.mem_cons, ← or_assoc, iff_comm, or_iff_left_iff_imp]
      rintro rfl
      exact List.mem_cons.mp hmem

/-- A multiple that the first of two times has passed is reached by that one. -/
theorem find?_cons_multiple {step : ℤ} (first second : ℤ) (rest : List ℤ) (m time : ℤ) :
    (first :: second :: rest).find? (m * step ≤ ·) = some time ↔
      (m * step ≤ first ∧ time = first) ∨
        (first < m * step ∧ (second :: rest).find? (m * step ≤ ·) = some time) := by
  rcases le_or_gt (m * step) first with hle | hlt
  · rw [List.find?_cons_of_pos (by simpa using hle)]
    simp [hle, not_lt.mpr hle, eq_comm]
  · rw [List.find?_cons_of_neg (by simpa using hlt)]
    simp [hlt, not_le.mpr hlt]

/-- The keyframes that the loop adds to those asked for. -/
theorem filterKeyframes_mem_iff {step first second : ℤ} {rest : List ℤ} (hstep : 0 < step)
    (hlt : first < second) :
    (∀ time, time ∈ filterKeyframes (first :: second :: rest) step ↔
        IsBoundary (first :: second :: rest) step time) ↔
      (step ≤ first → IsBoundary (first :: second :: rest) step second) := by
  have hloop : ∀ time, time ∈ filterLoop step step (second :: rest) ↔
      ∃ m : ℤ, 1 ≤ m ∧ (second :: rest).find? (m * step ≤ ·) = some time := by
    intro time
    rw [← mem_filterLoop hstep, one_mul]
  constructor
  · intro h hfirst
    refine (h second).mp (mem_filterKeyframes.mpr (Or.inr (Or.inl ((hloop second).mpr ?_))))
    refine ⟨1, le_rfl, List.find?_cons_of_pos ?_⟩
    simpa using hfirst.trans hlt.le
  · intro h time
    rw [mem_filterKeyframes, hloop]
    constructor
    · rintro (rfl | ⟨m, hm, hfind⟩ | hlast)
      · exact Or.inl rfl
      · rcases le_or_gt (m * step) first with hle | hpast
        · rw [List.find?_cons_of_pos (by simpa using hle.trans hlt.le)] at hfind
          obtain rfl := Option.some.inj hfind
          have hone : 1 * step ≤ m * step := mul_le_mul_of_nonneg_right hm hstep.le
          exact h (by omega)
        · exact Or.inr (Or.inr ⟨m, hm, (find?_cons_multiple ..).mpr (Or.inr ⟨hpast, hfind⟩)⟩)
      · exact Or.inr (Or.inl hlast)
    · rintro (hhead | hlast | ⟨m, hm, hfind⟩)
      · exact Or.inl (Option.some.inj hhead).symm
      · exact Or.inr (Or.inr hlast)
      · rcases (find?_cons_multiple ..).mp hfind with ⟨-, hfirst⟩ | ⟨-, hrest⟩
        · exact Or.inl hfirst
        · exact Or.inr (Or.inl ⟨m, hm, hrest⟩)

theorem isBoundary_second_iff {step first second : ℤ} {rest : List ℤ} (hstep : 0 < step)
    (hfirst : step ≤ first) (hraw : (first :: second :: rest).Pairwise (· < ·)) :
    IsBoundary (first :: second :: rest) step second ↔
      rest = [] ∨ first / step < second / step := by
  have hlt : first < second := (List.pairwise_cons.mp hraw).1 second List.mem_cons_self
  refine (or_iff_right ?_).trans (or_congr ?_ ?_)
  · exact fun h ↦ hlt.ne (Option.some.inj h)
  · rw [List.getLast?_cons_cons]
    constructor
    · intro hlast
      cases rest with
      | nil => rfl
      | cons third rest =>
          rw [List.getLast?_cons_cons] at hlast
          have hsecond := (List.pairwise_cons.mp (List.pairwise_cons.mp hraw).2).1
          exact absurd (hsecond second (List.mem_of_getLast? hlast)) (lt_irrefl second)
    · rintro rfl
      rfl
  · simp only [find?_cons_multiple, hlt.ne', and_false, false_or]
    constructor
    · rintro ⟨m, -, hpast, hfind⟩
      have hreached := List.find?_some hfind
      exact (Int.ediv_lt_iff_lt_mul hstep).mpr (hpast.trans_le
        ((mul_le_mul_of_nonneg_right ((Int.le_ediv_iff_mul_le hstep).mpr (by simpa using hreached))
          hstep.le)))
    · intro hsteps
      refine ⟨second / step, ?_, (Int.ediv_lt_iff_lt_mul hstep).mp hsteps, ?_⟩
      · have : 0 ≤ first / step := Int.ediv_nonneg (by omega) hstep.le
        omega
      · exact List.find?_cons_of_pos (by simpa using Int.ediv_mul_le second hstep.ne')

/-- The filter picks the boundaries that are asked for exactly when the second
keyframe does not share a step past the target with the first. -/
theorem picksBoundaries_iff {raw : List ℤ} {targetDurationMs : ℤ} (htarget : 0 < targetDurationMs)
    (hraw : raw.Pairwise (· < ·)) (hlength : 2 ≤ raw.length) :
    PicksBoundaries raw targetDurationMs (filterKeyframes raw targetDurationMs) ↔
      SecondStepsOn targetDurationMs raw := by
  match raw with
  | [] => simp at hlength
  | [_] => simp at hlength
  | first :: second :: rest =>
      have hlt : first < second := (List.pairwise_cons.mp hraw).1 second List.mem_cons_self
      have hsublist := filterKeyframes_sublist (first :: second :: rest) targetDurationMs
      have hpicks : PicksBoundaries (first :: second :: rest) targetDurationMs
          (filterKeyframes (first :: second :: rest) targetDurationMs) ↔
            (targetDurationMs ≤ first →
              IsBoundary (first :: second :: rest) targetDurationMs second) := by
        rw [← filterKeyframes_mem_iff htarget hlt]
        exact ⟨PicksBoundaries.mem_iff, fun h ↦ ⟨hraw.sublist hsublist, hsublist, h⟩⟩
      rw [hpicks, SecondStepsOn]
      rcases lt_or_ge first targetDurationMs with hfirst | hfirst
      · simp [hfirst, not_le.mpr hfirst]
      · rw [or_iff_right (not_lt.mpr hfirst), ← isBoundary_second_iff htarget hfirst hraw]
        exact ⟨fun h ↦ h hfirst, fun h _ ↦ h⟩

/-- Keyframes at 0, 9, 21 and 30 seconds: the second one is passed over. -/
theorem picksBoundaries_iff_nineSeconds :
    PicksBoundaries [0, 9000, 21000, 30000] 10000 (filterKeyframes [0, 9000, 21000, 30000] 10000) ↔
      SecondStepsOn 10000 [0, 9000, 21000, 30000] :=
  picksBoundaries_iff (by norm_num) (by simp) (by simp)

/-- Keyframes at 15, 16 and 30 seconds: the one at 16 seconds is the second of its
step and is picked. -/
theorem not_picksBoundaries :
    ¬ ∀ (raw : List ℤ) (targetDurationMs : ℤ), 0 < targetDurationMs → raw.Pairwise (· < ·) →
      (∀ time ∈ raw, 0 ≤ time) → 2 ≤ raw.length →
        PicksBoundaries raw targetDurationMs (filterKeyframes raw targetDurationMs) := by
  intro h
  have hpicks := h [15000, 16000, 30000] 10000 (by norm_num) (by simp) (by simp) (by simp)
  have hpicked : (16000 : ℤ) ∈ filterKeyframes [15000, 16000, 30000] 10000 := by decide
  rcases (hpicks.mem_iff 16000).mp hpicked with hhead | hlast | ⟨m, -, hfind⟩
  · exact absurd hhead (by decide)
  · exact absurd hlast (by decide)
  · have hreached := List.find?_some hfind
    rcases (find?_cons_multiple 15000 16000 [30000] m 16000).mp hfind with ⟨-, hfirst⟩ | ⟨hpast, -⟩
    · exact absurd hfirst (by norm_num)
    · have : m * 10000 ≤ 16000 := by simpa using hreached
      omega

end Fmp4Packager
