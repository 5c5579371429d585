import Mathlib.Order.Lattice
import Mathlib.Order.Defs.LinearOrder

/-!
# Chains of half-open ranges

Ranges `[start i, stop i)` for `i < n`.  They leave no gap when each one ends at
or after the start of the next, and they do not overlap when each one ends at or
before it.
-/

namespace RangeChain

variable {α : Type} [LinearOrder α] (start stop : ℕ → α) {n : ℕ}

/-- Ranges without a gap cover everything from the first start to the end of any
of them. -/
theorem exists_mem (hgap : ∀ i, i + 1 < n → start (i + 1) ≤ stop i) {m : ℕ} (hm : m < n) {x : α}
    (hlow : start 0 ≤ x) (hhigh : x < stop m) : ∃ i ≤ m, start i ≤ x ∧ x < stop i := by
  induction m with
  | zero => exact ⟨0, le_refl 0, hlow, hhigh⟩
  | succ m ih =>
      rcases le_or_gt (start (m + 1)) x with hx | hx
      · exact ⟨m + 1, le_refl _, hx, hhigh⟩
      · obtain ⟨i, hi, hmem⟩ := ih (Nat.lt_of_succ_lt hm) (lt_of_lt_of_le hx (hgap m hm))
        exact ⟨i, Nat.le_succ_of_le hi, hmem⟩

/-- Ranges that do not overlap their successors overlap none of the later
ones. -/
theorem stop_le_start (hover : ∀ i, i + 1 < n → stop i ≤ start (i + 1))
    (hrange : ∀ i < n, start i ≤ stop i) {i j : ℕ} (hij : i < j) (hj : j < n) :
    stop i ≤ start j := by
  induction j with
  | zero => exact absurd hij (Nat.not_lt_zero i)
  | succ j ih =>
      rcases Nat.lt_succ_iff_lt_or_eq.mp hij with hlt | rfl
      · have hjn := Nat.lt_of_succ_lt hj
        exact (ih hlt hjn).trans ((hrange j hjn).trans (hover j hj))
      · exact hover i hj

theorem index_unique (hover : ∀ i, i + 1 < n → stop i ≤ start (i + 1))
    (hrange : ∀ i < n, start i ≤ stop i) {i j : ℕ} (hi : i < n) (hj : j < n) {x : α}
    (hxi : start i ≤ x ∧ x < stop i) (hxj : start j ≤ x ∧ x < stop j) : i = j := by
  rcases Nat.lt_trichotomy i j with hij | hij | hji
  · have hstop := stop_le_start start stop hover hrange hij hj
    exact absurd hxi.2 (not_lt.mpr (hstop.trans hxj.1))
  · exact hij
  · have hstop := stop_le_start start stop hover hrange hji hi
    exact absurd hxj.2 (not_lt.mpr (hstop.trans hxi.1))

end RangeChain
