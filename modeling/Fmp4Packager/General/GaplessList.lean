import Mathlib.Data.Int.Basic

/-!
# Lists of integers without a gap

An increasing list counts up from its first element exactly when no number between two
of its elements is missing.
-/

namespace GaplessList

/-- No number between two elements is missing. -/
def Gapless (xs : List ℤ) : Prop := ∀ a ∈ xs, ∀ b ∈ xs, ∀ k, a < k → k < b → k ∈ xs

section Counting

variable {x : ℤ} {xs : List ℤ}

theorem gapless_of_counts (hcounts : ∀ (j : ℕ) (y : ℤ), xs[j]? = some y → y = x + j) :
    Gapless xs := by
  intro a ha b hb k hak hkb
  obtain ⟨i, hi⟩ := List.getElem?_of_mem ha
  obtain ⟨j, hj⟩ := List.getElem?_of_mem hb
  have hlow := hcounts i a hi
  have hhigh := hcounts j b hj
  obtain ⟨hlen, -⟩ := List.getElem?_eq_some_iff.mp hj
  have hn : (k - x).toNat < xs.length := by omega
  have hk := hcounts (k - x).toNat _ (List.getElem?_eq_getElem hn)
  have heq : k = xs[(k - x).toNat] := by omega
  rw [heq]
  exact List.getElem_mem hn

theorem counts_of_gapless (hsorted : (x :: xs).Pairwise (· < ·)) (hgap : Gapless (x :: xs))
    (j : ℕ) (y : ℤ) (hy : (x :: xs)[j]? = some y) : y = x + j := by
  have hlt : ∀ {i j : ℕ} {a b : ℤ}, (x :: xs)[i]? = some a → (x :: xs)[j]? = some b → i < j →
      a < b := by
    intro i j a b ha hb hij
    obtain ⟨hi, rfl⟩ := List.getElem?_eq_some_iff.mp ha
    obtain ⟨hj, rfl⟩ := List.getElem?_eq_some_iff.mp hb
    exact List.pairwise_iff_getElem.mp hsorted i j hi hj hij
  induction j generalizing y with
  | zero =>
      cases hy
      simp
  | succ j ih =>
      obtain ⟨hlen, -⟩ := List.getElem?_eq_some_iff.mp hy
      have hj : (x :: xs)[j]? = some (x :: xs)[j] := List.getElem?_eq_getElem (by omega)
      generalize (x :: xs)[j] = prev at hj
      have hprev := ih prev hj
      have hstep := hlt hj hy (Nat.lt_succ_self j)
      by_contra hne
      push_cast at hne
      -- the number behind `prev` would have to be an element between the two
      have hmem := hgap prev (List.mem_of_getElem? hj) y (List.mem_of_getElem? hy) (prev + 1)
        (by omega) (by omega)
      obtain ⟨n, hn⟩ := List.getElem?_of_mem hmem
      rcases Nat.lt_trichotomy n (j + 1) with hlow | rfl | hhigh
      · rcases Nat.lt_succ_iff_lt_or_eq.mp hlow with hlow | rfl
        · have := hlt hn hj hlow
          omega
        · have := Option.some.inj (hn.symm.trans hj)
          omega
      · have := Option.some.inj (hn.symm.trans hy)
        omega
      · have := hlt hy hn hhigh
        omega

theorem counts_iff_gapless (hsorted : (x :: xs).Pairwise (· < ·)) :
    (∀ (j : ℕ) (y : ℤ), (x :: xs)[j]? = some y → y = x + j) ↔ Gapless (x :: xs) :=
  ⟨gapless_of_counts, counts_of_gapless hsorted⟩

end Counting

theorem le_head_iff {xs : List ℤ} (hsorted : xs.Pairwise (· < ·)) (bound : ℤ) :
    (∀ x ∈ xs.head?, bound ≤ x) ↔ ∀ x ∈ xs, bound ≤ x := by
  cases xs with
  | nil => simp
  | cons x xs =>
      rw [List.pairwise_cons] at hsorted
      simp only [List.head?_cons, Option.mem_some_iff, forall_eq', List.forall_mem_cons]
      refine ⟨fun hx ↦ ⟨hx, fun y hy ↦ ?_⟩, fun h ↦ h.1⟩
      have hlt := hsorted.1 y hy
      omega

/-- What is left of a gapless list has no gap exactly when it has everything between
two of its elements. -/
theorem gapless_filter_iff {xs : List ℤ} (hgap : Gapless xs) (p : ℤ → Bool) :
    Gapless (xs.filter p) ↔
      ∀ a ∈ xs, ∀ b ∈ xs, p a = true → p b = true → ∀ k, a < k → k < b → p k = true := by
  constructor
  · intro hfilter a ha b hb hpa hpb k hak hkb
    have hk := hfilter a (List.mem_filter.mpr ⟨ha, hpa⟩) b (List.mem_filter.mpr ⟨hb, hpb⟩) k
      hak hkb
    exact (List.mem_filter.mp hk).2
  · intro hp a ha b hb k hak hkb
    obtain ⟨ha, hpa⟩ := List.mem_filter.mp ha
    obtain ⟨hb, hpb⟩ := List.mem_filter.mp hb
    exact List.mem_filter.mpr ⟨hgap a ha b hb k hak hkb, hp a ha b hb hpa hpb k hak hkb⟩

/-- In `xs` the elements from `first` up to `last` and the others that are kept make up one
piece. -/
structure Joins (xs : List ℤ) (first last : ℤ) (kept : ℤ → Prop) : Prop where
  onwards : (∃ a ∈ xs, first ≤ a ∧ a < last) → ∀ b ∈ xs, kept b → ∀ k, last ≤ k → k < b → kept k
  upTo : (∃ a ∈ xs, first ≤ a ∧ a < last) → ∀ b ∈ xs, kept b → ∀ k, b < k → k < first → kept k
  apart : (¬∃ a ∈ xs, first ≤ a ∧ a < last) →
    ∀ a ∈ xs, kept a → ∀ b ∈ xs, kept b → ∀ k, a < k → k < b → kept k

theorem gapless_filter_iff_joins {xs : List ℤ} (hgap : Gapless xs) {first last : ℤ}
    {kept : ℤ → Prop} {p : ℤ → Bool} (hp : ∀ k, p k = true ↔ (first ≤ k ∧ k < last) ∨ kept k) :
    Gapless (xs.filter p) ↔ Joins xs first last kept := by
  rw [gapless_filter_iff hgap]
  constructor
  · intro hfilter
    refine ⟨fun ⟨a, ha, hfrom, hto⟩ b hb hkept k hlast hkb ↦ ?_,
      fun ⟨a, ha, hfrom, hto⟩ b hb hkept k hbk hfirst ↦ ?_,
      fun hnone a ha hkeptA b hb hkeptB k hak hkb ↦ ?_⟩
    · have hk := hfilter a ha b hb ((hp a).mpr (.inl ⟨hfrom, hto⟩)) ((hp b).mpr (.inr hkept)) k
        (by omega) hkb
      exact ((hp k).mp hk).resolve_left (by omega)
    · have hk := hfilter b hb a ha ((hp b).mpr (.inr hkept)) ((hp a).mpr (.inl ⟨hfrom, hto⟩)) k
        hbk (by omega)
      exact ((hp k).mp hk).resolve_left (by omega)
    · have hk := hfilter a ha b hb ((hp a).mpr (.inr hkeptA)) ((hp b).mpr (.inr hkeptB)) k hak hkb
      exact ((hp k).mp hk).resolve_left fun hin ↦ hnone ⟨k, hgap a ha b hb k hak hkb, hin⟩
  · intro h a ha b hb hpa hpb k hak hkb
    rw [hp] at hpa hpb ⊢
    by_cases hin : first ≤ k ∧ k < last
    · exact .inl hin
    refine .inr ?_
    by_cases hsome : ∃ a ∈ xs, first ≤ a ∧ a < last
    · by_cases hlow : k < first
      · exact h.upTo hsome a ha (hpa.resolve_left (by omega)) k hak hlow
      · exact h.onwards hsome b hb (hpb.resolve_left (by omega)) k (by omega) hkb
    · exact h.apart hsome a ha (hpa.resolve_left fun hin ↦ hsome ⟨a, ha, hin⟩) b hb
        (hpb.resolve_left fun hin ↦ hsome ⟨b, hb, hin⟩) k hak hkb

end GaplessList
