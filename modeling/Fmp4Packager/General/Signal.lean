import Mathlib.Algebra.BigOperators.Group.List.Basic
import Mathlib.Algebra.Order.Group.Int
import Mathlib.Algebra.Order.Ring.Nat
import Mathlib.Data.Int.Interval
import Mathlib.Data.List.Chain
import Mathlib.Logic.Nontrivial.Basic

/-!
# Stretches of a signal

A signal is a function on the integers.  A stretch of it lists its values from a
position on.  Pieces that are cut from a signal without a gap join to one stretch.
-/

namespace Signal

variable {α β : Type}

def stretch (f : ℤ → α) (start : ℤ) (n : ℕ) : List α :=
  (List.range n).map fun k : ℕ ↦ f (start + k)

@[simp] theorem length_stretch (f : ℤ → α) (start : ℤ) (n : ℕ) :
    (stretch f start n).length = n := by
  simp [stretch]

theorem stretch_append (f : ℤ → α) (start : ℤ) (m n : ℕ) :
    stretch f start m ++ stretch f (start + m) n = stretch f start (m + n) := by
  simp only [stretch, List.range_add, List.map_append, List.map_map]
  congr 1
  apply List.map_congr_left
  intro k _
  simp only [Function.comp_apply, Int.natCast_add, Int.add_assoc]

theorem take_drop_stretch (f : ℤ → α) (start : ℤ) {m k n : ℕ} (h : m + k ≤ n) :
    ((stretch f start n).drop m).take k = stretch f (start + m) k := by
  obtain ⟨rest, rfl⟩ := Nat.exists_eq_add_of_le h
  rw [Nat.add_assoc, ← stretch_append, List.drop_left' (length_stretch f start m), ← stretch_append,
    List.take_left' (length_stretch f _ k)]

theorem map_stretch (g : α → β) (f : ℤ → α) (start : ℤ) (n : ℕ) :
    (stretch f start n).map g = stretch (g ∘ f) start n := by
  simp [stretch]

/-- Two positions are told apart by the stretches of some signal. -/
theorem exists_stretch_ne [Nontrivial α] {a b : ℤ} (hne : a ≠ b) {n : ℕ} (hpos : 0 < n) :
    ∃ f : ℤ → α, stretch f a n ≠ stretch f b n := by
  obtain ⟨x, y, hxy⟩ := exists_pair_ne α
  obtain ⟨n, rfl⟩ := Nat.exists_eq_add_of_lt hpos
  refine ⟨fun k ↦ if k = a then x else y, fun h ↦ hxy ?_⟩
  have hhead := congrArg List.head? h
  simpa [stretch, List.range_succ_eq_map, hne.symm] using hhead

variable {γ : Type} (start : γ → ℤ) (len : γ → ℕ)

/-- Each piece begins where the one before it ends. -/
def GapFree (pieces : List γ) : Prop :=
  pieces.IsChain fun x y ↦ start y = start x + len x

variable {start len}

theorem GapFree.of_isInfix {pieces part : List γ} (h : GapFree start len pieces)
    (hpart : part <:+: pieces) : GapFree start len part :=
  List.IsChain.infix h hpart

theorem GapFree.pairwise_le {pieces : List γ} (h : GapFree start len pieces) :
    pieces.Pairwise fun x y ↦ start x ≤ start y := by
  have htrans : IsTrans γ fun x y ↦ start x ≤ start y := ⟨fun _ _ _ ↦ le_trans⟩
  refine List.isChain_iff_pairwise.mp (List.IsChain.imp (fun x y hxy ↦ ?_) h)
  omega

theorem GapFree.flatMap_stretch {x : γ} {pieces : List γ} (h : GapFree start len (x :: pieces))
    (f : ℤ → α) :
    (x :: pieces).flatMap (fun y ↦ stretch f (start y) (len y)) =
      stretch f (start x) ((x :: pieces).map len).sum := by
  induction pieces generalizing x with
  | nil => simp
  | cons y pieces ih =>
      obtain ⟨hxy, htail⟩ := List.isChain_cons_cons.mp h
      rw [List.flatMap_cons, ih htail, hxy, stretch_append, List.map_cons (l := y :: pieces),
        List.sum_cons]

/-- Pieces are together at least as long as the positions that they cover are many. -/
theorem card_le_of_covered {pieces : List γ} {positions : Finset ℤ}
    (h : ∀ x ∈ positions, ∃ p ∈ pieces, start p ≤ x ∧ x < start p + len p) :
    positions.card ≤ (pieces.map len).sum := by
  induction pieces generalizing positions with
  | nil =>
      have hempty : positions = ∅ := by
        rw [Finset.eq_empty_iff_forall_notMem]
        intro x hx
        obtain ⟨p, hp, -⟩ := h x hx
        simp at hp
      simp [hempty]
  | cons p pieces ih =>
      have hown : positions.filter (fun x ↦ start p ≤ x ∧ x < start p + len p) ⊆
          Finset.Ico (start p) (start p + len p) := by
        intro x hx
        exact Finset.mem_Ico.mpr (Finset.mem_filter.mp hx).2
      have hcard := Finset.card_le_card hown
      rw [Int.card_Ico] at hcard
      have hrest : (positions.filter fun x ↦ ¬(start p ≤ x ∧ x < start p + len p)).card ≤
          (pieces.map len).sum := by
        apply ih
        intro x hx
        obtain ⟨hmem, hnot⟩ := Finset.mem_filter.mp hx
        obtain ⟨q, hq, hcovers⟩ := h x hmem
        rcases List.mem_cons.mp hq with rfl | hq
        · exact absurd hcovers hnot
        · exact ⟨q, hq, hcovers⟩
      have hsplit := Finset.card_filter_add_card_filter_not (s := positions)
        fun x ↦ start p ≤ x ∧ x < start p + len p
      rw [List.map_cons, List.sum_cons]
      omega

theorem sub_le_sum_of_covered {pieces : List γ} {a b : ℤ}
    (h : ∀ x, a ≤ x → x < b → ∃ p ∈ pieces, start p ≤ x ∧ x < start p + len p) :
    b - a ≤ (pieces.map len).sum := by
  have hcard : (Finset.Ico a b).card ≤ (pieces.map len).sum :=
    card_le_of_covered fun x hx ↦ h x (Finset.mem_Ico.mp hx).1 (Finset.mem_Ico.mp hx).2
  rw [Int.card_Ico] at hcard
  omega

end Signal
