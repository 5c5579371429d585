import Mathlib.Data.List.TakeWhile
import Mathlib.Data.List.Chain

/-!
# Cutting a list at thresholds

`cutsAt k x` says that the list may be cut before `x` at the threshold `k`.  The part
between two thresholds runs from the first cut point of the one up to the first
cut point of the other.  Over a chain of thresholds, each of which has no more
cut points than the one before, consecutive parts join without gap or overlap.
-/

namespace ListCut

variable {κ α : Type} (cutsAt : κ → α → Bool)

def before (k : κ) (xs : List α) : List α := xs.takeWhile fun x ↦ !cutsAt k x

def onwards (k : κ) (xs : List α) : List α := xs.dropWhile fun x ↦ !cutsAt k x

def between (j k : κ) (xs : List α) : List α := before cutsAt k (onwards cutsAt j xs)

theorem before_append_onwards (k : κ) (xs : List α) :
    before cutsAt k xs ++ onwards cutsAt k xs = xs :=
  List.takeWhile_append_dropWhile

variable {cutsAt}

theorem not_cutsAt_of_mem_before {k : κ} {xs : List α} {x : α} (hx : x ∈ before cutsAt k xs) :
    ¬cutsAt k x := by
  simpa using List.mem_takeWhile_imp hx

theorem cutsAt_of_onwards_eq_cons {k : κ} {xs ys : List α} {x : α}
    (h : onwards cutsAt k xs = x :: ys) : cutsAt k x := by
  have hhead := List.head?_dropWhile_not (fun x ↦ !cutsAt k x) xs
  rw [← onwards, h] at hhead
  simpa using hhead

/-- What comes before the cut does not matter. -/
theorem onwards_append_of_forall {k : κ} {xs : List α} (hxs : ∀ x ∈ xs, ¬cutsAt k x)
    (ys : List α) : onwards cutsAt k (xs ++ ys) = onwards cutsAt k ys :=
  List.dropWhile_append_of_pos fun x hx ↦ by simpa using hxs x hx

/-- A threshold with no more cut points cuts the rest where it cuts the whole. -/
theorem onwards_onwards {j k : κ} (hjk : ∀ x, cutsAt k x → cutsAt j x) (xs : List α) :
    onwards cutsAt k (onwards cutsAt j xs) = onwards cutsAt k xs := by
  conv_rhs => rw [← before_append_onwards cutsAt j xs]
  refine (onwards_append_of_forall (fun x hx hk ↦ ?_) _).symm
  exact not_cutsAt_of_mem_before hx (hjk x hk)

theorem mem_of_mem_between {j k : κ} {xs : List α} {x : α} (hx : x ∈ between cutsAt j k xs) :
    x ∈ xs :=
  (List.dropWhile_sublist _).subset ((List.takeWhile_sublist _).subset hx)

/-- Nothing lies between a threshold and one with no fewer cut points. -/
theorem between_eq_nil {j k : κ} (hjk : ∀ x, cutsAt j x → cutsAt k x) (xs : List α) :
    between cutsAt j k xs = [] := by
  rw [between, before]
  cases h : onwards cutsAt j xs with
  | nil => rfl
  | cons x ys =>
      have hcut := hjk x (cutsAt_of_onwards_eq_cons h)
      rw [List.takeWhile_cons_of_neg (by simpa using hcut)]

theorem between_append_onwards {j k : κ} (hjk : ∀ x, cutsAt k x → cutsAt j x) (xs : List α) :
    between cutsAt j k xs ++ onwards cutsAt k xs = onwards cutsAt j xs := by
  rw [← onwards_onwards hjk, between, before_append_onwards]

def parts (cutsAt : κ → α → Bool) (ks : List κ) (xs : List α) : List (List α) :=
  (ks.zip ks.tail).map fun p ↦ between cutsAt p.1 p.2 xs

/-- Consecutive parts join to the part between the first threshold and the
last. -/
theorem flatten_parts {k : κ} {ks : List κ}
    (hchain : (k :: ks).IsChain fun j k ↦ ∀ x, cutsAt k x → cutsAt j x) (xs : List α) :
    (parts cutsAt (k :: ks) xs).flatten ++
        onwards cutsAt ((k :: ks).getLast (List.cons_ne_nil k ks)) xs =
      onwards cutsAt k xs := by
  induction ks generalizing k with
  | nil => rfl
  | cons k' ks ih =>
      obtain ⟨hjk, hchain⟩ := List.isChain_cons_cons.mp hchain
      rw [List.getLast_cons_cons, ← between_append_onwards hjk, ← ih hchain]
      simp [parts]

theorem mem_onwards_append {k : κ} (xs : List α) {ys : List α} {x : α}
    (hx : x ∈ onwards cutsAt k ys) : x ∈ onwards cutsAt k (xs ++ ys) := by
  rw [onwards, List.dropWhile_append]
  split
  · exact hx
  · exact List.mem_append_right _ ((List.dropWhile_sublist _).subset hx)

/-- Whatever the order of the thresholds, an element behind the first cut is in
some part or behind the last cut. -/
theorem mem_parts_or_mem_onwards {k : κ} {ks : List κ} {xs : List α} {x : α}
    (hx : x ∈ onwards cutsAt k xs) :
    (∃ part ∈ parts cutsAt (k :: ks) xs, x ∈ part) ∨
      x ∈ onwards cutsAt ((k :: ks).getLast (List.cons_ne_nil k ks)) xs := by
  induction ks generalizing k with
  | nil => exact .inr hx
  | cons k' ks ih =>
      rw [List.getLast_cons_cons]
      rw [← before_append_onwards cutsAt k' (onwards cutsAt k xs)] at hx
      rcases List.mem_append.mp hx with hx | hx
      · exact .inl ⟨between cutsAt k k' xs, List.mem_cons_self, hx⟩
      · have hx' : x ∈ onwards cutsAt k' xs := by
          rw [← before_append_onwards cutsAt k xs]
          exact mem_onwards_append _ hx
        rcases ih hx' with ⟨part, hpart, hx⟩ | hx
        · exact .inl ⟨part, List.mem_cons_of_mem _ hpart, hx⟩
        · exact .inr hx

theorem exists_of_mem_parts {ks : List κ} {xs part : List α} (h : part ∈ parts cutsAt ks xs) :
    ∃ i j k, ks[i]? = some j ∧ ks[i + 1]? = some k ∧ part = between cutsAt j k xs := by
  obtain ⟨⟨j, k⟩, hjk, rfl⟩ := List.mem_map.mp h
  obtain ⟨i, hi⟩ := List.mem_iff_getElem?.mp hjk
  obtain ⟨hj, hk⟩ := List.getElem?_zip_eq_some.mp hi
  rw [List.getElem?_tail] at hk
  exact ⟨i, j, k, hj, hk, rfl⟩

/-- Where a predicate, once true, stays true along the list, it selects a final
part of the list. -/
theorem filter_suffix {R : α → α → Prop} {p : α → Bool} {xs : List α} (hxs : xs.Pairwise R)
    (hp : ∀ x y, R x y → p x → p y) : xs.filter p <:+ xs := by
  induction xs with
  | nil => exact List.suffix_rfl
  | cons x xs ih =>
      obtain ⟨hx, hxs⟩ := List.pairwise_cons.mp hxs
      by_cases hpx : p x
      · have hall : ∀ y ∈ x :: xs, p y := by
          intro y hy
          rcases List.mem_cons.mp hy with rfl | hy
          · exact hpx
          · exact hp x y (hx y hy) hpx
        refine ⟨[], ?_⟩
        rw [List.nil_append, List.filter_eq_self.mpr hall]
      · rw [List.filter_cons_of_neg hpx]
        exact (ih hxs).trans (List.suffix_cons x xs)

end ListCut
