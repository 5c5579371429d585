import Mathlib.Data.List.AList
import Mathlib.Data.List.MinMax
import Mathlib.Order.Lattice

/-!
# Caches that drop their smallest keys

A finite map whose keys are linearly ordered, with insertion that never
overwrites and with eviction of the smallest key while there are too many.  What
an eviction keeps is described by rank: a key survives exactly when fewer than
`limit` keys lie above it.
-/

/-- A finite map from keys `κ` to values `β`. -/
abbrev KeyedCache (κ β : Type) := AList (fun _ : κ ↦ β)

namespace KeyedCache

variable {κ β : Type} [LinearOrder κ]

/-- Insert unless the key is there. -/
def tryEmplace (key : κ) (value : β) (c : KeyedCache κ β) : KeyedCache κ β :=
  if (c.lookup key).isSome then c else c.insert key value

theorem lookup_tryEmplace (key j : κ) (value : β) (c : KeyedCache κ β) :
    (tryEmplace key value c).lookup j =
      if j = key then some ((c.lookup key).getD value) else c.lookup j := by
  rw [tryEmplace]
  split_ifs with hsome hj hj
  · rw [hj]
    cases hc : c.lookup key with
    | none => simp [hc] at hsome
    | some v => rfl
  · rfl
  · have hnone : c.lookup key = none := by simpa using hsome
    rw [hj, AList.lookup_insert, hnone]
    rfl
  · rw [AList.lookup_insert_ne hj]

theorem mem_tryEmplace {key j : κ} {value : β} {c : KeyedCache κ β} :
    j ∈ tryEmplace key value c ↔ j = key ∨ j ∈ c := by
  rw [← AList.lookup_isSome, lookup_tryEmplace, ← AList.lookup_isSome]
  split_ifs with hj <;> simp [hj]

/-- Drop the smallest key while there are more than `limit`, for at most `fuel`
rounds. -/
def evictLoop (limit : ℕ) : ℕ → KeyedCache κ β → KeyedCache κ β
  | 0, c => c
  | fuel + 1, c =>
      if limit < c.keys.length then
        match c.keys.min? with
        | none => c
        | some oldest => evictLoop limit fuel (c.erase oldest)
      else c

/-- Drop the smallest key while there are more than `limit`. -/
def evict (limit : ℕ) (c : KeyedCache κ β) : KeyedCache κ β :=
  evictLoop limit c.keys.length c

/-- The number of keys above `j`. -/
def rank (j : κ) (c : KeyedCache κ β) : ℕ := (c.keys.filter (j < ·)).length

theorem rank_lt_length {j : κ} {c : KeyedCache κ β} (hj : j ∈ c) : rank j c < c.keys.length := by
  refine (List.length_filter_lt_length_iff_exists ..).mpr ⟨j, AList.mem_keys.mp hj, ?_⟩
  simp

theorem rank_erase_min {j oldest : κ} {c : KeyedCache κ β} (hmin : c.keys.min? = some oldest)
    (hj : j ∈ c) : rank j (c.erase oldest) = rank j c := by
  have hle : oldest ≤ j := (List.min?_eq_some_iff.mp hmin).2 j (AList.mem_keys.mp hj)
  have hnot : oldest ∉ c.keys.filter (j < ·) := fun hmem ↦ by
    have := (List.mem_filter.mp hmem).2
    exact absurd hle (not_le_of_gt (by simpa using this))
  rw [rank, AList.keys_erase, ← List.erase_filter, List.erase_of_not_mem hnot, rank]

/-- The smallest of more than `limit` keys has at least `limit` keys above
it. -/
theorem limit_le_rank_min {limit : ℕ} {oldest : κ} {c : KeyedCache κ β}
    (hmin : c.keys.min? = some oldest) (hlimit : limit < c.keys.length) :
    limit ≤ rank oldest c := by
  have hmem : oldest ∈ c.keys := (List.min?_eq_some_iff.mp hmin).1
  have habove : (c.keys.erase oldest).filter (oldest < ·) = c.keys.erase oldest := by
    apply List.filter_eq_self.mpr
    intro j hj
    obtain ⟨hne, hj⟩ := (c.keys_nodup.mem_erase_iff).mp hj
    have := (List.min?_eq_some_iff.mp hmin).2 j hj
    simpa using lt_of_le_of_ne this hne.symm
  have hrank : rank oldest c = (c.keys.erase oldest).length := by
    rw [rank, ← habove, ← List.erase_filter, List.erase_of_not_mem (by simp)]
  rw [hrank, List.length_erase_of_mem hmem]
  omega

theorem lookup_evictLoop {limit fuel : ℕ} {c : KeyedCache κ β} (hfuel : c.keys.length ≤ fuel)
    (j : κ) :
    (evictLoop limit fuel c).lookup j = if rank j c < limit then c.lookup j else none := by
  induction fuel generalizing c with
  | zero =>
      have hnot : j ∉ c := fun hj ↦ by
        have := rank_lt_length hj
        omega
      rw [evictLoop, AList.lookup_eq_none.mpr hnot, ite_self]
  | succ fuel ih =>
      rw [evictLoop]
      by_cases hj : j ∈ c
      swap
      · -- absent keys stay absent
        have hnone : ∀ oldest, (c.erase oldest).lookup j = none := fun oldest ↦
          AList.lookup_eq_none.mpr fun hmem ↦ hj (AList.mem_erase.mp hmem).2
        rw [AList.lookup_eq_none.mpr hj, ite_self]
        split
        · cases hmin : c.keys.min? with
          | none => exact AList.lookup_eq_none.mpr hj
          | some oldest =>
              have hmem : oldest ∈ c.keys := (List.min?_eq_some_iff.mp hmin).1
              rw [ih (by rw [AList.keys_erase, List.length_erase_of_mem hmem]; omega), hnone,
                ite_self]
        · exact AList.lookup_eq_none.mpr hj
      · split
        · next hlimit =>
            cases hmin : c.keys.min? with
            | none =>
                rw [List.min?_eq_none_iff] at hmin
                rw [hmin] at hlimit
                simp at hlimit
            | some oldest =>
                have hmem : oldest ∈ c.keys := (List.min?_eq_some_iff.mp hmin).1
                rw [ih (by rw [AList.keys_erase, List.length_erase_of_mem hmem]; omega),
                  rank_erase_min hmin hj]
                by_cases heq : j = oldest
                · have := limit_le_rank_min hmin hlimit
                  rw [heq, if_neg (by omega), if_neg (by omega)]
                · rw [AList.lookup_erase_ne heq]
        · have := rank_lt_length hj
          rw [if_pos (by omega)]

theorem length_keys_erase {key : κ} {c : KeyedCache κ β} (hkey : key ∈ c) :
    (c.erase key).keys.length = c.keys.length - 1 := by
  rw [AList.keys_erase, List.length_erase_of_mem (AList.mem_keys.mp hkey)]

theorem length_keys_insert {key : κ} (value : β) {c : KeyedCache κ β} (hkey : key ∉ c) :
    (c.insert key value).keys.length = c.keys.length + 1 := by
  rw [AList.keys_insert, List.length_cons,
    List.erase_of_not_mem fun h ↦ hkey (AList.mem_keys.mpr h)]

theorem length_keys_evictLoop_le {limit fuel : ℕ} {c : KeyedCache κ β}
    (hfuel : c.keys.length ≤ fuel) : (evictLoop limit fuel c).keys.length ≤ limit := by
  induction fuel generalizing c with
  | zero => exact hfuel.trans (Nat.zero_le limit)
  | succ fuel ih =>
      rw [evictLoop]
      split
      · next hlimit =>
          cases hmin : c.keys.min? with
          | none =>
              rw [List.min?_eq_none_iff] at hmin
              rw [hmin] at hlimit
              simp at hlimit
          | some oldest =>
              have hmem : oldest ∈ c := AList.mem_keys.mpr (List.min?_eq_some_iff.mp hmin).1
              exact ih (by rw [length_keys_erase hmem]; omega)
      · next hlimit => exact not_lt.mp hlimit

theorem length_keys_evict_le (limit : ℕ) (c : KeyedCache κ β) :
    (evict limit c).keys.length ≤ limit :=
  length_keys_evictLoop_le le_rfl

/-- The `limit` largest keys survive. -/
theorem lookup_evict (limit : ℕ) (c : KeyedCache κ β) (j : κ) :
    (evict limit c).lookup j = if rank j c < limit then c.lookup j else none :=
  lookup_evictLoop le_rfl j

theorem mem_evict {limit : ℕ} {c : KeyedCache κ β} {j : κ} :
    j ∈ evict limit c ↔ j ∈ c ∧ rank j c < limit := by
  rw [← AList.lookup_isSome, lookup_evict, ← AList.lookup_isSome]
  split_ifs with h <;> simp [h]

theorem rank_le_rank {c c' : KeyedCache κ β} (hsub : ∀ i, i ∈ c → i ∈ c') (j : κ) :
    rank j c ≤ rank j c' := by
  refine (List.subperm_of_subset (c.keys_nodup.filter _) fun i hi ↦ ?_).length_le
  obtain ⟨hi, hlt⟩ := List.mem_filter.mp hi
  exact List.mem_filter.mpr ⟨AList.mem_keys.mp (hsub i (AList.mem_keys.mpr hi)), hlt⟩

section Removal

variable {ι γ : Type} [DecidableEq ι]

/-- Erase, key by key, the entries whose value is marked. -/
def eraseMarked (marked : γ → Bool) (keys : List ι) (c : KeyedCache ι γ) : KeyedCache ι γ :=
  keys.foldl (fun c key ↦ if (c.lookup key).any marked then c.erase key else c) c

theorem lookup_eraseMarked (marked : γ → Bool) (keys : List ι) (c : KeyedCache ι γ) (j : ι) :
    (eraseMarked marked keys c).lookup j =
      if j ∈ keys then (c.lookup j).filter (fun value ↦ !marked value) else c.lookup j := by
  induction keys generalizing c with
  | nil => rfl
  | cons key keys ih =>
      have hstep : ∀ c : KeyedCache ι γ,
          eraseMarked marked (key :: keys) c = eraseMarked marked keys
            (if (c.lookup key).any marked then c.erase key else c) := fun _ ↦ rfl
      rw [hstep, ih]
      by_cases hj : j = key
      · subst hj
        rw [if_pos List.mem_cons_self]
        cases hvalue : c.lookup j with
        | none => simp [hvalue]
        | some value =>
            cases hmarked : marked value with
            | true => simp [Option.filter_some, hmarked, AList.lookup_erase]
            | false => simp [Option.filter_some, hmarked, hvalue]
      · have hother : AList.lookup j (if (c.lookup key).any marked then c.erase key else c) =
            c.lookup j := by
          split
          · exact AList.lookup_erase_ne hj
          · rfl
        rw [hother]
        simp only [List.mem_cons, hj, false_or]

/-- Erase every entry whose value is marked. -/
def eraseAllMarked (marked : γ → Bool) (c : KeyedCache ι γ) : KeyedCache ι γ :=
  eraseMarked marked c.keys c

theorem lookup_eraseAllMarked (marked : γ → Bool) (c : KeyedCache ι γ) (j : ι) :
    (eraseAllMarked marked c).lookup j = (c.lookup j).filter (fun value ↦ !marked value) := by
  rw [eraseAllMarked, lookup_eraseMarked]
  split
  · rfl
  · next hj => rw [AList.lookup_eq_none.mpr fun hmem ↦ hj (AList.mem_keys.mp hmem), Option.filter_none]

end Removal

end KeyedCache
