import Fmp4Packager.General.CallRun
import Mathlib.Data.List.Basic

/-!
# Threads over a shared state

Threads take atomic steps on a shared state, in any order, while new threads start
and the outside changes the state too.  What holds of the state, of every thread and
of every two threads in every run follows from what one step does to them.
-/

/-- A step depends on what the outside answers during it, its input. -/
structure ThreadProgram (ρ τ σ η ι : Type) where
  start : ρ → τ
  next : ι → τ → σ → τ × σ
  outside : η → σ → σ

structure ThreadPool (τ σ : Type) where
  threads : List τ
  shared : σ

namespace ThreadPool

variable {ρ τ σ η ι : Type}

inductive Move (ρ η ι : Type) where
  | arrive (request : ρ)
  | outside (event : η)
  | proceed (i : ℕ) (input : ι)

/-- One move; a thread that is not there does nothing. -/
def step (P : ThreadProgram ρ τ σ η ι) :
    Move ρ η ι → ThreadPool τ σ → Unit × ThreadPool τ σ
  | .arrive request, p => ((), { p with threads := p.threads ++ [P.start request] })
  | .outside event, p => ((), { p with shared := P.outside event p.shared })
  | .proceed i input, p =>
      match p.threads[i]? with
      | none => ((), p)
      | some t =>
          ((), { threads := p.threads.set i (P.next input t p.shared).1
                 shared := (P.next input t p.shared).2 })

/-- The input of a step is one that the thread can meet in the state. -/
def Meets (Allowed : ι → τ → σ → Prop) : Move ρ η ι → ThreadPool τ σ → Prop
  | .proceed i input, p => ∀ t ∈ p.threads[i]?, Allowed input t p.shared
  | _, _ => True

theorem meets_of_forall {Allowed : ι → τ → σ → Prop} (h : ∀ input t s, Allowed input t s)
    (move : Move ρ η ι) (p : ThreadPool τ σ) : Meets Allowed move p := by
  cases move with
  | proceed i input => exact fun t _ ↦ h input t p.shared
  | _ => trivial

theorem always_meets {P : ThreadProgram ρ τ σ η ι} {Allowed : ι → τ → σ → Prop}
    (h : ∀ input t s, Allowed input t s) (moves : List (Move ρ η ι)) (p : ThreadPool τ σ) :
    CallRun.Always (ThreadPool.step P) (Meets Allowed) moves p :=
  CallRun.always_of_forall (fun move _ q ↦ meets_of_forall h move q) p

/-- An invariant of the state, of each thread with it, and of each two threads. -/
structure Holds (Inv : σ → Prop) (Local : τ → σ → Prop) (Apart : τ → τ → σ → Prop)
    (p : ThreadPool τ σ) : Prop where
  shared : Inv p.shared
  each : ∀ t ∈ p.threads, Local t p.shared
  apart : ∀ (i j : ℕ) t u, i ≠ j → p.threads[i]? = some t → p.threads[j]? = some u →
    Apart t u p.shared

/-- What one step has to do for an invariant: keep it for the thread that takes the
step, and for every other thread. -/
structure Keeps (P : ThreadProgram ρ τ σ η ι) (Allowed : ι → τ → σ → Prop) (Inv : σ → Prop)
    (Local : τ → σ → Prop) (Apart : τ → τ → σ → Prop) : Prop where
  symm : ∀ t u s, Apart t u s → Apart u t s
  start : ∀ request s, Inv s → Local (P.start request) s ∧
    ∀ u, Local u s → Apart (P.start request) u s
  outside : ∀ event s, Inv s → Inv (P.outside event s) ∧
    (∀ u, Local u s → Local u (P.outside event s)) ∧
      ∀ u v, Apart u v s → Apart u v (P.outside event s)
  next : ∀ input t s, Allowed input t s → Inv s → Local t s →
    Inv (P.next input t s).2 ∧ Local (P.next input t s).1 (P.next input t s).2 ∧
      (∀ u, Local u s → Apart t u s → Local u (P.next input t s).2 ∧
        Apart (P.next input t s).1 u (P.next input t s).2) ∧
      ∀ u v, Apart u v s → Apart u v (P.next input t s).2

variable {P : ThreadProgram ρ τ σ η ι} {Allowed : ι → τ → σ → Prop} {Inv : σ → Prop}
  {Local : τ → σ → Prop} {Apart : τ → τ → σ → Prop}

theorem getElem?_concat {threads : List τ} {t u : τ} {i : ℕ}
    (h : (threads ++ [t])[i]? = some u) :
    threads[i]? = some u ∨ i = threads.length ∧ u = t := by
  rcases Nat.lt_trichotomy i threads.length with hlt | heq | hgt
  · rw [List.getElem?_append_left hlt] at h
    exact .inl h
  · rw [heq, List.getElem?_concat_length] at h
    exact .inr ⟨heq, (Option.some.inj h).symm⟩
  · rw [List.getElem?_eq_none (by simp; omega)] at h
    cases h

theorem Holds.arrive (hP : Keeps P Allowed Inv Local Apart) {p : ThreadPool τ σ}
    (h : Holds Inv Local Apart p) (request : ρ) :
    Holds Inv Local Apart (step P (.arrive request) p).2 := by
  obtain ⟨hlocal, hapart⟩ := hP.start request p.shared h.shared
  refine ⟨h.shared, fun t ht ↦ ?_, fun i j t u hne ht hu ↦ ?_⟩
  · rcases List.mem_append.mp ht with ht | ht
    · exact h.each t ht
    · rw [List.mem_singleton.mp ht]
      exact hlocal
  · rcases getElem?_concat ht with ht | ⟨hi, rfl⟩ <;> rcases getElem?_concat hu with hu | ⟨hj, rfl⟩
    · exact h.apart i j t u hne ht hu
    · exact hP.symm _ _ _ (hapart t (h.each t (List.mem_of_getElem? ht)))
    · exact hapart u (h.each u (List.mem_of_getElem? hu))
    · exact absurd (hi.trans hj.symm) hne

theorem Holds.outside (hP : Keeps P Allowed Inv Local Apart) {p : ThreadPool τ σ}
    (h : Holds Inv Local Apart p) (event : η) :
    Holds Inv Local Apart (step P (.outside event) p).2 := by
  obtain ⟨hinv, hlocal, hapart⟩ := hP.outside event p.shared h.shared
  exact ⟨hinv, fun t ht ↦ hlocal t (h.each t ht),
    fun i j t u hne ht hu ↦ hapart t u (h.apart i j t u hne ht hu)⟩

theorem Holds.proceed (hP : Keeps P Allowed Inv Local Apart) {p : ThreadPool τ σ}
    (h : Holds Inv Local Apart p) {i : ℕ} {input : ι}
    (hinput : ∀ t ∈ p.threads[i]?, Allowed input t p.shared) :
    Holds Inv Local Apart (step P (.proceed i input) p).2 := by
  rw [step]
  cases hi : p.threads[i]? with
  | none => exact h
  | some t =>
      have hmem : t ∈ p.threads := List.mem_of_getElem? hi
      obtain ⟨hinv, hown, hother, hrest⟩ :=
        hP.next input t p.shared (hinput t hi) h.shared (h.each t hmem)
      -- a thread of the next pool is the one that has moved, or another one
      have hset : ∀ {j : ℕ} {u : τ},
          (p.threads.set i (P.next input t p.shared).1)[j]? = some u →
            j = i ∧ u = (P.next input t p.shared).1 ∨ j ≠ i ∧ p.threads[j]? = some u := by
        intro j u hu
        by_cases hji : j = i
        · subst hji
          rw [List.getElem?_set_self (List.getElem?_eq_some_iff.mp hi).1] at hu
          exact .inl ⟨rfl, (Option.some.inj hu).symm⟩
        · rw [List.getElem?_set_ne (Ne.symm hji)] at hu
          exact .inr ⟨hji, hu⟩
      refine ⟨hinv, fun u hu ↦ ?_, fun j k u v hne hu hv ↦ ?_⟩
      · obtain ⟨j, hj⟩ := List.mem_iff_getElem?.mp hu
        rcases hset hj with ⟨-, rfl⟩ | ⟨hji, hj⟩
        · exact hown
        · exact (hother u (h.each u (List.mem_of_getElem? hj))
            (h.apart i j t u (Ne.symm hji) hi hj)).1
      · rcases hset hu with ⟨hj, rfl⟩ | ⟨hj, hu⟩ <;> rcases hset hv with ⟨hk, rfl⟩ | ⟨hk, hv⟩
        · exact absurd (hj.trans hk.symm) hne
        · exact (hother v (h.each v (List.mem_of_getElem? hv))
            (h.apart i k t v (Ne.symm hk) hi hv)).2
        · exact hP.symm _ _ _ (hother u (h.each u (List.mem_of_getElem? hu))
            (h.apart i j t u (Ne.symm hj) hi hu)).2
        · exact hrest u v (h.apart j k u v hne hu hv)

theorem Holds.step (hP : Keeps P Allowed Inv Local Apart) {p : ThreadPool τ σ}
    (h : Holds Inv Local Apart p) {move : Move ρ η ι} (hmove : Meets Allowed move p) :
    Holds Inv Local Apart (ThreadPool.step P move p).2 := by
  cases move with
  | arrive request => exact h.arrive hP request
  | outside event => exact h.outside hP event
  | proceed i input => exact h.proceed hP hmove

/-- In every run the invariant is kept. -/
theorem Holds.finalState (hP : Keeps P Allowed Inv Local Apart) {p : ThreadPool τ σ}
    (h : Holds Inv Local Apart p) {moves : List (Move ρ η ι)}
    (hmoves : CallRun.Always (ThreadPool.step P) (Meets Allowed) moves p) :
    Holds Inv Local Apart (CallRun.finalState (ThreadPool.step P) moves p) := by
  induction moves generalizing p with
  | nil => exact h
  | cons move moves ih => exact ih (h.step hP hmoves.1) hmoves.2

/-- A thread stays as it is while another one takes a step. -/
theorem getElem?_threads_step_of_ne {i : ℕ} {t : τ} {move : Move ρ η ι}
    (hmove : ∀ input, move ≠ .proceed i input) {p : ThreadPool τ σ}
    (h : p.threads[i]? = some t) : (ThreadPool.step P move p).2.threads[i]? = some t := by
  cases move with
  | arrive request =>
      rw [ThreadPool.step, List.getElem?_append_left (List.getElem?_eq_some_iff.mp h).1]
      exact h
  | outside event => exact h
  | proceed j input =>
      have hne : j ≠ i := by
        rintro rfl
        exact hmove input rfl
      rw [ThreadPool.step]
      split
      · exact h
      · rw [List.getElem?_set_ne hne]
        exact h

theorem getElem?_threads_finalState {i : ℕ} {t : τ} {moves : List (Move ρ η ι)}
    (hmoves : ∀ input, .proceed i input ∉ moves) {p : ThreadPool τ σ}
    (h : p.threads[i]? = some t) :
    (CallRun.finalState (ThreadPool.step P) moves p).threads[i]? = some t := by
  induction moves generalizing p with
  | nil => exact h
  | cons move moves ih =>
      refine ih (fun input hmem ↦ hmoves input (List.mem_cons_of_mem move hmem)) ?_
      refine getElem?_threads_step_of_ne (fun input heq ↦ ?_) h
      exact hmoves input (heq ▸ List.mem_cons_self)

def Move.proceeds (i : ℕ) : Move ρ η ι → Bool
  | .proceed j _ => j == i
  | _ => false

/-- How often a thread takes a step. -/
def turns (i : ℕ) (moves : List (Move ρ η ι)) : ℕ := moves.countP (Move.proceeds i)

/-- A move is a turn of the thread, or leaves it as it is. -/
theorem getElem?_threads_step {i : ℕ} {t : τ} {p : ThreadPool τ σ} (hi : p.threads[i]? = some t)
    (move : Move ρ η ι) :
    (∃ input, move = .proceed i input ∧
        (ThreadPool.step P move p).2.threads[i]? = some (P.next input t p.shared).1) ∨
      move.proceeds i = false ∧ (ThreadPool.step P move p).2.threads[i]? = some t := by
  by_cases hturn : ∃ input, move = .proceed i input
  · obtain ⟨input, rfl⟩ := hturn
    refine .inl ⟨input, rfl, ?_⟩
    rw [ThreadPool.step, hi]
    exact List.getElem?_set_self (List.getElem?_eq_some_iff.mp hi).1
  · refine .inr ⟨?_, getElem?_threads_step_of_ne (fun input heq ↦ hturn ⟨input, heq⟩) hi⟩
    cases move with
    | proceed j input =>
        rw [Move.proceeds, beq_eq_false_iff_ne]
        rintro rfl
        exact hturn ⟨input, rfl⟩
    | _ => rfl

/-- What a thread has become it was from its start, or became in a turn of its own. -/
theorem exists_turn_to {p : ThreadPool τ σ} {moves : List (Move ρ η ι)} {i : ℕ} {t : τ}
    (hstart : p.threads[i]? ≠ some t)
    (hend : (CallRun.finalState (ThreadPool.step P) moves p).threads[i]? = some t) :
    (∃ before request after, moves = before ++ .arrive request :: after ∧ t = P.start request) ∨
      ∃ before input after u, moves = before ++ .proceed i input :: after ∧
        (CallRun.finalState (ThreadPool.step P) before p).threads[i]? = some u ∧ u ≠ t ∧
          (P.next input u (CallRun.finalState (ThreadPool.step P) before p).shared).1 = t := by
  obtain ⟨before, move, after, rfl, hnot, hnow⟩ :=
    CallRun.exists_step_into (Q := fun q : ThreadPool τ σ ↦ q.threads[i]? = some t) hstart hend
  generalize hq : CallRun.finalState (ThreadPool.step P) before p = q at hnot hnow
  cases hi : q.threads[i]? with
  | some u =>
      rcases getElem?_threads_step (P := P) hi move with ⟨input, rfl, hnext⟩ | ⟨-, hsame⟩
      · refine .inr ⟨before, input, after, u, rfl, hq ▸ hi, fun heq ↦ hnot (heq ▸ hi), ?_⟩
        rw [hq]
        exact Option.some.inj (hnext.symm.trans hnow)
      · exact absurd (hi.trans (hsame.symm.trans hnow)) hnot
  | none =>
      cases move with
      | arrive request =>
          rcases getElem?_concat hnow with hold | ⟨-, rfl⟩
          · cases hi.symm.trans hold
          · exact .inl ⟨before, request, after, rfl, rfl⟩
      | outside event => cases hi.symm.trans hnow
      | proceed j input =>
          have hlen := (List.getElem?_eq_some_iff.mp hnow).1
          have hsame : (ThreadPool.step P (.proceed j input) q).2.threads.length =
              q.threads.length := by
            rw [ThreadPool.step]
            split <;> simp
          rw [List.getElem?_eq_none_iff] at hi
          omega

theorem kept_finalState (Kept : τ → Prop)
    (hkept : ∀ input t s, Kept t → Kept (P.next input t s).1) {moves : List (Move ρ η ι)}
    {p : ThreadPool τ σ} {i : ℕ} {t : τ} (hi : p.threads[i]? = some t) (ht : Kept t) :
    ∃ u, (CallRun.finalState (ThreadPool.step P) moves p).threads[i]? = some u ∧ Kept u := by
  induction moves generalizing p t with
  | nil => exact ⟨t, hi, ht⟩
  | cons move moves ih =>
      rcases getElem?_threads_step (P := P) hi move with ⟨input, -, hi'⟩ | ⟨-, hi'⟩
      · exact ih hi' (hkept input t p.shared ht)
      · exact ih hi' ht

/-- A rank that falls with every step of a thread falls with its turns, whatever the
others do. -/
theorem Holds.rank_finalState (hP : Keeps P Allowed Inv Local Apart) (rank : τ → ℕ)
    (hrank : ∀ input t s, Allowed input t s → Inv s → Local t s →
      rank (P.next input t s).1 ≤ rank t - 1) {moves : List (Move ρ η ι)} {p : ThreadPool τ σ}
    (h : Holds Inv Local Apart p)
    (hmoves : CallRun.Always (ThreadPool.step P) (Meets Allowed) moves p) {i : ℕ} {t : τ}
    (hi : p.threads[i]? = some t) :
    ∃ u, (CallRun.finalState (ThreadPool.step P) moves p).threads[i]? = some u ∧
      rank u ≤ rank t - turns i moves := by
  induction moves generalizing p t with
  | nil => exact ⟨t, hi, Nat.le_refl _⟩
  | cons move moves ih =>
      obtain ⟨hmove, hmoves⟩ := hmoves
      have hnext := h.step hP hmove
      rcases getElem?_threads_step (P := P) hi move with ⟨input, rfl, hi'⟩ | ⟨hother, hi'⟩
      · have hfalls := hrank input t p.shared (hmove t hi) h.shared
          (h.each t (List.mem_of_getElem? hi))
        have hturns : turns i (.proceed i input :: moves) = turns i moves + 1 :=
          List.countP_cons_of_pos (beq_self_eq_true i)
        obtain ⟨u, hu, hle⟩ := ih hnext hmoves hi'
        exact ⟨u, hu, by omega⟩
      · have hturns : turns i (move :: moves) = turns i moves :=
          List.countP_cons_of_neg (by rw [hother]; exact Bool.false_ne_true)
        obtain ⟨u, hu, hle⟩ := ih hnext hmoves hi'
        exact ⟨u, hu, by omega⟩

end ThreadPool
