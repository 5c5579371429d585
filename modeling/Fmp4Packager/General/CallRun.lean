import Mathlib.Init

/-!
# Runs of calls

A component is a step function: a call made in a state gives a result and the next
state.  A run is a list of calls.  Facts about single calls that hold under an
invariant carry over to all calls of a run.
-/

namespace CallRun

variable {σ κ ρ : Type} (step : κ → σ → ρ × σ)

def finalState (calls : List κ) (s : σ) : σ := calls.foldl (fun s call ↦ (step call s).2) s

/-- Every call, with the state in which it is made, has the property. -/
def Always (P : κ → σ → Prop) : List κ → σ → Prop
  | [], _ => True
  | call :: calls, s => P call s ∧ Always P calls (step call s).2

variable {step}

theorem finalState_of_invariant {Inv : σ → Prop} {Good : κ → Prop}
    (hstep : ∀ call s, Good call → Inv s → Inv (step call s).2) {calls : List κ}
    (hgood : ∀ call ∈ calls, Good call) {s : σ} (hs : Inv s) : Inv (finalState step calls s) := by
  induction calls generalizing s with
  | nil => exact hs
  | cons call calls ih =>
      exact ih (fun c hc ↦ hgood c (List.mem_cons_of_mem call hc))
        (hstep call s (hgood call List.mem_cons_self) hs)

theorem Always.finalState {Inv : σ → Prop} {P : κ → σ → Prop}
    (hP : ∀ call s, P call s → Inv (step call s).2) {calls : List κ} {s : σ}
    (h : Always step P calls s) (hs : Inv s) : Inv (finalState step calls s) := by
  induction calls generalizing s with
  | nil => exact hs
  | cons call calls ih => exact ih h.2 (hP call s h.1)

theorem always_of_forall {P : κ → σ → Prop} {calls : List κ} (h : ∀ call ∈ calls, ∀ s, P call s)
    (s : σ) : Always step P calls s := by
  induction calls generalizing s with
  | nil => trivial
  | cons call calls ih =>
      exact ⟨h call List.mem_cons_self s, ih (fun c hc ↦ h c (List.mem_cons_of_mem call hc)) _⟩

theorem Always.of_append {P : κ → σ → Prop} {before after : List κ} {s : σ}
    (h : Always step P (before ++ after) s) : Always step P before s := by
  induction before generalizing s with
  | nil => trivial
  | cons call before ih => exact ⟨h.1, ih h.2⟩

theorem Always.here {P : κ → σ → Prop} {before after : List κ} {call : κ} {s : σ}
    (h : Always step P (before ++ call :: after) s) :
    P call (CallRun.finalState step before s) := by
  induction before generalizing s with
  | nil => exact h.1
  | cons first before ih => exact ih h.2

/-- What holds at the end and not at the start has come about in some step. -/
theorem exists_step_into {Q : σ → Prop} {calls : List κ} {s : σ} (hs : ¬Q s)
    (hQ : Q (finalState step calls s)) : ∃ before call after, calls = before ++ call :: after ∧
      ¬Q (finalState step before s) ∧ Q (step call (finalState step before s)).2 := by
  induction calls generalizing s with
  | nil => exact absurd hQ hs
  | cons call calls ih =>
      by_cases hnext : Q (step call s).2
      · exact ⟨[], call, calls, rfl, hs, hnext⟩
      · obtain ⟨before, call', after, rfl, hbefore, hafter⟩ := ih hnext hQ
        exact ⟨call :: before, call', after, rfl, hbefore, hafter⟩

theorem Always.and {P Q : κ → σ → Prop} {calls : List κ} {s : σ} (hP : Always step P calls s)
    (hQ : Always step Q calls s) : Always step (fun call s ↦ P call s ∧ Q call s) calls s := by
  induction calls generalizing s with
  | nil => trivial
  | cons call calls ih => exact ⟨⟨hP.1, hQ.1⟩, ih hP.2 hQ.2⟩

/-- Properties that agree under an invariant agree on a run, if a call that has the
property keeps the invariant. -/
theorem always_congr (Inv : σ → Prop) {Good P Q : κ → σ → Prop}
    (hstep : ∀ call s, Good call s → Inv s → P call s → Inv (step call s).2)
    (hPQ : ∀ call s, Good call s → Inv s → (P call s ↔ Q call s)) {calls : List κ} {s : σ}
    (hgood : Always step Good calls s) (hs : Inv s) :
    Always step P calls s ↔ Always step Q calls s := by
  induction calls generalizing s with
  | nil => exact Iff.rfl
  | cons call calls ih =>
      obtain ⟨hcall, hrest⟩ := hgood
      rw [Always, Always, ← hPQ call s hcall hs]
      exact and_congr_right fun hP ↦ ih hrest (hstep call s hcall hs hP)

/-- What no step restores holds at the end exactly when no step has broken it. -/
theorem holds_finalState_iff {Inv Q : σ → Prop} {Good Breaks : κ → σ → Prop}
    (hinv : ∀ call s, Good call s → Inv s → Inv (step call s).2)
    (hstep : ∀ call s, Good call s → Inv s → (Q (step call s).2 ↔ Q s ∧ ¬Breaks call s))
    {calls : List κ} {s : σ} (hgood : Always step Good calls s) (hs : Inv s) :
    Q (finalState step calls s) ↔ Q s ∧ Always step (fun call s ↦ ¬Breaks call s) calls s := by
  induction calls generalizing s with
  | nil => exact ⟨fun h ↦ ⟨h, trivial⟩, fun h ↦ h.1⟩
  | cons call calls ih =>
      obtain ⟨hcall, hrest⟩ := hgood
      have htail := ih hrest (hinv call s hcall hs)
      rw [hstep call s hcall hs] at htail
      exact htail.trans (and_assoc)

end CallRun
