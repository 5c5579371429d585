import Fmp4Packager.General.CallRun
import Mathlib.Data.List.Basic

/-!
# Histories of runs

The results of a run of calls, and what a run of one component comes to as a run of
another: each call of the first stands for some calls of the second, in the same
order.
-/

namespace CallRun

variable {σ κ ρ σ' κ' ρ' : Type} (step : κ → σ → ρ × σ)

def results : List κ → σ → List ρ
  | [], _ => []
  | call :: calls, s => (step call s).1 :: results calls (step call s).2

/-- What the calls of a run stand for, each in the state in which it is made. -/
def history {β : Type} (f : κ → σ → List β) : List κ → σ → List β
  | [], _ => []
  | call :: calls, s => f call s ++ history f calls (step call s).2

theorem results_append (calls later : List κ) (s : σ) :
    results step (calls ++ later) s =
      results step calls s ++ results step later (finalState step calls s) := by
  induction calls generalizing s with
  | nil => rfl
  | cons call calls ih =>
      rw [List.cons_append, results, ih, results, List.cons_append]
      rfl

theorem finalState_append (calls later : List κ) (s : σ) :
    finalState step (calls ++ later) s = finalState step later (finalState step calls s) :=
  List.foldl_append

variable {step} {step' : κ' → σ' → ρ' × σ'}

/-- A component simulates another one when each of its calls does what the calls do that
it stands for, with the same results; then a run does what its history does. -/
theorem simulation {R : σ → σ' → Prop} {Good : κ → σ → Prop} {f : κ → σ → List κ'}
    {g : κ → σ → List ρ'}
    (hstep : ∀ call s s', Good call s → R s s' →
      R (step call s).2 (finalState step' (f call s) s') ∧ results step' (f call s) s' = g call s)
    {calls : List κ} {s : σ} {s' : σ'} (hgood : Always step Good calls s) (h : R s s') :
    R (finalState step calls s) (finalState step' (history step f calls s) s') ∧
      results step' (history step f calls s) s' = history step g calls s := by
  induction calls generalizing s s' with
  | nil => exact ⟨h, rfl⟩
  | cons call calls ih =>
      obtain ⟨hcall, hresults⟩ := hstep call s s' hgood.1 h
      obtain ⟨hfinal, hrest⟩ := ih hgood.2 hcall
      rw [history, history, finalState_append, results_append, hresults, hrest]
      exact ⟨hfinal, rfl⟩

end CallRun
