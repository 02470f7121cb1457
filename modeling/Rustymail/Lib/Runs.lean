import Mathlib.Data.List.Induction
import Mathlib.Tactic.Common

/-!
# Runs of a machine

A machine is a total step function; whatever is not determined by the state is part of the action.
A run is a list of actions. The rules below reduce a claim about whole runs to a claim about one
step: an invariant holds everywhere if it holds initially and every step keeps it, and a fact that
only certain actions can end lasts until one of them is taken.
-/

namespace Runs

variable {σ α : Type} (step : σ → α → σ)

/-- The state after a list of actions. -/
def run (s : σ) (actions : List α) : σ := actions.foldl step s

/-- The states an initial state leads to. -/
def Reachable (init s : σ) : Prop := ∃ actions, s = run step init actions

variable {step} {init s : σ}

@[simp]
theorem run_nil : run step s [] = s := rfl

@[simp]
theorem run_cons (action : α) (rest : List α) :
    run step s (action :: rest) = run step (step s action) rest := rfl

@[simp]
theorem run_append (first second : List α) :
    run step s (first ++ second) = run step (run step s first) second := by
  simp [run]

theorem run_snoc (actions : List α) (action : α) :
    run step s (actions ++ [action]) = step (run step s actions) action := by
  simp

theorem Reachable.refl : Reachable step init init := ⟨[], rfl⟩

theorem Reachable.next (h : Reachable step init s) (action : α) :
    Reachable step init (step s action) := by
  obtain ⟨actions, rfl⟩ := h
  exact ⟨actions ++ [action], (run_snoc actions action).symm⟩

theorem Reachable.run (h : Reachable step init s) (actions : List α) :
    Reachable step init (Runs.run step s actions) := by
  obtain ⟨first, rfl⟩ := h
  exact ⟨first ++ actions, (run_append first actions).symm⟩

/-- **The invariant rule.** -/
theorem invariant (inv : σ → Prop) (hinit : inv init)
    (hstep : ∀ s action, inv s → inv (step s action)) (actions : List α) : inv (run step init actions) := by
  induction actions using List.reverseRecOn with
  | nil => exact hinit
  | append_singleton actions action ih =>
      rw [run_snoc]
      exact hstep _ action ih

theorem Reachable.invariant (inv : σ → Prop) (h : Reachable step init s) (hinit : inv init)
    (hstep : ∀ s action, inv s → inv (step s action)) : inv s := by
  obtain ⟨actions, rfl⟩ := h
  exact Runs.invariant inv hinit hstep actions

/-- **The until rule.** A fact kept by every action that is not an ending lasts through any run
without endings; `inv` is an invariant the argument may lean on. -/
theorem persists (inv fact : σ → Prop) (ends : σ → α → Prop)
    (hinv : ∀ s action, inv s → inv (step s action))
    (hkeep : ∀ s action, inv s → fact s → ¬ ends s action → fact (step s action))
    (hs : inv s) (hfact : fact s) (actions : List α)
    (hnone : ∀ before action after, actions = before ++ action :: after →
      ¬ ends (run step s before) action) :
    fact (run step s actions) := by
  induction actions generalizing s with
  | nil => exact hfact
  | cons action rest ih =>
      have hfirst : ¬ ends s action := hnone [] action rest rfl
      refine ih (hinv s action hs) (hkeep s action hs hfact hfirst) ?_
      intro before next after heq
      exact hnone (action :: before) next after (by rw [heq]; rfl)

end Runs
