import Mathlib.Data.Option.Defs
import Mathlib.Tactic.Common

/-!
# Machines that answer

A machine takes an input, emits outputs, and goes on in a next state or stops. Two machines that are
related step by step cannot be told apart by what they emit, whatever inputs they are given.
-/

namespace Machine

variable {σ τ α ω : Type}

/-- The state after a list of inputs, and all that was emitted. A machine that has stopped takes no
more inputs. -/
def run (step : σ → α → Option σ × List ω) (s : σ) : List α → Option σ × List ω
  | [] => (some s, [])
  | input :: rest =>
      match step s input with
      | (none, outputs) => (none, outputs)
      | (some next, outputs) =>
          let (last, more) := run step next rest
          (last, outputs ++ more)

variable {step : σ → α → Option σ × List ω} {step' : τ → α → Option τ × List ω}

@[simp]
theorem run_nil (s : σ) : run step s [] = (some s, []) := rfl

theorem run_cons_stops {s : σ} {input : α} (rest : List α) (h : (step s input).1 = none) :
    run step s (input :: rest) = (none, (step s input).2) := by
  rw [run]
  generalize step s input = result at h ⊢
  obtain ⟨_, outputs⟩ := result
  subst h
  rfl

theorem run_cons_goes {s next : σ} {input : α} (rest : List α) (h : (step s input).1 = some next) :
    run step s (input :: rest)
      = ((run step next rest).1, (step s input).2 ++ (run step next rest).2) := by
  rw [run]
  generalize step s input = result at h ⊢
  obtain ⟨_, outputs⟩ := result
  subst h
  rfl

/-- **The invariant rule.** -/
theorem invariant (inv : σ → Prop)
    (hstep : ∀ s input next, inv s → (step s input).1 = some next → inv next) {s last : σ}
    {inputs : List α} (hinv : inv s) (h : (run step s inputs).1 = some last) : inv last := by
  induction inputs generalizing s with
  | nil =>
      rw [run_nil] at h
      cases h
      exact hinv
  | cons input rest ih =>
      cases hnext : (step s input).1 with
      | none =>
          rw [run_cons_stops rest hnext] at h
          cases h
      | some next =>
          rw [run_cons_goes rest hnext] at h
          exact ih (hstep s input next hinv hnext) h

/-- **The bisimulation rule.** Related machines emit the same, and stop together. -/
theorem bisimilar (related : σ → τ → Prop)
    (hstep : ∀ s t input, related s t →
      (step s input).2 = (step' t input).2
        ∧ Option.Rel related (step s input).1 (step' t input).1)
    {s : σ} {t : τ} (h : related s t) (inputs : List α) :
    (run step s inputs).2 = (run step' t inputs).2
      ∧ Option.Rel related (run step s inputs).1 (run step' t inputs).1 := by
  induction inputs generalizing s t with
  | nil => exact ⟨rfl, .some h⟩
  | cons input rest ih =>
      obtain ⟨houtputs, hnext⟩ := hstep s t input h
      cases hs : (step s input).1 with
      | none =>
          cases ht : (step' t input).1 with
          | none =>
              rw [run_cons_stops rest hs, run_cons_stops rest ht]
              exact ⟨houtputs, .none⟩
          | some t' =>
              rw [hs, ht] at hnext
              cases hnext
      | some s' =>
          cases ht : (step' t input).1 with
          | none =>
              rw [hs, ht] at hnext
              cases hnext
          | some t' =>
              rw [hs, ht] at hnext
              cases hnext with
              | some hrelated =>
                  obtain ⟨hmore, hlast⟩ := ih hrelated
                  rw [run_cons_goes rest hs, run_cons_goes rest ht]
                  exact ⟨by rw [houtputs, hmore], hlast⟩

end Machine
