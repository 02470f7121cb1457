import Rustymail.Lib.Runs
import Mathlib.Data.List.Perm.Subperm

/-!
# Taking turns

A machine picks entries one at a time. If nothing ever joins the entries ahead of one that waits, if
every pick is an entry ahead of it, and if an entry picked is dealt with before the next pick, then
the one that waits is overtaken at most as often as there were entries ahead of it.
-/

namespace Runs

variable {σ α κ : Type} (step : σ → α → σ) (picks : σ → α → Option κ)

/-- Every action of the run is taken where it may be. -/
def Along (may : σ → α → Prop) (s : σ) : List α → Prop
  | [] => True
  | action :: rest => may s action ∧ Along may (step s action) rest

/-- The entries picked along a run, in order. -/
def picked (s : σ) : List α → List κ
  | [] => []
  | action :: rest => (picks s action).toList ++ picked (step s action) rest

/-- An entry picked is gone from `ahead` when the next pick is made. -/
def SettlesPicks (ahead : σ → List κ) (s : σ) (actions : List α) : Prop :=
  ∀ before action middle again rest k k', actions = before ++ action :: (middle ++ again :: rest) →
    picks (run step s before) action = some k →
    picks (run step s (before ++ action :: middle)) again = some k' →
    k ∉ ahead (run step s (before ++ action :: middle))

variable {step picks} {may : σ → α → Prop} {inv : σ → Prop} {ahead : σ → List κ} {s : σ}

theorem along_append {first second : List α} :
    Along step may s (first ++ second)
      ↔ Along step may s first ∧ Along step may (run step s first) second := by
  induction first generalizing s with
  | nil => exact ⟨fun h => ⟨trivial, h⟩, And.right⟩
  | cons action rest ih =>
      change may s action ∧ Along step may (step s action) (rest ++ second) ↔ _
      rw [ih]
      exact and_assoc.symm

theorem along_of_forall {actions : List α} (h : ∀ action ∈ actions, ∀ s, may s action) :
    Along step may s actions := by
  induction actions generalizing s with
  | nil => exact trivial
  | cons action rest ih =>
      exact ⟨h action List.mem_cons_self s, ih fun a ha => h a (List.mem_cons_of_mem action ha)⟩

theorem along_of_splits {actions : List α}
    (h : ∀ before action after, actions = before ++ action :: after → may (run step s before) action) :
    Along step may s actions := by
  induction actions generalizing s with
  | nil => exact trivial
  | cons action rest ih =>
      refine ⟨h [] action rest rfl, ih fun before again after heq => ?_⟩
      exact h (action :: before) again after (congrArg (action :: ·) heq)

theorem SettlesPicks.tail {action : α} {rest : List α}
    (h : SettlesPicks step picks ahead s (action :: rest)) :
    SettlesPicks step picks ahead (step s action) rest := by
  intro before first middle again last k k' heq hfirst hagain
  exact h (action :: before) first middle again last k k' (by rw [heq]; rfl) hfirst hagain

section Line

variable (hinv : ∀ s action, inv s → may s action → inv (step s action))
include hinv

/-- What every action that may be taken keeps, such a run keeps. -/
theorem Along.keeps (hs : inv s) {actions : List α} (h : Along step may s actions) :
    inv (run step s actions) := by
  induction actions generalizing s with
  | nil => exact hs
  | cons action rest ih => exact ih (hinv s action hs h.1) h.2

variable (hshrinks : ∀ s action k, inv s → may s action → k ∈ ahead (step s action) → k ∈ ahead s)
include hshrinks

variable (hpicks : ∀ s action k, inv s → may s action → picks s action = some k → k ∈ ahead s)
include hpicks

/-- Every entry picked was ahead from the start. -/
theorem picked_ahead (hs : inv s) {actions : List α} (h : Along step may s actions) {k : κ}
    (hk : k ∈ picked step picks s actions) : k ∈ ahead s := by
  induction actions generalizing s with
  | nil => cases hk
  | cons action rest ih =>
      rcases List.mem_append.1 hk with hfirst | hlater
      · rw [Option.mem_toList] at hfirst
        exact hpicks s action k hs h.1 hfirst
      · exact hshrinks s action k hs h.1 (ih (hinv s action hs h.1) h.2 hlater)

/-- An entry dealt with before the next pick is not picked again. -/
theorem picked_not_again {action : α} {k : κ} (hs : inv s) (hfirst : picks s action = some k)
    {middle rest : List α} (h : Along step may s (action :: (middle ++ rest)))
    (hsettles : SettlesPicks step picks ahead s (action :: (middle ++ rest))) :
    k ∉ picked step picks (run step s (action :: middle)) rest := by
  -- Nothing is picked up to the next pick, and from there on `k` is gone.
  induction rest generalizing middle with
  | nil => exact List.not_mem_nil
  | cons again rest ih =>
      intro hmem
      have hsplit : Along step may s (action :: middle)
          ∧ Along step may (run step s (action :: middle)) (again :: rest) :=
        along_append.1 (by rw [List.cons_append]; exact h)
      have hmiddle := hsplit.1.keeps hinv hs
      cases hagain : picks (run step s (action :: middle)) again with
      | none =>
          unfold picked at hmem
          rw [hagain] at hmem
          have hassoc : middle ++ again :: rest = (middle ++ [again]) ++ rest := by
            rw [List.append_assoc, List.singleton_append]
          rw [hassoc] at h hsettles
          refine ih h hsettles ?_
          rw [← List.cons_append, run_snoc]
          exact hmem
      | some k' =>
          have hout := hsettles [] action middle again rest k k' rfl hfirst hagain
          exact hout (picked_ahead hinv hshrinks hpicks hmiddle hsplit.2 hmem)

theorem picked_nodup (hs : inv s) {actions : List α} (h : Along step may s actions)
    (hsettles : SettlesPicks step picks ahead s actions) :
    (picked step picks s actions).Nodup := by
  induction actions generalizing s with
  | nil => exact List.nodup_nil
  | cons action rest ih =>
      have hrest := ih (hinv s action hs h.1) h.2 hsettles.tail
      unfold picked
      cases hfirst : picks s action with
      | none => exact hrest
      | some k =>
          have hnot := @picked_not_again _ _ _ _ _ _ _ _ _ hinv hshrinks hpicks action k hs hfirst
            [] rest h hsettles
          exact List.nodup_cons.2 ⟨hnot, hrest⟩

/-- **The bound.** There are no more picks than there were entries ahead. -/
theorem length_picked_le (hs : inv s) {actions : List α} (h : Along step may s actions)
    (hsettles : SettlesPicks step picks ahead s actions) :
    (picked step picks s actions).length ≤ (ahead s).length := by
  have hnodup := picked_nodup hinv hshrinks hpicks hs h hsettles
  exact (hnodup.subperm fun k => picked_ahead hinv hshrinks hpicks hs h).length_le

end Line

end Runs
