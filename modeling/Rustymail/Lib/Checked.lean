import Mathlib.Tactic.Common

/-!
# Checked computations

A fallible computation is a chain of reads, guards and writes that stops at its first error. The
lemmas here take such a chain apart from its successful end: a successful bind splits into its two
successful halves, and a guard that did not stop the chain hands over its condition.
-/

namespace Checked

variable {ε α β : Type}

theorem bind_eq_ok {first : Except ε α} {rest : α → Except ε β} {result : β} :
    first >>= rest = .ok result ↔ ∃ value, first = .ok value ∧ rest value = .ok result := by
  cases first with
  | error e => simp [bind, Except.bind]
  | ok value => simp [bind, Except.bind]

theorem bind_ok (value : α) (rest : α → Except ε β) :
    ((Except.ok value : Except ε α) >>= rest) = rest value := rfl

theorem ite_eq_ok {condition : Prop} [Decidable condition] {first second : Except ε α} {result : α}
    (h : (if condition then first else second) = .ok result) :
    (condition ∧ first = .ok result) ∨ (¬ condition ∧ second = .ok result) := by
  by_cases hcondition : condition
  · rw [if_pos hcondition] at h
    exact Or.inl ⟨hcondition, h⟩
  · rw [if_neg hcondition] at h
    exact Or.inr ⟨hcondition, h⟩

theorem pure_eq_ok {value result : α} :
    (pure value : Except ε α) = .ok result ↔ value = result := by
  simp [pure, Except.pure]

theorem toOption_eq_some {result : Except ε α} {value : α} :
    result.toOption = some value ↔ result = .ok value := by
  cases result with
  | error e => simp [Except.toOption]
  | ok first => simp [Except.toOption]

/-- If every element of a list was computed, there are as many results, each of some element. -/
theorem mapM_eq_ok {f : α → Except ε β} {values : List α} {results : List β}
    (h : values.mapM f = .ok results) :
    results.length = values.length ∧ ∀ result ∈ results, ∃ value ∈ values, f value = .ok result := by
  induction values generalizing results with
  | nil =>
      rw [List.mapM_nil, pure_eq_ok] at h
      subst h
      exact ⟨rfl, fun _ hresult => absurd hresult List.not_mem_nil⟩
  | cons value rest ih =>
      simp only [List.mapM_cons, bind_eq_ok, pure_eq_ok] at h
      obtain ⟨first, hfirst, others, hothers, rfl⟩ := h
      obtain ⟨hlength, hmem⟩ := ih hothers
      refine ⟨congrArg (· + 1) hlength, ?_⟩
      intro result hresult
      rcases List.mem_cons.1 hresult with rfl | hlater
      · exact ⟨value, List.mem_cons_self, hfirst⟩
      · obtain ⟨other, hother, hread⟩ := hmem result hlater
        exact ⟨other, List.mem_cons_of_mem value hother, hread⟩

/-- Stop with an error unless the condition holds. -/
def require (condition : Prop) [Decidable condition] (e : ε) : Except ε Unit :=
  if condition then .ok () else .error e

@[simp]
theorem require_eq_ok {condition : Prop} [Decidable condition] {e : ε} {u : Unit} :
    require condition e = .ok u ↔ condition := by
  unfold require
  split_ifs with h <;> simp [h]

theorem require_of {condition : Prop} [Decidable condition] {e : ε} (h : condition) :
    require condition e = .ok () := if_pos h

/-- A guarded write succeeds under its guard and gives the written value. -/
theorem require_pure_eq_ok {condition : Prop} [Decidable condition] {e : ε} {value result : α} :
    (require condition e >>= fun _ => pure value) = .ok result ↔ condition ∧ result = value := by
  rw [bind_eq_ok]
  constructor
  · rintro ⟨_, hguard, hvalue⟩
    exact ⟨require_eq_ok.1 hguard, (pure_eq_ok.1 hvalue).symm⟩
  · rintro ⟨hguard, rfl⟩
    exact ⟨(), require_of hguard, rfl⟩

/-- Stop with an error when a read found nothing. -/
def found (e : ε) : Option α → Except ε α
  | some value => .ok value
  | none => .error e

@[simp]
theorem found_eq_ok {e : ε} {read : Option α} {value : α} :
    found e read = .ok value ↔ read = some value := by
  cases read <;> simp [found]

@[simp]
theorem found_some {e : ε} {value : α} : found e (some value) = .ok value := rfl

/-- The exact result of an operation, unless it does not fit below the limit. -/
def fit (limit n : Nat) : Option Nat := if n < limit then some n else none

theorem fit_of {limit n : Nat} (h : n < limit) : fit limit n = some n := if_pos h

/-- Two computations that agree up to what is forgotten fail alike, or succeed alike. -/
theorem map_eq_map {forget : α → β} {first second : Except ε α}
    (h : first.map forget = second.map forget) :
    (∃ e, first = .error e ∧ second = .error e)
      ∨ ∃ value other, first = .ok value ∧ second = .ok other ∧ forget value = forget other := by
  cases first with
  | error e =>
      cases second with
      | error e' => exact Or.inl ⟨e, rfl, congrArg Except.error (Except.error.inj h).symm⟩
      | ok other => cases h
  | ok value =>
      cases second with
      | error e => cases h
      | ok other => exact Or.inr ⟨value, other, rfl, rfl, Except.ok.inj h⟩

/-! ### Errors that cannot occur -/

/-- The computation does not stop with this error. -/
def Avoids (bad : ε) (computation : Except ε α) : Prop := computation ≠ .error bad

variable {bad e : ε}

theorem Avoids.ok (value : α) : Avoids bad (.ok value) := by
  intro h
  cases h

theorem Avoids.error (he : e ≠ bad) : Avoids bad (.error e : Except ε α) := by
  intro h
  exact he (Except.error.inj h)

theorem Avoids.ne (h : Avoids bad (.error e : Except ε α)) : e ≠ bad := by
  rintro rfl
  exact h rfl

theorem Avoids.bind {first : Except ε α} {rest : α → Except ε β} (hfirst : Avoids bad first)
    (hrest : ∀ value, first = .ok value → Avoids bad (rest value)) : Avoids bad (first >>= rest) := by
  cases first with
  | error e => exact Avoids.error fun heq => hfirst (congrArg Except.error heq)
  | ok value => exact hrest value rfl

theorem Avoids.require {condition : Prop} [Decidable condition] (he : e ≠ bad) :
    Avoids bad (Checked.require condition e) := by
  unfold Checked.require
  split_ifs
  · exact .ok ()
  · exact .error he

theorem Avoids.found {read : Option α} (he : e ≠ bad) : Avoids bad (Checked.found e read) := by
  cases read with
  | none => exact .error he
  | some value => exact .ok value

theorem Avoids.foldlM {f : β → α → Except ε β} (hf : ∀ state value, Avoids bad (f state value))
    (values : List α) (state : β) : Avoids bad (values.foldlM f state) := by
  induction values generalizing state with
  | nil => exact .ok state
  | cons value rest ih =>
      rw [List.foldlM_cons]
      exact .bind (hf state value) fun next _ => ih next

end Checked
