import Rustymail.Lib.Runs
import Rustymail.Lib.Turns

/-!
# Visited exactly once

A sweep passes over one entry. The entry is ahead of the sweep until it is visited and behind it from
then on; the last action of the sweep visits it if nothing before has.
-/

namespace Runs

variable {σ α : Type} {step : σ → α → σ} {may visits : σ → α → Prop} {ahead behind : σ → Prop}
  {s : σ} {actions : List α}

/-- The run visits the entry just after these actions. -/
def VisitsAfter (step : σ → α → σ) (visits : σ → α → Prop) (s : σ) (actions before : List α) : Prop :=
  ∃ action after, actions = before ++ action :: after ∧ visits (run step s before) action

theorem visitsAfter_nil {before : List α} : ¬ VisitsAfter step visits s [] before := by
  rintro ⟨action, after, heq, -⟩
  exact List.append_ne_nil_of_right_ne_nil before (List.cons_ne_nil action after) heq.symm

theorem visitsAfter_cons {action : α} {rest before : List α} :
    VisitsAfter step visits s (action :: rest) before
      ↔ (before = [] ∧ visits s action)
        ∨ ∃ later, before = action :: later ∧ VisitsAfter step visits (step s action) rest later := by
  constructor
  · rintro ⟨visited, after, heq, hvisits⟩
    cases before with
    | nil =>
        obtain ⟨rfl, -⟩ := List.cons.inj heq
        exact Or.inl ⟨rfl, hvisits⟩
    | cons first later =>
        obtain ⟨rfl, hrest⟩ := List.cons.inj heq
        exact Or.inr ⟨later, rfl, visited, after, hrest, hvisits⟩
  · rintro (⟨rfl, hvisits⟩ | ⟨later, rfl, visited, after, rfl, hvisits⟩)
    · exact ⟨action, rest, rfl, hvisits⟩
    · exact ⟨visited, after, rfl, hvisits⟩

section Sweep

variable (hbehind : ∀ s action, behind s → may s action → ¬ visits s action ∧ behind (step s action))
include hbehind

theorem behind_not_visited (hs : behind s) (hmay : Along step may s actions) {last : α}
    (hlast : ∀ s, behind s → ¬ visits s last) (before : List α) :
    ¬ VisitsAfter step visits s (actions ++ [last]) before := by
  induction actions generalizing s before with
  | nil =>
      rw [List.nil_append, visitsAfter_cons]
      rintro (⟨-, hvisits⟩ | ⟨later, -, hvisits⟩)
      · exact hlast s hs hvisits
      · exact visitsAfter_nil hvisits
  | cons action rest ih =>
      obtain ⟨hnot, hnext⟩ := hbehind s action hs hmay.1
      rw [List.cons_append, visitsAfter_cons]
      rintro (⟨-, hvisits⟩ | ⟨later, -, hvisits⟩)
      · exact hnot hvisits
      · exact ih hnext hmay.2 later hvisits

variable {waits : σ → α → Prop} (hahead : ∀ s action, ahead s → may s action → waits s action →
  (visits s action ∧ behind (step s action)) ∨ (¬ visits s action ∧ ahead (step s action)))
include hahead

/-- **Exactly one visit.** The entry has to wait where it is until it is visited. -/
theorem visited_once (hs : ahead s) (hmay : Along step may s actions) {last : α}
    (hwaits : ∀ before action after, actions ++ [last] = before ++ action :: after →
      (∀ earlier, ¬ VisitsAfter step visits s before earlier) → waits (run step s before) action)
    (hlast : ∀ s, behind s → ¬ visits s last)
    (hend : ahead (run step s actions) → waits (run step s actions) last →
      visits (run step s actions) last) :
    ∃! before, VisitsAfter step visits s (actions ++ [last]) before := by
  induction actions generalizing s with
  | nil =>
      have hvisits := hend hs (hwaits [] last [] rfl fun _ => visitsAfter_nil)
      refine ⟨[], visitsAfter_cons.2 (Or.inl ⟨rfl, hvisits⟩), ?_⟩
      intro before hbefore
      rcases visitsAfter_cons.1 hbefore with ⟨rfl, -⟩ | ⟨later, -, hlater⟩
      · rfl
      · exact absurd hlater visitsAfter_nil
  | cons action rest ih =>
      have hfirst := hwaits [] action (rest ++ [last]) rfl fun _ => visitsAfter_nil
      rcases hahead s action hs hmay.1 hfirst with ⟨hvisits, hnext⟩ | ⟨hnot, hnext⟩
      · refine ⟨[], visitsAfter_cons.2 (Or.inl ⟨rfl, hvisits⟩), ?_⟩
        intro before hbefore
        rcases visitsAfter_cons.1 hbefore with ⟨rfl, -⟩ | ⟨later, -, hlater⟩
        · rfl
        · exact absurd hlater (behind_not_visited hbehind hnext hmay.2 hlast later)
      · have hlater : ∀ before again after, rest ++ [last] = before ++ again :: after →
            (∀ earlier, ¬ VisitsAfter step visits (step s action) before earlier) →
            waits (run step (step s action) before) again := by
          intro before again after heq hunvisited
          refine hwaits (action :: before) again after (congrArg (action :: ·) heq) ?_
          intro earlier hearlier
          rcases visitsAfter_cons.1 hearlier with ⟨-, hvisits⟩ | ⟨later, -, hlater⟩
          · exact hnot hvisits
          · exact hunvisited later hlater
        obtain ⟨before, hbefore, hunique⟩ := ih hnext hmay.2 hlater hend
        refine ⟨action :: before, visitsAfter_cons.2 (Or.inr ⟨before, rfl, hbefore⟩), ?_⟩
        intro other hother
        rcases visitsAfter_cons.1 hother with ⟨-, hvisits⟩ | ⟨later, rfl, hlater⟩
        · exact absurd hvisits hnot
        · rw [hunique later hlater]

end Sweep

end Runs
