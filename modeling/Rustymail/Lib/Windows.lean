import Mathlib.Algebra.Order.Group.Nat
import Mathlib.Data.Option.Basic
import Mathlib.Tactic.Common

/-!
# Counting windows

Attempts are counted in windows of a fixed span. A window is opened by the first attempt that finds
none, or finds one that is over; until then nothing happens to it. Whatever is over may therefore be
forgotten at any time, and the attempts go on as if it had been kept.
-/

namespace Windows

structure Window where
  started : Nat
  attempts : Nat
  deriving DecidableEq

variable (span top : Nat)

/-- A window lasts `span`; a clock that runs backwards has made no time pass. -/
def Over (now : Nat) (window : Window) : Prop := span ≤ now - window.started

instance (now : Nat) (window : Window) : Decidable (Over span now window) :=
  inferInstanceAs (Decidable (_ ≤ _))

/-- The window of an attempt, its counter saturating at `top`. -/
def attempt (now : Nat) (window : Window) : Window :=
  let window := if Over span now window then ⟨now, 0⟩ else window
  { window with attempts := min (window.attempts + 1) top }

/-- What still counts. -/
def live (now : Nat) (window : Option Window) : Option Window :=
  window.filter fun window => ¬ Over span now window

/-- The window after an attempt on whatever is there. -/
def attempted (now : Nat) (window : Option Window) : Window :=
  attempt span top now (window.getD ⟨now, 0⟩)

/-- Does an attempt open a window here? -/
def Opens (now : Nat) (window : Option Window) : Prop := live span now window = none

/-- Nothing has happened to a window, unless it was over and has been forgotten. -/
def Kept (now : Nat) (before after : Option Window) : Prop :=
  after = before ∨ after = none ∧ Opens span now before

/-- The attempts that a window still has to grant: none can be granted before the next one opens
where there is no window. -/
def room (limit : Nat) (window : Option Window) : Nat :=
  window.elim 0 fun window => limit - window.attempts

variable {span top} {now next limit : Nat} {window : Window} {before after : Option Window}

@[simp]
theorem live_none : live span now none = none := rfl

theorem live_some (h : ¬ Over span now window) : live span now (some window) = some window := by
  simp [live, h]

theorem live_over (h : Over span now window) : live span now (some window) = none := by
  simp [live, h]

theorem opens_some : Opens span now (some window) ↔ Over span now window := by
  by_cases h : Over span now window
  · simp [Opens, live_over h, h]
  · simp [Opens, live_some h, h]

theorem opens_iff : Opens span now before ↔ ∀ window, before = some window → Over span now window := by
  cases before with
  | none => exact iff_of_true rfl fun _ h => by cases h
  | some window =>
      rw [opens_some]
      constructor
      · intro h window' heq
        cases heq
        exact h
      · intro h
        exact h window rfl

theorem Over.persists (h : Over span now window) (hle : now ≤ next) : Over span next window := by
  unfold Over at h ⊢
  omega

/-- What is over stays over. -/
theorem live_live (hle : now ≤ next) : live span next (live span now before) = live span next before := by
  cases before with
  | none => rfl
  | some window =>
      by_cases h : Over span now window
      · rw [live_over h, live_over (h.persists hle), live_none]
      · rw [live_some h]

/-- Forgetting what is over leaves what still counts. -/
theorem Kept.live (h : Kept span now before after) (hle : now ≤ next) :
    live span next after = Windows.live span next before := by
  obtain h | ⟨h, hopens⟩ := h
  · rw [h]
  · rw [h]
    change none = _
    rw [← live_live hle, hopens]
    rfl

theorem kept_live : Kept span now before (live span now before) := by
  cases before with
  | none => exact Or.inl rfl
  | some window =>
      by_cases h : Over span now window
      · exact Or.inr ⟨live_over h, live_over h⟩
      · exact Or.inl (live_some h)

/-- An attempt sees only what still counts. -/
theorem attempted_live : attempted span top now (live span now before) = attempted span top now before := by
  cases before with
  | none => rfl
  | some window =>
      by_cases h : Over span now window
      · rw [live_over h]
        simp [attempted, attempt, h]
      · rw [live_some h]

theorem attempted_opens (htop : 0 < top) (h : Opens span now before) :
    attempted span top now before = ⟨now, 1⟩ := by
  rw [← attempted_live, h]
  simp only [attempted, attempt, Option.getD_none, ite_self, zero_add, Window.mk.injEq, true_and]
  omega

theorem attempted_some (h : ¬ Over span now window) :
    attempted span top now (some window) = ⟨window.started, min (window.attempts + 1) top⟩ := by
  simp [attempted, attempt, h]

/-- A window that does not open here starts where it did. -/
theorem attempted_started (h : ¬ Opens span now (some window)) :
    (attempted span top now (some window)).started = window.started := by
  rw [opens_some] at h
  rw [attempted_some h]

theorem room_le : room limit before ≤ limit := by
  cases before with
  | none => exact Nat.zero_le _
  | some window => exact Nat.sub_le _ _

theorem Kept.room_le (h : Kept span now before after) : room limit after ≤ room limit before := by
  obtain h | ⟨h, -⟩ := h
  · exact (congrArg (room limit) h).le
  · rw [h]
    exact Nat.zero_le _

/-- **An attempt takes its room.** What it may be granted comes out of what the window had. -/
theorem room_attempted (hlimit : limit < top) (h : ¬ Opens span now before) :
    room limit (some (attempted span top now before))
        + (if (attempted span top now before).attempts ≤ limit then 1 else 0)
      ≤ room limit before := by
  cases before with
  | none => exact absurd rfl h
  | some window =>
      rw [opens_some] at h
      rw [attempted_some h]
      change limit - min (window.attempts + 1) top + _ ≤ limit - window.attempts
      split
      · next hgranted =>
          have hcount : min (window.attempts + 1) top ≤ limit := hgranted
          omega
      · next hgranted =>
          have hcount : ¬ min (window.attempts + 1) top ≤ limit := hgranted
          omega

end Windows
